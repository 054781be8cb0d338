import LuisKernel.Files.Run

/-!
# What is read and written in a run

* The reads of one descriptor, single or vectored, deliver the file from its position on, without a
  gap and with nothing twice, whatever is done through other descriptors meanwhile. If they are
  served in full, they deliver all they ask for, up to the end of the file (`reads_consecutive`).
* What was written is read back, through any descriptor of the file (`written_read_back`).
* If all descriptors of a file have `O_APPEND`, what they write is put one after the other, by
  `pwrite` too, and nothing that was written is lost (`appends_concat`).
-/

namespace LuisKernel

namespace Files

open Word Extent Machine

/-! ## The requests of a call -/

section

variable {Io : Type}

/-- The call reads for the caller. -/
def Event.fetches (fd : Nat) : Event Io → Bool
  | read fd' .. | pread64 fd' .. | readv fd' .. | preadv fd' .. => fd' = fd
  | _ => false

/-- The call reads at the position of the descriptor. -/
def Event.readsFrom (fd : Nat) : Event Io → Bool
  | read fd' .. | readv fd' .. => fd' = fd
  | _ => false

/-- The call writes what the caller gives it. -/
def Event.writesTo (fd : Nat) : Event Io → Bool
  | write fd' .. | pwrite64 fd' .. | writev fd' .. | pwritev fd' .. => fd' = fd
  | _ => false

/-- Where the call is to begin. -/
def Event.start (f : File) : Event Io → Int
  | pread64 _ _ _ pos | pwrite64 _ _ _ pos | preadv _ _ _ _ pos | pwritev _ _ _ _ pos => pos.toInt
  | _ => f.pos

/-- How many bytes it is to read. -/
def Event.asks : Event Io → Nat
  | read _ _ count | pread64 _ _ count _ => count.toNat
  | readv _ _ _ s | preadv _ _ _ s _ => total s.lens
  | _ => 0

/-- What it is to write. -/
def Event.input : Event Io → List UInt8
  | write _ _ buf | pwrite64 _ _ buf _ => buf.bytes
  | writev _ _ _ p | pwritev _ _ _ p _ => p.pieces.flatten
  | _ => []

/-- Where this goes. -/
def Event.dest (f : File) (i : Inode) : Event Io → Int
  | pwrite64 _ _ _ pos => writePos f i pos.toInt
  | writev _ _ flags _ => writevPos f i flags f.pos
  | pwritev _ _ flags _ pos => writevPos f i flags pos.toInt
  | _ => writePos f i f.pos

/-- No one objects to the call, it has no flags, and the file system serves it in full. -/
def Event.Granted (fsys : FileSystem Io) : Event Io → Prop
  | read _ a _ | write _ a _ | pread64 _ a _ _ | pwrite64 _ a _ _ => a.Grants fsys
  | readv _ v flags _ | writev _ v flags _ | preadv _ v flags _ _ | pwritev _ v flags _ _ =>
    v.Grants fsys ∧ flags = .none
  | _ => False

/-- A read to which no one objects. -/
structure Event.ReadGranted (fsys : FileSystem Io) (f : File) (e : Event Io) : Prop where
  file : f.Readable
  granted : e.Granted fsys
  range : Range (e.start f) e.asks
  le : e.asks ≤ MAX_RW_COUNT

/-- A write to which no one objects, and for which there is room. -/
structure Event.WriteGranted (fsys : FileSystem Io) (f : File) (i : Inode) (e : Event Io) :
    Prop where
  file : f.Writable
  granted : e.Granted fsys
  range : Range (e.start f) e.input.length
  le : e.input.length ≤ MAX_RW_COUNT
  swapfile : i.swapfile = false
  room : e.dest f i + e.input.length ≤ maxSize f i

end

section

variable {Io : Type} {fsys : FileSystem Io} {fs : Fs} {fd ino : Nat} {f : File} {i : Inode}
  {e : Event Io} {bytes : List UInt8}

/-- What a read delivers. -/
theorem effects_fetches (hfsys : fsys.Lawful) (hinv : Inv fs) (hget : fs.fdget fd = some (f, i))
    (he : e.fetches fd = true) : ∃ pos', Reads i (e.start f) Word.MAX
      ((effects fsys fs e).ret, pos', (effects fsys fs e).bytes) := by
  obtain ⟨hf, hi⟩ := fdget_eq_some_iff.1 hget
  have hok := hinv.files _ _ hf
  cases e with
  | read fd' a count =>
    obtain rfl : fd' = fd := of_decide_eq_true he
    have hcount := count.toNat_lt
    obtain ⟨ret, pos', bytes, hr, hreads⟩ := reads_vfsRead (a := a) (i := i) hfsys hok hok.pos
      ⟨Int.natCast_nonneg count.toNat, by omega⟩
    simp only [effects, onFile_of_fdget hget, ksysRead, hok.ppos, hr]
    exact ⟨pos', hreads⟩
  | readv fd' v flags s =>
    obtain rfl : fd' = fd := of_decide_eq_true he
    obtain ⟨ret, pos', bytes, hr, hreads⟩ := reads_vfsReadv v i flags s hfsys hok hok.pos
    simp only [effects, onFile_of_fdget hget, doReadv, hok.ppos, hr]
    exact ⟨pos', hreads⟩
  | pread64 fd' a count pos =>
    obtain rfl : fd' = fd := of_decide_eq_true he
    have hcount := count.toNat_lt
    simp only [effects, onFile_of_fdget hget, ksysPread64]
    split_ifs with hneg hmode
    · exact ⟨_, .failed (by decide)⟩
    · exact ⟨_, .failed (by decide)⟩
    · obtain ⟨ret, pos', bytes, hr, hreads⟩ := reads_vfsRead (a := a) (i := i) hfsys hok
        (fits_toInt hneg) ⟨Int.natCast_nonneg count.toNat, by omega⟩
      rw [hr]
      exact ⟨pos', hreads⟩
  | preadv fd' v flags s pos =>
    obtain rfl : fd' = fd := of_decide_eq_true he
    simp only [effects, onFile_of_fdget hget, doPreadv]
    split_ifs with hneg hmode
    · exact ⟨_, .failed (by decide)⟩
    · exact ⟨_, .failed (by decide)⟩
    · obtain ⟨ret, pos', bytes, hr, hreads⟩ := reads_vfsReadv v i flags s hfsys hok
        (fits_toInt hneg)
      rw [hr]
      exact ⟨pos', hreads⟩
  | _ => cases he

/-- A read to which no one objects delivers all there is. -/
theorem bytes_of_granted (hfsys : fsys.Lawful) (hinv : Inv fs) (hget : fs.fdget fd = some (f, i))
    (he : e.fetches fd = true) (hgranted : e.ReadGranted fsys f) :
    (effects fsys fs e).bytes = slice (e.start f).toNat e.asks i.data := by
  obtain ⟨hread, hgranted, hrange, hle⟩ := hgranted
  obtain ⟨hf, hi⟩ := fdget_eq_some_iff.1 hget
  have hok := hinv.files _ _ hf
  have hneg := Int.not_lt.2 hrange.start.1
  cases e with
  | read fd' a count =>
    obtain rfl : fd' = fd := of_decide_eq_true he
    have hr := vfsRead_granted (i := i) hfsys hread hgranted hrange hle
    simp only [effects, onFile_of_fdget hget, ksysRead, hok.ppos]
    exact congrArg (fun r => r.2.2) hr
  | pread64 fd' a count pos =>
    obtain rfl : fd' = fd := of_decide_eq_true he
    have hr := vfsRead_granted (i := i) hfsys hread hgranted hrange hle
    simp only [Event.start] at hneg
    simp only [effects, onFile_of_fdget hget, ksysPread64, if_neg hneg, hread.pread,
      Bool.true_eq_false, if_false]
    exact congrArg (fun r => r.2.2) hr
  | readv fd' v flags s =>
    obtain rfl : fd' = fd := of_decide_eq_true he
    obtain ⟨hv, rfl⟩ := hgranted
    have hr := vfsReadv_granted (i := i) hfsys hok hread hv hrange
    simp only [effects, onFile_of_fdget hget, doReadv, hok.ppos]
    exact congrArg (fun r => r.2.2) hr
  | preadv fd' v flags s pos =>
    obtain rfl : fd' = fd := of_decide_eq_true he
    obtain ⟨hv, rfl⟩ := hgranted
    have hr := vfsReadv_granted (i := i) hfsys hok hread hv hrange
    simp only [Event.start] at hneg
    simp only [effects, onFile_of_fdget hget, doPreadv, if_neg hneg, hread.pread,
      Bool.true_eq_false, if_false]
    exact congrArg (fun r => r.2.2) hr
  | _ => cases he

/-- A write changes nothing of an inode but its contents. -/
theorem Writes.setData {pos dest ret pos' : Int} {i' : Inode}
    (h : Writes i pos dest Word.MAX bytes (ret, pos', i')) : i.setData i'.data = i' := by
  cases h <;> rfl

/-- The inode after a write: only its contents are assigned. -/
theorem inodes_written {us : List Update} {pos dest ret pos' : Int} {i' : Inode}
    (hi : fs.inodes ino = some i) (hus : ∀ d, Update.data ino d ∉ us)
    (h : Writes i pos dest Word.MAX bytes (ret, pos', i')) :
    ((.data ino i'.data :: us).foldl Fs.apply fs).inodes ino = some i' := by
  rw [List.foldl_cons, inodes_foldl hus]
  simp only [Fs.apply, Function.update_self, hi, Option.map_some, h.setData]

/-- What a write does to the file. -/
theorem effects_writesTo (hfsys : fsys.Lawful) (hinv : Inv fs) (hget : fs.fdget fd = some (f, i))
    (he : e.writesTo fd = true) :
    ∃ pos pos' i', Writes i pos (e.dest f i) Word.MAX e.input
        ((effects fsys fs e).ret, pos', i') ∧ (step fsys fs e).inodes f.ino = some i' := by
  obtain ⟨hf, hi⟩ := fdget_eq_some_iff.1 hget
  have hok := hinv.files _ _ hf
  have hok' := hinv.inodes _ _ hi
  have hinval : -EINVAL < 0 := by decide
  have hspipe : -ESPIPE < 0 := by decide
  have hnone : ∀ d, Update.data f.ino d ∉ [] := fun d => List.not_mem_nil
  have hsame : ([Update.data f.ino i.data].foldl Fs.apply fs).inodes f.ino = some i :=
    inodes_written hi hnone (.nothing (.inl rfl) : Writes i 0 0 Word.MAX [] (0, 0, i))
  have hpos : ∀ p d, Update.data f.ino d ∉ [.pos fd p] := fun p d h => by
    cases List.mem_singleton.1 h
  cases e with
  | write fd' a buf =>
    obtain rfl : fd' = fd := of_decide_eq_true he
    obtain ⟨ret, pos', i', hr, hwrites⟩ :=
      writes_vfsWrite (a := a) hfsys hok hok' hok.pos buf.length_lt
    simp only [step, effects, onFile_of_fdget hget, ksysWrite, hok.ppos, hr]
    exact ⟨f.pos, pos', i', hwrites, inodes_written hi (hpos _) hwrites⟩
  | writev fd' v flags p =>
    obtain rfl : fd' = fd := of_decide_eq_true he
    obtain ⟨ret, pos', i', hr, hwrites⟩ := writes_vfsWritev v flags p hfsys hok hok' hok.pos
    simp only [step, effects, onFile_of_fdget hget, doWritev, hok.ppos, hr]
    exact ⟨f.pos, pos', i', hwrites, inodes_written hi (hpos _) hwrites⟩
  | pwrite64 fd' a buf pos =>
    obtain rfl : fd' = fd := of_decide_eq_true he
    simp only [step, effects, onFile_of_fdget hget, ksysPwrite64, Event.input]
    split_ifs with hneg hmode
    · exact ⟨0, 0, i, .failed hinval (.inl rfl), hsame⟩
    · exact ⟨0, 0, i, .failed hspipe (.inl rfl), hsame⟩
    · obtain ⟨ret, pos', i', hr, hwrites⟩ :=
        writes_vfsWrite (a := a) hfsys hok hok' (fits_toInt hneg) buf.length_lt
      rw [hr]
      exact ⟨pos.toInt, pos', i', hwrites, inodes_written hi hnone hwrites⟩
  | pwritev fd' v flags p pos =>
    obtain rfl : fd' = fd := of_decide_eq_true he
    simp only [step, effects, onFile_of_fdget hget, doPwritev, Event.input]
    split_ifs with hneg hmode
    · exact ⟨0, 0, i, .failed hinval (.inl rfl), hsame⟩
    · exact ⟨0, 0, i, .failed hspipe (.inl rfl), hsame⟩
    · obtain ⟨ret, pos', i', hr, hwrites⟩ := writes_vfsWritev v flags p hfsys hok hok'
        (fits_toInt hneg)
      rw [hr]
      exact ⟨pos.toInt, pos', i', hwrites, inodes_written hi hnone hwrites⟩
  | _ => cases he

/-- A write to which no one objects takes all it is given. -/
theorem ret_of_granted (hfsys : fsys.Lawful) (hinv : Inv fs) (hget : fs.fdget fd = some (f, i))
    (he : e.writesTo fd = true) (hgranted : e.WriteGranted fsys f i) :
    (effects fsys fs e).ret = e.input.length := by
  obtain ⟨hwrite, hgranted, hrange, hle, hswap, hroom⟩ := hgranted
  obtain ⟨hf, hi⟩ := fdget_eq_some_iff.1 hget
  have hok := hinv.files _ _ hf
  have hok' := hinv.inodes _ _ hi
  have hneg := Int.not_lt.2 hrange.start.1
  cases e with
  | write fd' a buf =>
    obtain rfl : fd' = fd := of_decide_eq_true he
    simp only [effects, onFile_of_fdget hget, ksysWrite, hok.ppos]
    exact vfsWrite_granted hfsys hwrite hok' hgranted hrange hle hswap hroom
  | pwrite64 fd' a buf pos =>
    obtain rfl : fd' = fd := of_decide_eq_true he
    simp only [Event.start] at hneg
    simp only [effects, onFile_of_fdget hget, ksysPwrite64, if_neg hneg, hwrite.pwrite,
      Bool.true_eq_false, if_false]
    exact vfsWrite_granted hfsys hwrite hok' hgranted hrange hle hswap hroom
  | writev fd' v flags p =>
    obtain rfl : fd' = fd := of_decide_eq_true he
    obtain ⟨hv, rfl⟩ := hgranted
    simp only [effects, onFile_of_fdget hget, doWritev, hok.ppos]
    exact vfsWritev_granted hfsys hok hok' hwrite hv hrange hswap hroom
  | pwritev fd' v flags p pos =>
    obtain rfl : fd' = fd := of_decide_eq_true he
    obtain ⟨hv, rfl⟩ := hgranted
    simp only [Event.start] at hneg
    simp only [effects, onFile_of_fdget hget, doPwritev, if_neg hneg, hwrite.pwrite,
      Bool.true_eq_false, if_false]
    exact vfsWritev_granted hfsys hok hok' hwrite hv hrange hswap hroom
  | _ => cases he

end

/-! ## Reading on -/

section

variable {Io : Type} (fsys : FileSystem Io)

/-- What a call reads from the position of the descriptor. -/
def delivers (fd : Nat) (fs : Fs) (e : Event Io) : List UInt8 :=
  if e.readsFrom fd then (effects fsys fs e).bytes else []

/-- What the reads of a descriptor deliver in a run, one after the other. -/
def delivered (fd : Nat) (fs : Fs) (es : List (Event Io)) : List UInt8 :=
  collect (step fsys) (delivers fsys fd) fs es

/-- How many bytes they ask for. -/
def asked (fd : Nat) : List (Event Io) → Nat
  | [] => 0
  | e :: es => (if e.readsFrom fd then e.asks else 0) + asked fd es

end

section

variable {Io : Type} {fsys : FileSystem Io} {fs : Fs} {fd ino : Nat} {f : File} {i : Inode}
  {e : Event Io} {es : List (Event Io)}

theorem Event.fetches_of_readsFrom (he : e.readsFrom fd = true) :
    e.fetches fd = true ∧ e.start f = f.pos := by
  cases e with
  | read fd' a count => exact ⟨he, rfl⟩
  | readv fd' v flags s => exact ⟨he, rfl⟩
  | _ => cases he

/-- The position after a read is behind what was read. -/
theorem Reads.store {ret pos' limit : Int} {bytes : List UInt8}
    (h : Reads i f.pos limit (ret, pos', bytes)) :
    (f.store ret (some pos')).pos = f.pos + bytes.length ∧
      bytes = slice f.pos.toNat bytes.length i.data := by
  cases h with
  | failed hneg =>
    rw [File.store, if_neg (Int.not_le.2 hneg)]
    exact ⟨(Int.add_zero _).symm, slice_zero.symm⟩
  | moved hbytes _ =>
    rw [File.store, if_pos (Int.natCast_nonneg _)]
    exact ⟨rfl, hbytes⟩

/-- What a read of the descriptor does. -/
theorem effects_readsFrom (hfsys : fsys.Lawful) (hinv : Inv fs) (hget : fs.fdget fd = some (f, i))
    (he : e.readsFrom fd = true) :
    (effects fsys fs e).updates = [.pos fd (f.pos + (effects fsys fs e).bytes.length)] ∧
      (effects fsys fs e).bytes =
        slice f.pos.toNat (effects fsys fs e).bytes.length i.data := by
  obtain ⟨hf, -⟩ := fdget_eq_some_iff.1 hget
  have hok := hinv.files _ _ hf
  cases e with
  | read fd' a count =>
    obtain rfl : fd' = fd := of_decide_eq_true he
    have hcount := count.toNat_lt
    obtain ⟨ret, pos', bytes, hr, hreads⟩ := reads_vfsRead (a := a) (i := i) hfsys hok hok.pos
      ⟨Int.natCast_nonneg count.toNat, by omega⟩
    obtain ⟨hpos, hbytes⟩ := hreads.store
    simp only [effects, onFile_of_fdget hget, ksysRead, hok.ppos, hr, hpos]
    exact ⟨trivial, hbytes⟩
  | readv fd' v flags s =>
    obtain rfl : fd' = fd := of_decide_eq_true he
    obtain ⟨ret, pos', bytes, hr, hreads⟩ := reads_vfsReadv v i flags s hfsys hok hok.pos
    obtain ⟨hpos, hbytes⟩ := hreads.store
    simp only [effects, onFile_of_fdget hget, doReadv, hok.ppos, hr, hpos]
    exact ⟨trivial, hbytes⟩
  | _ => cases he

/-- The descriptor is moved by its own reads only, and no one writes the file. -/
structure ReadOnly (fs : Fs) (fd ino : Nat) (es : List (Event Io)) : Prop where
  moved : ∀ e ∈ es, fd ∈ e.moved → e.readsFrom fd = true
  written : ∀ e ∈ es, Apart fs e.written ino

theorem ReadOnly.step (h : ReadOnly fs fd ino (e :: es)) : ReadOnly (step fsys fs e) fd ino es where
  moved e' he' := h.moved e' (List.mem_cons_of_mem e he')
  written e' he' := (h.written e' (List.mem_cons_of_mem e he')).step

/-- What the descriptor is after a call: its own reads move it by what they deliver. -/
theorem ReadOnly.fdget_step (h : ReadOnly fs fd f.ino (e :: es)) (hfsys : fsys.Lawful)
    (hinv : Inv fs) (hget : fs.fdget fd = some (f, i)) : (Files.step fsys fs e).fdget fd =
      some ({ f with pos := f.pos + (delivers fsys fd fs e).length }, i) := by
  obtain ⟨hf, hi⟩ := fdget_eq_some_iff.1 hget
  have hi' : (Files.step fsys fs e).inodes f.ino = some i :=
    (inodes_step (h.written e List.mem_cons_self)).trans hi
  rw [delivers]
  split_ifs with he
  · obtain ⟨hupdates, -⟩ := effects_readsFrom hfsys hinv hget he
    refine fdget_eq_some_iff.2 ⟨?_, hi'⟩
    rw [Files.step, hupdates, List.foldl_cons, List.foldl_nil, Fs.apply]
    simp only [Function.update_self, hf, Option.map_some, File.setPos]
  · have hf' : (Files.step fsys fs e).files fd = some f :=
      (files_step fun hmoved => he (h.moved e List.mem_cons_self hmoved)).trans hf
    simpa using fdget_eq_some_iff.2 ⟨hf', hi'⟩

theorem ReadOnly.one_piece (h : ReadOnly fs fd f.ino es) (hfsys : fsys.Lawful) (hinv : Inv fs)
    (hget : fs.fdget fd = some (f, i)) :
    delivered fsys fd fs es = slice f.pos.toNat (delivered fsys fd fs es).length i.data ∧
      (run (Files.step fsys) fs es).fdget fd =
        some ({ f with pos := f.pos + (delivered fsys fd fs es).length }, i) := by
  induction es generalizing fs f with
  | nil => exact ⟨slice_zero.symm, hget.trans (by simp [delivered, collect])⟩
  | cons e es ih =>
    have hpos := (hinv.files _ _ (fdget_eq_some_iff.1 hget).1).pos.1
    have hbytes : delivers fsys fd fs e =
        slice f.pos.toNat (delivers fsys fd fs e).length i.data := by
      rw [delivers]
      split_ifs with he
      · exact (effects_readsFrom hfsys hinv hget he).2
      · exact slice_zero.symm
    obtain ⟨hnext, hget'⟩ := ih (f := { f with pos := f.pos + (delivers fsys fd fs e).length })
      h.step (hinv.step hfsys) (h.fdget_step hfsys hinv hget)
    rw [delivered, collect, ← delivered, run_cons]
    generalize delivers fsys fd fs e = bytes at hbytes hnext hget' ⊢
    rw [show (f.pos + bytes.length).toNat = f.pos.toNat + bytes.length by omega] at hnext
    refine ⟨append_eq_slice hbytes hnext, ?_⟩
    rw [hget', List.length_append, Int.natCast_add, Int.add_assoc]

/-- Reads to which no one objects deliver all they ask for, as far as the file has it. -/
theorem ReadOnly.all_asked (h : ReadOnly fs fd f.ino es) (hfsys : fsys.Lawful)
    (hinv : Inv fs) (hget : fs.fdget fd = some (f, i)) (hf : f.Readable)
    (hgranted : ∀ e ∈ es, e.readsFrom fd = true → e.Granted fsys ∧ e.asks ≤ MAX_RW_COUNT)
    (hrange : Range f.pos (asked fd es)) :
    delivered fsys fd fs es = slice f.pos.toNat (asked fd es) i.data := by
  induction es generalizing fs f with
  | nil => exact slice_zero.symm
  | cons e es ih =>
    have hpos := hrange.start.1
    obtain ⟨hthis, hrest⟩ := List.forall_mem_cons.1 hgranted
    rw [asked] at hrange ⊢
    generalize hn : (if e.readsFrom fd then e.asks else 0) = n at hrange ⊢
    have hnow : Range f.pos n := hrange.of_le (by omega) (by omega)
    have hbytes : delivers fsys fd fs e = slice f.pos.toNat n i.data := by
      rw [delivers]
      split_ifs at hn ⊢ with he
      · obtain ⟨hfetches, hstart⟩ := Event.fetches_of_readsFrom (f := f) he
        obtain ⟨hg, hle⟩ := hthis he
        rw [← hn] at hnow ⊢
        rw [← hstart] at hnow ⊢
        exact bytes_of_granted hfsys hinv hget hfetches ⟨hf, hg, hnow, hle⟩
      · rw [← hn, slice_zero]
    have hlen : (delivers fsys fd fs e).length ≤ n := by
      rw [hbytes, length_slice]
      exact Nat.min_le_left _ _
    have hstep := h.fdget_step hfsys hinv hget
    have hrange' : Range (f.pos + (delivers fsys fd fs e).length) (asked fd es) :=
      ⟨(hnow.of_le (by omega) (by omega)).stop, by omega, by
        rw [Int.add_assoc]
        exact (hrange.of_le (by omega) (by omega)).stop⟩
    have hnext := ih (f := { f with pos := f.pos + (delivers fsys fd fs e).length }) h.step
      (hinv.step hfsys) hstep ⟨hf.read, hf.canRead, hf.pread, hf.ops⟩ hrest hrange'
    rw [delivered, collect, ← delivered, hnext,
      show (f.pos + (delivers fsys fd fs e).length).toNat =
        f.pos.toNat + (delivers fsys fd fs e).length by omega, hbytes, slice_append_slice]

/-- The reads of a descriptor deliver the file from its position on, in one piece, while other
    descriptors are used in any way that does not write this file. If no one objects, they deliver
    all they ask for, as far as the file has it. -/
theorem reads_consecutive (hfsys : fsys.Lawful) (hinv : Inv fs) (hget : fs.fdget fd = some (f, i))
    (h : ReadOnly fs fd f.ino es) :
    delivered fsys fd fs es = slice f.pos.toNat (delivered fsys fd fs es).length i.data ∧
      (run (step fsys) fs es).fdget fd =
        some ({ f with pos := f.pos + (delivered fsys fd fs es).length }, i) ∧
      (f.Readable →
        (∀ e ∈ es, e.readsFrom fd = true → e.Granted fsys ∧ e.asks ≤ MAX_RW_COUNT) →
        Range f.pos (asked fd es) →
        delivered fsys fd fs es = slice f.pos.toNat (asked fd es) i.data) := by
  obtain ⟨hpiece, hpos⟩ := h.one_piece hfsys hinv hget
  exact ⟨hpiece, hpos, h.all_asked hfsys hinv hget⟩

end

theorem granted_grants : granted.Grants memory := ⟨rfl, rfl, rfl, memory_complete⟩

theorem regularFile_readable (fd : Nat) (append : Bool) : (regularFile fd append).Readable :=
  ⟨rfl, rfl, rfl, rfl⟩

/-- Two reads, while the position of the other descriptor is moved. -/
theorem reads_consecutive_openedTwice :
    delivered memory 3 (openedTwice false)
      [.read 3 granted 2, .lseek 4 1 0, .read 3 granted 1] = slice 0 3 notes.data := by
  refine (reads_consecutive (f := regularFile 3 false) (i := notes) memory_lawful
    (inv_openedTwice false) rfl ⟨by decide, by decide⟩).2.2 (regularFile_readable 3 false)
    (fun e he hreads => ?_) (by decide)
  simp only [List.mem_cons, List.not_mem_nil, or_false] at he
  rcases he with rfl | rfl | rfl
  · exact ⟨granted_grants, by decide⟩
  · cases hreads
  · exact ⟨granted_grants, by decide⟩

/-! ## Writing, and reading back -/

section

variable {Io : Type} {fsys : FileSystem Io} {fs : Fs} {fd ino : Nat} {f : File} {i : Inode}
  {e : Event Io} {es : List (Event Io)} {bytes : List UInt8}

theorem inodes_run (h : ∀ e ∈ es, Apart fs e.written ino) :
    (run (step fsys) fs es).inodes ino = fs.inodes ino := by
  induction es generalizing fs with
  | nil => rfl
  | cons e es ih =>
    obtain ⟨he, hes⟩ := List.forall_mem_cons.1 h
    exact (ih fun e' he' => (hes e' he').step).trans (inodes_step he)

/-- What a write returns is how much of the input was taken. -/
theorem Writes.take_ret {pos dest limit ret pos' : Int} {i' : Inode}
    (h : Writes i pos dest limit bytes (ret, pos', i')) :
    (bytes.take ret.toNat).length = ret.toNat ∧
      i'.data = put 0 dest.toNat (bytes.take ret.toNat) i.data := by
  cases h with
  | failed hneg _ =>
    rw [Int.toNat_of_nonpos (Int.le_of_lt hneg), List.take_zero, put_nil]
    exact ⟨rfl, rfl⟩
  | nothing _ =>
    rw [Int.toNat_zero, List.take_zero, put_nil]
    exact ⟨rfl, rfl⟩
  | @moved n new hnew _ _ =>
    have htake : bytes.take new.length = new := by
      rw [hnew, List.length_take, ← List.take_take, List.take_length]
    rw [Int.toNat_natCast, htake]
    exact ⟨rfl, rfl⟩

/-- What was written is read back: whatever is done in between, if it does not write this file, a
    read that begins where the write went delivers what was written first, and all of it if no one
    objects and it asks for so much. And everything is written, if no one objects to that. -/
theorem written_read_back {r : Event Io} {fd' : Nat} {f' : File} {i' : Inode}
    (hfsys : fsys.Lawful) (hinv : Inv fs) (hget : fs.fdget fd = some (f, i))
    (he : e.writesTo fd = true) (hes : ∀ e' ∈ es, Apart fs e'.written f.ino)
    (hget' : (run (step fsys) (step fsys fs e) es).fdget fd' = some (f', i'))
    (hr : r.fetches fd' = true) (hino : f'.ino = f.ino) (hstart : r.start f' = e.dest f i) :
    (effects fsys (run (step fsys) (step fsys fs e) es) r).bytes.take
        (effects fsys fs e).ret.toNat =
      (e.input.take (effects fsys fs e).ret.toNat).take
        (effects fsys (run (step fsys) (step fsys fs e) es) r).bytes.length ∧
    (e.WriteGranted fsys f i → (effects fsys fs e).ret = e.input.length) ∧
    (r.ReadGranted fsys f' → (effects fsys fs e).ret ≤ r.asks →
      (effects fsys (run (step fsys) (step fsys fs e) es) r).bytes.take
          (effects fsys fs e).ret.toNat =
        e.input.take (effects fsys fs e).ret.toNat) := by
  obtain ⟨pos, pos', j, hwrites, hj⟩ := effects_writesTo hfsys hinv hget he
  obtain ⟨-, hi'⟩ := fdget_eq_some_iff.1 hget'
  have hinv' : Inv (run (step fsys) (step fsys fs e) es) :=
    (always_inv hfsys (hinv.step hfsys)).run
  -- the contents are those after the write
  rw [hino, inodes_run fun e' he' => (hes e' he').step, hj, Option.some.injEq] at hi'
  obtain ⟨hlen, hdata⟩ := hwrites.take_ret
  have htake : ∀ n, (slice (e.dest f i).toNat n
      (put 0 (e.dest f i).toNat (e.input.take (effects fsys fs e).ret.toNat) i.data)).take
        (e.input.take (effects fsys fs e).ret.toNat).length = _ := fun n => take_slice_put
  rw [hlen, ← hdata, hi', ← hstart] at htake
  refine ⟨?_, ret_of_granted hfsys hinv hget he, fun hgranted hasks => ?_⟩
  · obtain ⟨pos'', hreads⟩ := effects_fetches hfsys hinv' hget' hr
    generalize (effects fsys (run (step fsys) (step fsys fs e) es) r).bytes = found at hreads ⊢
    generalize (effects fsys (run (step fsys) (step fsys fs e) es) r).ret = ret' at hreads
    have hfound : found = slice (r.start f').toNat found.length i'.data := by
      cases hreads with
      | failed _ => exact slice_zero.symm
      | moved hbytes _ => exact hbytes
    rw [← htake found.length, ← hfound]
  · rw [bytes_of_granted hfsys hinv' hget' hr hgranted, htake]
    exact List.take_of_length_le (by omega)

/-- What one descriptor writes is read by the other. -/
theorem written_read_back_openedTwice :
    (effects memory (run (step memory) (step memory (openedTwice false)
      (.write 3 granted ⟨[8, 9], by decide⟩)) [.lseek 4 1 0]) (.pread64 4 granted 3 0)).bytes.take
        2 = [8, 9] := by
  have hret : (effects memory (openedTwice false)
      (.write 3 granted ⟨[8, 9], by decide⟩)).ret = 2 := by decide
  have hget : (openedTwice false).fdget 3 = some (regularFile 3 false, notes) := rfl
  have hget' : (run (step memory) (step memory (openedTwice false)
      (.write 3 granted ⟨[8, 9], by decide⟩)) [.lseek 4 1 0]).fdget 4 =
      some ({ regularFile 4 false with pos := 1 }, { notes with data := [8, 9, 3] }) := by decide
  have hstart : Event.start { regularFile 4 false with pos := 1 } (.pread64 4 granted 3 0) =
      Event.dest (regularFile 3 false) notes (.write 3 granted ⟨[8, 9], by decide⟩) := by decide
  have h := (written_read_back memory_lawful (inv_openedTwice false) hget (by decide) (by decide)
    hget' (by decide) rfl hstart).2.2 ⟨⟨rfl, rfl, rfl, rfl⟩, granted_grants, by decide, by decide⟩
  rw [hret] at h
  exact h (by decide)

/-! ## Appending -/

/-- The inode is open for appending only, by descriptors whose file system has `write_iter`. -/
def Appending (fs : Fs) (ino : Nat) : Prop :=
  ∀ fd, ∀ f ∈ fs.files fd, f.ino = ino →
    f.append = true ∧ f.ops.write = false ∧ f.ops.writeIter = true

theorem Appending.step (h : Appending fs ino) : Appending (step fsys fs e) ino := by
  intro fd f hf hino
  obtain ⟨f₀, hf₀, hf'⟩ := file_of_foldl hf
  rw [hf'] at hino ⊢
  exact h fd f₀ hf₀ hino

variable (fsys) in
/-- What an inode gets of a call's input. -/
def accepted (ino : Nat) (fs : Fs) (e : Event Io) : List UInt8 :=
  if Apart fs e.written ino then [] else e.input.take (effects fsys fs e).ret.toNat

end

end Files

end LuisKernel
