import LuisKernel.Files.Memory

/-!
# Vectored reads and writes

`readv` and `writev`, which read into several segments of memory, and write several pieces. A file
that has `read_iter` or `write_iter` gets the whole request. For the others there is the loop of
`do_loop_readv_writev`, with one call for every segment; it ends at the first call that fails or
moves less than the segment has, and an error is only told if nothing was moved before it.

* Whatever the calls of the loop return, what was moved is in one piece (`reads_loopReadv`,
  `writes_loopWritev`), so that vectored calls have the outcomes of the plain ones.
* If the file system serves its requests in full, a vectored call does what the plain call does
  with one segment of the same size (`vectored_eq_plain`).
-/

namespace LuisKernel

namespace Files

open Word Extent

def EOPNOTSUPP : Int := 95

/-- The flags of `preadv2` and `pwritev2`. -/
structure RwFlags where
  hipri : Bool
  nowait : Bool
  append : Bool
  others : Bool
  deriving DecidableEq, Repr

def RwFlags.none : RwFlags := ⟨false, false, false, false⟩

structure VectorAnswers (Io : Type) where
  base : Answers Io
  /-- The error number of `import_iovec`, or `0`. -/
  importIovec : Nat
  /-- The error number of `kiocb_set_rw_flags`, or `0`. -/
  kiocbSetRwFlags : Nat
  /-- What the answers to the calls of the loop depend on. -/
  ios : Nat → Io

/-- The bytes of all segments. -/
def total (lens : List Nat) : Nat := lens.foldr (· + ·) 0

theorem total_cons (len : Nat) (lens : List Nat) : total (len :: lens) = len + total lens := rfl

/-- `import_iovec` gives the segments, of at most `MAX_RW_COUNT` bytes in all. -/
structure Segments where
  lens : List Nat
  total_le : total lens ≤ 0x7ffff000

/-- The same for a write. -/
structure Pieces where
  pieces : List (List UInt8)
  total_le : pieces.flatten.length ≤ 0x7ffff000

/-- `kiocb_set_rw_flags`, which has nothing to do without flags. -/
def kiocbSetRwFlags (errno : Nat) (flags : RwFlags) (k : Kiocb) : Int × Kiocb :=
  if flags = .none then (0, k)
  else if errno ≠ 0 then (-errno, k)
  else (0, { k with nowait := k.nowait || flags.nowait, append := k.append || flags.append })

section

variable {Io : Type} (fsys : FileSystem Io) (v : VectorAnswers Io) (f : File) (i : Inode)
  (ppos : Option Int) (flags : RwFlags)

/-- `do_iter_readv_writev` with `READ`. -/
def doIterReadv (count : Int) : Int × Option Int × List UInt8 :=
  match kiocbSetRwFlags v.kiocbSetRwFlags flags (.init f ppos) with
  | (ret, k) =>
    if ret ≠ 0 then (ret, ppos, [])
    else
      match fsys.readIter v.base.io f i k count with
      | (ret, pos, bytes) => (ret, ppos.map fun _ => pos, bytes)

/-- `do_iter_readv_writev` with `WRITE`. Other than `new_sync_write`, it stores the position
    in any case. -/
def doIterWritev (bytes : List UInt8) : Int × Option Int × Inode :=
  match kiocbSetRwFlags v.kiocbSetRwFlags flags (.init f ppos) with
  | (ret, k) =>
    if ret ≠ 0 then (ret, ppos, i)
    else
      match fsys.writeIter v.base.io v.base.fsize f i k bytes with
      | (ret, pos, i) => (ret, ppos.map fun _ => pos, i)

/-- The loop of `do_loop_readv_writev` with `READ`; `ret` and `acc` are what was read so far. -/
def loopReadv : (Nat → Io) → List Nat → Int → Option Int → List UInt8 →
    Int × Option Int × List UInt8
  | _, [], ret, ppos, acc => (ret, ppos, acc)
  | ios, len :: lens, ret, ppos, acc =>
    match fsys.read (ios 0) f i len ppos with
    | (nr, ppos, bytes) =>
      if nr < 0 then (if ret = 0 then nr else ret, ppos, acc)
      else if nr ≠ len then (ret + nr, ppos, acc ++ bytes)
      else loopReadv (fun n => ios (n + 1)) lens (ret + nr) ppos (acc ++ bytes)

/-- The same with `WRITE`. -/
def loopWritev : (Nat → Io) → List (List UInt8) → Int → Option Int → Inode →
    Int × Option Int × Inode
  | _, [], ret, ppos, i => (ret, ppos, i)
  | ios, piece :: pieces, ret, ppos, i =>
    match fsys.write (ios 0) f i piece ppos with
    | (nr, ppos, i) =>
      if nr < 0 then (if ret = 0 then nr else ret, ppos, i)
      else if nr ≠ piece.length then (ret + nr, ppos, i)
      else loopWritev (fun n => ios (n + 1)) pieces (ret + nr) ppos i

end

/-- `iov_iter_advance` goes over empty segments, so that only the first may be one. -/
def advanced {α : Type} (nonempty : α → Bool) : List α → List α
  | [] => []
  | a :: l => a :: l.filter nonempty

section

variable {Io : Type} (fsys : FileSystem Io) (v : VectorAnswers Io) (f : File) (i : Inode)
  (flags : RwFlags)

def doLoopReadv (s : Segments) (ppos : Option Int) : Int × Option Int × List UInt8 :=
  if flags.nowait || flags.append || flags.others then (-EOPNOTSUPP, ppos, [])
  else loopReadv fsys f i v.ios (advanced (0 < ·) s.lens) 0 ppos []

def doLoopWritev (p : Pieces) (ppos : Option Int) : Int × Option Int × Inode :=
  if flags.nowait || flags.append || flags.others then (-EOPNOTSUPP, ppos, i)
  else loopWritev fsys f v.ios (advanced (! List.isEmpty ·) p.pieces) 0 ppos i

def vfsReadv (s : Segments) (ppos : Option Int) : Int × Option Int × List UInt8 :=
  if f.mode.read = false then (-EBADF, ppos, [])
  else if f.mode.canRead = false then (-EINVAL, ppos, [])
  else if v.importIovec ≠ 0 then (-v.importIovec, ppos, [])
  else if total s.lens = 0 then (0, ppos, [])
  else if rwVerifyArea v.base.hooks f ppos (total s.lens) < 0 then
    (rwVerifyArea v.base.hooks f ppos (total s.lens), ppos, [])
  else if f.ops.readIter then doIterReadv fsys v f i ppos flags (total s.lens)
  else doLoopReadv fsys v f i flags s ppos

def vfsWritev (p : Pieces) (ppos : Option Int) : Int × Option Int × Inode :=
  if f.mode.write = false then (-EBADF, ppos, i)
  else if f.mode.canWrite = false then (-EINVAL, ppos, i)
  else if v.importIovec ≠ 0 then (-v.importIovec, ppos, i)
  else if p.pieces.flatten.length = 0 then (0, ppos, i)
  else if rwVerifyArea v.base.hooks f ppos p.pieces.flatten.length < 0 then
    (rwVerifyArea v.base.hooks f ppos p.pieces.flatten.length, ppos, i)
  else if f.ops.writeIter then doIterWritev fsys v f i ppos flags p.pieces.flatten
  else doLoopWritev fsys v f i flags p ppos

/-- `do_readv`, after the file was found. -/
def doReadv (s : Segments) : Int × List UInt8 × File :=
  match vfsReadv fsys v f i flags s f.ppos with
  | (ret, ppos, bytes) => (ret, bytes, f.store ret ppos)

def doWritev (p : Pieces) : Int × File × Inode :=
  match vfsWritev fsys v f i flags p f.ppos with
  | (ret, ppos, i) => (ret, f.store ret ppos, i)

def doPreadv (s : Segments) (pos : Int64) : Int × List UInt8 :=
  if pos.toInt < 0 then (-EINVAL, [])
  else if f.mode.pread = false then (-ESPIPE, [])
  else
    match vfsReadv fsys v f i flags s (some pos.toInt) with
    | (ret, _, bytes) => (ret, bytes)

def doPwritev (p : Pieces) (pos : Int64) : Int × Inode :=
  if pos.toInt < 0 then (-EINVAL, i)
  else if f.mode.pwrite = false then (-ESPIPE, i)
  else
    match vfsWritev fsys v f i flags p (some pos.toInt) with
    | (ret, _, i) => (ret, i)

end

/-! ## What was moved is in one piece -/

section

variable {Io : Type} {fsys : FileSystem Io} {f : File} {i : Inode} {pos limit : Int}

/-- What was read so far is what there is from `pos` on. -/
theorem reads_acc {acc : List UInt8} (hacc : acc = slice pos.toNat acc.length i.data)
    (hlimit : pos + acc.length ≤ limit) :
    Leaves ((acc.length : Int), some (pos + acc.length), acc) (Reads i pos limit) :=
  ⟨_, _, _, rfl, .moved hacc hlimit⟩

theorem reads_loopReadv {ios : Nat → Io} {lens : List Nat} {acc : List UInt8}
    (hfsys : fsys.Lawful) (hacc : acc = slice pos.toNat acc.length i.data)
    (hrange : Range pos (acc.length + total lens)) :
    Leaves (loopReadv fsys f i ios lens acc.length (some (pos + acc.length)) acc)
      (Reads i pos Word.MAX) := by
  have hpos := hrange.start.1
  induction lens generalizing ios acc with
  | nil => exact reads_acc hacc (hrange.of_le (by omega) (by omega)).stop.2
  | cons len lens ih =>
    rw [total_cons] at hrange
    have hdone : Range pos acc.length := hrange.of_le (by omega) (by omega)
    have hnow : Range pos (acc.length + len) := hrange.of_le (by omega) (by omega)
    obtain ⟨nr, pos', bytes, hr, hread⟩ :
        Leaves (fsys.read (ios 0) f i len (some (pos + acc.length)))
          (Reads i (pos + acc.length) (pos + acc.length + len)) :=
      hfsys.read _ _ _ ⟨hdone.stop, Int.natCast_nonneg _, by rw [Int.add_assoc]; exact hnow.stop⟩
    rw [loopReadv, hr]
    cases hread with
    | failed hneg =>
      simp only [if_pos hneg]
      -- the error is told only if nothing was read before
      split_ifs with hzero
      · have hnil : acc = [] := List.eq_nil_of_length_eq_zero (by omega)
        rw [hnil]
        exact ⟨_, _, _, rfl, by simpa using Reads.failed hneg⟩
      · exact reads_acc hacc hdone.stop.2
    | moved hbytes hlimit =>
      rw [show (pos + acc.length).toNat = pos.toNat + acc.length by omega] at hbytes
      have hnext : acc ++ bytes = slice pos.toNat (acc ++ bytes).length i.data :=
        append_eq_slice hacc hbytes
      have hlen : ((acc ++ bytes).length : Int) = acc.length + bytes.length := by
        rw [List.length_append, Int.natCast_add]
      simp only [if_neg (Int.not_lt.2 (Int.natCast_nonneg bytes.length)), Int.add_assoc, ← hlen]
      split_ifs with hshort
      · refine reads_acc hnext (Int.le_trans ?_ hnow.stop.2)
        omega
      · refine ih hnext (hrange.of_le ?_ ?_) <;> omega

theorem reads_loopReadv_start {ios : Nat → Io} {lens : List Nat} (hfsys : fsys.Lawful)
    (hrange : Range pos (total lens)) :
    Leaves (loopReadv fsys f i ios lens 0 (some pos) []) (Reads i pos Word.MAX) := by
  have h : Leaves (loopReadv fsys f i ios lens ([] : List UInt8).length
      (some (pos + ([] : List UInt8).length)) []) (Reads i pos Word.MAX) :=
    reads_loopReadv hfsys slice_zero.symm (by simpa using hrange)
  simpa using h

/-- A part of the bytes was written. -/
theorem writes_done {bytes done : List UInt8} (hdone : done <+: bytes)
    (hlimit : pos + done.length ≤ limit) :
    Leaves ((done.length : Int), some (pos + done.length),
      { i with data := put 0 pos.toNat done i.data }) (Writes i pos pos limit bytes) := by
  refine ⟨_, _, _, rfl, ?_⟩
  by_cases hnil : done = []
  · rw [hnil, put_nil]
    exact .nothing (.inl (Int.add_zero pos))
  · exact .moved (List.prefix_iff_eq_take.1 hdone) hnil hlimit

theorem writes_loopWritev {ios : Nat → Io} {pieces : List (List UInt8)} {bytes done : List UInt8}
    (hfsys : fsys.Lawful) (hbytes : done ++ pieces.flatten = bytes)
    (hrange : Range pos bytes.length) :
    Leaves (loopWritev fsys f ios pieces done.length (some (pos + done.length))
      { i with data := put 0 pos.toNat done i.data }) (Writes i pos pos Word.MAX bytes) := by
  have hpos := hrange.start.1
  induction pieces generalizing ios done with
  | nil =>
    rw [List.flatten_nil, List.append_nil] at hbytes
    rw [hbytes]
    exact writes_done List.prefix_rfl hrange.stop.2
  | cons piece pieces ih =>
    rw [List.flatten_cons, ← List.append_assoc] at hbytes
    have hlen : (bytes.length : Int) = done.length + piece.length + pieces.flatten.length := by
      rw [← hbytes, List.length_append, List.length_append]
      omega
    have hfits : Range pos done.length := hrange.of_le (by omega) (by omega)
    have hnow : Range pos (done.length + piece.length) := hrange.of_le (by omega) (by omega)
    have hpiece : done ++ piece <+: bytes := ⟨_, hbytes⟩
    have hdone : done <+: bytes := (List.prefix_append done piece).trans hpiece
    obtain ⟨nr, pos', i', hr, hwrite⟩ :
        Leaves (fsys.write (ios 0) f { i with data := put 0 pos.toNat done i.data } piece
          (some (pos + done.length))) (Writes { i with data := put 0 pos.toNat done i.data }
          (pos + done.length) (pos + done.length) (pos + done.length + piece.length) piece) :=
      hfsys.write _ _ _ ⟨hfits.stop, Int.natCast_nonneg _, by rw [Int.add_assoc]; exact hnow.stop⟩
    rw [loopWritev, hr]
    cases hwrite with
    | failed hneg hsame =>
      rw [or_self] at hsame
      simp only [if_pos hneg, hsame]
      split_ifs with hzero
      · have hnil : done = [] := List.eq_nil_of_length_eq_zero (by omega)
        rw [hnil, put_nil]
        exact ⟨_, _, _, rfl, .failed hneg (.inl (Int.add_zero pos))⟩
      · exact writes_done hdone hfits.stop.2
    | nothing hsame =>
      rw [or_self] at hsame
      simp only [Int.lt_irrefl, if_false, hsame, Int.add_zero]
      split_ifs with hshort
      · exact writes_done hdone hfits.stop.2
      · have hnil : piece = [] := List.eq_nil_of_length_eq_zero (by omega)
        rw [hnil, List.append_nil] at hbytes
        exact ih hbytes
    | @moved n new hnew hnil hlimit =>
      have hlen' : ((done ++ new).length : Int) = done.length + new.length := by
        rw [List.length_append, Int.natCast_add]
      rw [Int.add_assoc, ← hlen'] at hlimit
      simp only [if_neg (Int.not_lt.2 (Int.natCast_nonneg new.length)), Int.add_assoc, ← hlen',
        show (pos + done.length).toNat = pos.toNat + done.length by omega, put_put]
      split_ifs with hshort
      · refine writes_done (List.IsPrefix.trans ?_ hpiece) (Int.le_trans hlimit ?_)
        · rw [hnew]
          exact List.prefix_append_right_inj _ |>.2 (List.take_prefix n piece)
        · rw [Int.add_assoc]
          exact hnow.stop.2
      · have hall : new = piece := by
          rw [hnew, List.length_take] at hshort
          exact hnew.trans (List.take_of_length_le (by omega))
        rw [hall]
        exact ih hbytes

theorem writes_loopWritev_start {ios : Nat → Io} {pieces : List (List UInt8)}
    (hfsys : fsys.Lawful) (hrange : Range pos pieces.flatten.length) :
    Leaves (loopWritev fsys f ios pieces 0 (some pos) i)
      (Writes i pos pos Word.MAX pieces.flatten) := by
  have h : Leaves (loopWritev fsys f ios pieces ([] : List UInt8).length
      (some (pos + ([] : List UInt8).length)) { i with data := put 0 pos.toNat [] i.data })
      (Writes i pos pos Word.MAX pieces.flatten) :=
    writes_loopWritev hfsys (List.nil_append _) hrange
  simpa [put_nil] using h

end

section

variable {Io : Type} {fsys : FileSystem Io} {v : VectorAnswers Io} {f : File} {i : Inode}
  {pos : Int} {flags : RwFlags}

/-- Empty segments do not count. -/
theorem total_advanced (lens : List Nat) : total (advanced (0 < ·) lens) = total lens := by
  have hfilter : ∀ lens : List Nat, total (lens.filter (0 < ·)) = total lens := by
    intro lens
    induction lens with
    | nil => rfl
    | cons len lens ih =>
      rw [total_cons, ← ih, List.filter_cons]
      split_ifs with hlen
      · rfl
      · rw [decide_eq_true_iff] at hlen
        omega
  cases lens with
  | nil => rfl
  | cons len lens =>
    rw [advanced, total_cons, hfilter, total_cons]

theorem flatten_advanced (pieces : List (List UInt8)) :
    (advanced (! List.isEmpty ·) pieces).flatten = pieces.flatten := by
  cases pieces with
  | nil => rfl
  | cons piece pieces =>
    rw [advanced, List.flatten_cons, List.flatten_cons]
    exact congrArg (piece ++ ·) List.flatten_filter_not_isEmpty

theorem kiocbSetRwFlags_cases (errno : Nat) (flags : RwFlags) (k : Kiocb) :
    (∃ ret < 0, kiocbSetRwFlags errno flags k = (ret, k)) ∨
      ∃ k', kiocbSetRwFlags errno flags k = (0, k') ∧ k'.pos = k.pos ∧
        k'.append = (k.append || flags.append) := by
  rw [kiocbSetRwFlags]
  split_ifs with hnone herrno
  · refine .inr ⟨k, rfl, rfl, ?_⟩
    rw [hnone, RwFlags.none, Bool.or_false]
  · exact .inl ⟨_, by omega, rfl⟩
  · exact .inr ⟨_, rfl, rfl, rfl⟩

theorem reads_doIterReadv {count : Int} (hfsys : fsys.Lawful) (hrange : Range pos count) :
    Leaves (doIterReadv fsys v f i (some pos) flags count) (Reads i pos Word.MAX) := by
  rw [doIterReadv]
  rcases kiocbSetRwFlags_cases v.kiocbSetRwFlags flags (.init f (some pos)) with
    ⟨ret, hneg, hret⟩ | ⟨k, hok, hk, -⟩
  · simp only [hret, if_pos (Int.ne_of_lt hneg)]
    exact ⟨_, _, _, rfl, .failed hneg⟩
  · have hkpos : k.pos = pos := hk
    have hreads := hfsys.readIter v.base.io f i (hkpos.symm ▸ hrange)
    rw [hkpos] at hreads
    rw [hok]
    exact ⟨_, _, _, rfl, hreads.mono hrange.stop.2⟩

/-- A vectored call is refused by a negative number only, which is no difference. -/
theorem rwVerifyArea_neg_iff {h : Hooks} {ppos : Option Int} {count : Int} :
    rwVerifyArea h f ppos count < 0 ↔ rwVerifyArea h f ppos count ≠ 0 :=
  ⟨Int.ne_of_lt, lt_of_le_of_ne rwVerifyArea_nonpos⟩

variable (v i flags) in
theorem reads_vfsReadv (s : Segments) (hfsys : fsys.Lawful) (hf : f.Ok) (hpos : Fits63 pos) :
    Leaves (vfsReadv fsys v f i flags s (some pos)) (Reads i pos Word.MAX) := by
  have hle := s.total_le
  rw [vfsReadv]
  split_ifs with h1 h2 h3 h4 h5 h6
  iterate 2 exact ⟨_, _, _, rfl, .failed (by decide)⟩
  · exact ⟨_, _, _, rfl, .failed (by omega)⟩
  · exact ⟨_, _, _, rfl, .nothing hpos.2⟩
  · exact ⟨_, _, _, rfl, .failed h5⟩
  all_goals
    rw [rwVerifyArea_neg_iff, not_ne_iff] at h5
    have hrange := range_of_rwVerifyArea hf.signedOffset hpos.signed
      ⟨Int.natCast_nonneg _, by omega⟩ h5
  · exact reads_doIterReadv hfsys hrange
  · rw [doLoopReadv]
    split_ifs
    · exact ⟨_, _, _, rfl, .failed (by decide)⟩
    · exact reads_loopReadv_start hfsys (by rwa [total_advanced])

/-- Where a vectored write goes. -/
def writevPos (f : File) (i : Inode) (flags : RwFlags) (pos : Int) : Int :=
  if f.ops.writeIter ∧ (f.append || flags.append) then i.size else pos

theorem fits_writevPos (hi : i.Ok) (hpos : Fits63 pos) : Fits63 (writevPos f i flags pos) := by
  rw [writevPos]
  split_ifs
  · exact hi.size
  · exact hpos

theorem writes_doIterWritev {bytes : List UInt8} (hfsys : fsys.Lawful)
    (hops : f.ops.writeIter = true) (hi : i.Ok) (hpos : Fits63 pos) :
    Leaves (doIterWritev fsys v f i (some pos) flags bytes)
      (Writes i pos (writevPos f i flags pos) Word.MAX bytes) := by
  rw [doIterWritev]
  rcases kiocbSetRwFlags_cases v.kiocbSetRwFlags flags (.init f (some pos)) with
    ⟨ret, hneg, hret⟩ | ⟨k, hok, hk, happend⟩
  · simp only [hret, if_pos (Int.ne_of_lt hneg)]
    exact ⟨_, _, _, rfl, .failed hneg (.inl rfl)⟩
  · rw [hok]
    have hdest : (k.toEnd i).pos = writevPos f i flags pos := by
      rw [Kiocb.pos_toEnd, writevPos, hk, happend]
      exact if_congr (by simp [hops, Kiocb.init]) rfl rfl
    have hkpos : k.pos = pos := hk
    have hwrites : Writes i k.pos (k.toEnd i).pos Word.MAX bytes
        (fsys.writeIter v.base.io v.base.fsize f i k bytes) :=
      writes_writeIter hfsys hi (hkpos.symm ▸ hpos)
    rw [hdest, hkpos] at hwrites
    exact ⟨_, _, _, rfl, hwrites⟩

variable (v flags) in
theorem writes_vfsWritev (p : Pieces) (hfsys : fsys.Lawful) (hf : f.Ok) (hi : i.Ok)
    (hpos : Fits63 pos) : Leaves (vfsWritev fsys v f i flags p (some pos))
      (Writes i pos (writevPos f i flags pos) Word.MAX p.pieces.flatten) := by
  have hle := p.total_le
  rw [vfsWritev]
  split_ifs with h1 h2 h3 h4 h5 h6
  iterate 2 exact ⟨_, _, _, rfl, .failed (by decide) (.inl rfl)⟩
  · exact ⟨_, _, _, rfl, .failed (by omega) (.inl rfl)⟩
  · exact ⟨_, _, _, rfl, .nothing (.inl rfl)⟩
  · exact ⟨_, _, _, rfl, .failed h5 (.inl rfl)⟩
  · exact writes_doIterWritev hfsys h6 hi hpos
  · rw [rwVerifyArea_neg_iff, not_ne_iff] at h5
    have hrange := range_of_rwVerifyArea hf.signedOffset hpos.signed
      ⟨Int.natCast_nonneg _, by omega⟩ h5
    have hdest : writevPos f i flags pos = pos := if_neg fun h => h6 h.1
    rw [doLoopWritev, hdest]
    split_ifs
    · exact ⟨_, _, _, rfl, .failed (by decide) (.inl rfl)⟩
    · rw [← flatten_advanced] at hrange ⊢
      exact writes_loopWritev_start hfsys hrange

end

/-! ## Vectored calls as plain ones -/

/-- The file system serves all requests of a call in full, and the memory of the caller can be
    used. -/
structure VectorAnswers.Complete {Io : Type} (fsys : FileSystem Io) (v : VectorAnswers Io) :
    Prop where
  io : fsys.Complete v.base.io
  ios : ∀ n, fsys.Complete (v.ios n)
  accessOk : v.base.accessOk = true
  importIovec : v.importIovec = 0

section

variable {Io : Type} {fsys : FileSystem Io} {f : File} {i : Inode} {pos : Int}

/-- The loop reads what one call would read. -/
theorem loopReadv_eq (ios : Nat → Io) (lens : List Nat) (acc : List UInt8) (hfsys : fsys.Lawful)
    (hios : ∀ n, fsys.Complete (ios n)) (hrange : Range pos (acc.length + total lens)) :
    loopReadv fsys f i ios lens acc.length (some (pos + acc.length)) acc =
      (((acc ++ slice (pos.toNat + acc.length) (total lens) i.data).length : Int),
        some (pos + (acc ++ slice (pos.toNat + acc.length) (total lens) i.data).length),
        acc ++ slice (pos.toNat + acc.length) (total lens) i.data) := by
  have hpos := hrange.start.1
  induction lens generalizing ios acc with
  | nil =>
    rw [show total [] = 0 from rfl, slice_zero, List.append_nil]
    rfl
  | cons len lens ih =>
    rw [total_cons] at hrange ⊢
    have hdone : Range pos acc.length := hrange.of_le (by omega) (by omega)
    have hnow : Range pos (acc.length + len) := hrange.of_le (by omega) (by omega)
    have htoNat : (pos + acc.length).toNat = pos.toNat + acc.length := by omega
    rw [loopReadv, read_complete hfsys (hios 0)
      ⟨hdone.stop, Int.natCast_nonneg _, by rw [Int.add_assoc]; exact hnow.stop⟩, htoNat]
    simp only [Int.toNat_natCast, if_neg (Int.not_lt.2 (Int.natCast_nonneg _))]
    split_ifs with hshort
    · rw [slice_of_short (fun h => hshort (congrArg _ h)), List.length_append, Int.natCast_add,
        Int.add_assoc]
    · have hlen : (slice (pos.toNat + acc.length) len i.data).length = len :=
        Int.natCast_inj.1 (not_ne_iff.1 hshort)
      generalize hbytes : slice (pos.toNat + acc.length) len i.data = bytes at hlen
      have hcast : ((acc ++ bytes).length : Int) = acc.length + bytes.length := by
        rw [List.length_append, Int.natCast_add]
      have hall : acc ++ bytes ++ slice (pos.toNat + (acc ++ bytes).length) (total lens) i.data =
          acc ++ slice (pos.toNat + acc.length) (len + total lens) i.data := by
        rw [slice_add, hbytes, List.append_assoc, List.length_append, hlen, Nat.add_assoc]
      have hrest := ih (fun n => ios (n + 1)) (acc ++ bytes) (fun n => hios (n + 1))
        (hrange.of_le (by omega) (by omega))
      rw [hall, hcast, ← Int.add_assoc] at hrest
      exact hrest

/-- The loop writes what one call would write. -/
theorem loopWritev_eq (ios : Nat → Io) (pieces : List (List UInt8)) (done : List UInt8)
    (hfsys : fsys.Lawful) (hios : ∀ n, fsys.Complete (ios n))
    (hrange : Range pos (done ++ pieces.flatten).length) :
    loopWritev fsys f ios pieces done.length (some (pos + done.length))
        { i with data := put 0 pos.toNat done i.data } =
      (((done ++ pieces.flatten).length : Int), some (pos + (done ++ pieces.flatten).length),
        { i with data := put 0 pos.toNat (done ++ pieces.flatten) i.data }) := by
  have hpos := hrange.start.1
  induction pieces generalizing ios done with
  | nil =>
    rw [List.flatten_nil, List.append_nil]
    rfl
  | cons piece pieces ih =>
    rw [List.flatten_cons, ← List.append_assoc] at hrange ⊢
    have hcast : ((done ++ piece).length : Int) = done.length + piece.length := by
      rw [List.length_append, Int.natCast_add]
    have hrest := ih (fun n => ios (n + 1)) (done ++ piece) (fun n => hios (n + 1)) hrange
    rw [List.length_append, Int.natCast_add] at hrange
    have hdone : Range pos done.length := hrange.of_le (by omega) (by omega)
    have hnow : Range pos (done.length + piece.length) := hrange.of_le (by omega) (by omega)
    have htoNat : (pos + done.length).toNat = pos.toNat + done.length := by omega
    rw [loopWritev, write_complete hfsys (hios 0)
      ⟨hdone.stop, Int.natCast_nonneg _, by rw [Int.add_assoc]; exact hnow.stop⟩, htoNat]
    simp only [if_neg (Int.not_lt.2 (Int.natCast_nonneg _)), ne_eq, not_true_eq_false, if_false,
      put_put]
    rw [hcast, ← Int.add_assoc] at hrest
    exact hrest

end

section

variable {Io : Type} {fsys : FileSystem Io} {v : VectorAnswers Io} {f : File} {i : Inode}
  {pos : Int} {bytes : List UInt8}

/-- If it is served in full, a write that is not refused writes something. -/
theorem writeIter_ne_zero {io : Io} {fsize : SizeT} (hfsys : fsys.Lawful)
    (hio : fsys.Complete io) (hi : i.Ok) (hpos : Fits63 pos) (hbytes : bytes ≠ []) :
    (fsys.writeIter io fsize f i (.init f (some pos)) bytes).1 ≠ 0 := by
  have hk : Fits63 (Kiocb.init f (some pos)).pos := hpos
  rcases genericWriteChecks_cases (f := f) fsize hi hk hbytes with hneg | hok
  · obtain ⟨ret, hneg, k', hk', r, hchecks⟩ := hneg
    rw [hfsys.writeIter_checks hchecks (Int.le_of_lt hneg)]
    exact Int.ne_of_lt hneg
  · obtain ⟨n, hnil, hchecks, hfits⟩ := hok
    have hlen : 0 < ((bytes.take n).length : Int) := Int.natCast_pos.2 (List.length_pos_iff.2 hnil)
    rw [hio.writeIter hchecks hlen ⟨Kiocb.fits_toEnd hi hk, Int.le_of_lt hlen, hfits⟩]
    exact Int.ne_of_gt hlen

/-- A stored position of a call that did not return `0` does not depend on what failed calls
    leave. -/
theorem store_eq {ret : Int} {pos' : Int} (hret : ret ≠ 0) :
    f.store ret (if 0 < ret then some pos' else some pos) = f.store ret (some pos') := by
  rw [File.store, File.store]
  split_ifs with hnonneg hpos
  · rfl
  · omega
  · rfl

/-- The memory of a vectored write as one buffer. -/
def Pieces.buffer (p : Pieces) : Buffer :=
  ⟨p.pieces.flatten, Nat.lt_of_le_of_lt p.total_le (by decide)⟩

theorem doLoopReadv_eq {s : Segments} (hfsys : fsys.Lawful) (hv : v.Complete fsys)
    (hrange : Range pos (total s.lens)) : doLoopReadv fsys v f i .none s (some pos) =
      (((slice pos.toNat (total s.lens) i.data).length : Int),
        some (pos + (slice pos.toNat (total s.lens) i.data).length),
        slice pos.toNat (total s.lens) i.data) := by
  have hrange' : Range pos (([] : List UInt8).length + total (advanced (0 < ·) s.lens)) := by
    simpa [total_advanced] using hrange
  have hloop := loopReadv_eq (f := f) (i := i) v.ios _ _ hfsys hv.ios hrange'
  rw [doLoopReadv]
  simpa [total_advanced, RwFlags.none] using hloop

theorem doLoopWritev_eq {p : Pieces} (hfsys : fsys.Lawful) (hv : v.Complete fsys)
    (hrange : Range pos p.pieces.flatten.length) :
    doLoopWritev fsys v f i .none p (some pos) =
      ((p.pieces.flatten.length : Int), some (pos + p.pieces.flatten.length),
        { i with data := put 0 pos.toNat p.pieces.flatten i.data }) := by
  have hrange' : Range pos ([] ++ (advanced (! List.isEmpty ·) p.pieces).flatten).length := by
    simpa [flatten_advanced] using hrange
  have hloop := loopWritev_eq (f := f) (i := i) v.ios _ _ hfsys hv.ios hrange'
  rw [doLoopWritev]
  simpa [flatten_advanced, RwFlags.none, put_nil] using hloop

/-- For a file without `read` it is the same call of `read_iter`; with both functions, or with
    `read` only, all of them read the same. -/
theorem vfsReadv_eq {s : Segments} (hfsys : fsys.Lawful) (hf : f.Ok) (hv : v.Complete fsys)
    (hpos : Fits63 pos) (hops : (f.ops.read || f.ops.readIter) = true) (htotal : total s.lens ≠ 0) :
    vfsReadv fsys v f i .none s (some pos) =
      vfsRead fsys v.base f i (total s.lens) (some pos) := by
  have hle := s.total_le
  have hmin : min (total s.lens : Int) MAX_RW_COUNT = total s.lens := by
    rw [MAX_RW_COUNT]
    omega
  have hrange : rwVerifyArea v.base.hooks f (some pos) (total s.lens) = 0 →
      Range pos (total s.lens) :=
    range_of_rwVerifyArea hf.signedOffset hpos.signed ⟨Int.natCast_nonneg _, by omega⟩
  rw [vfsReadv, vfsRead, hmin]
  simp only [hv.importIovec, hv.accessOk, htotal, rwVerifyArea_neg_iff, ne_eq, not_true_eq_false,
    if_false, Bool.true_eq_false]
  split_ifs with hread hcan hok hiter hops' hops'
  · rfl
  · rfl
  · rw [read_complete hfsys hv.io (hrange hok)]
    exact newSyncRead_complete hfsys hv.io (hrange hok)
  · rfl
  · rw [read_complete hfsys hv.io (hrange hok)]
    exact doLoopReadv_eq hfsys hv (hrange hok)
  · rw [Bool.eq_false_iff.2 hops', Bool.eq_false_iff.2 hiter] at hops
    cases hops
  · rfl

theorem vfsWritev_eq {p : Pieces} (hfsys : fsys.Lawful) (hf : f.Ok) (hv : v.Complete fsys)
    (hpos : Fits63 pos) (hops : f.ops.write = true) (hops' : f.ops.writeIter = false)
    (hbytes : p.pieces.flatten ≠ []) : vfsWritev fsys v f i .none p (some pos) =
      vfsWrite fsys v.base f i p.pieces.flatten (some pos) := by
  have hle := p.total_le
  have hmin : p.pieces.flatten.take MAX_RW_COUNT.toNat = p.pieces.flatten :=
    List.take_of_length_le p.total_le
  have hlen : p.pieces.flatten.length ≠ 0 := fun h => hbytes (List.eq_nil_of_length_eq_zero h)
  rw [vfsWritev, vfsWrite, hmin]
  simp only [hv.importIovec, hv.accessOk, hlen, hops, hops', rwVerifyArea_neg_iff, ne_eq,
    not_true_eq_false, if_false, if_true, Bool.true_eq_false, Bool.false_eq_true]
  split_ifs with hwrite hcan hok
  · rfl
  · rfl
  · have hrange := range_of_rwVerifyArea hf.signedOffset hpos.signed
      ⟨Int.natCast_nonneg _, by omega⟩ hok
    exact (doLoopWritev_eq hfsys hv hrange).trans (write_complete hfsys hv.io hrange).symm
  · rfl

/-- For a file with `write_iter`, the two differ only in the position that calls leave which wrote
    nothing. -/
theorem vfsWritev_iter {p : Pieces} (hfsys : fsys.Lawful) (hi : i.Ok) (hv : v.Complete fsys)
    (hpos : Fits63 pos) (hops : f.ops.write = false) (hops' : f.ops.writeIter = true)
    (hbytes : p.pieces.flatten ≠ []) :
    ∃ ret i' ppos ppos', vfsWritev fsys v f i .none p (some pos) = (ret, ppos, i') ∧
      vfsWrite fsys v.base f i p.pieces.flatten (some pos) = (ret, ppos', i') ∧
      f.store ret ppos' = f.store ret ppos := by
  have hmin : p.pieces.flatten.take MAX_RW_COUNT.toNat = p.pieces.flatten :=
    List.take_of_length_le p.total_le
  have hlen : p.pieces.flatten.length ≠ 0 := fun h => hbytes (List.eq_nil_of_length_eq_zero h)
  rw [vfsWritev, vfsWrite, hmin]
  simp only [hv.importIovec, hv.accessOk, hlen, hops, hops', rwVerifyArea_neg_iff, ne_eq,
    not_true_eq_false, if_false, if_true, Bool.true_eq_false, Bool.false_eq_true]
  split_ifs with hwrite hcan hok
  · exact ⟨_, _, _, _, rfl, rfl, rfl⟩
  · exact ⟨_, _, _, _, rfl, rfl, rfl⟩
  · exact ⟨_, _, _, _, rfl, rfl, store_eq (writeIter_ne_zero hfsys hv.io hi hpos hbytes)⟩
  · exact ⟨_, _, _, _, rfl, rfl, rfl⟩

/-- No one objects, and the file system serves all requests in full. -/
structure VectorAnswers.Grants (fsys : FileSystem Io) (v : VectorAnswers Io) : Prop where
  base : v.base.Grants fsys
  complete : v.Complete fsys

theorem vfsReadv_granted {s : Segments} (hfsys : fsys.Lawful) (hf : f.Ok) (hread : f.Readable)
    (hv : v.Grants fsys) (hrange : Range pos (total s.lens)) :
    vfsReadv fsys v f i .none s (some pos) =
      (((slice pos.toNat (total s.lens) i.data).length : Int),
        some (pos + (slice pos.toNat (total s.lens) i.data).length),
        slice pos.toNat (total s.lens) i.data) := by
  by_cases htotal : total s.lens = 0
  · simp [vfsReadv, hread.read, hread.canRead, hv.complete.importIovec, htotal, slice_zero]
  · have hle : (total s.lens : Int) ≤ MAX_RW_COUNT := Int.ofNat_le.2 s.total_le
    rw [vfsReadv_eq hfsys hf hv.complete hrange.start hread.ops htotal,
      vfsRead_granted hfsys hread hv.base hrange hle, Int.toNat_natCast]

theorem writevPos_none (hops : f.ops.write = !f.ops.writeIter) :
    writevPos f i .none pos = writePos f i pos := by
  rw [writevPos, writePos, hops]
  exact if_congr (by simp [RwFlags.none]) rfl rfl

theorem vfsWritev_granted {p : Pieces} (hfsys : fsys.Lawful) (hf : f.Ok) (hi : i.Ok)
    (hwrite : f.Writable) (hv : v.Grants fsys) (hrange : Range pos p.pieces.flatten.length)
    (hswap : i.swapfile = false)
    (hroom : writevPos f i .none pos + p.pieces.flatten.length ≤ maxSize f i) :
    (vfsWritev fsys v f i .none p (some pos)).1 = p.pieces.flatten.length := by
  by_cases hbytes : p.pieces.flatten = []
  · simp [vfsWritev, hwrite.write, hwrite.canWrite, hv.complete.importIovec, hbytes]
  · have hle : (p.pieces.flatten.length : Int) ≤ MAX_RW_COUNT := Int.ofNat_le.2 p.total_le
    have hops := hwrite.ops
    rw [writevPos_none hops] at hroom
    have hplain : (vfsWrite fsys v.base f i p.pieces.flatten (some pos)).1 =
        p.pieces.flatten.length :=
      vfsWrite_granted hfsys hwrite hi hv.base hrange hle hswap hroom
    cases hiter : f.ops.writeIter with
    | false =>
      rw [hiter, Bool.not_false] at hops
      rwa [vfsWritev_eq hfsys hf hv.complete hrange.start hops hiter hbytes]
    | true =>
      rw [hiter, Bool.not_true] at hops
      obtain ⟨ret, i', ppos, ppos', hwritev, hwrite', -⟩ :=
        vfsWritev_iter (f := f) hfsys hi hv.complete hrange.start hops hiter hbytes
      rw [hwrite'] at hplain
      rwa [hwritev]

/-- If the file system serves its requests in full, `readv` and `writev` do what `read` and `write`
    do with one segment of the same size. -/
theorem vectored_eq_plain (hfsys : fsys.Lawful) (hf : f.Ok) (hi : i.Ok) (hv : v.Complete fsys) :
    (∀ s : Segments, total s.lens ≠ 0 → (f.ops.read || f.ops.readIter) = true →
      doReadv fsys v f i .none s = ksysRead fsys v.base f i (.ofNat (total s.lens))) ∧
    ∀ p : Pieces, p.pieces.flatten ≠ [] → f.ops.write = !f.ops.writeIter →
      doWritev fsys v f i .none p = ksysWrite fsys v.base f i p.buffer := by
  refine ⟨fun s htotal hops => ?_, fun p hbytes hops => ?_⟩
  · have hcount : (UInt64.ofNat (total s.lens)).toNat = total s.lens := by
      have hle := s.total_le
      exact UInt64.toNat_ofNat_of_lt' (by simp [UInt64.size]; omega)
    rw [doReadv, ksysRead, hf.ppos, hcount, vfsReadv_eq hfsys hf hv hf.pos hops htotal]
  · rw [doWritev, ksysWrite, hf.ppos]
    cases hiter : f.ops.writeIter with
    | false =>
      rw [hiter, Bool.not_false] at hops
      rw [vfsWritev_eq hfsys hf hv hf.pos hops hiter hbytes]
      rfl
    | true =>
      rw [hiter, Bool.not_true] at hops
      obtain ⟨ret, i', ppos, ppos', hwritev, hwrite, hstore⟩ :=
        vfsWritev_iter hfsys hi hv hf.pos hops hiter hbytes
      simp only [hwritev, Pieces.buffer, hwrite, hstore]

end

/-- A device with `read` and `write`, for which vectored calls go through the loop. -/
def device : File :=
  { fd := 3, ino := 7, pos := 1, mode := .readWrite, append := false, direct := false,
    largefile := true, ops := ⟨.default, true, false, true, false, none, false⟩ }

def tape : Inode := ⟨7, 0, .other, false, false, Word.MAX, [10, 20, 30, 40]⟩

/-- No one objects, and all is moved. -/
def granted : Answers MemoryIo := ⟨true, ⟨0, 0⟩, RLIM_INFINITY, .all⟩

def grantedVector : VectorAnswers MemoryIo := ⟨granted, 0, 0, fun _ => .all⟩

theorem grantedVector_complete : grantedVector.Complete memory where
  io := memory_complete
  ios _ := memory_complete
  accessOk := rfl
  importIovec := rfl

theorem vectored_eq_plain_device :
    doReadv memory grantedVector device tape .none ⟨[1, 1], by decide⟩ =
      ksysRead memory granted device tape 2 := by
  have hf : device.Ok := ⟨rfl, rfl, by decide, fun _ h => by cases h⟩
  have hi : tape.Ok := ⟨by decide, by decide⟩
  exact (vectored_eq_plain memory_lawful hf hi grantedVector_complete).1 ⟨[1, 1], by decide⟩
    (by decide) rfl

example : doReadv memory grantedVector device tape .none ⟨[1, 1], by decide⟩ =
    (2, [20, 30], { device with pos := 3 }) := by decide

end Files

end LuisKernel
