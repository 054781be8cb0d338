import LuisKernel.Files.Copy
import LuisKernel.Files.Seek
import LuisKernel.Files.Vector
import LuisKernel.Machine
import Mathlib.Logic.Function.Basic

/-!
# Runs of file calls

The open files and the inodes of a kernel, and the calls that use them, in any order. Several
descriptors may be open on one inode, each with a position of its own.

What a call does is a list of assignments to positions and contents (`effects`). In every run,
positions and sizes stay in their range (`positions_safe`), and so a seek goes to the exact place in
every state of every run (`lseek_exact`). A call leaves alone what it does not name (`files_step`,
`inodes_step`).
-/

namespace LuisKernel

namespace Files

open Word Extent Machine

/-- The open files by their descriptors, and the inodes by their numbers. -/
structure Fs where
  files : Nat → Option File
  inodes : Nat → Option Inode

/-- The open file and its inode. -/
def Fs.fdget (fs : Fs) (fd : Nat) : Option (File × Inode) :=
  match fs.files fd with
  | none => none
  | some f => (fs.inodes f.ino).map fun i => (f, i)

/-! ## The calls -/

inductive Event (Io : Type)
  | lseek (fd : Nat) (offset : Int64) (whence : UInt32)
  | read (fd : Nat) (a : Answers Io) (count : SizeT)
  | write (fd : Nat) (a : Answers Io) (buf : Buffer)
  | pread64 (fd : Nat) (a : Answers Io) (count : SizeT) (pos : Int64)
  | pwrite64 (fd : Nat) (a : Answers Io) (buf : Buffer) (pos : Int64)
  | readv (fd : Nat) (v : VectorAnswers Io) (flags : RwFlags) (s : Segments)
  | writev (fd : Nat) (v : VectorAnswers Io) (flags : RwFlags) (p : Pieces)
  | preadv (fd : Nat) (v : VectorAnswers Io) (flags : RwFlags) (s : Segments) (pos : Int64)
  | pwritev (fd : Nat) (v : VectorAnswers Io) (flags : RwFlags) (p : Pieces) (pos : Int64)
  | sendfile (fdOut fdIn : Nat) (a : CopyAnswers Io) (u : CopyUser) (offset : Option Int64)
      (count : SizeT)
  | sendfile64 (fdOut fdIn : Nat) (a : CopyAnswers Io) (u : CopyUser) (offset : Option Int64)
      (count : SizeT)
  | copyFileRange (fdIn fdOut : Nat) (a : CopyAnswers Io) (u : CopyUser)
      (offIn offOut : Option Int64) (len : SizeT) (flags : UInt32)

/-- An assignment of a call. -/
inductive Update
  | pos (fd : Nat) (pos : Int)
  | data (ino : Nat) (data : List UInt8)

/-- What a call returns, what it reads and what it assigns. -/
structure Effects where
  ret : Int
  bytes : List UInt8
  updates : List Update

/-- The assignments at the end of a copy; if the files are one, the position of the first is
    stored last. -/
def Copied.effects (c : Copied) (fdIn fdOut inoOut : Nat) : Effects :=
  { ret := c.ret
    bytes := []
    updates := .data inoOut c.inodeOut.data ::
      ((c.posOut.map (.pos fdOut)).toList ++ (c.posIn.map (.pos fdIn)).toList) }

/-- A call to a descriptor, which returns `missing` if there is no such file. -/
def onFile (fs : Fs) (fd : Nat) (missing : Int) (f : File → Inode → Effects) : Effects :=
  match fs.fdget fd with
  | none => ⟨missing, [], []⟩
  | some (file, inode) => f file inode

/-- `pread64` and its kin look at the position before the descriptor. -/
def missingAt (pos : Int64) : Int := if pos.toInt < 0 then -EINVAL else -EBADF

section

variable {Io : Type} (fsys : FileSystem Io)

/-- `sendfile` and `sendfile64`, which differ in the greatest position. The offset of the caller is
    read before, and written after everything else. -/
def sendfileEffects (fs : Fs) (fdOut fdIn : Nat) (a : CopyAnswers Io) (u : CopyUser)
    (offset : Option Int64) (count : SizeT) (max : Int) : Effects :=
  if offset.isSome ∧ u.fromIn = false then ⟨-EFAULT, [], []⟩
  else
    let e := onFile fs fdIn (-EBADF) fun fileIn inodeIn =>
      let ret := sendfileIn a fileIn offset count
      onFile fs fdOut (if ret < 0 then ret else -EBADF) fun fileOut inodeOut =>
        (doSendfile fsys a fileIn inodeIn fileOut inodeOut offset count max).effects fdIn fdOut
          fileOut.ino
    { e with ret := if offset.isSome ∧ u.toIn = false then -EFAULT else e.ret }

def effects (fs : Fs) : Event Io → Effects
  | .lseek fd offset whence => onFile fs fd (-EBADF) fun f i =>
    match ksysLseek offset whence f i with
    | (ret, f) => ⟨ret, [], [.pos fd f.pos]⟩
  | .read fd a count => onFile fs fd (-EBADF) fun f i =>
    match ksysRead fsys a f i count with
    | (ret, bytes, f) => ⟨ret, bytes, [.pos fd f.pos]⟩
  | .write fd a buf => onFile fs fd (-EBADF) fun f i =>
    match ksysWrite fsys a f i buf with
    | (ret, f', i) => ⟨ret, [], [.data f.ino i.data, .pos fd f'.pos]⟩
  | .pread64 fd a count pos => onFile fs fd (missingAt pos) fun f i =>
    match ksysPread64 fsys a f i count pos with
    | (ret, bytes) => ⟨ret, bytes, []⟩
  | .pwrite64 fd a buf pos => onFile fs fd (missingAt pos) fun f i =>
    match ksysPwrite64 fsys a f i buf pos with
    | (ret, i) => ⟨ret, [], [.data f.ino i.data]⟩
  | .readv fd v flags s => onFile fs fd (-EBADF) fun f i =>
    match doReadv fsys v f i flags s with
    | (ret, bytes, f) => ⟨ret, bytes, [.pos fd f.pos]⟩
  | .writev fd v flags p => onFile fs fd (-EBADF) fun f i =>
    match doWritev fsys v f i flags p with
    | (ret, f', i) => ⟨ret, [], [.data f.ino i.data, .pos fd f'.pos]⟩
  | .preadv fd v flags s pos => onFile fs fd (missingAt pos) fun f i =>
    match doPreadv fsys v f i flags s pos with
    | (ret, bytes) => ⟨ret, bytes, []⟩
  | .pwritev fd v flags p pos => onFile fs fd (missingAt pos) fun f i =>
    match doPwritev fsys v f i flags p pos with
    | (ret, i) => ⟨ret, [], [.data f.ino i.data]⟩
  | .sendfile fdOut fdIn a u offset count =>
    sendfileEffects fsys fs fdOut fdIn a u offset count (if offset.isSome then MAX_NON_LFS else 0)
  | .sendfile64 fdOut fdIn a u offset count =>
    sendfileEffects fsys fs fdOut fdIn a u offset count 0
  | .copyFileRange fdIn fdOut a u offIn offOut len flags =>
    onFile fs fdIn (-EBADF) fun fileIn inodeIn => onFile fs fdOut (-EBADF) fun fileOut inodeOut =>
      (copyFileRange fsys a fileIn inodeIn fileOut inodeOut u offIn offOut len flags).effects fdIn
        fdOut fileOut.ino

end

def File.setPos (pos : Int) (f : File) : File := { f with pos := pos }

def Inode.setData (data : List UInt8) (i : Inode) : Inode := { i with data := data }

/-- An assignment. -/
def Fs.apply (fs : Fs) : Update → Fs
  | .pos fd pos =>
    { fs with files := Function.update fs.files fd ((fs.files fd).map (.setPos pos)) }
  | .data ino data =>
    { fs with inodes := Function.update fs.inodes ino ((fs.inodes ino).map (.setData data)) }

/-- The kernel after a call. -/
def step {Io : Type} (fsys : FileSystem Io) (fs : Fs) (e : Event Io) : Fs :=
  (effects fsys fs e).updates.foldl Fs.apply fs

/-! ## Positions and sizes -/

/-- All positions and sizes are in their range. -/
structure Inv (fs : Fs) : Prop where
  files : ∀ fd f, fs.files fd = some f → f.Ok
  inodes : ∀ ino i, fs.inodes ino = some i → i.Ok

/-- A file that is open twice. -/
def openedTwice (append : Bool) : Fs where
  files fd := if fd = 3 ∨ fd = 4 then some (regularFile fd append) else none
  inodes ino := if ino = 7 then some notes else none

theorem inv_openedTwice (append : Bool) : Inv (openedTwice append) where
  files fd f hf := by
    simp only [openedTwice, Option.ite_none_right_eq_some, Option.some.injEq] at hf
    exact hf.2 ▸ regularFile_ok fd append
  inodes ino i hi := by
    simp only [openedTwice, Option.ite_none_right_eq_some, Option.some.injEq] at hi
    exact hi.2 ▸ notes_ok

/-- What is assigned is in its range. -/
def Update.Ok : Update → Prop
  | pos _ p => Fits63 p
  | data _ d => Fits63 (d.length : Int)

section

variable {Io : Type} {fsys : FileSystem Io} {fs : Fs} {fd : Nat} {f : File} {i : Inode} {u : Update}
  {us : List Update} {e : Event Io}

theorem fdget_eq_some_iff :
    fs.fdget fd = some (f, i) ↔ fs.files fd = some f ∧ fs.inodes f.ino = some i := by
  rw [Fs.fdget]
  cases hf : fs.files fd with
  | none => simp
  | some f' =>
    simp only [Option.map_eq_some_iff, Prod.mk.injEq, Option.some.injEq]
    constructor
    · rintro ⟨i', hi, rfl, rfl⟩
      exact ⟨rfl, hi⟩
    · rintro ⟨rfl, hi⟩
      exact ⟨i, hi, rfl, rfl⟩

/-- A file after an assignment is one before it, up to its position. -/
theorem files_apply (h : (fs.apply u).files fd = some f) :
    fs.files fd = some f ∨
      ∃ pos f₀, u = .pos fd pos ∧ fs.files fd = some f₀ ∧ f = f₀.setPos pos := by
  cases u with
  | data ino data => exact .inl h
  | pos fd' pos =>
    by_cases hfd : fd = fd'
    · simp only [Fs.apply, ← hfd, Function.update_self, Option.map_eq_some_iff] at h
      obtain ⟨f₀, hf₀, rfl⟩ := h
      exact .inr ⟨pos, f₀, by rw [hfd], hf₀, rfl⟩
    · simp only [Fs.apply, Function.update_of_ne hfd] at h
      exact .inl h

/-- An inode after an assignment is one before it, up to its contents. -/
theorem inodes_apply {ino : Nat} (h : (fs.apply u).inodes ino = some i) :
    fs.inodes ino = some i ∨
      ∃ data i₀, u = .data ino data ∧ fs.inodes ino = some i₀ ∧ i = i₀.setData data := by
  cases u with
  | pos fd pos => exact .inl h
  | data ino' data =>
    by_cases hino : ino = ino'
    · simp only [Fs.apply, ← hino, Function.update_self, Option.map_eq_some_iff] at h
      obtain ⟨i₀, hi₀, rfl⟩ := h
      exact .inr ⟨data, i₀, by rw [hino], hi₀, rfl⟩
    · simp only [Fs.apply, Function.update_of_ne hino] at h
      exact .inl h

theorem Inv.apply (h : Inv fs) (hu : u.Ok) : Inv (fs.apply u) where
  files fd f hf := by
    rcases files_apply hf with hf | ⟨pos, f₀, rfl, hf₀, rfl⟩
    · exact h.files fd f hf
    · exact { h.files fd f₀ hf₀ with pos := hu }
  inodes ino i hi := by
    rcases inodes_apply hi with hi | ⟨data, i₀, rfl, hi₀, rfl⟩
    · exact h.inodes ino i hi
    · exact { h.inodes ino i₀ hi₀ with size := hu }

theorem Inv.foldl (h : Inv fs) (hus : ∀ u ∈ us, u.Ok) : Inv (us.foldl Fs.apply fs) := by
  induction us generalizing fs with
  | nil => exact h
  | cons u us ih =>
    obtain ⟨hu, hus'⟩ := List.forall_mem_cons.1 hus
    exact ih (h.apply hu) hus'

/-- A property of all assignments of a call to a descriptor. -/
theorem forall_onFile {missing : Int} {F : File → Inode → Effects} {P : Update → Prop}
    (h : ∀ f i, fs.files fd = some f → fs.inodes f.ino = some i → ∀ u ∈ (F f i).updates, P u) :
    ∀ u ∈ (onFile fs fd missing F).updates, P u := by
  rw [onFile]
  cases hget : fs.fdget fd with
  | none => exact fun u hu => absurd hu List.not_mem_nil
  | some fi =>
    obtain ⟨hf, hi⟩ := fdget_eq_some_iff.1 hget
    exact h fi.1 fi.2 hf hi

theorem Copied.Ok.effects {c : Copied} {fdIn fdOut ino : Nat} (h : c.Ok) :
    ∀ u ∈ (c.effects fdIn fdOut ino).updates, u.Ok := by
  intro u hu
  rw [Copied.effects, List.mem_cons, List.mem_append, Option.mem_toList, Option.mem_toList,
    Option.map_eq_some_iff, Option.map_eq_some_iff] at hu
  rcases hu with rfl | ⟨p, hp, rfl⟩ | ⟨p, hp, rfl⟩
  · exact h.inodeOut
  · exact h.posOut p hp
  · exact h.posIn p hp

theorem fits_ksysLseek {offset : Int64} {whence : UInt32} (hf : f.Ok) (hi : i.Ok) :
    Fits63 (ksysLseek offset whence f i).2.pos := by
  rw [ksysLseek]
  cases Whence.ofNat? whence.toNat with
  | none => exact hf.pos
  | some whence =>
    by_cases hops : f.ops.llseek = .noop
    · simp only [vfsLlseek, hops]
      split_ifs <;> exact hf.pos
    · exact Seeks.fits hf.pos
        (seeks_vfsLlseek hf hi ⟨Int64.le_toInt offset, Int64.toInt_le offset⟩ hops)

theorem fits_ksysRead {a : Answers Io} {count : SizeT} (hfsys : fsys.Lawful) (hf : f.Ok) :
    Fits63 (ksysRead fsys a f i count).2.2.pos := by
  have hcount := count.toNat_lt
  obtain ⟨ret, pos', bytes, hr, hreads⟩ := reads_vfsRead (a := a) (i := i) hfsys hf hf.pos
    ⟨Int.natCast_nonneg count.toNat, by omega⟩
  rw [ksysRead, hf.ppos, hr]
  exact fits_store hf.pos (hreads.fits hf.pos)

theorem fits_doReadv {v : VectorAnswers Io} {flags : RwFlags} {s : Segments}
    (hfsys : fsys.Lawful) (hf : f.Ok) : Fits63 (doReadv fsys v f i flags s).2.2.pos := by
  obtain ⟨ret, pos', bytes, hr, hreads⟩ := reads_vfsReadv v i flags s hfsys hf hf.pos
  rw [doReadv, hf.ppos, hr]
  exact fits_store hf.pos (hreads.fits hf.pos)

theorem fits_ksysWrite (a : Answers Io) (buf : Buffer) (hfsys : fsys.Lawful) (hf : f.Ok)
    (hi : i.Ok) : Fits63 (ksysWrite fsys a f i buf).2.1.pos ∧
      Fits63 (ksysWrite fsys a f i buf).2.2.size := by
  obtain ⟨ret, pos', i', hr, hwrites⟩ := writes_vfsWrite (a := a) hfsys hf hi hf.pos buf.length_lt
  obtain ⟨hpos', hi'⟩ := hwrites.fits hi hf.pos (fits_writePos hi hf.pos)
  rw [ksysWrite, hf.ppos, hr]
  exact ⟨fits_store hf.pos hpos', hi'.size⟩

theorem fits_doWritev (v : VectorAnswers Io) (flags : RwFlags) (p : Pieces) (hfsys : fsys.Lawful)
    (hf : f.Ok) (hi : i.Ok) : Fits63 (doWritev fsys v f i flags p).2.1.pos ∧
      Fits63 (doWritev fsys v f i flags p).2.2.size := by
  obtain ⟨ret, pos', i', hr, hwrites⟩ := writes_vfsWritev v flags p hfsys hf hi hf.pos
  obtain ⟨hpos', hi'⟩ := hwrites.fits hi hf.pos (fits_writevPos hi hf.pos)
  rw [doWritev, hf.ppos, hr]
  exact ⟨fits_store hf.pos hpos', hi'.size⟩

/-- A position that the caller gives is in its range if it is not negative. -/
theorem fits_toInt {pos : Int64} (h : ¬pos.toInt < 0) : Fits63 pos.toInt :=
  ⟨Int.not_lt.1 h, Int64.toInt_le pos⟩

theorem fits_ksysPwrite64 {a : Answers Io} {buf : Buffer} {pos : Int64} (hfsys : fsys.Lawful)
    (hf : f.Ok) (hi : i.Ok) : Fits63 (ksysPwrite64 fsys a f i buf pos).2.size := by
  rw [ksysPwrite64]
  split_ifs with hneg hmode
  · exact hi.size
  · exact hi.size
  · have hpos := fits_toInt hneg
    obtain ⟨ret, pos', i', hr, hwrites⟩ := writes_vfsWrite (a := a) hfsys hf hi hpos buf.length_lt
    rw [hr]
    exact (hwrites.fits hi hpos (fits_writePos hi hpos)).2.size

theorem fits_doPwritev {v : VectorAnswers Io} {flags : RwFlags} {p : Pieces} {pos : Int64}
    (hfsys : fsys.Lawful) (hf : f.Ok) (hi : i.Ok) :
    Fits63 (doPwritev fsys v f i flags p pos).2.size := by
  rw [doPwritev]
  split_ifs with hneg hmode
  · exact hi.size
  · exact hi.size
  · have hpos := fits_toInt hneg
    obtain ⟨ret, pos', i', hr, hwrites⟩ := writes_vfsWritev v flags p hfsys hf hi hpos
    rw [hr]
    exact (hwrites.fits hi hpos (fits_writevPos hi hpos)).2.size

theorem ok_sendfileEffects {fdOut fdIn : Nat} {a : CopyAnswers Io} {user : CopyUser}
    {offset : Option Int64} {count : SizeT} {max : Int} (hfsys : fsys.Lawful) (h : Inv fs)
    (hmax : Fits63 max) :
    ∀ u ∈ (sendfileEffects fsys fs fdOut fdIn a user offset count max).updates, u.Ok := by
  unfold sendfileEffects
  by_cases hoffset : offset.isSome ∧ user.fromIn = false
  · rw [if_pos hoffset]
    exact fun u hu => absurd hu List.not_mem_nil
  · rw [if_neg hoffset]
    refine forall_onFile fun fileIn inodeIn hin hinode => forall_onFile fun fileOut inodeOut hout
      hinode' => ?_
    exact (ok_doSendfile hfsys (h.files _ _ hin) (h.files _ _ hout) (h.inodes _ _ hinode)
      (h.inodes _ _ hinode') hmax).effects

/-- What a call assigns is in its range, if everything was before. -/
theorem Inv.effects (hfsys : fsys.Lawful) (h : Inv fs) :
    ∀ u ∈ (effects fsys fs e).updates, u.Ok := by
  cases e with
  | lseek fd offset whence =>
    refine forall_onFile fun f i hf hi => List.forall_mem_singleton.2 ?_
    exact fits_ksysLseek (h.files _ _ hf) (h.inodes _ _ hi)
  | read fd a count =>
    refine forall_onFile fun f i hf hi => List.forall_mem_singleton.2 ?_
    exact fits_ksysRead hfsys (h.files _ _ hf)
  | write fd a buf =>
    refine forall_onFile fun f i hf hi => ?_
    have hfits := fits_ksysWrite a buf hfsys (h.files _ _ hf) (h.inodes _ _ hi)
    exact List.forall_mem_cons.2 ⟨hfits.2, List.forall_mem_singleton.2 hfits.1⟩
  | pread64 fd a count pos => exact forall_onFile fun _ _ _ _ u hu => absurd hu List.not_mem_nil
  | pwrite64 fd a buf pos =>
    refine forall_onFile fun f i hf hi => List.forall_mem_singleton.2 ?_
    exact fits_ksysPwrite64 hfsys (h.files _ _ hf) (h.inodes _ _ hi)
  | readv fd v flags s =>
    refine forall_onFile fun f i hf hi => List.forall_mem_singleton.2 ?_
    exact fits_doReadv hfsys (h.files _ _ hf)
  | writev fd v flags p =>
    refine forall_onFile fun f i hf hi => ?_
    have hfits := fits_doWritev v flags p hfsys (h.files _ _ hf) (h.inodes _ _ hi)
    exact List.forall_mem_cons.2 ⟨hfits.2, List.forall_mem_singleton.2 hfits.1⟩
  | preadv fd v flags s pos => exact forall_onFile fun _ _ _ _ u hu => absurd hu List.not_mem_nil
  | pwritev fd v flags p pos =>
    refine forall_onFile fun f i hf hi => List.forall_mem_singleton.2 ?_
    exact fits_doPwritev hfsys (h.files _ _ hf) (h.inodes _ _ hi)
  | sendfile fdOut fdIn a user offset count =>
    refine ok_sendfileEffects hfsys h ?_
    split_ifs <;> decide
  | sendfile64 fdOut fdIn a user offset count => exact ok_sendfileEffects hfsys h (by decide)
  | copyFileRange fdIn fdOut a user offIn offOut len flags =>
    refine forall_onFile fun fileIn inodeIn hin hinode => forall_onFile fun fileOut inodeOut hout
      hinode' => ?_
    exact (ok_copyFileRange hfsys (h.files _ _ hin) (h.files _ _ hout) (h.inodes _ _ hinode).size
      (h.inodes _ _ hinode')).effects

theorem Inv.step (hfsys : fsys.Lawful) (h : Inv fs) : Inv (step fsys fs e) :=
  h.foldl (h.effects hfsys)

theorem always_inv {es : List (Event Io)} (hfsys : fsys.Lawful) (h : Inv fs) :
    Always (step fsys) Inv fs es :=
  always_of_step (R := fun _ => True) h (fun _ _ => trivial) fun _ _ _ => Inv.step hfsys

/-- In every state of every run, positions and sizes are in the range of a `loff_t`, and not
    negative. -/
theorem positions_safe {es : List (Event Io)} (hfsys : fsys.Lawful) (h : Inv fs) :
    Always (step fsys) (fun fs => (∀ fd f, fs.files fd = some f → 0 ≤ f.pos ∧ f.pos ≤ Word.MAX) ∧
      ∀ ino i, fs.inodes ino = some i → i.size ≤ Word.MAX) fs es :=
  (always_inv hfsys h).mono fun _ h =>
    ⟨fun fd f hf => (h.files fd f hf).pos, fun ino i hi => (h.inodes ino i hi).size.2⟩

theorem positions_safe_openedTwice :
    Always (step memory) (fun fs =>
      (∀ fd f, fs.files fd = some f → 0 ≤ f.pos ∧ f.pos ≤ Word.MAX) ∧
      ∀ ino i, fs.inodes ino = some i → i.size ≤ Word.MAX) (openedTwice false)
      [.lseek 3 9223372036854775807 0, .write 3 granted ⟨[1], by decide⟩] :=
  positions_safe memory_lawful (inv_openedTwice false)

/-- A call to a descriptor that there is. -/
theorem onFile_of_fdget {missing : Int} {F : File → Inode → Effects}
    (hget : fs.fdget fd = some (f, i)) : onFile fs fd missing F = F f i := by
  rw [onFile, hget]

/-- A position that is assigned again. -/
theorem apply_pos_self (hf : fs.files fd = some f) : fs.apply (.pos fd f.pos) = fs := by
  have hself : (fs.files fd).map (File.setPos f.pos) = fs.files fd := by
    rw [hf]
    rfl
  rw [Fs.apply, hself, Function.update_eq_self]

/-- In every state of every run, a seek goes exactly to where it is to go, and nothing else changes;
    or it fails, and nothing changes. -/
theorem lseek_exact (es : List (Event Io)) (hfsys : fsys.Lawful) (h : Inv fs) :
    Each (step fsys) (fun fs e => ∀ fd offset whence f i, e = .lseek fd offset whence →
      fs.fdget fd = some (f, i) → f.ops.llseek ≠ .noop →
        ((effects fsys fs e).ret < 0 → step fsys fs e = fs) ∧
        (0 ≤ (effects fsys fs e).ret →
          step fsys fs e = fs.apply (.pos fd (effects fsys fs e).ret) ∧
          ∃ w, Whence.ofNat? whence.toNat = some w ∧
            (effects fsys fs e).ret = w.target f (f.ops.llseek.eof i) offset.toInt)) fs es := by
  have hinval : ¬0 ≤ -EINVAL := by decide
  refine each_of_always (always_inv hfsys h) ?_
  rintro fs e hinv fd offset whence f i rfl hget hops
  obtain ⟨hf, hi⟩ := fdget_eq_some_iff.1 hget
  rw [step, effects, onFile_of_fdget hget, ksysLseek]
  cases hwhence : Whence.ofNat? whence.toNat with
  | none => exact ⟨fun _ => apply_pos_self hf, fun h => absurd h hinval⟩
  | some w =>
    have hseeks : Seeks f (w.target f (f.ops.llseek.eof i) offset.toInt)
        (vfsLlseek f i offset.toInt w) :=
      seeks_vfsLlseek (hinv.files _ _ hf) (hinv.inodes _ _ hi)
        ⟨Int64.le_toInt offset, Int64.toInt_le offset⟩ hops
    dsimp only
    generalize vfsLlseek f i offset.toInt w = r at hseeks
    cases hseeks with
    | refused hneg => exact ⟨fun _ => apply_pos_self hf, fun h => absurd hneg (Int.not_lt.2 h)⟩
    | moved hfits =>
      exact ⟨fun h => absurd hfits.1 (Int.not_le.2 h), fun _ => ⟨rfl, w, rfl, rfl⟩⟩

theorem lseek_exact_openedTwice :
    step memory (openedTwice false) (.lseek 3 2 2) = (openedTwice false).apply (.pos 3 5) := by
  have hret : (effects memory (openedTwice false) (.lseek 3 2 2)).ret = 5 := by decide
  obtain ⟨hstep, -⟩ := (lseek_exact [.lseek 3 2 2] memory_lawful (inv_openedTwice false) []
    (.lseek 3 2 2) List.prefix_rfl 3 2 2 (regularFile 3 false) notes rfl rfl (by decide)).2
    (by decide)
  rwa [run_nil, hret] at hstep

end

/-! ## What a call leaves alone -/

/-- The descriptors whose position a call may move. -/
def Event.moved {Io : Type} : Event Io → List Nat
  | lseek fd .. | read fd .. | write fd .. | readv fd .. | writev fd .. => [fd]
  | pread64 .. | pwrite64 .. | preadv .. | pwritev .. => []
  | sendfile fdOut fdIn .. | sendfile64 fdOut fdIn .. | copyFileRange fdIn fdOut .. => [fdIn, fdOut]

/-- The descriptors through which a call may write. -/
def Event.written {Io : Type} : Event Io → List Nat
  | lseek .. | read .. | pread64 .. | readv .. | preadv .. => []
  | write fd .. | pwrite64 fd .. | writev fd .. | pwritev fd .. => [fd]
  | sendfile fdOut .. | sendfile64 fdOut .. | copyFileRange _ fdOut .. => [fdOut]

/-- No call through the descriptors `fds` writes the inode `ino`. -/
def Apart (fs : Fs) (fds : List Nat) (ino : Nat) : Prop :=
  ∀ fd ∈ fds, ∀ f ∈ fs.files fd, f.ino ≠ ino

instance (fs : Fs) (fds : List Nat) (ino : Nat) : Decidable (Apart fs fds ino) :=
  inferInstanceAs (Decidable (∀ fd ∈ fds, ∀ f ∈ fs.files fd, f.ino ≠ ino))

/-- An assignment is to what the call names. -/
def Update.Named {Io : Type} (fs : Fs) (e : Event Io) : Update → Prop
  | pos fd _ => fd ∈ e.moved
  | data ino _ => ¬Apart fs e.written ino

section

variable {Io : Type} {fsys : FileSystem Io} {fs : Fs} {fd ino : Nat} {f : File} {i : Inode}
  {u : Update} {us : List Update} {e : Event Io}

theorem not_apart {fds : List Nat} (hfd : fd ∈ fds) (hf : fs.files fd = some f) :
    ¬Apart fs fds f.ino := fun h => h fd hfd f hf rfl

theorem Copied.named {c : Copied} {fdIn fdOut : Nat} (hin : fdIn ∈ e.moved) (hout : fdOut ∈ e.moved)
    (hwritten : fdOut ∈ e.written) (hf : fs.files fdOut = some f) :
    ∀ u ∈ (c.effects fdIn fdOut f.ino).updates, u.Named fs e := by
  intro u hu
  rw [Copied.effects, List.mem_cons, List.mem_append, Option.mem_toList, Option.mem_toList,
    Option.map_eq_some_iff, Option.map_eq_some_iff] at hu
  rcases hu with rfl | ⟨p, -, rfl⟩ | ⟨p, -, rfl⟩
  · exact not_apart hwritten hf
  · exact hout
  · exact hin

theorem named_sendfileEffects {fdOut fdIn : Nat} {a : CopyAnswers Io} {user : CopyUser}
    {offset : Option Int64} {count : SizeT} {max : Int} (hin : fdIn ∈ e.moved)
    (hout : fdOut ∈ e.moved) (hwritten : fdOut ∈ e.written) :
    ∀ u ∈ (sendfileEffects fsys fs fdOut fdIn a user offset count max).updates, u.Named fs e := by
  unfold sendfileEffects
  by_cases hoffset : offset.isSome ∧ user.fromIn = false
  · rw [if_pos hoffset]
    exact fun u hu => absurd hu List.not_mem_nil
  · rw [if_neg hoffset]
    exact forall_onFile fun _ _ _ _ => forall_onFile fun _ _ hf _ =>
      Copied.named hin hout hwritten hf

theorem named_effects : ∀ u ∈ (effects fsys fs e).updates, u.Named fs e := by
  have hself : ∀ fd : Nat, fd ∈ [fd] := fun fd => List.mem_cons_self
  have hsnd : ∀ fd fd' : Nat, fd' ∈ [fd, fd'] := fun fd fd' => List.mem_cons_of_mem _ (hself fd')
  cases e with
  | lseek fd offset whence =>
    exact forall_onFile fun f i hf hi => List.forall_mem_singleton.2 (hself fd)
  | read fd a count =>
    exact forall_onFile fun f i hf hi => List.forall_mem_singleton.2 (hself fd)
  | readv fd v flags s =>
    exact forall_onFile fun f i hf hi => List.forall_mem_singleton.2 (hself fd)
  | write fd a buf =>
    exact forall_onFile fun f i hf hi => List.forall_mem_cons.2
      ⟨not_apart (hself fd) hf, List.forall_mem_singleton.2 (hself fd)⟩
  | writev fd v flags p =>
    exact forall_onFile fun f i hf hi => List.forall_mem_cons.2
      ⟨not_apart (hself fd) hf, List.forall_mem_singleton.2 (hself fd)⟩
  | pread64 fd a count pos => exact forall_onFile fun _ _ _ _ u hu => absurd hu List.not_mem_nil
  | preadv fd v flags s pos => exact forall_onFile fun _ _ _ _ u hu => absurd hu List.not_mem_nil
  | pwrite64 fd a buf pos =>
    exact forall_onFile fun f i hf hi => List.forall_mem_singleton.2 (not_apart (hself fd) hf)
  | pwritev fd v flags p pos =>
    exact forall_onFile fun f i hf hi => List.forall_mem_singleton.2 (not_apart (hself fd) hf)
  | sendfile fdOut fdIn a user offset count =>
    exact named_sendfileEffects List.mem_cons_self (hsnd _ _) (hself fdOut)
  | sendfile64 fdOut fdIn a user offset count =>
    exact named_sendfileEffects List.mem_cons_self (hsnd _ _) (hself fdOut)
  | copyFileRange fdIn fdOut a user offIn offOut len flags =>
    exact forall_onFile fun _ _ _ _ => forall_onFile fun _ _ hf _ =>
      Copied.named List.mem_cons_self (hsnd _ _) (hself fdOut) hf

theorem files_foldl (h : ∀ p, Update.pos fd p ∉ us) :
    (us.foldl Fs.apply fs).files fd = fs.files fd := by
  induction us generalizing fs with
  | nil => rfl
  | cons u us ih =>
    rw [List.foldl_cons, ih fun p hp => h p (List.mem_cons_of_mem _ hp)]
    cases u with
    | data ino d => rfl
    | pos fd' p =>
      refine Function.update_of_ne (fun hfd => ?_) _ _
      exact h p (hfd ▸ List.mem_cons_self)

theorem inodes_foldl (h : ∀ d, Update.data ino d ∉ us) :
    (us.foldl Fs.apply fs).inodes ino = fs.inodes ino := by
  induction us generalizing fs with
  | nil => rfl
  | cons u us ih =>
    rw [List.foldl_cons, ih fun d hd => h d (List.mem_cons_of_mem _ hd)]
    cases u with
    | pos fd p => rfl
    | data ino' d =>
      refine Function.update_of_ne (fun hino => ?_) _ _
      exact h d (hino ▸ List.mem_cons_self)

theorem files_step (h : fd ∉ e.moved) : (step fsys fs e).files fd = fs.files fd :=
  files_foldl fun _ hp => h (named_effects _ hp)

theorem inodes_step (h : Apart fs e.written ino) : (step fsys fs e).inodes ino = fs.inodes ino :=
  inodes_foldl fun _ hd => named_effects _ hd h

/-- But for its position, an open file stays as it is. -/
theorem file_of_foldl (h : (us.foldl Fs.apply fs).files fd = some f) :
    ∃ f₀, fs.files fd = some f₀ ∧ f = f₀.setPos f.pos := by
  induction us generalizing fs with
  | nil => exact ⟨f, h, rfl⟩
  | cons u us ih =>
    obtain ⟨f₁, hf₁, hf⟩ := ih h
    rcases files_apply hf₁ with hf₁ | ⟨p, f₀, -, hf₀, rfl⟩
    · exact ⟨f₁, hf₁, hf⟩
    · exact ⟨f₀, hf₀, hf⟩

theorem Apart.step {fds : List Nat} (h : Apart fs fds ino) : Apart (step fsys fs e) fds ino := by
  intro fd hfd f hf
  obtain ⟨f₀, hf₀, hf'⟩ := file_of_foldl hf
  have hino : f.ino = f₀.ino := by
    rw [hf']
    rfl
  rw [hino]
  exact h fd hfd f₀ hf₀

end

end Files

end LuisKernel
