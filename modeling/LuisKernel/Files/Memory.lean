import LuisKernel.Files

/-!
# A file system in memory

What is asked of file systems can be met: by one that keeps the bytes of a file where they were
written, and in which a call moves all it is asked for, or less, or fails.
-/

namespace LuisKernel

namespace Files

open Word Extent

/-- What happens in a call. -/
inductive MemoryIo
  | all
  | atMost (n : Nat)
  /-- The error number is `errno + 1`. -/
  | fails (errno : Nat)
  deriving DecidableEq, Repr

/-- How many of `n` bytes are moved. -/
def MemoryIo.served (n : Nat) : MemoryIo → Nat
  | all => n
  | atMost m => min m n
  | fails _ => 0

namespace Memory

variable (io : MemoryIo) (inodeIn inodeOut : Inode) (pos posIn posOut count : Int)

def read : Int × Int × List UInt8 :=
  match io with
  | .fails errno => (Int.negSucc errno, pos, [])
  | io =>
    let bytes := slice pos.toNat (io.served count.toNat) inodeIn.data
    (bytes.length, pos + bytes.length, bytes)

def write (bytes : List UInt8) : Int × Int × Inode :=
  match io with
  | .fails errno => (Int.negSucc errno, pos, inodeOut)
  | io =>
    let new := bytes.take (io.served bytes.length)
    (new.length, pos + new.length, { inodeOut with data := put 0 pos.toNat new inodeOut.data })

/-- A copy writes what is read. -/
def splice : Spliced :=
  match read io inodeIn posIn count with
  | (ret, posIn, bytes) =>
    ⟨ret, posIn, posOut + bytes.length,
      { inodeOut with data := put 0 posOut.toNat bytes inodeOut.data }⟩

end Memory

/-- The file system. -/
def memory : FileSystem MemoryIo where
  read io _ i count ppos :=
    match Memory.read io i (ppos.getD 0) count with
    | (ret, pos, bytes) => (ret, ppos.map fun _ => pos, bytes)
  readIter io _ i k count := Memory.read io i k.pos count
  write io _ i bytes ppos :=
    match Memory.write io i (ppos.getD 0) bytes with
    | (ret, pos, i) => (ret, ppos.map fun _ => pos, i)
  writeIter io fsize f i k bytes :=
    match genericWriteChecks fsize f i k bytes with
    | (ret, k, bytes) => if ret ≤ 0 then (ret, k.pos, i) else Memory.write io i k.pos bytes
  copyFileRange io _ inodeIn _ inodeOut posIn posOut len :=
    let s := Memory.splice io inodeIn inodeOut posIn posOut len
    (s.ret, s.inodeOut)
  remapFileRange io _ inodeIn _ inodeOut posIn posOut len :=
    let s := Memory.splice io inodeIn inodeOut posIn posOut len
    (s.ret, s.inodeOut)
  doSpliceDirect io _ inodeIn fileOut inodeOut posIn posOut len :=
    if fileOut.append then ⟨-EINVAL, posIn, posOut, inodeOut⟩
    else Memory.splice io inodeIn inodeOut posIn posOut len
  spliceFileToPipe io _ i pos count :=
    match Memory.read io i pos count with
    | (ret, pos, _) => (ret, pos)

section

variable {io : MemoryIo} {i inodeIn inodeOut : Inode} {pos posIn posOut count : Int}

theorem MemoryIo.served_le (n : Nat) : io.served n ≤ n := by
  cases io with
  | all => exact Nat.le_refl n
  | atMost m => exact Nat.min_le_right m n
  | fails errno => exact Nat.zero_le n

/-- A slice that was asked for is not longer than that. -/
theorem length_slice_le {k : Nat} (hcount : 0 ≤ count) (hk : k ≤ count.toNat) :
    ((slice pos.toNat k i.data).length : Int) ≤ count := by
  rw [length_slice]
  omega

theorem Memory.reads_read (hcount : 0 ≤ count) :
    Reads i pos (pos + count) (Memory.read io i pos count) := by
  have hmoved : ∀ k ≤ count.toNat, Reads i pos (pos + count)
      (((slice pos.toNat k i.data).length : Int), pos + (slice pos.toNat k i.data).length,
        slice pos.toNat k i.data) := fun k hk =>
    .moved slice_length_slice.symm (Int.add_le_add_left (length_slice_le hcount hk) pos)
  cases io with
  | fails errno => exact .failed (Int.negSucc_lt_zero errno)
  | all => exact hmoved _ (MemoryIo.served_le _)
  | atMost m => exact hmoved _ (MemoryIo.served_le _)

theorem Memory.writes_write {pos' : Int} {bytes : List UInt8} :
    Writes i pos' pos (pos + bytes.length) bytes (Memory.write io i pos bytes) := by
  have hmoved : ∀ k, Writes i pos' pos (pos + bytes.length) bytes
      (((bytes.take k).length : Int), pos + (bytes.take k).length,
        { i with data := put 0 pos.toNat (bytes.take k) i.data }) := by
    intro k
    by_cases hnil : bytes.take k = []
    · rw [hnil, put_nil]
      exact .nothing (.inr (Int.add_zero pos))
    · refine .moved rfl hnil (Int.add_le_add_left ?_ pos)
      rw [List.length_take]
      omega
  cases io with
  | fails errno => exact .failed (Int.negSucc_lt_zero errno) (.inr rfl)
  | all => exact hmoved _
  | atMost m => exact hmoved _

theorem Memory.splices_splice (hcount : 0 ≤ count) :
    Splices inodeIn inodeOut posIn posOut count
      (Memory.splice io inodeIn inodeOut posIn posOut count) := by
  have hreads : Reads inodeIn posIn (posIn + count) (Memory.read io inodeIn posIn count) :=
    Memory.reads_read hcount
  rw [Memory.splice]
  generalize Memory.read io inodeIn posIn count = r at hreads
  cases hreads with
  | failed hneg =>
    simp only [List.length_nil, Int.natCast_zero, Int.add_zero, put_nil]
    exact .nothing (Int.le_of_lt hneg)
  | @moved bytes hbytes hlimit =>
    by_cases hnil : bytes = []
    · simp only [hnil, List.length_nil, Int.natCast_zero, Int.add_zero, put_nil]
      exact .nothing (Int.le_refl 0)
    · exact .moved hnil (by omega) fun _ => hbytes

theorem memory_lawful : memory.Lawful where
  read _ _ _ _ _ hrange := ⟨_, _, _, rfl, Memory.reads_read hrange.nonneg⟩
  readIter _ _ _ _ _ hrange := Memory.reads_read hrange.nonneg
  write _ _ _ _ _ _ := ⟨_, _, _, rfl, Memory.writes_write⟩
  writeIter_checks hchecks hret := by
    simp only [memory, hchecks, if_pos hret]
  writeIter hchecks hret _ := by
    simp only [memory, hchecks, if_neg (Int.not_le.2 hret)]
    exact Memory.writes_write
  copyFileRange h := (Memory.splices_splice h.rangeIn.nonneg).copies h
  remapFileRange h := (Memory.splices_splice h.rangeIn.nonneg).copies h
  doSpliceDirect hin _ := by
    simp only [memory]
    split_ifs
    · exact .nothing (by decide)
    · exact Memory.splices_splice hin.nonneg
  doSpliceDirect_append _ _ _ _ _ _ _ _ happend :=
    ⟨-EINVAL, by decide, by simp only [memory, if_pos happend]⟩
  spliceFileToPipe io f i pos count hrange := by
    have hreads : Reads i pos (pos + count) (Memory.read io i pos count) :=
      Memory.reads_read hrange.nonneg
    simp only [memory]
    generalize Memory.read io i pos count = r at hreads
    cases hreads with
    | failed hneg =>
      rw [max_eq_left (Int.le_of_lt hneg), Int.add_zero]
      exact ⟨Int.le_trans (Int.le_of_lt hneg) hrange.nonneg, rfl⟩
    | moved _ hlimit =>
      rw [max_eq_right (Int.natCast_nonneg _)]
      exact ⟨by omega, rfl⟩

/-- What lies in the file is copied. -/
theorem Memory.ret_splice {len : Int} (h : CopyRanges inodeIn inodeOut posIn posOut len) :
    (Memory.splice .all inodeIn inodeOut posIn posOut len).ret = len := by
  have hfile := h.inFile
  have hpos := h.rangeIn.start.1
  have hlen := h.pos
  have hret : (Memory.splice .all inodeIn inodeOut posIn posOut len).ret =
      (slice posIn.toNat len.toNat inodeIn.data).length := rfl
  rw [Inode.size] at hfile
  rw [hret, length_slice]
  omega

theorem memory_complete : memory.Complete .all where
  read _ := rfl
  readIter _ := rfl
  write {f i pos bytes} _ := by
    have hret : (memory.write .all f i bytes (some pos)).1 = (bytes.take bytes.length).length := rfl
    rw [hret, List.take_length]
  writeIter hchecks hret _ := by
    simp only [memory, hchecks, if_neg (Int.not_le.2 hret), Memory.write, MemoryIo.served,
      List.take_length]
  copyFileRange h := Memory.ret_splice h
  remapFileRange h := Memory.ret_splice h
  doSpliceDirect happend h := by
    simp only [memory, happend, Bool.false_eq_true, if_false]
    exact Memory.ret_splice h

end

end Files

end LuisKernel
