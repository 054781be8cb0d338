import LuisKernel.Extent
import LuisKernel.Rlimit
import LuisKernel.Word

/-!
# Open files

The functions of `fs/read_write.c` that read and write at a position of an open file: `read`,
`write`, `pread64` and `pwrite64`, with what they are made of.

An open file has a position, a `loff_t`, modelled by an integer; arithmetic on it is the one of
the machine (`Word`). The file itself is the list of its bytes (`Inode`).

The file systems are not part of `fs/read_write.c`. Their functions are a parameter of the model
(`FileSystem`), and what is asked of them is a hypothesis with a field for each function
(`FileSystem.Lawful`). It is only asked for requests in the range of positions, and leaves open how
much of a request is served, and when it fails.

* What `rw_verify_area` lets pass does not leave the range of positions (`range_of_rwVerifyArea`),
  and what `generic_write_checks` leaves of a write does not either (`genericWriteChecks_cases`).
  So whatever a read delivers is found at the position, which then is behind it (`reads_vfsRead`),
  and whatever a write takes is stored there (`writes_vfsWrite`).
* If no one objects, and the file system serves its requests in full (`FileSystem.Complete`), a
  read delivers all it asks for, up to the end of the file (`vfsRead_granted`), and a write takes
  all it is given (`vfsWrite_granted`).
-/

namespace LuisKernel

namespace Files

open Word Extent

def EBADF : Int := 9
def ETXTBSY : Int := 26
def EFBIG : Int := 27
def ESPIPE : Int := 29
def EOVERFLOW : Int := 75

/-- `INT_MAX & PAGE_MASK`. -/
def MAX_RW_COUNT : Int := 0x7ffff000

def MAX_NON_LFS : Int := 0x7fffffff

def OFFSET_MAX : Int := Word.MAX

/-! ## Files -/

/-- What is asked of an inode's `i_mode`, and whether it is a pipe. -/
inductive Kind
  | regular
  | directory
  | pipe
  | other
  deriving DecidableEq, Repr

/-- `struct inode`, with what is stored in it. -/
structure Inode where
  ino : Nat
  /-- `i_sb`. -/
  sb : Nat
  kind : Kind
  immutable : Bool
  swapfile : Bool
  /-- `i_sb->s_maxbytes`. -/
  maxbytes : Int
  data : List UInt8
  deriving DecidableEq, Repr

/-- `i_size_read`. -/
def Inode.size (i : Inode) : Int := i.data.length

/-- The bits of `f_mode`. -/
structure Mode where
  read : Bool
  write : Bool
  lseek : Bool
  pread : Bool
  pwrite : Bool
  unsignedOffset : Bool
  canRead : Bool
  canWrite : Bool
  stream : Bool
  bufWasync : Bool
  deriving DecidableEq, Repr

/-- A file that was opened for reading and writing, with a position. -/
def Mode.readWrite : Mode := ⟨true, true, true, true, true, false, true, true, false, false⟩

/-- The functions a file can have as `llseek`. -/
inductive Llseek
  | generic
  | fixedSize (size : Int)
  | noSeekEnd
  | noSeekEndSize (size : Int)
  | noop
  | default
  deriving DecidableEq, Repr

/-- `f_op`: which functions there are. -/
structure Ops where
  llseek : Llseek
  read : Bool
  readIter : Bool
  write : Bool
  writeIter : Bool
  /-- Which function it is, as two files may have different ones. -/
  copyFileRange : Option Nat
  remapFileRange : Bool
  deriving DecidableEq, Repr

/-- `struct file`, with its descriptor. -/
structure File where
  fd : Nat
  ino : Nat
  /-- `f_pos`. -/
  pos : Int
  mode : Mode
  /-- `O_APPEND`, `O_DIRECT` and `O_LARGEFILE` of `f_flags`. -/
  append : Bool
  direct : Bool
  largefile : Bool
  ops : Ops
  deriving DecidableEq, Repr

/-! ## Checks -/

/-- The error numbers of the hooks that `rw_verify_area` asks, `0` if they do not object. -/
structure Hooks where
  securityFilePermission : Nat
  fsnotifyFileAreaPerm : Nat
  deriving DecidableEq, Repr

def Hooks.ret (h : Hooks) : Int :=
  if h.securityFilePermission ≠ 0 then -h.securityFilePermission else -h.fsnotifyFileAreaPerm

def rwVerifyArea (h : Hooks) (f : File) (ppos : Option Int) (count : Int) : Int :=
  if signed count < 0 then -EINVAL
  else
    match ppos with
    | none => h.ret
    | some pos =>
      if pos < 0 then
        if f.mode.unsignedOffset = false then -EINVAL
        else if unsigned (signed (-pos)) ≤ count then -EOVERFLOW
        else h.ret
      else if signed (pos + count) < 0 ∧ f.mode.unsignedOffset = false then -EINVAL
      else h.ret

/-- `struct kiocb`. -/
structure Kiocb where
  pos : Int
  append : Bool
  nowait : Bool
  direct : Bool
  deriving DecidableEq, Repr

/-- `init_sync_kiocb`, and `ki_pos`. -/
def Kiocb.init (f : File) (ppos : Option Int) : Kiocb := ⟨ppos.getD 0, f.append, false, f.direct⟩

/-- The part of `generic_write_check_limits` for `RLIMIT_FSIZE`: the count, if there is one left.
    The limit becomes a `loff_t`. -/
def limitFsize (fsize : SizeT) (pos count : Int) : Option Int :=
  let limit := signed fsize.toNat
  if fsize = RLIM_INFINITY then some count
  else if limit ≤ pos then none
  else some (min count (signed (limit - pos)))

/-- `max_size` of `generic_write_check_limits`. -/
def maxSize (f : File) (i : Inode) : Int := if f.largefile then i.maxbytes else MAX_NON_LFS

/-- The return value and the count. -/
def genericWriteCheckLimits (fsize : SizeT) (f : File) (i : Inode) (pos count : Int) :
    Int × Int :=
  match limitFsize fsize pos count with
  | none => (-EFBIG, count)
  | some count =>
    if maxSize f i ≤ pos then (-EFBIG, count) else (0, min count (signed (maxSize f i - pos)))

/-- With `IOCB_APPEND`, a write goes to the end of the file. -/
def Kiocb.toEnd (i : Inode) (iocb : Kiocb) : Kiocb :=
  if iocb.append then { iocb with pos := i.size } else iocb

def genericWriteChecksCount (fsize : SizeT) (f : File) (i : Inode) (iocb : Kiocb) (count : Int) :
    Int × Kiocb × Int :=
  if i.swapfile then (-ETXTBSY, iocb, count)
  else if count = 0 then (0, iocb, count)
  else if (iocb.toEnd i).nowait ∧ ¬((iocb.toEnd i).direct ∨ f.mode.bufWasync) then
    (-EINVAL, iocb.toEnd i, count)
  else
    match genericWriteCheckLimits fsize f i (iocb.toEnd i).pos count with
    | (ret, count) => (ret, iocb.toEnd i, count)

/-- The return value, the `kiocb` and what is left to write. -/
def genericWriteChecks (fsize : SizeT) (f : File) (i : Inode) (iocb : Kiocb)
    (bytes : List UInt8) : Int × Kiocb × List UInt8 :=
  match genericWriteChecksCount fsize f i iocb bytes.length with
  | (ret, iocb, count) =>
    if ret ≠ 0 then (ret, iocb, bytes)
    else
      let bytes := bytes.take (unsigned count).toNat
      (bytes.length, iocb, bytes)

/-! ## File systems -/

/-- What a splice leaves: the return value, the two positions and the inode that was written. -/
structure Spliced where
  ret : Int
  posIn : Int
  posOut : Int
  inodeOut : Inode
  deriving DecidableEq, Repr

/-- The functions of the file systems, and those of `fs/splice.c`. They get the file, so that they
    stand for those of all file systems; what else their answers depend on is in an `Io`. -/
structure FileSystem (Io : Type) where
  /-- `->read`: the return value, `*ppos` and what was read. -/
  read : Io → File → Inode → (count : Int) → (ppos : Option Int) → Int × Option Int × List UInt8
  /-- `->read_iter`: the return value, `ki_pos` and what was read. -/
  readIter : Io → File → Inode → Kiocb → (count : Int) → Int × Int × List UInt8
  /-- `->write`: the return value, `*ppos` and the inode. -/
  write : Io → File → Inode → List UInt8 → (ppos : Option Int) → Int × Option Int × Inode
  /-- `->write_iter`, which looks at `RLIMIT_FSIZE`: the return value, `ki_pos` and the inode. -/
  writeIter : Io → (fsize : SizeT) → File → Inode → Kiocb → List UInt8 → Int × Int × Inode
  /-- `->copy_file_range`: the return value and the inode of the second file. -/
  copyFileRange : Io → File → Inode → File → Inode → (posIn posOut len : Int) → Int × Inode
  /-- `->remap_file_range`, which may shorten. -/
  remapFileRange : Io → File → Inode → File → Inode → (posIn posOut len : Int) → Int × Inode
  /-- `do_splice_direct`. -/
  doSpliceDirect : Io → File → Inode → File → Inode → (posIn posOut len : Int) → Spliced
  /-- `splice_file_to_pipe`: the return value and the position. -/
  spliceFileToPipe : Io → File → Inode → (pos count : Int) → Int × Int

/-- A call that was passed a position leaves one, with the outcome `P`. -/
def Leaves {α : Type} (r : Int × Option Int × α) (P : Int × Int × α → Prop) : Prop :=
  ∃ ret pos' x, r = (ret, some pos', x) ∧ P (ret, pos', x)

/-- The outcome of a read at `pos` that ends before `limit`: the return value, the position and what
    was read. -/
inductive Reads (i : Inode) (pos limit : Int) : Int × Int × List UInt8 → Prop
  | failed {ret : Int} : ret < 0 → Reads i pos limit (ret, pos, [])
  | moved {bytes : List UInt8} : bytes = slice pos.toNat bytes.length i.data →
      pos + bytes.length ≤ limit → Reads i pos limit (bytes.length, pos + bytes.length, bytes)

/-- The outcome of a write at `pos` that goes to `dest` and ends before `limit`: the return value,
    the position and the inode. -/
inductive Writes (i : Inode) (pos dest limit : Int) (bytes : List UInt8) :
    Int × Int × Inode → Prop
  | failed {ret pos' : Int} : ret < 0 → pos' = pos ∨ pos' = dest →
      Writes i pos dest limit bytes (ret, pos', i)
  | nothing {pos' : Int} : pos' = pos ∨ pos' = dest → Writes i pos dest limit bytes (0, pos', i)
  | moved {n : Nat} {new : List UInt8} : new = bytes.take n → new ≠ [] →
      dest + new.length ≤ limit → Writes i pos dest limit bytes (new.length, dest + new.length,
        { i with data := put 0 dest.toNat new i.data })

/-- The two ranges of a copy of `n` bytes. -/
structure CopyRanges (inodeIn inodeOut : Inode) (posIn posOut n : Int) : Prop where
  rangeIn : Range posIn n
  rangeOut : Range posOut n
  pos : 0 < n
  inFile : posIn + n ≤ inodeIn.size
  disjoint : inodeIn.ino = inodeOut.ino → posIn + n ≤ posOut ∨ posOut + n ≤ posIn

/-- The outcome of a copy of at most `len` bytes: the return value and the inode of the second
    file. -/
inductive Copies (inodeIn inodeOut : Inode) (posIn posOut len : Int) : Int × Inode → Prop
  | nothing {ret : Int} : ret ≤ 0 → Copies inodeIn inodeOut posIn posOut len (ret, inodeOut)
  | moved {n : Nat} : 0 < n → n ≤ len → Copies inodeIn inodeOut posIn posOut len (n,
      { inodeOut with data := put 0 posOut.toNat (slice posIn.toNat n inodeIn.data) inodeOut.data })

/-- The outcome of a splice. What is written is known only if the ranges are those of a copy: a
    splice that overtakes itself may read what it has written. -/
inductive Splices (inodeIn inodeOut : Inode) (posIn posOut len : Int) : Spliced → Prop
  | nothing {ret : Int} : ret ≤ 0 →
      Splices inodeIn inodeOut posIn posOut len ⟨ret, posIn, posOut, inodeOut⟩
  | moved {new : List UInt8} : new ≠ [] → new.length ≤ len →
      (CopyRanges inodeIn inodeOut posIn posOut len →
        new = slice posIn.toNat new.length inodeIn.data) →
      Splices inodeIn inodeOut posIn posOut len ⟨new.length, posIn + new.length,
        posOut + new.length, { inodeOut with data := put 0 posOut.toNat new inodeOut.data }⟩

/-- A splice in the ranges of a copy is a copy. -/
theorem Splices.copies {inodeIn inodeOut : Inode} {posIn posOut len : Int} {s : Spliced}
    (h : Splices inodeIn inodeOut posIn posOut len s)
    (hranges : CopyRanges inodeIn inodeOut posIn posOut len) :
    Copies inodeIn inodeOut posIn posOut len (s.ret, s.inodeOut) := by
  cases h with
  | nothing hret => exact .nothing hret
  | @moved new hnil hle hnew =>
    have hcopies : Copies inodeIn inodeOut posIn posOut len (new.length, { inodeOut with
        data := put 0 posOut.toNat (slice posIn.toNat new.length inodeIn.data) inodeOut.data }) :=
      .moved (List.length_pos_iff.2 hnil) hle
    rwa [← hnew hranges] at hcopies

section

variable {Io : Type} (fsys : FileSystem Io)

/-- What is asked of the file systems, if the request is in the range of positions. -/
structure FileSystem.Lawful : Prop where
  read : ∀ io f i {pos count}, Range pos count →
    Leaves (fsys.read io f i count (some pos)) (Reads i pos (pos + count))
  readIter : ∀ io f i {count} {k : Kiocb}, Range k.pos count →
    Reads i k.pos (k.pos + count) (fsys.readIter io f i k count)
  /-- `->write` writes where it is told to. -/
  write : ∀ io f i {pos bytes}, Range pos bytes.length → Leaves (fsys.write io f i bytes (some pos))
    (Writes i pos pos (pos + bytes.length) bytes)
  /-- `->write_iter` begins with `generic_write_checks`, and returns what they return if they leave
      nothing to be written. -/
  writeIter_checks : ∀ {io fsize f i k k' bytes bytes' ret},
    genericWriteChecks fsize f i k bytes = (ret, k', bytes') → ret ≤ 0 →
      fsys.writeIter io fsize f i k bytes = (ret, k'.pos, i)
  /-- It goes on with what they leave. -/
  writeIter : ∀ {io fsize f i k k' bytes bytes' ret},
    genericWriteChecks fsize f i k bytes = (ret, k', bytes') → 0 < ret →
      Range k'.pos bytes'.length → Writes i k.pos k'.pos (k'.pos + bytes'.length) bytes'
        (fsys.writeIter io fsize f i k bytes)
  copyFileRange : ∀ {io fileIn inodeIn fileOut inodeOut posIn posOut len},
    CopyRanges inodeIn inodeOut posIn posOut len → Copies inodeIn inodeOut posIn posOut len
      (fsys.copyFileRange io fileIn inodeIn fileOut inodeOut posIn posOut len)
  remapFileRange : ∀ {io fileIn inodeIn fileOut inodeOut posIn posOut len},
    CopyRanges inodeIn inodeOut posIn posOut len → Copies inodeIn inodeOut posIn posOut len
      (fsys.remapFileRange io fileIn inodeIn fileOut inodeOut posIn posOut len)
  doSpliceDirect : ∀ {io fileIn inodeIn fileOut inodeOut posIn posOut len},
    Range posIn len → Range posOut len → Splices inodeIn inodeOut posIn posOut len
      (fsys.doSpliceDirect io fileIn inodeIn fileOut inodeOut posIn posOut len)
  /-- `do_splice_direct` refuses to write a file that is open for appending. -/
  doSpliceDirect_append : ∀ io fileIn inodeIn {fileOut} inodeOut posIn posOut len,
    fileOut.append = true → ∃ ret < 0,
      fsys.doSpliceDirect io fileIn inodeIn fileOut inodeOut posIn posOut len =
        ⟨ret, posIn, posOut, inodeOut⟩
  spliceFileToPipe : ∀ io f i {pos count}, Range pos count →
    (fsys.spliceFileToPipe io f i pos count).1 ≤ count ∧
      (fsys.spliceFileToPipe io f i pos count).2 =
        pos + max 0 (fsys.spliceFileToPipe io f i pos count).1

/-- The file systems serve a request in full; a read ends with the file. -/
structure FileSystem.Complete (io : Io) : Prop where
  read : ∀ {f i pos count}, Range pos count →
    (fsys.read io f i count (some pos)).1 = (slice pos.toNat count.toNat i.data).length
  readIter : ∀ {f i count} {k : Kiocb}, Range k.pos count →
    (fsys.readIter io f i k count).1 = (slice k.pos.toNat count.toNat i.data).length
  write : ∀ {f i pos bytes}, Range pos bytes.length →
    (fsys.write io f i bytes (some pos)).1 = bytes.length
  writeIter : ∀ {fsize f i k k' bytes bytes' ret},
    genericWriteChecks fsize f i k bytes = (ret, k', bytes') → 0 < ret →
      Range k'.pos bytes'.length → (fsys.writeIter io fsize f i k bytes).1 = bytes'.length
  copyFileRange : ∀ {fileIn inodeIn fileOut inodeOut posIn posOut len},
    CopyRanges inodeIn inodeOut posIn posOut len →
      (fsys.copyFileRange io fileIn inodeIn fileOut inodeOut posIn posOut len).1 = len
  remapFileRange : ∀ {fileIn inodeIn fileOut inodeOut posIn posOut len},
    CopyRanges inodeIn inodeOut posIn posOut len →
      (fsys.remapFileRange io fileIn inodeIn fileOut inodeOut posIn posOut len).1 = len
  doSpliceDirect : ∀ {fileIn inodeIn fileOut inodeOut posIn posOut len},
    fileOut.append = false → CopyRanges inodeIn inodeOut posIn posOut len →
      (fsys.doSpliceDirect io fileIn inodeIn fileOut inodeOut posIn posOut len).ret = len

end

/-! ## Reading and writing -/

/-- The answers to a call. -/
structure Answers (Io : Type) where
  accessOk : Bool
  hooks : Hooks
  /-- `rlimit(RLIMIT_FSIZE)`. -/
  fsize : SizeT
  io : Io
  deriving DecidableEq, Repr

/-- `file_ppos`. -/
def File.ppos (f : File) : Option Int := if f.mode.stream then none else some f.pos

/-- The position is stored if the call did not fail, and there is one. -/
def File.store (f : File) (ret : Int) (ppos : Option Int) : File :=
  if 0 ≤ ret then { f with pos := ppos.getD f.pos } else f

/-- The memory of a caller, of a size that is a `size_t`. -/
structure Buffer where
  bytes : List UInt8
  length_lt : bytes.length < 18446744073709551616

section

variable {Io : Type} (fsys : FileSystem Io) (a : Answers Io) (f : File) (i : Inode)

def newSyncRead (io : Io) (count : Int) (ppos : Option Int) : Int × Option Int × List UInt8 :=
  match fsys.readIter io f i (.init f ppos) count with
  | (ret, pos, bytes) => (ret, ppos.map fun _ => pos, bytes)

/-- The return value, `*pos` and what was read. -/
def vfsRead (count : Int) (ppos : Option Int) : Int × Option Int × List UInt8 :=
  if f.mode.read = false then (-EBADF, ppos, [])
  else if f.mode.canRead = false then (-EINVAL, ppos, [])
  else if a.accessOk = false then (-EFAULT, ppos, [])
  else if rwVerifyArea a.hooks f ppos count ≠ 0 then (rwVerifyArea a.hooks f ppos count, ppos, [])
  else if f.ops.read then fsys.read a.io f i (min count MAX_RW_COUNT) ppos
  else if f.ops.readIter then newSyncRead fsys f i a.io (min count MAX_RW_COUNT) ppos
  else (-EINVAL, ppos, [])

/-- `ksys_read`, after the file was found: the return value, what was read and the file. -/
def ksysRead (count : SizeT) : Int × List UInt8 × File :=
  match vfsRead fsys a f i count.toNat f.ppos with
  | (ret, ppos, bytes) => (ret, bytes, f.store ret ppos)

def ksysPread64 (count : SizeT) (pos : Int64) : Int × List UInt8 :=
  if pos.toInt < 0 then (-EINVAL, [])
  else if f.mode.pread = false then (-ESPIPE, [])
  else
    match vfsRead fsys a f i count.toNat (some pos.toInt) with
    | (ret, _, bytes) => (ret, bytes)

def newSyncWrite (bytes : List UInt8) (ppos : Option Int) : Int × Option Int × Inode :=
  match fsys.writeIter a.io a.fsize f i (.init f ppos) bytes with
  | (ret, pos, i) => (ret, if 0 < ret then ppos.map fun _ => pos else ppos, i)

/-- The return value, `*pos` and the inode. -/
def vfsWrite (bytes : List UInt8) (ppos : Option Int) : Int × Option Int × Inode :=
  if f.mode.write = false then (-EBADF, ppos, i)
  else if f.mode.canWrite = false then (-EINVAL, ppos, i)
  else if a.accessOk = false then (-EFAULT, ppos, i)
  else if rwVerifyArea a.hooks f ppos bytes.length ≠ 0 then
    (rwVerifyArea a.hooks f ppos bytes.length, ppos, i)
  else if f.ops.write then fsys.write a.io f i (bytes.take MAX_RW_COUNT.toNat) ppos
  else if f.ops.writeIter then newSyncWrite fsys a f i (bytes.take MAX_RW_COUNT.toNat) ppos
  else (-EINVAL, ppos, i)

/-- `ksys_write`, after the file was found: the return value, the file and the inode. -/
def ksysWrite (buf : Buffer) : Int × File × Inode :=
  match vfsWrite fsys a f i buf.bytes f.ppos with
  | (ret, ppos, i) => (ret, f.store ret ppos, i)

def ksysPwrite64 (buf : Buffer) (pos : Int64) : Int × Inode :=
  if pos.toInt < 0 then (-EINVAL, i)
  else if f.mode.pwrite = false then (-ESPIPE, i)
  else
    match vfsWrite fsys a f i buf.bytes (some pos.toInt) with
    | (ret, _, i) => (ret, i)

end

/-- The file has a position, which is in its range, and so is the size of a device. -/
structure File.Ok (f : File) : Prop where
  positioned : f.mode.stream = false
  signedOffset : f.mode.unsignedOffset = false
  pos : Fits63 f.pos
  size : ∀ size, f.ops.llseek = .fixedSize size → Fits63 size

/-- The sizes fit. -/
structure Inode.Ok (i : Inode) : Prop where
  size : Fits63 i.size
  maxbytes : Fits63 i.maxbytes

section

variable {f : File} {i : Inode} {pos count : Int} {bytes : List UInt8}

theorem File.Ok.ppos (hf : f.Ok) : f.ppos = some f.pos := by
  rw [File.ppos, hf.positioned]
  rfl

/-! ## What the checks let pass -/

theorem Hooks.ret_nonpos (h : Hooks) : h.ret ≤ 0 := by
  rw [Hooks.ret]
  split_ifs <;> omega

/-- The hooks refuse by a negative number, as does `rw_verify_area` itself. -/
theorem rwVerifyArea_nonpos {h : Hooks} {ppos : Option Int} : rwVerifyArea h f ppos count ≤ 0 := by
  have hret := h.ret_nonpos
  cases ppos with
  | none =>
    simp only [rwVerifyArea]
    split_ifs
    · decide
    · exact hret
  | some pos =>
    simp only [rwVerifyArea]
    split_ifs <;> first | exact hret | decide

/-- What `rw_verify_area` lets pass is in the range of positions. -/
theorem range_of_rwVerifyArea {h : Hooks} (hf : f.mode.unsignedOffset = false) (hpos : Signed pos)
    (hcount : 0 ≤ count ∧ count < 18446744073709551616)
    (hret : rwVerifyArea h f (some pos) count = 0) : Range pos count := by
  simp only [rwVerifyArea, hf, if_true, and_true] at hret
  split_ifs at hret with hneg hpos' hsum
  iterate 3 exact absurd hret (by decide)
  have hcount' : Fits63 count := by
    simp only [Fits63, Word.MAX]
    rw [signed] at hneg
    omega
  have hpos'' : Fits63 pos := ⟨Int.not_lt.1 hpos', hpos.2⟩
  exact ⟨hpos'', hcount'.1, fits_add hpos'' hcount' (Int.not_lt.1 hsum)⟩

/-- What is in this range is let pass, if the hooks do not object. -/
theorem rwVerifyArea_of_range {h : Hooks} (hrange : Range pos count) (hret : h.ret = 0) :
    rwVerifyArea h f (some pos) count = 0 := by
  have hsum : ¬(pos + count < 0 ∧ f.mode.unsignedOffset = false) :=
    fun hneg => Int.not_lt.2 hrange.stop.1 hneg.1
  simp only [rwVerifyArea, signed_of_fits hrange.length, signed_of_fits hrange.stop,
    if_neg (Int.not_lt.2 hrange.nonneg), if_neg (Int.not_lt.2 hrange.start.1), if_neg hsum, hret]

theorem limitFsize_bounds {fsize : SizeT} {count' : Int} (hpos : Fits63 pos)
    (h : limitFsize fsize pos count = some count') : min count 1 ≤ count' ∧ count' ≤ count := by
  have hlimit : Signed (signed fsize.toNat) := signed_signed
  unfold limitFsize at h
  by_cases hinf : fsize = RLIM_INFINITY
  · rw [if_pos hinf, Option.some.injEq] at h
    omega
  · rw [if_neg hinf] at h
    split_ifs at h with hle
    have hdiff : Fits63 (signed fsize.toNat - pos) := by
      simp only [Fits63, Signed] at hlimit hpos ⊢
      omega
    rw [← Option.some.inj h, signed_of_fits hdiff]
    omega

theorem fits_maxSize (hi : i.Ok) : Fits63 (maxSize f i) := by
  rw [maxSize]
  split_ifs
  · exact hi.maxbytes
  · decide

/-- The count is cut such that the file does not grow over the range of positions, but something
    is left of it. -/
theorem genericWriteCheckLimits_bounds {fsize : SizeT} {count' : Int} (hi : i.Ok)
    (hpos : Fits63 pos) (h : genericWriteCheckLimits fsize f i pos count = (0, count')) :
    min count 1 ≤ count' ∧ count' ≤ count ∧ pos + count' ≤ maxSize f i := by
  have hfits : Fits63 (maxSize f i) := fits_maxSize hi
  rw [genericWriteCheckLimits] at h
  cases hlimit : limitFsize fsize pos count with
  | none =>
    rw [hlimit] at h
    cases h
  | some c =>
    have hc := limitFsize_bounds hpos hlimit
    simp only [hlimit] at h
    split_ifs at h with hmax
    · cases h
    · have hdiff : Fits63 (maxSize f i - pos) := by
        simp only [Fits63] at hfits hpos ⊢
        omega
      obtain ⟨-, rfl⟩ := Prod.mk.injEq .. ▸ h
      rw [signed_of_fits hdiff]
      omega

variable (f i pos count) in
theorem genericWriteCheckLimits_ret (fsize : SizeT) :
    (genericWriteCheckLimits fsize f i pos count).1 ≤ 0 := by
  have hneg : -EFBIG ≤ 0 := by decide
  rw [genericWriteCheckLimits]
  split
  · exact hneg
  · split_ifs
    · exact hneg
    · exact Int.le_refl 0

/-- Where the position of a `kiocb` may be found. -/
theorem Kiocb.pos_toEnd {k : Kiocb} : (k.toEnd i).pos = if k.append then i.size else k.pos := by
  rw [Kiocb.toEnd]
  split_ifs <;> rfl

theorem Kiocb.fits_toEnd {k : Kiocb} (hi : i.Ok) (hk : Fits63 k.pos) : Fits63 (k.toEnd i).pos := by
  rw [Kiocb.pos_toEnd]
  split_ifs
  · exact hi.size
  · exact hk

/-- The position and the count that `generic_write_checks_count` leaves. -/
theorem genericWriteChecksCount_cases {k : Kiocb} (fsize : SizeT) (hi : i.Ok) (hk : Fits63 k.pos)
    (hcount : 0 < count) :
    (∃ ret < 0, ∃ k', (k' = k ∨ k' = k.toEnd i) ∧ ∃ count',
        genericWriteChecksCount fsize f i k count = (ret, k', count')) ∨
      ∃ count', genericWriteChecksCount fsize f i k count = (0, k.toEnd i, count') ∧
        0 < count' ∧ Fits63 ((k.toEnd i).pos + count') := by
  have hswap : -ETXTBSY < 0 := by decide
  have hnowait : -EINVAL < 0 := by decide
  have hdest : Fits63 (k.toEnd i).pos := Kiocb.fits_toEnd hi hk
  have hmaxSize : Fits63 (maxSize f i) := fits_maxSize hi
  rw [genericWriteChecksCount, if_neg (Int.ne_of_gt hcount)]
  split_ifs
  · exact .inl ⟨_, hswap, _, .inl rfl, _, rfl⟩
  · exact .inl ⟨_, hnowait, _, .inr rfl, _, rfl⟩
  · cases hlimits : genericWriteCheckLimits fsize f i (k.toEnd i).pos count with
    | mk ret count' =>
      have hret := genericWriteCheckLimits_ret f i (k.toEnd i).pos count fsize
      rw [hlimits] at hret
      rcases Int.lt_or_eq_of_le hret with hneg | rfl
      · exact .inl ⟨_, hneg, _, .inr rfl, _, rfl⟩
      · obtain ⟨hmin, -, hmax⟩ := genericWriteCheckLimits_bounds hi hdest hlimits
        have hpos' : 0 < count' := by omega
        have hnonneg : 0 ≤ (k.toEnd i).pos + count' := Int.add_nonneg hdest.1 (Int.le_of_lt hpos')
        exact .inr ⟨_, rfl, hpos', hmaxSize.of_le hnonneg hmax⟩

/-- The bytes that `generic_write_checks` leaves, or its error. -/
theorem genericWriteChecks_cases {k : Kiocb} (fsize : SizeT) (hi : i.Ok) (hk : Fits63 k.pos)
    (hbytes : bytes ≠ []) :
    (∃ ret < 0, ∃ k', (k' = k ∨ k' = k.toEnd i) ∧ ∃ r,
        genericWriteChecks fsize f i k bytes = (ret, k', r)) ∨
      ∃ n, bytes.take n ≠ [] ∧ genericWriteChecks fsize f i k bytes =
          (((bytes.take n).length : Int), k.toEnd i, bytes.take n) ∧
        Fits63 ((k.toEnd i).pos + (bytes.take n).length) := by
  have hcount : 0 < (bytes.length : Int) := Int.natCast_pos.2 (List.length_pos_iff.2 hbytes)
  rcases genericWriteChecksCount_cases (f := f) fsize hi hk hcount with hneg | hok
  · obtain ⟨ret, hneg, k', hk', count', hchecks⟩ := hneg
    have hne : ret ≠ 0 := Int.ne_of_lt hneg
    simp only [genericWriteChecks, hchecks, if_pos hne]
    exact .inl ⟨ret, hneg, k', hk', _, rfl⟩
  · obtain ⟨count', hchecks, hcount', hsum⟩ := hok
    have hdest := (Kiocb.fits_toEnd hi hk).1
    have hfits : Fits63 count' := hsum.of_le (Int.le_of_lt hcount') (by omega)
    simp only [genericWriteChecks, hchecks, ne_eq, not_true_eq_false, if_false,
      unsigned_of_fits hfits]
    have hlen : ((bytes.take count'.toNat).length : Int) ≤ count' := by
      rw [List.length_take]
      omega
    have hnil : bytes.take count'.toNat ≠ [] := by
      rw [ne_eq, List.take_eq_nil_iff]
      exact not_or.2 ⟨by omega, hbytes⟩
    exact .inr ⟨_, hnil, rfl, hsum.of_le (by omega) (Int.add_le_add_left hlen _)⟩

theorem genericWriteChecks_nil {k : Kiocb} (fsize : SizeT) :
    genericWriteChecks fsize f i k [] = (if i.swapfile then -ETXTBSY else 0, k, []) := by
  cases hswap : i.swapfile <;> simp [genericWriteChecks, genericWriteChecksCount, hswap, ETXTBSY]

/-- Room is left for all of it. -/
theorem genericWriteCheckLimits_of_room (hi : i.Ok) (hpos : Fits63 pos) (hcount : 0 < count)
    (hroom : pos + count ≤ maxSize f i) :
    genericWriteCheckLimits RLIM_INFINITY f i pos count = (0, count) := by
  have hdiff : Fits63 (maxSize f i - pos) := by
    have hpos' := hpos.1
    exact (fits_maxSize (f := f) hi).of_le (by omega) (by omega)
  have hmin : min count (maxSize f i - pos) = count := min_eq_left (by omega)
  rw [genericWriteCheckLimits, limitFsize, if_pos rfl]
  simp only [if_neg (show ¬maxSize f i ≤ pos by omega), signed_of_fits hdiff, hmin]

theorem genericWriteChecks_of_room {k : Kiocb} (hi : i.Ok) (hk : Fits63 k.pos)
    (hbytes : bytes ≠ []) (hswap : i.swapfile = false) (hnowait : k.nowait = false)
    (hroom : (k.toEnd i).pos + bytes.length ≤ maxSize f i) :
    genericWriteChecks RLIM_INFINITY f i k bytes = ((bytes.length : Int), k.toEnd i, bytes) := by
  have hcount : 0 < (bytes.length : Int) := Int.natCast_pos.2 (List.length_pos_iff.2 hbytes)
  have hdest : Fits63 (k.toEnd i).pos := Kiocb.fits_toEnd hi hk
  have hlen : Fits63 (bytes.length : Int) := by
    have hdest' := hdest.1
    exact (fits_maxSize (f := f) hi).of_le (Int.le_of_lt hcount) (by omega)
  have hnowait' : (k.toEnd i).nowait = false := by
    rw [Kiocb.toEnd]
    split_ifs <;> exact hnowait
  have hchecks : genericWriteChecksCount RLIM_INFINITY f i k bytes.length =
      (0, k.toEnd i, (bytes.length : Int)) := by
    simp [genericWriteChecksCount, hswap, hnowait', hbytes,
      genericWriteCheckLimits_of_room hi hdest hcount hroom]
  simp only [genericWriteChecks, hchecks, ne_eq, not_true_eq_false, if_false,
    unsigned_of_fits hlen, Int.toNat_natCast, List.take_length]

end

/-! ## What reading and writing can do -/

section

variable {Io : Type} {fsys : FileSystem Io} {a : Answers Io} {io : Io} {f : File} {i : Inode}
  {pos count limit : Int} {bytes : List UInt8}

theorem Leaves.mono {α : Type} {r : Int × Option Int × α} {P Q : Int × Int × α → Prop}
    (h : Leaves r P) (hPQ : ∀ {r}, P r → Q r) : Leaves r Q := by
  obtain ⟨ret, pos', x, hr, hP⟩ := h
  exact ⟨ret, pos', x, hr, hPQ hP⟩

theorem Reads.mono {limit' : Int} {r : Int × Int × List UInt8} (hle : limit ≤ limit')
    (h : Reads i pos limit r) : Reads i pos limit' r := by
  cases h with
  | failed hneg => exact .failed hneg
  | moved hbytes hlimit => exact .moved hbytes (Int.le_trans hlimit hle)

theorem Reads.nothing (hpos : pos ≤ limit) : Reads i pos limit (0, pos, []) := by
  have h : Reads i pos limit (0, pos + 0, []) := .moved slice_zero.symm (by simpa using hpos)
  rwa [Int.add_zero] at h

/-- A count is cut to `MAX_RW_COUNT`. -/
theorem range_min (h : Range pos count) : Range pos (min count MAX_RW_COUNT) :=
  h.of_le (le_min h.nonneg (by decide)) (min_le_left _ _)

theorem reads_newSyncRead (io : Io) (f : File) (i : Inode) (hfsys : fsys.Lawful)
    (hrange : Range pos count) :
    Leaves (newSyncRead fsys f i io count (some pos)) (Reads i pos (pos + count)) :=
  ⟨_, _, _, rfl, hfsys.readIter io f i (k := .init f (some pos)) hrange⟩

theorem reads_vfsRead (hfsys : fsys.Lawful) (hf : f.Ok) (hpos : Fits63 pos)
    (hcount : 0 ≤ count ∧ count < 18446744073709551616) :
    Leaves (vfsRead fsys a f i count (some pos)) (Reads i pos Word.MAX) := by
  rw [vfsRead]
  split_ifs with h1 h2 h3 h4 h5 h6
  iterate 3 exact ⟨_, _, _, rfl, .failed (by decide)⟩
  · exact ⟨_, _, _, rfl, .failed (lt_of_le_of_ne rwVerifyArea_nonpos h4)⟩
  all_goals
    have hrange := range_min (range_of_rwVerifyArea hf.signedOffset hpos.signed hcount
      (not_ne_iff.1 h4))
  · exact (hfsys.read _ _ _ hrange).mono (Reads.mono hrange.stop.2)
  · exact (reads_newSyncRead _ _ _ hfsys hrange).mono (Reads.mono hrange.stop.2)
  · exact ⟨_, _, _, rfl, .failed (by decide)⟩

theorem Writes.mono {dest limit' : Int} {r : Int × Int × Inode} (hle : limit ≤ limit')
    (h : Writes i pos dest limit bytes r) : Writes i pos dest limit' bytes r := by
  cases h with
  | failed hneg h => exact .failed hneg h
  | nothing h => exact .nothing h
  | moved hnew hnil hlimit => exact .moved hnew hnil (Int.le_trans hlimit hle)

theorem Writes.of_take {dest : Int} {n : Nat} {r : Int × Int × Inode}
    (h : Writes i pos dest limit (bytes.take n) r) : Writes i pos dest limit bytes r := by
  cases h with
  | failed hneg h => exact .failed hneg h
  | nothing h => exact .nothing h
  | moved hnew hnil hlimit =>
    rw [List.take_take] at hnew
    exact .moved hnew hnil hlimit

theorem writes_writeIter {k : Kiocb} {fsize : SizeT} (hfsys : fsys.Lawful) (hi : i.Ok)
    (hk : Fits63 k.pos) : Writes i k.pos (k.toEnd i).pos Word.MAX bytes
      (fsys.writeIter io fsize f i k bytes) := by
  by_cases hbytes : bytes = []
  · have hchecks := genericWriteChecks_nil (f := f) (i := i) (k := k) fsize
    rw [hbytes]
    cases hswap : i.swapfile with
    | true =>
      rw [hswap, if_pos rfl] at hchecks
      rw [hfsys.writeIter_checks hchecks (by decide)]
      exact .failed (by decide) (.inl rfl)
    | false =>
      rw [hswap, if_neg Bool.false_ne_true] at hchecks
      rw [hfsys.writeIter_checks hchecks (Int.le_refl 0)]
      exact .nothing (.inl rfl)
  · rcases genericWriteChecks_cases (f := f) fsize hi hk hbytes with hneg | hok
    · obtain ⟨ret, hneg, k', hk', r, hchecks⟩ := hneg
      rw [hfsys.writeIter_checks hchecks (Int.le_of_lt hneg)]
      rcases hk' with rfl | rfl
      · exact .failed hneg (.inl rfl)
      · exact .failed hneg (.inr rfl)
    · obtain ⟨n, hnil, hchecks, hfits⟩ := hok
      have hlen : 0 < ((bytes.take n).length : Int) :=
        Int.natCast_pos.2 (List.length_pos_iff.2 hnil)
      have hrange : Range (k.toEnd i).pos (bytes.take n).length :=
        ⟨Kiocb.fits_toEnd hi hk, Int.le_of_lt hlen, hfits⟩
      exact ((hfsys.writeIter hchecks hlen hrange).mono hrange.stop.2).of_take

/-- Where a write goes: `O_APPEND` is looked at in `generic_write_checks` only. -/
def writePos (f : File) (i : Inode) (pos : Int) : Int :=
  if f.ops.write = false ∧ f.append then i.size else pos

theorem writePos_of_write (h : f.ops.write = true) : writePos f i pos = pos := by
  rw [writePos, h]
  exact if_neg fun h => absurd h.1 (by decide)

theorem pos_toEnd_init (h : f.ops.write = false) :
    ((Kiocb.init f (some pos)).toEnd i).pos = writePos f i pos := by
  rw [Kiocb.pos_toEnd, writePos]
  exact if_congr (by simp [Kiocb.init, h]) rfl rfl

/-- `new_sync_write` keeps the position of a write that moved nothing. -/
theorem writes_newSyncWrite (hfsys : fsys.Lawful) (hops : f.ops.write = false) (hi : i.Ok)
    (hpos : Fits63 pos) : Leaves (newSyncWrite fsys a f i bytes (some pos))
      (Writes i pos (writePos f i pos) Word.MAX bytes) := by
  have hwrites : Writes i pos (writePos f i pos) Word.MAX bytes
      (fsys.writeIter a.io a.fsize f i (.init f (some pos)) bytes) := by
    rw [← pos_toEnd_init hops]
    exact writes_writeIter (k := .init f (some pos)) hfsys hi hpos
  rw [newSyncWrite]
  cases hr : fsys.writeIter a.io a.fsize f i (.init f (some pos)) bytes with
  | mk ret r =>
    rw [hr] at hwrites
    by_cases hret : 0 < ret
    · simp only [if_pos hret]
      exact ⟨_, _, _, rfl, hwrites⟩
    · simp only [if_neg hret]
      refine ⟨_, _, _, rfl, ?_⟩
      cases hwrites with
      | failed hneg _ => exact .failed hneg (.inl rfl)
      | nothing _ => exact .nothing (.inl rfl)
      | moved hnew hnil hsum => exact absurd (Int.natCast_pos.2 (List.length_pos_iff.2 hnil)) hret

theorem writes_vfsWrite (hfsys : fsys.Lawful) (hf : f.Ok) (hi : i.Ok) (hpos : Fits63 pos)
    (hlen : bytes.length < 18446744073709551616) :
    Leaves (vfsWrite fsys a f i bytes (some pos))
      (Writes i pos (writePos f i pos) Word.MAX bytes) := by
  rw [vfsWrite]
  split_ifs with h1 h2 h3 h4 h5 h6
  iterate 3 exact ⟨_, _, _, rfl, .failed (by decide) (.inl rfl)⟩
  · exact ⟨_, _, _, rfl, .failed (lt_of_le_of_ne rwVerifyArea_nonpos h4) (.inl rfl)⟩
  · have hrange : Range pos (bytes.take MAX_RW_COUNT.toNat).length := by
      refine (range_of_rwVerifyArea hf.signedOffset hpos.signed ⟨Int.natCast_nonneg _, by omega⟩
        (not_ne_iff.1 h4)).of_le (Int.natCast_nonneg _) ?_
      rw [List.length_take]
      omega
    rw [writePos_of_write h5]
    exact (hfsys.write _ _ _ hrange).mono fun h => (h.mono hrange.stop.2).of_take
  · exact (writes_newSyncWrite hfsys (Bool.eq_false_iff.2 h5) hi hpos).mono Writes.of_take
  · exact ⟨_, _, _, rfl, .failed (by decide) (.inl rfl)⟩

theorem fits_writePos (hi : i.Ok) (hpos : Fits63 pos) : Fits63 (writePos f i pos) := by
  rw [writePos]
  split_ifs
  · exact hi.size
  · exact hpos

/-! Positions and sizes stay in their range. -/

theorem fits_length_put {new : List UInt8} (hi : Fits63 i.size) (hpos : Fits63 pos)
    (hsum : pos + new.length ≤ Word.MAX) :
    Fits63 ((put 0 pos.toNat new i.data).length : Int) := by
  rcases eq_or_ne new [] with rfl | hnew
  · exact hi
  · rw [length_put hnew]
    simp only [Fits63, Inode.size] at *
    omega

theorem Reads.fits {ret pos' : Int} (hpos : Fits63 pos)
    (h : Reads i pos Word.MAX (ret, pos', bytes)) : Fits63 pos' := by
  cases h with
  | failed _ => exact hpos
  | moved _ hlimit => exact ⟨Int.add_nonneg hpos.1 (Int.natCast_nonneg _), hlimit⟩

theorem Writes.fits {ret pos' dest : Int} {i' : Inode} (hi : i.Ok) (hpos : Fits63 pos)
    (hdest : Fits63 dest) (h : Writes i pos dest Word.MAX bytes (ret, pos', i')) :
    Fits63 pos' ∧ i'.Ok := by
  cases h with
  | failed _ hpos' => exact ⟨by rcases hpos' with rfl | rfl <;> assumption, hi⟩
  | nothing hpos' => exact ⟨by rcases hpos' with rfl | rfl <;> assumption, hi⟩
  | moved _ _ hlimit =>
    exact ⟨⟨Int.add_nonneg hdest.1 (Int.natCast_nonneg _), hlimit⟩,
      fits_length_put hi.size hdest hlimit, hi.maxbytes⟩

theorem fits_store {ret pos' : Int} (hpos : Fits63 f.pos) (hpos' : Fits63 pos') :
    Fits63 (f.store ret (some pos')).pos := by
  rw [File.store]
  split_ifs
  · exact hpos'
  · exact hpos

/-! ## Requests that are served in full -/

/-- The file was opened for reading, and can be read, at any place. -/
structure File.Readable (f : File) : Prop where
  read : f.mode.read = true
  canRead : f.mode.canRead = true
  pread : f.mode.pread = true
  ops : (f.ops.read || f.ops.readIter) = true

/-- The file was opened for writing, and can be written, at any place; it has one function for
    it. -/
structure File.Writable (f : File) : Prop where
  write : f.mode.write = true
  canWrite : f.mode.canWrite = true
  pwrite : f.mode.pwrite = true
  ops : f.ops.write = !f.ops.writeIter

/-- No one objects, and the file system serves the request in full. -/
structure Answers.Grants (fsys : FileSystem Io) (a : Answers Io) : Prop where
  accessOk : a.accessOk = true
  hooks : a.hooks.ret = 0
  fsize : a.fsize = RLIM_INFINITY
  complete : fsys.Complete a.io

/-- What a read delivers is known from what it returns. -/
theorem Reads.eq_of_ret {ret pos' : Int} {n : Nat} (h : Reads i pos limit (ret, pos', bytes))
    (hret : ret = (slice pos.toNat n i.data).length) :
    bytes = slice pos.toNat n i.data ∧ pos' = pos + (slice pos.toNat n i.data).length := by
  cases h with
  | failed hneg => exact absurd (hret ▸ Int.natCast_nonneg _) (Int.not_le.2 hneg)
  | moved hbytes _ =>
    have hslice : bytes = slice pos.toNat n i.data := by
      rw [hbytes, Int.natCast_inj.1 hret, slice_length_slice]
    exact ⟨hslice, by rw [← hslice]⟩

theorem read_complete (hfsys : fsys.Lawful) (hio : fsys.Complete io) (hrange : Range pos count) :
    fsys.read io f i count (some pos) = (((slice pos.toNat count.toNat i.data).length : Int),
      some (pos + (slice pos.toNat count.toNat i.data).length),
      slice pos.toNat count.toNat i.data) := by
  obtain ⟨ret, pos', bytes, hr, hreads⟩ := hfsys.read io f i hrange
  have hret : ret = _ := (congrArg Prod.fst hr).symm.trans (hio.read hrange)
  obtain ⟨hbytes, hpos'⟩ := hreads.eq_of_ret hret
  rw [hr, hret, hbytes, hpos']

theorem newSyncRead_complete (hfsys : fsys.Lawful) (hio : fsys.Complete io)
    (hrange : Range pos count) : newSyncRead fsys f i io count (some pos) =
      (((slice pos.toNat count.toNat i.data).length : Int),
        some (pos + (slice pos.toNat count.toNat i.data).length),
        slice pos.toNat count.toNat i.data) := by
  obtain ⟨ret, pos', bytes, hr, hreads⟩ := reads_newSyncRead io f i hfsys hrange
  have hret : ret = (slice pos.toNat count.toNat i.data).length :=
    (congrArg Prod.fst hr).symm.trans (hio.readIter (k := .init f (some pos)) hrange)
  obtain ⟨hbytes, hpos'⟩ := hreads.eq_of_ret hret
  rw [hr, hret, hbytes, hpos']

/-- A read delivers what there is from its position on. -/
theorem vfsRead_granted (hfsys : fsys.Lawful) (hf : f.Readable) (ha : a.Grants fsys)
    (hrange : Range pos count) (hle : count ≤ MAX_RW_COUNT) :
    vfsRead fsys a f i count (some pos) = (((slice pos.toNat count.toNat i.data).length : Int),
      some (pos + (slice pos.toNat count.toNat i.data).length),
      slice pos.toNat count.toNat i.data) := by
  have hops := hf.ops
  simp only [vfsRead, hf.read, hf.canRead, ha.accessOk, rwVerifyArea_of_range hrange ha.hooks,
    min_eq_left hle, Bool.true_eq_false, if_false, ne_eq, not_true_eq_false]
  split_ifs with hread hiter
  · exact read_complete hfsys ha.complete hrange
  · exact newSyncRead_complete hfsys ha.complete hrange
  · rw [Bool.eq_false_iff.2 hread, Bool.eq_false_iff.2 hiter] at hops
    cases hops

/-- What a write does is known if it returns that everything was written. -/
theorem Writes.eq_of_ret {ret pos' dest : Int} {i' : Inode}
    (h : Writes i pos dest limit bytes (ret, pos', i')) (hret : ret = bytes.length)
    (hnil : bytes = [] → pos = dest) :
    pos' = dest + bytes.length ∧ i' = { i with data := put 0 dest.toNat bytes i.data } := by
  cases h with
  | failed hneg _ => exact absurd (hret ▸ Int.natCast_nonneg _) (Int.not_le.2 hneg)
  | nothing hpos' =>
    obtain rfl : bytes = [] := List.eq_nil_of_length_eq_zero (by omega)
    rw [hnil rfl, or_self] at hpos'
    rw [put_nil, hpos']
    exact ⟨(Int.add_zero dest).symm, rfl⟩
  | moved hnew _ _ =>
    rw [hnew, List.length_take] at hret
    rw [hnew, List.take_of_length_le (by omega)]
    exact ⟨rfl, rfl⟩

theorem write_complete (hfsys : fsys.Lawful) (hio : fsys.Complete io)
    (hrange : Range pos bytes.length) : fsys.write io f i bytes (some pos) =
      ((bytes.length : Int), some (pos + bytes.length),
        { i with data := put 0 pos.toNat bytes i.data }) := by
  obtain ⟨ret, pos', i', hr, hwrites⟩ := hfsys.write io f i hrange
  have hret : ret = _ := (congrArg Prod.fst hr).symm.trans (hio.write hrange)
  obtain ⟨hpos', hi'⟩ := hwrites.eq_of_ret hret fun _ => rfl
  rw [hr, hret, hpos', hi']

theorem writeIter_complete {k : Kiocb} (hfsys : fsys.Lawful) (hio : fsys.Complete io) (hi : i.Ok)
    (hk : Fits63 k.pos) (hswap : i.swapfile = false) (hnowait : k.nowait = false)
    (hroom : (k.toEnd i).pos + bytes.length ≤ maxSize f i) :
    (fsys.writeIter io RLIM_INFINITY f i k bytes).1 = bytes.length := by
  by_cases hbytes : bytes = []
  · have hchecks := genericWriteChecks_nil (f := f) (i := i) (k := k) RLIM_INFINITY
    rw [hswap, if_neg Bool.false_ne_true] at hchecks
    rw [hbytes, hfsys.writeIter_checks hchecks (Int.le_refl 0)]
    rfl
  · have hlen : 0 < (bytes.length : Int) := Int.natCast_pos.2 (List.length_pos_iff.2 hbytes)
    have hdest : Fits63 (k.toEnd i).pos := Kiocb.fits_toEnd hi hk
    have hrange : Range (k.toEnd i).pos bytes.length :=
      ⟨hdest, Int.le_of_lt hlen,
        (fits_maxSize hi).of_le (Int.add_nonneg hdest.1 (Int.le_of_lt hlen)) hroom⟩
    exact hio.writeIter (genericWriteChecks_of_room hi hk hbytes hswap hnowait hroom) hlen hrange

/-- A write takes all it is given, if there is room for it. -/
theorem vfsWrite_granted (hfsys : fsys.Lawful) (hf : f.Writable) (hi : i.Ok) (ha : a.Grants fsys)
    (hrange : Range pos bytes.length) (hle : bytes.length ≤ MAX_RW_COUNT)
    (hswap : i.swapfile = false) (hroom : writePos f i pos + bytes.length ≤ maxSize f i) :
    (vfsWrite fsys a f i bytes (some pos)).1 = bytes.length := by
  have hops := hf.ops
  have htake : bytes.take MAX_RW_COUNT.toNat = bytes := List.take_of_length_le (by omega)
  simp only [vfsWrite, hf.write, hf.canWrite, ha.accessOk, rwVerifyArea_of_range hrange ha.hooks,
    htake, Bool.true_eq_false, if_false, ne_eq, not_true_eq_false]
  split_ifs with hwrite hiter
  · exact congrArg Prod.fst (write_complete hfsys ha.complete hrange)
  · rw [← pos_toEnd_init (Bool.eq_false_iff.2 hwrite)] at hroom
    rw [newSyncWrite, ha.fsize]
    exact writeIter_complete (k := .init f (some pos)) hfsys ha.complete hi hrange.start hswap rfl
      hroom
  · rw [Bool.eq_false_iff.2 hwrite, Bool.eq_false_iff.2 hiter] at hops
    cases hops

end

end Files

end LuisKernel
