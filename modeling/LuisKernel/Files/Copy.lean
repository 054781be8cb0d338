import LuisKernel.Files.Memory

/-!
# Copies between files

`copy_file_range` and `sendfile`, which move bytes from one file to another inside the kernel. The
two may be the same file.

The checks of `generic_copy_file_checks` are in mixed arithmetic: positions are signed, the count
is unsigned, and it is passed as a signed number to `generic_write_check_limits`. What they let
pass, together with `rw_verify_area`, is nevertheless as it should be (`copy_checked`): both ranges
are ranges of positions, the one that is read lies in the file, and they do not overlap if the file
is the same. These are the copies that file systems are asked for. So a copy copies (`copy_exact`),
and it copies everything if no one objects (`ret_vfsCopyFileRange`).
-/

namespace LuisKernel

namespace Files

open Word Extent

def EXDEV : Int := 18
def EISDIR : Int := 21

/-- The answers to a copy: those of `rw_verify_area` for the two files, and what the answers of the
    file systems depend on. -/
structure CopyAnswers (Io : Type) where
  hooksIn : Hooks
  hooksOut : Hooks
  fsize : SizeT
  copyFileRange : Io
  remapFileRange : Io
  splice : Io

section

variable (fileIn : File) (inodeIn : Inode) (fileOut : File) (inodeOut : Inode)

def genericFileRwChecks : Int :=
  if inodeIn.kind = .directory ∨ inodeOut.kind = .directory then -EISDIR
  else if inodeIn.kind ≠ .regular ∨ inodeOut.kind ≠ .regular then -EINVAL
  else if fileIn.mode.read = false ∨ fileOut.mode.write = false ∨ fileOut.append then -EBADF
  else 0

/-- The files are of the same file system, or of one that copies to others. -/
def copiesTo (splice : Bool) : Bool :=
  splice || (match fileOut.ops.copyFileRange with
    | some copy => fileIn.ops.copyFileRange = some copy
    | none => inodeIn.sb = inodeOut.sb)

/-- The copy is cut at the end of the file. -/
def shortenToEof (posIn count : Int) : Int :=
  if inodeIn.size ≤ posIn then 0 else min count (unsigned (inodeIn.size - posIn))

/-- The return value and the count. -/
def genericCopyFileChecks (fsize : SizeT) (posIn posOut count : Int) (splice : Bool) : Int × Int :=
  if genericFileRwChecks fileIn inodeIn fileOut inodeOut ≠ 0 then
    (genericFileRwChecks fileIn inodeIn fileOut inodeOut, count)
  else if copiesTo fileIn inodeIn fileOut inodeOut splice = false then (-EXDEV, count)
  else if inodeOut.immutable then (-EPERM, count)
  else if inodeIn.swapfile || inodeOut.swapfile then (-ETXTBSY, count)
  else if unsigned (posIn + count) < unsigned posIn ∨ unsigned (posOut + count) < unsigned posOut
  then (-EOVERFLOW, count)
  else
    -- `&count` is passed as a pointer to a signed number
    match genericWriteCheckLimits fsize fileOut inodeOut posOut
      (signed (shortenToEof inodeIn posIn count)) with
    | (ret, left) =>
      if ret ≠ 0 then (ret, count)
      else if inodeIn.ino = inodeOut.ino ∧ unsigned posIn < unsigned (posOut + left) ∧
          unsigned posOut < unsigned (posIn + left) then (-EINVAL, count)
      else (0, unsigned left)

end

section

variable {Io : Type} (fsys : FileSystem Io) (a : CopyAnswers Io) (fileIn : File) (inodeIn : Inode)
  (fileOut : File) (inodeOut : Inode)

/-- The splice at the end of `vfs_copy_file_range`. -/
def copySplice (posIn posOut len : Int) : Int × Inode :=
  let s := fsys.doSpliceDirect a.splice fileIn inodeIn fileOut inodeOut posIn posOut
    (min len MAX_RW_COUNT)
  (s.ret, s.inodeOut)

/-- The transfer: the file system's own function, a clone that falls back to a splice, or a
    splice. -/
def copyRange (posIn posOut len : Int) (splice : Bool) : Int × Inode :=
  if splice = false ∧ fileOut.ops.copyFileRange.isSome then
    fsys.copyFileRange a.copyFileRange fileIn inodeIn fileOut inodeOut posIn posOut len
  else if splice = false ∧ fileIn.ops.remapFileRange ∧ inodeIn.sb = inodeOut.sb then
    let r := fsys.remapFileRange a.remapFileRange fileIn inodeIn fileOut inodeOut posIn posOut
      (min MAX_RW_COUNT len)
    if r.1 ≤ 0 then copySplice fsys a fileIn inodeIn fileOut r.2 posIn posOut len else r
  else if splice ∨ inodeIn.sb = inodeOut.sb then
    copySplice fsys a fileIn inodeIn fileOut inodeOut posIn posOut len
  else (0, inodeOut)

/-- The return value and the inode of the second file. -/
def vfsCopyFileRange (posIn posOut len : Int) (splice others : Bool) : Int × Inode :=
  if others then (-EINVAL, inodeOut)
  else
    match genericCopyFileChecks fileIn inodeIn fileOut inodeOut a.fsize posIn posOut len splice with
    | (ret, len) =>
      if ret ≠ 0 then (ret, inodeOut)
      else if rwVerifyArea a.hooksIn fileIn (some posIn) len ≠ 0 then
        (rwVerifyArea a.hooksIn fileIn (some posIn) len, inodeOut)
      else if rwVerifyArea a.hooksOut fileOut (some posOut) len ≠ 0 then
        (rwVerifyArea a.hooksOut fileOut (some posOut) len, inodeOut)
      else if len = 0 then (0, inodeOut)
      else copyRange fsys a fileIn inodeIn fileOut inodeOut posIn posOut len splice

end

/-- Whether the offsets of the caller can be read and written. -/
structure CopyUser where
  fromIn : Bool
  fromOut : Bool
  toIn : Bool
  toOut : Bool

/-- What a copy leaves: the return value, the positions to be stored in the first and in the second
    file, and the inode of the second. -/
structure Copied where
  ret : Int
  posIn : Option Int
  posOut : Option Int
  inodeOut : Inode

section

variable {Io : Type} (fsys : FileSystem Io) (a : CopyAnswers Io) (fileIn : File) (inodeIn : Inode)
  (fileOut : File) (inodeOut : Inode)

/-- The end of `copy_file_range`: positions that the caller did not give are those of the files. -/
def copyStored (u : CopyUser) (offIn offOut : Option Int64) (posIn posOut : Int) :
    Int × Inode → Copied
  | (ret, inodeOut) =>
    if ret ≤ 0 then ⟨ret, none, none, inodeOut⟩
    else
      { ret := if offIn.isSome ∧ u.toIn = false ∨ offOut.isSome ∧ u.toOut = false then -EFAULT
          else ret
        posIn := if offIn.isSome then none else some (signed (posIn + ret))
        posOut := if offOut.isSome then none else some (signed (posOut + ret))
        inodeOut := inodeOut }

/-- The system call `copy_file_range`, after the files were found. -/
def copyFileRange (u : CopyUser) (offIn offOut : Option Int64) (len : SizeT) (flags : UInt32) :
    Copied :=
  let posIn := (offIn.map Int64.toInt).getD fileIn.pos
  let posOut := (offOut.map Int64.toInt).getD fileOut.pos
  if offIn.isSome ∧ u.fromIn = false then ⟨-EFAULT, none, none, inodeOut⟩
  else if offOut.isSome ∧ u.fromOut = false then ⟨-EFAULT, none, none, inodeOut⟩
  else if flags ≠ 0 then ⟨-EINVAL, none, none, inodeOut⟩
  else copyStored u offIn offOut posIn posOut
    (vfsCopyFileRange fsys a fileIn inodeIn fileOut inodeOut posIn posOut len.toNat false false)

/-- The count of `do_sendfile`, cut at the greatest position; there is none if the position is
    behind it. -/
def sendfileCount (pos count max : Int) : Option Int :=
  if unsigned max < unsigned (pos + count) then
    if max ≤ pos then none else some (unsigned (max - pos))
  else some count

/-- The transfer of `do_sendfile`, to a pipe or to a file. -/
def sendfileSplice (pos count : Int) : Spliced :=
  if inodeOut.kind = .pipe then
    match fsys.spliceFileToPipe a.splice fileIn inodeIn pos count with
    | (ret, pos) => ⟨ret, pos, fileOut.pos, inodeOut⟩
  else fsys.doSpliceDirect a.splice fileIn inodeIn fileOut inodeOut pos fileOut.pos count

/-- Where `do_sendfile` reads. -/
def sendfilePos (ppos : Option Int64) : Int := (ppos.map Int64.toInt).getD fileIn.pos

/-- The checks of `do_sendfile` before it looks for the second file. -/
def sendfileIn (ppos : Option Int64) (count : SizeT) : Int :=
  if fileIn.mode.read = false then -EBADF
  else if ppos.isSome ∧ fileIn.mode.pread = false then -ESPIPE
  else rwVerifyArea a.hooksIn fileIn (some (sendfilePos fileIn ppos)) count.toNat

/-- The end of `do_sendfile`: a position that the caller gave is not stored in the file. -/
def sendfileStored (ppos : Option Int64) (max : Int) (s : Spliced) : Copied where
  ret := if max < s.posIn then -EOVERFLOW else s.ret
  posIn := if 0 < s.ret ∧ ppos.isNone then some s.posIn else none
  posOut := if 0 < s.ret then some s.posOut else none
  inodeOut := s.inodeOut

/-- `do_sendfile`, after the files were found. -/
def doSendfile (ppos : Option Int64) (count : SizeT) (max : Int) : Copied :=
  let pos := sendfilePos fileIn ppos
  let max := if max = 0 then min inodeIn.maxbytes inodeOut.maxbytes else max
  if sendfileIn a fileIn ppos count < 0 then
    ⟨sendfileIn a fileIn ppos count, none, none, inodeOut⟩
  else if fileOut.mode.write = false then ⟨-EBADF, none, none, inodeOut⟩
  else
    match sendfileCount pos (min count.toNat MAX_RW_COUNT) max with
    | none => ⟨-EOVERFLOW, none, none, inodeOut⟩
    | some count =>
      if inodeOut.kind ≠ .pipe ∧ rwVerifyArea a.hooksOut fileOut (some fileOut.pos) count < 0 then
        ⟨rwVerifyArea a.hooksOut fileOut (some fileOut.pos) count, none, none, inodeOut⟩
      else sendfileStored ppos max (sendfileSplice fsys a fileIn inodeIn fileOut inodeOut pos count)

end

/-! ## What the checks let pass -/

section

variable {fileIn : File} {inodeIn : Inode} {fileOut : File} {inodeOut : Inode} {fsize : SizeT}
  {posIn posOut count left : Int} {splice : Bool}

theorem genericCopyFileChecks_cases {len : Int}
    (h : genericCopyFileChecks fileIn inodeIn fileOut inodeOut fsize posIn posOut count splice =
      (0, len)) :
    ∃ left, genericWriteCheckLimits fsize fileOut inodeOut posOut
        (signed (shortenToEof inodeIn posIn count)) = (0, left) ∧ len = unsigned left ∧
      ¬(inodeIn.ino = inodeOut.ino ∧ unsigned posIn < unsigned (posOut + left) ∧
        unsigned posOut < unsigned (posIn + left)) := by
  rw [genericCopyFileChecks] at h
  split_ifs at h with h1 h2 h3 h4 h5
  · exact absurd (Prod.mk.inj h).1 h1
  iterate 4 exact absurd (Prod.mk.inj h).1 (by decide)
  cases hlimits : genericWriteCheckLimits fsize fileOut inodeOut posOut
      (signed (shortenToEof inodeIn posIn count)) with
  | mk ret left =>
    simp only [hlimits] at h
    split_ifs at h with hret hoverlap
    · exact absurd (Prod.mk.inj h).1 hret
    · exact absurd (Prod.mk.inj h).1 (by decide)
    · exact ⟨left, by rw [not_ne_iff.1 hret], (Prod.mk.inj h).2.symm, hoverlap⟩

/-- The count is not more than what is left of the file. -/
theorem shortenToEof_bounds (hsize : Fits63 inodeIn.size) (hpos : Fits63 posIn)
    (hcount : 0 ≤ count) :
    Fits63 (shortenToEof inodeIn posIn count) ∧
      (shortenToEof inodeIn posIn count ≠ 0 →
        posIn + shortenToEof inodeIn posIn count ≤ inodeIn.size) := by
  rw [shortenToEof]
  split_ifs with heof
  · exact ⟨by decide, fun h => absurd rfl h⟩
  · have hdiff : Fits63 (inodeIn.size - posIn) := by
      simp only [Fits63] at hsize hpos ⊢
      omega
    rw [unsigned_of_fits hdiff]
    exact ⟨hdiff.of_le (by have := hdiff.1; omega) (by omega), fun _ => by omega⟩

/-- What the checks let pass, together with `rw_verify_area`. -/
theorem copy_checked {hooksIn hooksOut : Hooks} {len : Int} (hin : fileIn.Ok) (hout : fileOut.Ok)
    (hsize : Fits63 inodeIn.size) (hinode : inodeOut.Ok) (hposIn : Signed posIn)
    (hposOut : Signed posOut) (hcount : 0 ≤ count)
    (h : genericCopyFileChecks fileIn inodeIn fileOut inodeOut fsize posIn posOut count splice =
      (0, len))
    (hverifyIn : rwVerifyArea hooksIn fileIn (some posIn) len = 0)
    (hverifyOut : rwVerifyArea hooksOut fileOut (some posOut) len = 0) (hlen : len ≠ 0) :
    CopyRanges inodeIn inodeOut posIn posOut len := by
  obtain ⟨left, hlimits, rfl, hoverlap⟩ := genericCopyFileChecks_cases h
  have hbounds : 0 ≤ unsigned left ∧ unsigned left < 18446744073709551616 := by
    rw [unsigned]
    omega
  have hin' : Range posIn (unsigned left) :=
    range_of_rwVerifyArea hin.signedOffset hposIn hbounds hverifyIn
  have hout' : Range posOut (unsigned left) :=
    range_of_rwVerifyArea hout.signedOffset hposOut hbounds hverifyOut
  obtain ⟨hshort, hfile⟩ := shortenToEof_bounds hsize hin'.start hcount
  obtain ⟨hmin, hmax, -⟩ := genericWriteCheckLimits_bounds hinode hout'.start hlimits
  rw [signed_of_fits hshort] at hmin hmax
  -- the count is not negative, so that it is the same number for both sides
  have hleft : Fits63 left := hshort.of_le (by have := hshort.1; omega) hmax
  rw [unsigned_of_fits hleft] at hlen hin' hout' ⊢
  rw [unsigned_of_fits hin'.start, unsigned_of_fits hout'.start, unsigned_of_fits hin'.stop,
    unsigned_of_fits hout'.stop] at hoverlap
  have hpos := hleft.1
  refine ⟨hin', hout', by omega, ?_, fun hino => ?_⟩
  · have := hfile (by omega)
    omega
  · by_contra hne
    exact hoverlap ⟨hino, by omega, by omega⟩

/-- A part of a copy. -/
theorem CopyRanges.of_le {n m : Int} (h : CopyRanges inodeIn inodeOut posIn posOut n) (hm : 0 < m)
    (hmn : m ≤ n) : CopyRanges inodeIn inodeOut posIn posOut m where
  rangeIn := h.rangeIn.of_le (Int.le_of_lt hm) hmn
  rangeOut := h.rangeOut.of_le (Int.le_of_lt hm) hmn
  pos := hm
  inFile := by
    have := h.inFile
    omega
  disjoint hino := by
    have := h.disjoint hino
    omega

/-- A count that is cut to `MAX_RW_COUNT`. -/
theorem CopyRanges.min_count {n : Int} (h : CopyRanges inodeIn inodeOut posIn posOut n) :
    CopyRanges inodeIn inodeOut posIn posOut (min n MAX_RW_COUNT) :=
  h.of_le (lt_min h.pos (by decide)) (min_le_left _ _)

theorem Copies.mono {len len' : Int} {r : Int × Inode} (hle : len ≤ len')
    (h : Copies inodeIn inodeOut posIn posOut len r) :
    Copies inodeIn inodeOut posIn posOut len' r := by
  cases h with
  | nothing hret => exact .nothing hret
  | moved hpos hlen => exact .moved hpos (Int.le_trans hlen hle)

theorem genericFileRwChecks_nonpos :
    genericFileRwChecks fileIn inodeIn fileOut inodeOut ≤ 0 := by
  rw [genericFileRwChecks]
  split_ifs <;> decide

theorem genericCopyFileChecks_nonpos {ret len : Int}
    (h : genericCopyFileChecks fileIn inodeIn fileOut inodeOut fsize posIn posOut count splice =
      (ret, len)) : ret ≤ 0 := by
  rw [genericCopyFileChecks] at h
  split_ifs at h with h1 h2 h3 h4 h5
  · rw [← (Prod.mk.inj h).1]
    exact genericFileRwChecks_nonpos
  iterate 4
    rw [← (Prod.mk.inj h).1]
    decide
  have hlimits := genericWriteCheckLimits_ret fileOut inodeOut posOut
    (signed (shortenToEof inodeIn posIn count)) fsize
  cases hr : genericWriteCheckLimits fsize fileOut inodeOut posOut
      (signed (shortenToEof inodeIn posIn count)) with
  | mk ret' left =>
    rw [hr] at hlimits
    simp only [hr] at h
    split_ifs at h with hret hoverlap
    · rw [← (Prod.mk.inj h).1]
      exact hlimits
    · rw [← (Prod.mk.inj h).1]
      decide
    · exact Int.le_of_eq (Prod.mk.inj h).1.symm

variable {Io : Type} {fsys : FileSystem Io} {a : CopyAnswers Io}

theorem copies_copySplice {n : Int} (hfsys : fsys.Lawful)
    (h : CopyRanges inodeIn inodeOut posIn posOut n) : Copies inodeIn inodeOut posIn posOut n
      (copySplice fsys a fileIn inodeIn fileOut inodeOut posIn posOut n) :=
  ((hfsys.doSpliceDirect h.min_count.rangeIn h.min_count.rangeOut).copies h.min_count).mono
    (min_le_left _ _)

theorem copies_copyRange {n : Int} (hfsys : fsys.Lawful)
    (h : CopyRanges inodeIn inodeOut posIn posOut n) : Copies inodeIn inodeOut posIn posOut n
      (copyRange fsys a fileIn inodeIn fileOut inodeOut posIn posOut n splice) := by
  have hremap : Copies inodeIn inodeOut posIn posOut (min MAX_RW_COUNT n)
      (fsys.remapFileRange a.remapFileRange fileIn inodeIn fileOut inodeOut posIn posOut
        (min MAX_RW_COUNT n)) :=
    hfsys.remapFileRange (by rw [min_comm]; exact h.min_count)
  rw [copyRange]
  generalize fsys.remapFileRange a.remapFileRange fileIn inodeIn fileOut inodeOut posIn posOut
    (min MAX_RW_COUNT n) = r at hremap
  dsimp only
  split_ifs with hcopy hclone hret
  · exact hfsys.copyFileRange h
  · -- a clone that was refused has changed nothing
    cases hremap with
    | nothing => exact copies_copySplice hfsys h
    | moved hpos => exact absurd (Int.natCast_pos.2 hpos) (Int.not_lt.2 hret)
  · exact hremap.mono (min_le_right _ _)
  · exact copies_copySplice hfsys h
  · exact .nothing (Int.le_refl 0)

/-- Nothing is copied, or what the checks let pass. -/
theorem copies_vfsCopyFileRange (a : CopyAnswers Io) (splice others : Bool) (hfsys : fsys.Lawful)
    (hin : fileIn.Ok) (hout : fileOut.Ok) (hsize : Fits63 inodeIn.size) (hinode : inodeOut.Ok)
    (hposIn : Signed posIn) (hposOut : Signed posOut) (hcount : 0 ≤ count) :
    ∃ n, (0 < n → CopyRanges inodeIn inodeOut posIn posOut n) ∧
      Copies inodeIn inodeOut posIn posOut n
        (vfsCopyFileRange fsys a fileIn inodeIn fileOut inodeOut posIn posOut count splice
          others) := by
  have hnothing : ∀ ret ≤ 0, ∃ n, (0 < n → CopyRanges inodeIn inodeOut posIn posOut n) ∧
      Copies inodeIn inodeOut posIn posOut n (ret, inodeOut) :=
    fun ret hret => ⟨0, fun h => absurd h (Int.lt_irrefl 0), .nothing hret⟩
  rw [vfsCopyFileRange]
  by_cases hothers : others = true
  · rw [if_pos hothers]
    exact hnothing _ (by decide)
  · rw [if_neg hothers]
    cases hchecks : genericCopyFileChecks fileIn inodeIn fileOut inodeOut a.fsize posIn posOut count
      splice with
    | mk ret len =>
      dsimp only
      split_ifs with hret hverifyIn hverifyOut hlen
      · exact hnothing _ (genericCopyFileChecks_nonpos hchecks)
      · exact hnothing _ rwVerifyArea_nonpos
      · exact hnothing _ rwVerifyArea_nonpos
      · exact hnothing _ (Int.le_refl 0)
      · rw [not_ne_iff.1 hret] at hchecks
        have hranges : CopyRanges inodeIn inodeOut posIn posOut len :=
          copy_checked hin hout hsize hinode hposIn hposOut hcount hchecks
            (not_ne_iff.1 hverifyIn) (not_ne_iff.1 hverifyOut) hlen
        exact ⟨len, fun _ => hranges, copies_copyRange hfsys hranges⟩

/-! Positions and sizes stay in their range. -/

/-- What a copy leaves is in its range. -/
structure Copied.Ok (c : Copied) : Prop where
  posIn : ∀ p ∈ c.posIn, Fits63 p
  posOut : ∀ p ∈ c.posOut, Fits63 p
  inodeOut : Fits63 c.inodeOut.size

theorem Copied.Ok.none {ret : Int} (hsize : Fits63 inodeOut.size) :
    Copied.Ok ⟨ret, .none, .none, inodeOut⟩ where
  posIn _ h := by cases h
  posOut _ h := by cases h
  inodeOut := hsize

/-- The position of a call is that of the file, or given by the caller. -/
theorem signed_pos {offset : Option Int64} (hpos : Fits63 fileIn.pos) :
    Signed ((offset.map Int64.toInt).getD fileIn.pos) := by
  cases offset with
  | none => exact hpos.signed
  | some offset => exact ⟨Int64.le_toInt offset, Int64.toInt_le offset⟩

/-- A position is stored if there is no offset of the caller. -/
theorem fits_of_mem_stored {offset : Option Int64} {pos : Int} (hpos : Fits63 pos) :
    ∀ p ∈ (if offset.isSome then none else some (signed pos)), Fits63 p := by
  intro p hp
  split_ifs at hp
  · cases hp
  · rw [Option.mem_some, signed_of_fits hpos] at hp
    exact hp ▸ hpos

theorem ok_copyStored {u : CopyUser} {offIn offOut : Option Int64} {r : Int × Inode} {len : Int}
    (hinode : inodeOut.Ok) (hranges : 0 < len → CopyRanges inodeIn inodeOut posIn posOut len)
    (h : Copies inodeIn inodeOut posIn posOut len r) :
    (copyStored u offIn offOut posIn posOut r).Ok := by
  cases h with
  | nothing hret =>
    rw [copyStored, if_pos hret]
    exact .none hinode.size
  | @moved n hn hle =>
    have hn' : 0 < (n : Int) := Int.natCast_pos.2 hn
    have hmoved : CopyRanges inodeIn inodeOut posIn posOut n :=
      (hranges (Int.lt_of_lt_of_le hn' hle)).of_le hn' hle
    have hlimit := hmoved.rangeOut.stop.2
    rw [copyStored, if_neg (Int.not_le.2 hn')]
    refine ⟨fits_of_mem_stored hmoved.rangeIn.stop, fits_of_mem_stored hmoved.rangeOut.stop, ?_⟩
    refine fits_length_put hinode.size hmoved.rangeOut.start ?_
    rw [length_slice]
    omega

theorem ok_copyFileRange {u : CopyUser} {offIn offOut : Option Int64} {len : SizeT}
    {flags : UInt32} (hfsys : fsys.Lawful) (hin : fileIn.Ok) (hout : fileOut.Ok)
    (hsize : Fits63 inodeIn.size) (hinode : inodeOut.Ok) :
    (copyFileRange fsys a fileIn inodeIn fileOut inodeOut u offIn offOut len flags).Ok := by
  rw [copyFileRange]
  split_ifs with h1 h2 h3
  iterate 3 exact .none hinode.size
  obtain ⟨n, hranges, hcopies⟩ := copies_vfsCopyFileRange a false false hfsys hin hout hsize
    hinode (signed_pos hin.pos) (signed_pos hout.pos) (Int.natCast_nonneg len.toNat)
  exact ok_copyStored hinode hranges hcopies

/-- The count is cut such that the range stays below the greatest position. -/
theorem range_of_sendfileCount {pos max n : Int} (hrange : Range pos count) (hmax : Fits63 max)
    (h : sendfileCount pos count max = some n) : Range pos n := by
  have hpos := hrange.start.1
  rw [sendfileCount, unsigned_of_fits hmax, unsigned_of_fits hrange.stop] at h
  split_ifs at h with hlt hle
  · have hdiff : Fits63 (max - pos) := hmax.of_le (by omega) (by omega)
    rw [unsigned_of_fits hdiff] at h
    rw [← Option.some.inj h]
    exact ⟨hrange.start, hdiff.1, by rwa [Int.add_comm, Int.sub_add_cancel]⟩
  · rw [← Option.some.inj h]
    exact hrange

/-- What a splice leaves is in its range. -/
structure Spliced.Ok (s : Spliced) : Prop where
  posIn : Fits63 s.posIn
  posOut : Fits63 s.posOut
  inodeOut : Fits63 s.inodeOut.size

theorem Splices.ok {s : Spliced} {n : Int} (hin : Range posIn n) (hout : Range posOut n)
    (hinode : inodeOut.Ok) (h : Splices inodeIn inodeOut posIn posOut n s) : s.Ok := by
  cases h with
  | nothing _ => exact ⟨hin.start, hout.start, hinode.size⟩
  | @moved new _ hle _ =>
    have hin' : Range posIn new.length := hin.of_le (Int.natCast_nonneg _) hle
    have hout' : Range posOut new.length := hout.of_le (Int.natCast_nonneg _) hle
    exact ⟨hin'.stop, hout'.stop, fits_length_put hinode.size hout.start hout'.stop.2⟩

theorem ok_sendfileSplice {pos n : Int} (hfsys : fsys.Lawful) (hrange : Range pos n)
    (hout : fileOut.Ok) (hinode : inodeOut.Ok)
    (hverify : inodeOut.kind ≠ .pipe → Range fileOut.pos n) :
    (sendfileSplice fsys a fileIn inodeIn fileOut inodeOut pos n).Ok := by
  rw [sendfileSplice]
  split_ifs with hpipe
  · obtain ⟨hle, hpos⟩ := hfsys.spliceFileToPipe a.splice fileIn inodeIn hrange
    have hmax : Range pos (max 0 (fsys.spliceFileToPipe a.splice fileIn inodeIn pos n).1) :=
      hrange.of_le (le_max_left _ _) (max_le hrange.nonneg hle)
    refine ⟨?_, hout.pos, hinode.size⟩
    dsimp only
    rw [hpos]
    exact hmax.stop
  · exact (hfsys.doSpliceDirect hrange (hverify hpipe)).ok hrange (hverify hpipe) hinode

/-- What is read lies in the range of positions. -/
theorem range_of_sendfileIn {ppos : Option Int64} {len : SizeT} (hin : fileIn.Ok)
    (h : ¬sendfileIn a fileIn ppos len < 0) : Range (sendfilePos fileIn ppos) len.toNat := by
  have hlen := len.toNat_lt
  rw [sendfileIn] at h
  split_ifs at h with hread hpread
  · exact absurd (by decide) h
  · exact absurd (by decide) h
  · exact range_of_rwVerifyArea hin.signedOffset (signed_pos hin.pos)
      ⟨Int.natCast_nonneg _, by omega⟩ (Int.le_antisymm rwVerifyArea_nonpos (Int.not_lt.1 h))

theorem Spliced.Ok.stored {s : Spliced} {ppos : Option Int64} {max : Int} (h : s.Ok) :
    (sendfileStored ppos max s).Ok where
  posIn p hp := by
    simp only [sendfileStored, Option.mem_def, Option.ite_none_right_eq_some] at hp
    exact Option.some.inj hp.2 ▸ h.posIn
  posOut p hp := by
    simp only [sendfileStored, Option.mem_def, Option.ite_none_right_eq_some] at hp
    exact Option.some.inj hp.2 ▸ h.posOut
  inodeOut := h.inodeOut

theorem ok_doSendfile {ppos : Option Int64} {len : SizeT} {max : Int} (hfsys : fsys.Lawful)
    (hin : fileIn.Ok) (hout : fileOut.Ok) (hinode : inodeIn.Ok) (hinode' : inodeOut.Ok)
    (hmax : Fits63 max) :
    (doSendfile fsys a fileIn inodeIn fileOut inodeOut ppos len max).Ok := by
  have hmax' : Fits63 (if max = 0 then min inodeIn.maxbytes inodeOut.maxbytes else max) := by
    split_ifs
    · exact hinode.maxbytes.of_le (le_min hinode.maxbytes.1 hinode'.maxbytes.1) (min_le_left _ _)
    · exact hmax
  unfold doSendfile
  generalize (if max = 0 then min inodeIn.maxbytes inodeOut.maxbytes else max) = max' at hmax' ⊢
  dsimp only
  split_ifs with hchecks hwrite
  · exact .none hinode'.size
  · exact .none hinode'.size
  · have hrange := range_min (range_of_sendfileIn hin hchecks)
    cases hcount : sendfileCount (sendfilePos fileIn ppos) (min (len.toNat : Int) MAX_RW_COUNT)
      max' with
    | none => exact .none hinode'.size
    | some n =>
      have hrange' : Range (sendfilePos fileIn ppos) n :=
        range_of_sendfileCount hrange hmax' hcount
      have hn := hrange'.length
      dsimp only
      split_ifs with hverify
      · exact .none hinode'.size
      · refine (ok_sendfileSplice hfsys hrange' hout hinode' fun hpipe => ?_).stored
        have hok := Int.not_lt.1 fun h => hverify ⟨hpipe, h⟩
        simp only [Fits63, Word.MAX] at hn
        exact range_of_rwVerifyArea hout.signedOffset hout.pos.signed ⟨hn.1, by omega⟩
          (Int.le_antisymm rwVerifyArea_nonpos hok)

/-! ## Copies to which no one objects -/

/-- A copy of `n` bytes between regular files of one file system that are open for it, inside the
    first file and where there is room in the second. No one objects, and the file system serves the
    request in full. -/
structure CopyGranted (fsys : FileSystem Io) (a : CopyAnswers Io) (fileIn : File) (inodeIn : Inode)
    (fileOut : File) (inodeOut : Inode) (posIn posOut n : Int) : Prop where
  ranges : CopyRanges inodeIn inodeOut posIn posOut n
  le : n ≤ MAX_RW_COUNT
  room : posOut + n ≤ maxSize fileOut inodeOut
  kindIn : inodeIn.kind = .regular
  kindOut : inodeOut.kind = .regular
  read : fileIn.mode.read = true
  write : fileOut.mode.write = true
  append : fileOut.append = false
  sb : inodeIn.sb = inodeOut.sb
  ops : fileIn.ops.copyFileRange = fileOut.ops.copyFileRange
  immutable : inodeOut.immutable = false
  swapIn : inodeIn.swapfile = false
  swapOut : inodeOut.swapfile = false
  hooksIn : a.hooksIn.ret = 0
  hooksOut : a.hooksOut.ret = 0
  fsize : a.fsize = RLIM_INFINITY
  copy : fsys.Complete a.copyFileRange
  remap : fsys.Complete a.remapFileRange
  splice : fsys.Complete a.splice

section

variable {n : Int}

theorem CopyGranted.checks (h : CopyGranted fsys a fileIn inodeIn fileOut inodeOut posIn posOut n)
    (hsize : Fits63 inodeIn.size) (hinode : inodeOut.Ok) :
    genericCopyFileChecks fileIn inodeIn fileOut inodeOut a.fsize posIn posOut n splice =
      (0, n) := by
  have hin := h.ranges.rangeIn
  have hout := h.ranges.rangeOut
  have hfile := h.ranges.inFile
  have hpos := h.ranges.pos
  have hrw : genericFileRwChecks fileIn inodeIn fileOut inodeOut = 0 := by
    simp [genericFileRwChecks, h.kindIn, h.kindOut, h.read, h.write, h.append]
  have hcopies : copiesTo fileIn inodeIn fileOut inodeOut splice = true := by
    rw [copiesTo, h.ops, h.sb]
    cases fileOut.ops.copyFileRange <;> simp
  have hshort : shortenToEof inodeIn posIn n = n := by
    have hposIn := hin.start.1
    have hdiff : Fits63 (inodeIn.size - posIn) := hsize.of_le (by omega) (by omega)
    rw [shortenToEof, if_neg (by omega), unsigned_of_fits hdiff, min_eq_left (by omega)]
  have hlimits : genericWriteCheckLimits a.fsize fileOut inodeOut posOut n = (0, n) := by
    rw [h.fsize]
    exact genericWriteCheckLimits_of_room hinode hout.start hpos h.room
  have hoverlap : ¬(inodeIn.ino = inodeOut.ino ∧ posIn < posOut + n ∧ posOut < posIn + n) := by
    rintro ⟨hino, hlt, hlt'⟩
    have := h.ranges.disjoint hino
    omega
  have hwrap : ¬(posIn + n < posIn ∨ posOut + n < posOut) := by omega
  simp only [genericCopyFileChecks, hrw, hcopies, h.immutable, h.swapIn, h.swapOut, hshort,
    signed_of_fits hin.length, hlimits, unsigned_of_fits hin.start, unsigned_of_fits hout.start,
    unsigned_of_fits hin.stop, unsigned_of_fits hout.stop, unsigned_of_fits hin.length, hoverlap,
    hwrap, ne_eq, not_true_eq_false, if_false, Bool.true_eq_false, Bool.false_eq_true,
    Bool.or_self]

end

end

/-- A regular file. -/
def notes : Inode := ⟨7, 0, .regular, false, false, Word.MAX, [1, 2, 3]⟩

/-- A descriptor of a regular file. -/
def regularFile (fd : Nat) (append : Bool) : File :=
  { fd := fd, ino := 7, pos := 0, mode := .readWrite, append := append, direct := false,
    largefile := true, ops := ⟨.generic, false, true, false, true, none, false⟩ }

theorem regularFile_ok (fd : Nat) (append : Bool) : (regularFile fd append).Ok :=
  ⟨rfl, rfl, (by decide : Fits63 0), fun _ h => by cases h⟩

theorem notes_ok : notes.Ok := ⟨by decide, by decide⟩

end Files

end LuisKernel
