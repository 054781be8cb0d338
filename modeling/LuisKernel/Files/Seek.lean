import LuisKernel.Files

/-!
# Seeking

The functions of `fs/read_write.c` that move the position of an open file: `lseek`, with the
functions a file can have for it. A seek goes to the place that was asked for, or nowhere
(`seeks_vfsLlseek`): a sum that does not fit is found by its sign.
-/

namespace LuisKernel

namespace Files

open Word

def ENXIO : Int := 6

/-- `SEEK_SET` to `SEEK_HOLE`. -/
inductive Whence
  | seekSet
  | seekCur
  | seekEnd
  | seekData
  | seekHole
  deriving DecidableEq, Repr

def Whence.ofNat? : Nat → Option Whence
  | 0 => some seekSet
  | 1 => some seekCur
  | 2 => some seekEnd
  | 3 => some seekData
  | 4 => some seekHole
  | _ => none

def vfsSetpos (f : File) (offset maxsize : Int) : Int × File :=
  if offset < 0 ∧ f.mode.unsignedOffset = false then (-EINVAL, f)
  else if maxsize < offset then (-EINVAL, f)
  else (offset, { f with pos := offset })

def genericFileLlseekSize (f : File) (offset : Int) (whence : Whence) (maxsize eof : Int) :
    Int × File :=
  match whence with
  | .seekEnd => vfsSetpos f (signed (offset + eof)) maxsize
  | .seekCur =>
    if offset = 0 then (f.pos, f) else vfsSetpos f (signed (f.pos + offset)) maxsize
  | .seekData => if unsigned eof ≤ unsigned offset then (- ENXIO, f) else vfsSetpos f offset maxsize
  | .seekHole => if unsigned eof ≤ unsigned offset then (- ENXIO, f) else vfsSetpos f eof maxsize
  | .seekSet => vfsSetpos f offset maxsize

def genericFileLlseek (f : File) (i : Inode) (offset : Int) (whence : Whence) : Int × File :=
  genericFileLlseekSize f offset whence i.maxbytes i.size

def fixedSizeLlseek (f : File) (offset : Int) (whence : Whence) (size : Int) : Int × File :=
  match whence with
  | .seekSet => genericFileLlseekSize f offset whence size size
  | .seekCur => genericFileLlseekSize f offset whence size size
  | .seekEnd => genericFileLlseekSize f offset whence size size
  | _ => (-EINVAL, f)

def noSeekEndLlseekSize (f : File) (offset : Int) (whence : Whence) (size : Int) : Int × File :=
  match whence with
  | .seekSet => genericFileLlseekSize f offset whence size 0
  | .seekCur => genericFileLlseekSize f offset whence size 0
  | _ => (-EINVAL, f)

def noSeekEndLlseek (f : File) (offset : Int) (whence : Whence) : Int × File :=
  noSeekEndLlseekSize f offset whence OFFSET_MAX

/-- The end of `default_llseek`, which knows no greatest size. -/
def defaultSetpos (f : File) (offset : Int) : Int × File :=
  if 0 ≤ offset ∨ f.mode.unsignedOffset then (offset, { f with pos := offset }) else (-EINVAL, f)

/-- Other than `generic_file_llseek_size`, it compares as signed numbers. -/
def defaultLlseek (f : File) (i : Inode) (offset : Int) (whence : Whence) : Int × File :=
  match whence with
  | .seekEnd => defaultSetpos f (signed (offset + i.size))
  | .seekCur => if offset = 0 then (f.pos, f) else defaultSetpos f (signed (offset + f.pos))
  | .seekData => if i.size ≤ offset then (- ENXIO, f) else defaultSetpos f offset
  | .seekHole => if i.size ≤ offset then (- ENXIO, f) else defaultSetpos f i.size
  | .seekSet => defaultSetpos f offset

def vfsLlseek (f : File) (i : Inode) (offset : Int) (whence : Whence) : Int × File :=
  if f.mode.lseek = false then (-ESPIPE, f)
  else
    match f.ops.llseek with
    | .generic => genericFileLlseek f i offset whence
    | .fixedSize size => fixedSizeLlseek f offset whence size
    | .noSeekEnd => noSeekEndLlseek f offset whence
    | .noSeekEndSize size => noSeekEndLlseekSize f offset whence size
    | .noop => (f.pos, f)
    | .default => defaultLlseek f i offset whence

/-- `ksys_lseek`, after the file was found; an `off_t` is a `loff_t` here. -/
def ksysLseek (offset : Int64) (whence : UInt32) (f : File) (i : Inode) : Int × File :=
  match Whence.ofNat? whence.toNat with
  | none => (-EINVAL, f)
  | some whence => vfsLlseek f i offset.toInt whence

/-! ## What a seek can do -/

/-- Where a seek is to go. -/
def Whence.target (f : File) (eof offset : Int) : Whence → Int
  | seekSet => offset
  | seekCur => f.pos + offset
  | seekEnd => eof + offset
  | seekData => offset
  | seekHole => eof

/-- What `SEEK_END` counts from. -/
def Llseek.eof (i : Inode) : Llseek → Int
  | fixedSize size => size
  | _ => i.size

/-- The outcome of a seek to `target`. -/
inductive Seeks (f : File) (target : Int) : Int × File → Prop
  | refused {ret : Int} : ret < 0 → Seeks f target (ret, f)
  | moved : Fits63 target → Seeks f target (target, { f with pos := target })

section

variable {f : File} {i : Inode} {offset maxsize eof x y : Int} {whence : Whence} {r : Int × File}

theorem seeks_vfsSetpos (hf : f.mode.unsignedOffset = false) (hoffset : Signed offset) :
    Seeks f offset (vfsSetpos f offset maxsize) := by
  rw [vfsSetpos]
  split_ifs with hneg hmax
  · exact .refused (by decide)
  · exact .refused (by decide)
  · have hnonneg : 0 ≤ offset := Int.not_lt.1 fun h => hneg ⟨h, hf⟩
    exact .moved ⟨hnonneg, hoffset.2⟩

theorem seeks_defaultSetpos (hf : f.mode.unsignedOffset = false) (hoffset : Signed offset) :
    Seeks f offset (defaultSetpos f offset) := by
  by_cases hnonneg : 0 ≤ offset
  · rw [defaultSetpos, if_pos (.inl hnonneg)]
    exact .moved ⟨hnonneg, hoffset.2⟩
  · rw [defaultSetpos, if_neg (not_or.2 ⟨hnonneg, ne_true_of_eq_false hf⟩)]
    exact .refused (by decide)

/-- A sum that does not fit is refused, as it is negative. -/
theorem Seeks.of_sum (hx : Signed x) (hy : Fits63 y) (h : Seeks f (signed (x + y)) r) :
    Seeks f (x + y) r := by
  by_cases hnonneg : 0 ≤ signed (x + y)
  · rwa [signed_add_of_nonneg hx hy hnonneg] at h
  · cases h with
    | refused h => exact .refused h
    | moved h => exact absurd h.1 hnonneg

/-- The seek to the place where the file is already. -/
theorem seeks_pos (hpos : Fits63 f.pos) : Seeks f f.pos (f.pos, f) := .moved hpos

theorem seeks_genericFileLlseekSize (hf : f.mode.unsignedOffset = false) (hpos : Fits63 f.pos)
    (heof : Fits63 eof) (hoffset : Signed offset) :
    Seeks f (whence.target f eof offset) (genericFileLlseekSize f offset whence maxsize eof) := by
  cases whence with
  | seekSet => exact seeks_vfsSetpos hf hoffset
  | seekCur =>
    rw [genericFileLlseekSize, Whence.target, Int.add_comm]
    split_ifs with h0
    · rw [h0, Int.zero_add]
      exact seeks_pos hpos
    · exact .of_sum hoffset hpos (seeks_vfsSetpos hf signed_signed)
  | seekEnd =>
    rw [genericFileLlseekSize, Whence.target, Int.add_comm eof]
    exact .of_sum hoffset heof (seeks_vfsSetpos hf signed_signed)
  | seekData =>
    rw [genericFileLlseekSize, Whence.target]
    split_ifs with h
    · exact .refused (by decide)
    · exact seeks_vfsSetpos hf hoffset
  | seekHole =>
    rw [genericFileLlseekSize, Whence.target]
    split_ifs with h
    · exact .refused (by decide)
    · exact seeks_vfsSetpos hf heof.signed

theorem seeks_defaultLlseek (hf : f.mode.unsignedOffset = false) (hpos : Fits63 f.pos)
    (hsize : Fits63 i.size) (hoffset : Signed offset) :
    Seeks f (whence.target f i.size offset) (defaultLlseek f i offset whence) := by
  cases whence with
  | seekSet => exact seeks_defaultSetpos hf hoffset
  | seekCur =>
    rw [defaultLlseek, Whence.target, Int.add_comm]
    split_ifs with h0
    · rw [h0, Int.zero_add]
      exact seeks_pos hpos
    · exact .of_sum hoffset hpos (seeks_defaultSetpos hf signed_signed)
  | seekEnd =>
    rw [defaultLlseek, Whence.target, Int.add_comm i.size]
    exact .of_sum hoffset hsize (seeks_defaultSetpos hf signed_signed)
  | seekData =>
    rw [defaultLlseek, Whence.target]
    split_ifs with h
    · exact .refused (by decide)
    · exact seeks_defaultSetpos hf hoffset
  | seekHole =>
    rw [defaultLlseek, Whence.target]
    split_ifs with h
    · exact .refused (by decide)
    · exact seeks_defaultSetpos hf hsize.signed

/-- The functions for devices refuse some seeks, and do the others as the generic one. -/
theorem seeks_fixedSizeLlseek {size : Int} (hf : f.mode.unsignedOffset = false)
    (hpos : Fits63 f.pos) (hsize : Fits63 size) (hoffset : Signed offset) :
    Seeks f (whence.target f size offset) (fixedSizeLlseek f offset whence size) := by
  cases whence with
  | seekSet => exact seeks_genericFileLlseekSize hf hpos hsize hoffset
  | seekCur => exact seeks_genericFileLlseekSize hf hpos hsize hoffset
  | seekEnd => exact seeks_genericFileLlseekSize hf hpos hsize hoffset
  | seekData => exact .refused (by decide)
  | seekHole => exact .refused (by decide)

theorem seeks_noSeekEndLlseekSize {size : Int} (hf : f.mode.unsignedOffset = false)
    (hpos : Fits63 f.pos) (hoffset : Signed offset) :
    Seeks f (whence.target f eof offset) (noSeekEndLlseekSize f offset whence size) := by
  have hseeks : Seeks f (whence.target f 0 offset) (genericFileLlseekSize f offset whence size 0) :=
    seeks_genericFileLlseekSize hf hpos (by decide) hoffset
  -- the two that are not refused do not count from the end
  cases whence with
  | seekSet => exact hseeks
  | seekCur => exact hseeks
  | seekEnd => exact .refused (by decide)
  | seekData => exact .refused (by decide)
  | seekHole => exact .refused (by decide)

end

section

variable {f : File} {i : Inode} {offset : Int} {whence : Whence}

/-- A seek goes exactly to where it is to go, or nowhere. -/
theorem seeks_vfsLlseek (hf : f.Ok) (hi : i.Ok) (hoffset : Signed offset)
    (hops : f.ops.llseek ≠ .noop) :
    Seeks f (whence.target f (f.ops.llseek.eof i) offset) (vfsLlseek f i offset whence) := by
  rw [vfsLlseek]
  split_ifs with hmode
  · exact .refused (by decide)
  · cases hllseek : f.ops.llseek with
    | generic => exact seeks_genericFileLlseekSize hf.signedOffset hf.pos hi.size hoffset
    | fixedSize size =>
      exact seeks_fixedSizeLlseek hf.signedOffset hf.pos (hf.size size hllseek) hoffset
    | noSeekEnd => exact seeks_noSeekEndLlseekSize hf.signedOffset hf.pos hoffset
    | noSeekEndSize size => exact seeks_noSeekEndLlseekSize hf.signedOffset hf.pos hoffset
    | noop => exact absurd hllseek hops
    | default => exact seeks_defaultLlseek hf.signedOffset hf.pos hi.size hoffset

theorem Seeks.fits {target : Int} {r : Int × File} (hpos : Fits63 f.pos) (h : Seeks f target r) :
    Fits63 r.2.pos := by
  cases h with
  | refused _ => exact hpos
  | moved h => exact h

end

end Files

end LuisKernel
