import LuisKernel.Registry.Map
import Mathlib.Algebra.Order.Ring.Nat

/-!
# The buffer of a listing

`luis_get_memory_limits` fills a buffer of the kernel from the front of the list
and copies it out. The buffer has `max_entries` slots, whatever the length of the
list. Its indices are an `int` and its sizes are products of `size_t`, which may
wrap; what keeps the loop and the copy in bounds is the bound of `kmalloc_array`
on the size of an object (`filledBuffer_inBounds`).
-/

namespace LuisKernel

/-! ## The loop -/

/-- The conversion of a small `int` to `size_t`. -/
theorem toUInt64_ofNat {i : Nat} (h : i < 2 ^ 31) :
    (Int32.ofNat i).toInt64.toUInt64 = UInt64.ofNat i := by
  have hlong : (Int32.ofNat i).toInt64 = Int64.ofNat i := by
    rw [← Int64.toInt_inj, Int32.toInt_toInt64, Int32.toInt_ofNat_of_lt h,
      Int64.toInt_ofNat_of_lt (by omega)]
  rw [hlong, Int64.toUInt64_ofNat']

theorem toNat_ofNat {i : Nat} (h : i < 2 ^ 31) : (UInt64.ofNat i).toNat = i :=
  UInt64.toNat_ofNat_of_lt (lt_trans h (by decide))

/-- The entries `l`, stored from the index `i` on. -/
def indexed (i : Nat) (l : List MemoryLimitation) : List (Int32 × MemoryLimitation) :=
  (l.zipIdx i).map fun x => (Int32.ofNat x.2, x.1)

theorem indexed_cons (i : Nat) (n : MemoryLimitation) (l : List MemoryLimitation) :
    indexed i (n :: l) = (Int32.ofNat i, n) :: indexed (i + 1) l := rfl

variable {maxEntries : SizeT} {head : List MemoryLimitation} {env : Env} {s : State}

/-- The loop stores the front of the list, as far as the buffer reaches. The
    index stays an `int` as long as the entries stored do not exceed its range:
    either the list or the buffer has to be short enough. -/
theorem fillBuffer_eq (maxEntries : SizeT) (head : List MemoryLimitation) (i : Nat)
    (stores : List (Int32 × MemoryLimitation)) (hi : i ≤ maxEntries.toNat)
    (hint : min maxEntries.toNat (i + head.length) < 2 ^ 31) :
    fillBuffer maxEntries head ⟨Int32.ofNat i, stores⟩ =
      ⟨Int32.ofNat (min maxEntries.toNat (i + head.length)),
        stores ++ indexed i (head.take (maxEntries.toNat - i))⟩ := by
  induction head generalizing i stores with
  | nil => simp [fillBuffer, indexed, hi]
  | cons n head ih =>
    rw [List.length_cons] at hint ⊢
    have hcount : (Int32.ofNat i).toInt64.toUInt64 ≥ maxEntries ↔ maxEntries.toNat ≤ i := by
      rw [toUInt64_ofNat (by omega), ge_iff_le, UInt64.le_iff_toNat_le, toNat_ofNat (by omega)]
    rw [fillBuffer]
    by_cases hfull : maxEntries.toNat ≤ i
    · have hmin : min maxEntries.toNat (i + (head.length + 1)) = i := by omega
      have htake : maxEntries.toNat - i = 0 := by omega
      rw [if_pos (hcount.2 hfull), hmin, htake]
      simp [indexed]
    · obtain ⟨k, hk⟩ : ∃ k, maxEntries.toNat - i = k + 1 := ⟨maxEntries.toNat - i - 1, by omega⟩
      have hk' : maxEntries.toNat - (i + 1) = k := by omega
      have hlen : i + (head.length + 1) = i + 1 + head.length := by omega
      have hsucc : Int32.ofNat i + 1 = Int32.ofNat (i + 1) := (Int32.ofNat_add i 1).symm
      rw [hlen] at hint ⊢
      rw [if_neg (fun h => hfull (hcount.1 h))]
      dsimp only
      rw [hsucc, ih _ _ (by omega) hint, hk, hk']
      simp [indexed]

theorem fillBuffer_empty (hint : min maxEntries.toNat head.length < 2 ^ 31) :
    fillBuffer maxEntries head ⟨0, []⟩ =
      ⟨Int32.ofNat (min maxEntries.toNat head.length),
        indexed 0 (head.take maxEntries.toNat)⟩ := by
  have hfill := fillBuffer_eq maxEntries head 0 [] (Nat.zero_le _)
    (by rw [Nat.zero_add]; exact hint)
  rw [Nat.zero_add, Nat.sub_zero, List.nil_append] at hfill
  exact hfill

/-! ## The bounds -/

/-- `luis_get_memory_limits` up to the end of its loop: the error it returns
    before anything is stored, or the buffer. -/
def filledBuffer (env : Env) (uProcessesBuffer : UInt64) (maxEntries : SizeT)
    (processesBufferSize : UInt64) (s : State) : Except Int Fill :=
  if maxEntries ≤ 0 then .error (-EINVAL)
  else if env.accessOk uProcessesBuffer (maxEntries * sizeofMemoryLimitation) = false ∨
      env.accessOk processesBufferSize sizeofInt = false then .error (-EINVAL)
  else if env.kmallocArray maxEntries sizeofMemoryLimitation = false then .error (-ENOMEM)
  else .ok (fillBuffer maxEntries s.head ⟨0, []⟩)

/-- The rest of the call copies the buffer, then the count. -/
theorem luisGetMemoryLimits_eq (env : Env) (uProcessesBuffer : UInt64) (maxEntries : SizeT)
    (processesBufferSize : UInt64) (s : State) :
    luisGetMemoryLimits env uProcessesBuffer maxEntries processesBufferSize s =
      match filledBuffer env uProcessesBuffer maxEntries processesBufferSize s with
      | .error e => (e, none, none)
      | .ok f =>
        if env.copyToUser = false then (-EFAULT, none, none)
        else if env.putUser = false then (-EFAULT, some f, none)
        else (0, some f, some f.count) := by
  rw [luisGetMemoryLimits, filledBuffer]
  split_ifs <;> rfl

/-- The length of the copy to user memory, `count * sizeof(struct memory_limitation)`. -/
def Fill.copyLength (f : Fill) : SizeT := f.count.toInt64.toUInt64 * sizeofMemoryLimitation

theorem toNat_sizeofMemoryLimitation : sizeofMemoryLimitation.toNat = 16 := rfl

/-- The buffer was filled in bounds. -/
structure Fill.InBounds (f : Fill) (maxEntries : SizeT) : Prop where
  /-- The entries are stored in slots of the buffer. -/
  index : ∀ x ∈ f.stores, 0 ≤ x.1.toInt ∧ x.1.toInt < maxEntries.toNat
  /-- `count` did not overflow: it is the number of entries stored. -/
  count : f.count.toInt = f.stores.length
  /-- The entries that are copied were allocated, and checked by `access_ok`. -/
  copied : f.copyLength ≤ maxEntries * sizeofMemoryLimitation
  /-- The length that was checked is that of `max_entries` entries. -/
  checked : (maxEntries * sizeofMemoryLimitation).toNat =
    maxEntries.toNat * sizeofMemoryLimitation.toNat

/-- The documented bound of `kmalloc_array`: no array whose size overflows, or
    exceeds the largest object, is allocated. -/
def Env.KmallocArrayBounded (env : Env) : Prop :=
  ∃ maxObject < 2 ^ 31, ∀ n size, env.kmallocArray n size = true →
    n.toNat * size.toNat ≤ maxObject

theorem mem_indexed {l : List MemoryLimitation} {x : Int32 × MemoryLimitation} {k : Nat}
    (hint : k + l.length ≤ 2 ^ 31) (h : x ∈ indexed k l) :
    k ≤ x.1.toInt ∧ x.1.toInt < k + l.length := by
  obtain ⟨⟨n, j⟩, hmem, rfl⟩ := List.mem_map.1 h
  obtain ⟨hk, hj, _⟩ := List.mem_zipIdx hmem
  dsimp only
  rw [Int32.toInt_ofNat_of_lt (by omega)]
  omega

/-- The number of bytes copied, as long as the count is an `int`. -/
theorem copyLength_toNat (hint : min maxEntries.toNat head.length < 2 ^ 31) :
    (fillBuffer maxEntries head ⟨0, []⟩).copyLength.toNat =
      min maxEntries.toNat head.length * 16 := by
  rw [fillBuffer_empty hint, Fill.copyLength, toUInt64_ofNat hint, UInt64.toNat_mul,
    toNat_ofNat hint, toNat_sizeofMemoryLimitation, Nat.mod_eq_of_lt (by omega)]

/-- If the buffer has fewer slots than there are values of an `int`, it is
    filled in bounds, whatever the list. -/
theorem fillBuffer_inBounds (hmax : maxEntries.toNat * 16 < 2 ^ 31) :
    (fillBuffer maxEntries head ⟨0, []⟩).InBounds maxEntries := by
  have hlen : (head.take maxEntries.toNat).length = min maxEntries.toNat head.length :=
    List.length_take
  have hchecked : (maxEntries * sizeofMemoryLimitation).toNat =
      maxEntries.toNat * sizeofMemoryLimitation.toNat := by
    rw [UInt64.toNat_mul, toNat_sizeofMemoryLimitation, Nat.mod_eq_of_lt (by omega)]
  refine ⟨fun x hx => ?_, ?_, ?_, hchecked⟩
  · rw [fillBuffer_empty (by omega)] at hx
    have hx' := mem_indexed (by omega) hx
    omega
  · rw [fillBuffer_empty (by omega)]
    dsimp only
    rw [indexed, List.length_map, List.length_zipIdx, hlen]
    exact Int32.toInt_ofNat_of_lt (by omega)
  · rw [UInt64.le_iff_toNat_le, hchecked, toNat_sizeofMemoryLimitation, copyLength_toNat (by omega)]
    omega

/-- What is known when the loop is reached: the buffer was allocated, so the
    product of the sizes did not wrap. -/
theorem filledBuffer_ok {f : Fill} (hmalloc : env.KmallocArrayBounded)
    {uProcessesBuffer processesBufferSize : UInt64}
    (h : filledBuffer env uProcessesBuffer maxEntries processesBufferSize s = .ok f) :
    0 < maxEntries.toNat ∧ maxEntries.toNat * 16 < 2 ^ 31 ∧
      f = fillBuffer maxEntries s.head ⟨0, []⟩ := by
  rw [filledBuffer] at h
  split_ifs at h with hzero haccess hnull
  cases h
  obtain ⟨maxObject, hobject, hbound⟩ := hmalloc
  have hsize := hbound maxEntries sizeofMemoryLimitation (by simpa using hnull)
  exact ⟨UInt64.lt_iff_toNat_lt.1 (UInt64.not_le.1 hzero), hsize.trans_lt hobject, rfl⟩

/-- For every `max_entries` and every list, the call fails before it stores
    anything, or the buffer is filled in bounds. -/
theorem filledBuffer_inBounds (env : Env) (hmalloc : env.KmallocArrayBounded)
    (uProcessesBuffer : UInt64) (maxEntries : SizeT) (processesBufferSize : UInt64) (s : State) :
    (∃ e, e ≠ 0 ∧
      filledBuffer env uProcessesBuffer maxEntries processesBufferSize s = .error e ∧
      luisGetMemoryLimits env uProcessesBuffer maxEntries processesBufferSize s =
        (e, none, none)) ∨
    ∃ f, filledBuffer env uProcessesBuffer maxEntries processesBufferSize s = .ok f ∧
      f.InBounds maxEntries := by
  rw [luisGetMemoryLimits_eq]
  cases hfilled : filledBuffer env uProcessesBuffer maxEntries processesBufferSize s with
  | error e =>
    refine .inl ⟨e, ?_, rfl, rfl⟩
    rw [filledBuffer] at hfilled
    split_ifs at hfilled <;> cases hfilled <;> decide
  | ok f =>
    obtain ⟨_, hmax, rfl⟩ := filledBuffer_ok hmalloc hfilled
    exact .inr ⟨_, rfl, fillBuffer_inBounds hmax⟩

/-- A kernel that allocates at most four megabytes at once. -/
def fourMegabytes : Env :=
  { Env.quiet with kmallocArray := fun n size => n.toNat * size.toNat ≤ 4194304 }

/-- A list of three nodes and a buffer of two slots. -/
theorem filledBuffer_inBounds_two :
    ∃ f, filledBuffer fourMegabytes 0 2 0 ⟨[⟨7, 10⟩, ⟨8, 20⟩, ⟨9, 30⟩], fun _ _ => ⟨0, 0⟩⟩ = .ok f ∧
      f.InBounds 2 := by
  have hmalloc : fourMegabytes.KmallocArrayBounded :=
    ⟨4194304, by decide, fun _ _ h => of_decide_eq_true h⟩
  refine (filledBuffer_inBounds fourMegabytes hmalloc 0 2 0 _).resolve_left ?_
  rintro ⟨e, _, herror, _⟩
  cases herror

end LuisKernel
