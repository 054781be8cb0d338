import Mathlib.Data.Int.Order.Basic

/-!
# Words of 64 bits as integers

The numbers of 64 bits, signed and unsigned, as integers: an operation of the machine is the one
of the integers, brought back to the range of its type by `signed` or `unsigned`.

A sum of two numbers that are not negative, as signed numbers, is negative exactly if it does not
fit (`signed_add_neg_iff`); this is how code finds an overflow after it has happened.
-/

namespace Word

/-- The signed number with the bits of `x`. -/
def signed (x : Int) : Int := (x + 9223372036854775808) % 18446744073709551616 - 9223372036854775808

/-- The unsigned number with the bits of `x`. -/
def unsigned (x : Int) : Int := x % 18446744073709551616

/-- The greatest signed number. -/
def MAX : Int := 9223372036854775807

/-- In the range of the signed numbers. -/
def Signed (x : Int) : Prop := -9223372036854775808 ≤ x ∧ x ≤ MAX

/-- In this range, and not negative. -/
def Fits63 (x : Int) : Prop := 0 ≤ x ∧ x ≤ MAX

instance (x : Int) : Decidable (Signed x) := inferInstanceAs (Decidable (_ ∧ _))

instance (x : Int) : Decidable (Fits63 x) := inferInstanceAs (Decidable (_ ∧ _))

variable {x y : Int}

theorem Fits63.signed (h : Fits63 x) : Signed x := ⟨Int.le_trans (by decide) h.1, h.2⟩

theorem signed_signed : Signed (signed x) := by
  simp only [Signed, MAX, signed]
  omega

theorem signed_of_fits (h : Fits63 x) : signed x = x := by
  simp only [Fits63, MAX] at h
  rw [signed]
  omega

theorem unsigned_of_fits (h : Fits63 x) : unsigned x = x := by
  simp only [Fits63, MAX] at h
  rw [unsigned]
  omega

/-- An overflow shows in the sign. -/
theorem signed_add_neg_iff (hx : Fits63 x) (hy : Fits63 y) : signed (x + y) < 0 ↔ MAX < x + y := by
  simp only [Fits63, MAX] at hx hy ⊢
  rw [signed]
  omega

/-- A sum that is not negative after the operation is the one of the integers. -/
theorem signed_add_of_nonneg (hx : Signed x) (hy : Fits63 y) (h : 0 ≤ signed (x + y)) :
    signed (x + y) = x + y := by
  simp only [Signed, Fits63, MAX] at hx hy
  rw [Word.signed] at h ⊢
  omega

theorem fits_add (hx : Fits63 x) (hy : Fits63 y) (h : 0 ≤ signed (x + y)) : Fits63 (x + y) := by
  refine ⟨Int.add_nonneg hx.1 hy.1, ?_⟩
  rw [← Int.not_lt] at h
  exact Int.not_lt.1 fun hlt => h ((signed_add_neg_iff hx hy).2 hlt)

theorem Fits63.of_le (h : Fits63 y) (h0 : 0 ≤ x) (hxy : x ≤ y) : Fits63 x :=
  ⟨h0, Int.le_trans hxy h.2⟩

/-- The `n` places from `x` on are in the range of the signed numbers, and so is the place behind
    them. -/
structure Range (x n : Int) : Prop where
  start : Fits63 x
  nonneg : 0 ≤ n
  stop : Fits63 (x + n)

instance (x n : Int) : Decidable (Range x n) :=
  decidable_of_iff (Fits63 x ∧ 0 ≤ n ∧ Fits63 (x + n))
    ⟨fun h => ⟨h.1, h.2.1, h.2.2⟩, fun h => ⟨h.start, h.nonneg, h.stop⟩⟩

theorem Range.of_le {m n : Int} (h : Range x n) (hm : 0 ≤ m) (hmn : m ≤ n) : Range x m where
  start := h.start
  nonneg := hm
  stop := h.stop.of_le (Int.add_nonneg h.start.1 hm) (Int.add_le_add_left hmn x)

theorem Range.length {n : Int} (h : Range x n) : Fits63 n :=
  h.stop.of_le h.nonneg (Int.le_add_of_nonneg_left h.start.1)

end Word
