import Mathlib.Tactic.Common
import Mathlib.Data.BitVec

/-!
# Words of flags

A word of 64 bits in which single bits are the flags of a request. A test is always the same
expression, the conjunction with a mask compared to zero (`sets`); the rules say how it meets
the ways words of flags are put together.

* `sets_or`, `or_sets`, `addIf_sets`: the mask, or the word, is made of two;
* `IsBit.and_eq_iff`, `IsBit.and_or_eq_iff`: all bits of a mask of one bit, or of two, are set.
-/

namespace Bits

variable {w w' m m' : UInt64}

/-- Some bit of the mask `m` is set in `w`. -/
def sets (w m : UInt64) : Bool := w &&& m != 0

theorem sets_iff : sets w m = true ↔ w &&& m ≠ 0 := bne_iff_ne

theorem and_or (w m m' : UInt64) : w &&& (m ||| m') = w &&& m ||| w &&& m' := by
  apply UInt64.eq_of_toBitVec_eq
  ext i hi
  simp [Bool.and_or_distrib_left]

theorem or_and (w w' m : UInt64) : (w ||| w') &&& m = w &&& m ||| w' &&& m := by
  rw [UInt64.and_comm, and_or, UInt64.and_comm m, UInt64.and_comm m]

theorem and_or_self (m m' : UInt64) : m &&& (m ||| m') = m := by
  apply UInt64.eq_of_toBitVec_eq
  ext i hi
  simpa using fun h => .inl h

theorem sets_or : sets w (m ||| m') = (sets w m || sets w m') := by
  rw [Bool.eq_iff_iff, Bool.or_eq_true, sets_iff, sets_iff, sets_iff, and_or, Ne,
    UInt64.or_eq_zero_iff, not_and_or]

theorem or_sets : sets (w ||| w') m = (sets w m || sets w' m) := by
  rw [Bool.eq_iff_iff, Bool.or_eq_true, sets_iff, sets_iff, sets_iff, or_and, Ne,
    UInt64.or_eq_zero_iff, not_and_or]

/-- The word with the flags `w'` added, if `c`. -/
def addIf (c : Bool) (w w' : UInt64) : UInt64 := if c then w ||| w' else w

theorem addIf_sets {c : Bool} : sets (addIf c w w') m = (sets w m || (c && sets w' m)) := by
  rcases c with _ | _
  · exact (Bool.or_false _).symm
  · exact or_sets

/-- The mask is a single bit. -/
def IsBit (m : UInt64) : Prop := ∃ i < 64, m.toBitVec = BitVec.twoPow 64 i

theorem IsBit.and_eq (hm : IsBit m) (w : UInt64) : w &&& m = 0 ∨ w &&& m = m := by
  obtain ⟨i, _, hi⟩ := hm
  have hand : (w &&& m).toBitVec = if w.toBitVec.getLsbD i then BitVec.twoPow 64 i else 0 := by
    rw [UInt64.toBitVec_and, hi]
    exact BitVec.and_twoPow _ _
  split_ifs at hand with hbit
  · exact .inr (UInt64.eq_of_toBitVec_eq (hand.trans hi.symm))
  · exact .inl (UInt64.eq_of_toBitVec_eq hand)

theorem IsBit.ne_zero (hm : IsBit m) : m ≠ 0 := by
  rintro rfl
  obtain ⟨i, hlt, hi⟩ := hm
  have hbit : (BitVec.twoPow 64 i).getLsbD i = true := by
    simpa [BitVec.getLsbD_twoPow] using hlt
  rw [← hi] at hbit
  simp at hbit

theorem IsBit.and_eq_iff (hm : IsBit m) : w &&& m = m ↔ sets w m := by
  rw [sets_iff]
  rcases hm.and_eq w with h | h
  · rw [h]
    exact iff_of_false hm.ne_zero.symm (not_not.2 rfl)
  · rw [h]
    exact iff_of_true rfl hm.ne_zero

/-- Both bits of a mask of two are set. -/
theorem IsBit.and_or_eq_iff (hm : IsBit m) (hm' : IsBit m') :
    w &&& (m ||| m') = m ||| m' ↔ sets w m ∧ sets w m' := by
  constructor
  · intro h
    -- The bits of either mask are among those of the two.
    have hand : ∀ x : UInt64, x &&& (w &&& (m ||| m')) = x &&& (m ||| m') := fun x => by rw [h]
    refine ⟨hm.and_eq_iff.1 ?_, hm'.and_eq_iff.1 ?_⟩
    · have hm := hand m
      rwa [← UInt64.and_assoc, UInt64.and_comm m w, UInt64.and_assoc, and_or_self] at hm
    · have hm' := hand m'
      rwa [← UInt64.and_assoc, UInt64.and_comm m' w, UInt64.and_assoc, UInt64.or_comm,
        and_or_self] at hm'
  · rintro ⟨h, h'⟩
    rw [and_or, hm.and_eq_iff.2 h, hm'.and_eq_iff.2 h']

end Bits
