import Mathlib.Logic.Function.Basic

/-!
# Custody

Things that are kept in places, at most one in each, such as the objects of an allocator. Some of
them are *live*, that is to say, they have been made and not been destroyed.

Custody is *exact* if every live thing is in one place and in no other, and places keep nothing
else (`Exact`). Then nothing is lost, nothing is used by two, and nothing is used after its end.
It remains exact when a thing is made (`Exact.make`), when one is destroyed (`Exact.destroy`), and
when one is moved to a place that is empty (`Exact.move`).
-/

namespace Custody

variable {P A : Type*}

/-- Every live thing is in exactly one place. -/
structure Exact (held : P → Option A) (live : A → Bool) : Prop where
  alone : ∀ {p q a}, held p = some a → held q = some a → p = q
  live_iff : ∀ {a}, live a = true ↔ ∃ p, held p = some a

variable [DecidableEq P] {held : P → Option A} {live : A → Bool} {p q r : P} {a b : A}

theorem update_some_iff :
    Function.update held q (some a) r = some b ↔ r = q ∧ a = b ∨ r ≠ q ∧ held r = some b := by
  by_cases hr : r = q <;> simp [hr]

theorem update_none_iff :
    Function.update held p none r = some b ↔ r ≠ p ∧ held r = some b := by
  by_cases hr : r = p <;> simp [hr]

variable [DecidableEq A]

theorem Exact.make (h : Exact held live) (hq : held q = none) (ha : live a = false) :
    Exact (Function.update held q (some a)) (Function.update live a true) := by
  have hnone : ∀ r, held r ≠ some a := fun r hr => by
    rw [h.live_iff.2 ⟨r, hr⟩] at ha
    cases ha
  refine ⟨fun {r s b} hr hs => ?_, fun {b} => ?_⟩
  · rcases update_some_iff.1 hr with ⟨hrq, rfl⟩ | ⟨-, hr⟩
    · rcases update_some_iff.1 hs with ⟨hsq, -⟩ | ⟨-, hs⟩
      · exact hrq.trans hsq.symm
      · exact absurd hs (hnone s)
    · rcases update_some_iff.1 hs with ⟨-, rfl⟩ | ⟨-, hs⟩
      · exact absurd hr (hnone r)
      · exact h.alone hr hs
  · by_cases hb : b = a
    · rw [hb, Function.update_self]
      exact ⟨fun _ => ⟨q, Function.update_self ..⟩, fun _ => rfl⟩
    · rw [Function.update_of_ne hb, h.live_iff]
      constructor
      · rintro ⟨r, hr⟩
        have hrq : r ≠ q := fun h => by rw [h, hq] at hr; cases hr
        exact ⟨r, update_some_iff.2 (.inr ⟨hrq, hr⟩)⟩
      · rintro ⟨r, hr⟩
        rcases update_some_iff.1 hr with ⟨-, rfl⟩ | ⟨-, hr⟩
        · exact absurd rfl hb
        · exact ⟨r, hr⟩

theorem Exact.destroy (h : Exact held live) (hp : held p = some a) :
    Exact (Function.update held p none) (Function.update live a false) := by
  refine ⟨fun {r s b} hr hs => h.alone (update_none_iff.1 hr).2 (update_none_iff.1 hs).2,
    fun {b} => ?_⟩
  by_cases hb : b = a
  · rw [hb, Function.update_self]
    refine ⟨fun h => (by cases h), ?_⟩
    rintro ⟨r, hr⟩
    obtain ⟨hrp, hr⟩ := update_none_iff.1 hr
    exact absurd (h.alone hr hp) hrp
  · rw [Function.update_of_ne hb, h.live_iff]
    constructor
    · rintro ⟨r, hr⟩
      have hrp : r ≠ p := fun heq => hb (Option.some.inj (hr.symm.trans (heq ▸ hp)))
      exact ⟨r, update_none_iff.2 ⟨hrp, hr⟩⟩
    · rintro ⟨r, hr⟩
      exact ⟨r, (update_none_iff.1 hr).2⟩

/-- A move is like an end and a new beginning. -/
theorem Exact.move (h : Exact held live) (hp : held p = some a) (hq : held q = none) :
    Exact (Function.update (Function.update held p none) q (some a)) live := by
  have hpq : q ≠ p := fun h => by rw [h, hp] at hq; cases hq
  have hlive : Function.update (Function.update live a false) a true = live := by
    rw [Function.update_idem, ← h.live_iff.2 ⟨p, hp⟩, Function.update_eq_self]
  have hmoved := (h.destroy hp).make (a := a) (by rwa [Function.update_of_ne hpq])
    (Function.update_self ..)
  rwa [hlive] at hmoved

end Custody
