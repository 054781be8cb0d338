import LuisKernel.Machine
import Mathlib.Data.List.Nodup
import Mathlib.Logic.Function.Basic

/-!
# Serialisability

Calls `i : ι` on a shared state: `exec i` is what the call `i` does when it runs
alone, its result and the state it leaves. In a concurrent machine the calls run
in small steps, in any order; `result` says which calls have returned in a state
of this machine, and what.

The machine is *explained* by an order of the calls that have returned if running
them one after the other, in this order, gives the same results (`Explains`). To
find such an order it is enough to relate the states of the machine to those of
the sequential runs, such that a step of the machine either is silent, or makes a
call return what it would return if it ran now, alone and as a whole (`Matches`):
the calls are then in the order in which they return (`always_explained`).
-/

namespace Serial

variable {ι S R X : Type*} [DecidableEq ι]

/-- The state and the results after one more call. -/
def call (exec : ι → S → R × S) (q : S × (ι → Option R)) (i : ι) : S × (ι → Option R) :=
  ((exec i q.1).2, Function.update q.2 i (some (exec i q.1).1))

/-- The state and the results after the calls `order`, one after the other. -/
def runAll (exec : ι → S → R × S) (s : S) (order : List ι) : S × (ι → Option R) :=
  Machine.run (call exec) (s, fun _ => none) order

/-- Running each of the calls `order` once, from `s`, leaves the state `s'` and
    gives exactly the results `results`. -/
structure Explains (exec : ι → S → R × S) (s : S) (order : List ι) (s' : S)
    (results : ι → Option R) : Prop where
  nodup : order.Nodup
  run : runAll exec s order = (s', results)

variable {exec : ι → S → R × S} {s s' : S} {order : List ι} {results : ι → Option R} {i : ι}

theorem runAll_concat : runAll exec s (order ++ [i]) = call exec (runAll exec s order) i :=
  Machine.run_concat _ _ _ _

/-- The calls that have a result are those that ran. -/
theorem result_ne_none_iff : (runAll exec s order).2 i ≠ none ↔ i ∈ order := by
  induction order using List.reverseRecOn with
  | nil => exact iff_of_false (fun h => h rfl) List.not_mem_nil
  | append_singleton order j ih =>
    rw [runAll_concat, call, List.mem_append, List.mem_singleton]
    dsimp only
    by_cases hij : i = j
    · rw [hij]
      refine iff_of_true ?_ (.inr rfl)
      rw [Function.update_self]
      exact Option.some_ne_none _
    · rw [Function.update_of_ne hij, ih]
      exact (or_iff_left hij).symm

theorem Explains.mem_iff (h : Explains exec s order s' results) :
    i ∈ order ↔ results i ≠ none := by
  have hmem : (runAll exec s order).2 i ≠ none ↔ i ∈ order := result_ne_none_iff
  rw [h.run] at hmem
  exact hmem.symm

theorem explains_nil : Explains exec s [] s fun _ => none := ⟨List.nodup_nil, rfl⟩

/-- A call that has not run yet may run next. -/
theorem Explains.concat (h : Explains exec s order s' results) (hi : results i = none) :
    Explains exec s (order ++ [i]) (exec i s').2
      (Function.update results i (some (exec i s').1)) where
  nodup := by
    have hmem : i ∉ order := fun hmem => h.mem_iff.1 hmem hi
    rw [← List.concat_eq_append]
    exact h.nodup.concat hmem
  run := by rw [runAll_concat, h.run, call]

/-! ## Simulation -/

variable {step : X → ι → X} {result : X → ι → Option R} {Q : X → ι → Prop}
  {rel : X → S → Prop} {x : X} {es : List ι}

/-- What a step of the call `i`, from `x` to `x'`, may be, when `x` is related to
    the sequential state `s`. -/
inductive Matches (exec : ι → S → R × S) (result : X → ι → Option R) (rel : X → S → Prop)
    (s : S) (i : ι) (x x' : X) : Prop
  | silent : result x' = result x → rel x' s → Matches exec result rel s i x x'
  | returns : result x i = none →
      result x' = Function.update (result x) i (some (exec i s).1) → rel x' (exec i s).2 →
      Matches exec result rel s i x x'

variable (exec result) in
/-- If the steps that meet `Q` match the sequential calls, then every state of a
    run of such steps is explained by an order of the calls that have returned. -/
theorem always_explained (hx : result x = fun _ => none) (hrel : rel x s)
    (hes : Machine.Each step Q x es)
    (hstep : ∀ x i s, Q x i → rel x s → Matches exec result rel s i x (step x i)) :
    Machine.Always step (fun x' => ∃ order s', Explains exec s order s' (result x') ∧ rel x' s')
      x es := by
  refine Machine.always_of_each ⟨[], s, hx ▸ explains_nil, hrel⟩ hes ?_
  -- The order is that in which the calls return.
  rintro x i hQ ⟨order, s', hexp, hrel⟩
  cases hstep x i s' hQ hrel with
  | silent hresult hrel' => exact ⟨order, s', hresult ▸ hexp, hrel'⟩
  | returns hnone hresult hrel' =>
    exact ⟨order ++ [i], _, hresult ▸ hexp.concat hnone, hrel'⟩

end Serial
