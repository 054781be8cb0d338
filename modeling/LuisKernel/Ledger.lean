import Mathlib.Data.Multiset.AddSub
import Mathlib.Algebra.Order.Group.Multiset

/-!
# Resources that are taken and given back

A *traced* computation has a value, and a trace of the resources it takes and
gives back on the way to it, in their order. What is held is a multiset; to give
back what is not held is an error (`exec`).

* `Triple h t post`: holding `h` before, the computation gives back nothing it
  should not, and holds `post` of its value after;
* `Balanced t`: whatever is held before is held after, no more and no less.

The rules follow the text of a computation: `triple_pure`, `triple_ite`, `Triple.bind`,
and one for each operation. A balanced computation does not show in a triple
(`Balanced.bind_triple`). Several resources, taken one after the other, are on top of what
was held before (`onTop`).
-/

namespace Ledger

variable {R α β : Type}

/-- A resource is taken, or given back. -/
inductive Op (R : Type)
  | acquire (r : R)
  | release (r : R)

/-- A computation: its value, and what it does with resources. -/
structure Traced (R α : Type) where
  value : α
  ops : List (Op R)

instance : Monad (Traced R) where
  pure a := ⟨a, []⟩
  bind t f := ⟨(f t.value).value, t.ops ++ (f t.value).ops⟩

def acquire (r : R) : Traced R Unit := ⟨(), [.acquire r]⟩

def release (r : R) : Traced R Unit := ⟨(), [.release r]⟩

variable {t : Traced R α} {f : α → Traced R β}

@[simp] theorem value_pure (a : α) : (pure a : Traced R α).value = a := rfl

@[simp] theorem value_bind : (t >>= f).value = (f t.value).value := rfl

theorem ops_bind : (t >>= f).ops = t.ops ++ (f t.value).ops := rfl

@[simp] theorem value_ite {p : Prop} [Decidable p] {t t' : Traced R α} :
    (if p then t else t').value = if p then t.value else t'.value := apply_ite Traced.value p t t'

/-! ## What is held -/

variable [DecidableEq R] {r : R} {h : Multiset R} {mid : α → Multiset R}
  {post : β → Multiset R}

/-- What is held after some operations, if it was `h` before. -/
def exec : List (Op R) → Multiset R → Option (Multiset R)
  | [], h => some h
  | .acquire r :: ops, h => exec ops (r ::ₘ h)
  | .release r :: ops, h => if r ∈ h then exec ops (h.erase r) else none

theorem exec_append (ops₁ ops₂ : List (Op R)) (h : Multiset R) :
    exec (ops₁ ++ ops₂) h = (exec ops₁ h).bind (exec ops₂) := by
  induction ops₁ generalizing h with
  | nil => rfl
  | cons op ops₁ ih =>
    cases op with
    | acquire r => exact ih _
    | release r =>
      rw [List.cons_append, exec, exec]
      split_ifs
      · exact ih _
      · rfl

/-- From `h`, the computation gets to `post` of its value. -/
def Triple (h : Multiset R) (t : Traced R α) (post : α → Multiset R) : Prop :=
  exec t.ops h = some (post t.value)

/-- The computation leaves what is held as it was. -/
def Balanced (t : Traced R α) : Prop := ∀ h, Triple h t fun _ => h

theorem triple_pure {a : α} (ha : mid a = h) : Triple h (pure a) mid := congrArg some ha.symm

theorem triple_ite {p : Prop} [Decidable p] {t t' : Traced R α} (ht : p → Triple h t mid)
    (ht' : ¬p → Triple h t' mid) : Triple h (if p then t else t') mid := by
  split_ifs with hp
  · exact ht hp
  · exact ht' hp

theorem Triple.bind (ht : Triple h t mid) (hf : Triple (mid t.value) (f t.value) post) :
    Triple h (t >>= f) post := by
  rw [Triple, ops_bind, exec_append, ht]
  exact hf

theorem triple_acquire (r : R) (h : Multiset R) : Triple h (acquire r) fun _ => r ::ₘ h := rfl

theorem triple_release (r : R) (h : Multiset R) : Triple (r ::ₘ h) (release r) fun _ => h := by
  have hexec : exec [.release r] (r ::ₘ h) = some ((r ::ₘ h).erase r) :=
    if_pos (Multiset.mem_cons_self r h)
  rw [Triple]
  refine hexec.trans ?_
  rw [Multiset.erase_cons_head]

theorem balanced_pure (a : α) : Balanced (pure a : Traced R α) := fun _ => triple_pure rfl

theorem balanced_ite {p : Prop} [Decidable p] {t t' : Traced R α} (ht : Balanced t)
    (ht' : Balanced t') : Balanced (if p then t else t') :=
  fun h => triple_ite (fun _ => ht h) fun _ => ht' h

/-- What is balanced can be left out. -/
theorem Balanced.bind_triple (ht : Balanced t) (hf : Triple h (f t.value) post) :
    Triple h (t >>= f) post :=
  (ht h).bind hf

theorem Balanced.bind (ht : Balanced t) (hf : Balanced (f t.value)) : Balanced (t >>= f) :=
  fun h => ht.bind_triple (hf h)

/-- What is taken and given back at once is balanced. -/
theorem balanced_acquire_release (r : R) (ht : Balanced t) :
    Balanced (acquire r >>= fun _ => release r >>= fun _ => t) :=
  fun h => (triple_acquire r h).bind ((triple_release r h).bind (ht h))

/-! ## Several resources -/

section

omit [DecidableEq R]

/-- The resources `rs`, the first one on top, and those of `h`. -/
def onTop (rs : List R) (h : Multiset R) : Multiset R := rs.foldr (· ::ₘ ·) h

theorem onTop_append (rs₁ rs₂ : List R) (h : Multiset R) :
    onTop (rs₁ ++ rs₂) h = onTop rs₁ (onTop rs₂ h) := List.foldr_append

theorem onTop_eq_add (rs : List R) (h : Multiset R) : onTop rs h = (rs : Multiset R) + h := by
  induction rs with
  | nil => exact (zero_add h).symm
  | cons r rs ih =>
    rw [← Multiset.cons_coe, Multiset.cons_add, ← ih]
    rfl

theorem onTop_cons (rs : List R) (r : R) (h : Multiset R) :
    onTop rs (r ::ₘ h) = r ::ₘ onTop rs h := by
  rw [onTop_eq_add, onTop_eq_add, Multiset.add_cons]

theorem onTop_perm {rs₁ rs₂ : List R} (hperm : rs₁.Perm rs₂) (h : Multiset R) :
    onTop rs₁ h = onTop rs₂ h := by
  rw [onTop_eq_add, onTop_eq_add, Multiset.coe_eq_coe.2 hperm]

theorem onTop_comm (rs₁ rs₂ : List R) (h : Multiset R) :
    onTop rs₁ (onTop rs₂ h) = onTop rs₂ (onTop rs₁ h) := by
  simp only [onTop_eq_add, add_left_comm]

/-- The resource `r`, if `c`. -/
def only (c : Bool) (r : R) : List R := if c then [r] else []

def acquireIf (c : Bool) (r : R) : Traced R Unit := if c then acquire r else pure ()

def releaseIf (c : Bool) (r : R) : Traced R Unit := if c then release r else pure ()

def releaseAll : List R → Traced R Unit
  | [] => pure ()
  | r :: rs => do
    release r
    releaseAll rs

end

theorem Triple.post_eq {mid' : α → Multiset R} (ht : Triple h t mid)
    (heq : mid t.value = mid' t.value) : Triple h t mid' :=
  ht.trans (congrArg some heq)

/-- What is held may be put in another order. -/
theorem triple_of_eq {h' : Multiset R} (heq : h = h') (ht : Triple h' t mid) : Triple h t mid :=
  heq ▸ ht

theorem triple_acquireIf (c : Bool) (r : R) (h : Multiset R) :
    Triple h (acquireIf c r) fun _ => onTop (only c r) h := by
  rcases c with _ | _
  · exact triple_pure rfl
  · exact triple_acquire r h

theorem triple_releaseIf (c : Bool) (r : R) (h : Multiset R) :
    Triple (onTop (only c r) h) (releaseIf c r) fun _ => h := by
  rcases c with _ | _
  · exact triple_pure rfl
  · exact triple_release r h

theorem triple_releaseAll (rs : List R) (h : Multiset R) :
    Triple (onTop rs h) (releaseAll rs) fun _ => h := by
  induction rs with
  | nil => exact triple_pure rfl
  | cons r rs ih => exact (triple_release r (onTop rs h)).bind ih

end Ledger
