import Mathlib.Data.List.Nodup
import Mathlib.Logic.Function.Basic
import Mathlib.Logic.Relation
import LuisKernel.Loop

/-!
# Walks over a forest

A forest is given by the kids of every node, in an order, and a link from a kid up to its parent
(`IsForest`). A visitor says at every node what happens to some data, and whether the walk goes
down (a positive answer), passes by (zero) or stops altogether (a negative one).

A walk is written in two ways: as a recursion over the subtrees (`descend`), and as a loop that
only keeps the node it is at, and finds its way back by the link up and the next sibling (`step`).

* The loop ends with the data of the recursion (`exec_eq_descend`).
* A walk that marks nodes and passes by those that are marked already, or blocked, marks all that
  is below the root and not behind a blocked node, provided that what was marked before was
  closed in the same way (`descend_mark`).
-/

namespace Forest

open Loop

variable {α σ : Type*}

/-! ## Next siblings -/

/-- What comes after the first `a`. -/
def after [DecidableEq α] (a : α) : List α → List α
  | [] => []
  | b :: l => if b = a then l else after a l

section

variable [DecidableEq α] {a : α} {l l₁ l₂ : List α}

theorem after_suffix (a : α) (l : List α) : after a l <:+ l := by
  induction l with
  | nil => exact List.suffix_refl _
  | cons b l ih =>
    rw [after]
    split_ifs
    · exact List.suffix_cons b l
    · exact ih.trans (List.suffix_cons b l)

theorem after_append_of_not_mem (h : a ∉ l₁) : after a (l₁ ++ l₂) = after a l₂ := by
  induction l₁ with
  | nil => rfl
  | cons b l₁ ih =>
    rw [List.mem_cons, not_or] at h
    rw [List.cons_append, after, if_neg fun hb => h.1 hb.symm, ih h.2]

theorem after_append_of_mem (h : a ∈ l₁) : after a (l₁ ++ l₂) = after a l₁ ++ l₂ := by
  induction l₁ with
  | nil => exact absurd h List.not_mem_nil
  | cons b l₁ ih =>
    rw [List.cons_append, after, after]
    split_ifs with hb
    · rfl
    · exact ih ((List.mem_cons.1 h).resolve_left fun hab => hb hab.symm)

/-- In a list without repetitions, what comes after an element is what follows it. -/
theorem after_of_suffix (hl : l.Nodup) (h : a :: l₂ <:+ l) : after a l = l₂ := by
  obtain ⟨l₁, rfl⟩ := h
  have ha : a ∉ l₁ := fun ha => (List.nodup_append.1 hl).2.2 a ha a List.mem_cons_self rfl
  rw [after_append_of_not_mem ha]
  exact if_pos rfl

/-- Two nested loops, resumed in the middle. -/
theorem after_flatMap {β : Type*} [DecidableEq β] {f : β → List α} {t : β} {ts : List β}
    (ht : t ∈ ts) (ha : a ∈ f t) (hone : ∀ t' ∈ ts, a ∈ f t' → t' = t) :
    after a (ts.flatMap f) = after a (f t) ++ (after t ts).flatMap f := by
  induction ts with
  | nil => exact absurd ht List.not_mem_nil
  | cons t' ts ih =>
    rw [List.flatMap_cons, after]
    split_ifs with heq
    · rw [heq, after_append_of_mem ha]
    · have hnot : a ∉ f t' := fun ha' => heq (hone t' List.mem_cons_self ha')
      rw [after_append_of_not_mem hnot]
      exact ih ((List.mem_cons.1 ht).resolve_left fun h => heq h.symm)
        fun t'' ht'' => hone t'' (List.mem_cons_of_mem _ ht'')

end

/-! ## The recursion -/

section

variable (kids : α → List α) (visit : α → σ → Int × σ)

/-- The nodes of a list, visited one after the other; `below` walks over the subtree of one. An
    error is the data at which the walk was stopped. -/
def visitAll (below : α → σ → Except σ σ) : List α → σ → Except σ σ
  | [], d => .ok d
  | c :: cs, d =>
    if (visit c d).1 < 0 then .error (visit c d).2
    else if (visit c d).1 = 0 then visitAll below cs (visit c d).2
    else (below c (visit c d).2).bind (visitAll below cs)

/-- The walk over what is below a node, to the depth `n`. -/
def descend : ℕ → α → σ → Except σ σ
  | 0, _, d => .ok d
  | n + 1, a, d => visitAll visit (descend n) (kids a) d

end

/-- What the loop takes at most for the nodes of a list: one step down to each, and one up. -/
def cost (kids : α → List α) : ℕ → List α → ℕ
  | 0, _ => 0
  | n + 1, l => l.foldr (fun c k => cost kids n (kids c) + 2 + k) 0

/-- The data at the end of a walk, stopped or not. -/
def final : Except σ σ → σ
  | .ok d => d
  | .error d => d

/-! ## The loop -/

/-- The node whose kids are being visited, and those of them that are left. -/
structure Walk (α σ : Type*) where
  node : α
  rest : List α
  data : σ

section

variable [DecidableEq α] (kids : α → List α) (up : α → α) (visit : α → σ → Int × σ) (top : α)

def step (s : Walk α σ) : Walk α σ ⊕ σ :=
  match s.rest with
  | c :: cs =>
    let (res, d) := visit c s.data
    if res < 0 then .inr d
    else if res = 0 then .inl ⟨s.node, cs, d⟩
    else .inl ⟨c, kids c, d⟩
  | [] =>
    if s.node = top then .inr s.data
    else .inl ⟨up s.node, after s.node (kids (up s.node)), s.data⟩

end

/-- The kids of a node link up to it, are different, and have smaller ranks. -/
structure IsForest (kids : α → List α) (up : α → α) (rank : α → ℕ) : Prop where
  up_eq : ∀ a, ∀ c ∈ kids a, up c = a
  nodup : ∀ a, (kids a).Nodup
  rank_lt : ∀ a, ∀ c ∈ kids a, rank c < rank a

section

variable [DecidableEq α] {kids : α → List α} {up : α → α} {visit : α → σ → Int × σ} {top : α}
  {rank : α → ℕ}

/-- The loop has visited the rest of the kids of `a`, or was stopped. -/
def stopped (a : α) : Except σ σ → Walk α σ ⊕ σ
  | .ok d => .inl ⟨a, [], d⟩
  | .error d => .inr d

/-- The loop does with the kids that are left what the recursion does with them. -/
theorem reaches_visitAll (hf : IsForest kids up rank) (n : ℕ) :
    ∀ a rest d, rank a ≤ n → rank a ≤ rank top → rest <:+ kids a →
      Reaches (step kids up visit top) (cost kids n rest) (.inl ⟨a, rest, d⟩)
        (stopped a (visitAll visit (descend kids visit n) rest d)) := by
  -- On the rank, and then on the kids that are left.
  induction n with
  | zero =>
    intro a rest d hn _ hrest
    rcases rest with _ | ⟨c, cs⟩
    · exact .refl _ _
    · exact absurd (hf.rank_lt a c (hrest.subset List.mem_cons_self)) (by omega)
  | succ n ihn =>
    intro a rest
    induction rest with
    | nil => exact fun d _ _ _ => .refl _ _
    | cons c cs ih =>
      intro d hn htop hrest
      have hc : c ∈ kids a := hrest.subset List.mem_cons_self
      have hcs : cs <:+ kids a := (List.suffix_cons c cs).trans hrest
      have hlt := hf.rank_lt a c hc
      have hcost : cost kids (n + 1) (c :: cs) =
          cost kids n (kids c) + (cost kids (n + 1) cs + 1) + 1 := by
        rw [cost, List.foldr_cons, cost]
        omega
      rw [visitAll, hcost]
      refine .head ?_
      rw [step]
      dsimp only
      split_ifs with hstop hpass
      · exact .refl _ _
      · exact (ih _ hn htop hcs).mono (by omega)
      · -- Down, over the kids of `c`, and up again.
        have hdown := ihn c (kids c) (visit c d).2 (by omega) (by omega) (List.suffix_refl _)
        rw [descend]
        refine hdown.trans ?_
        rcases visitAll visit (descend kids visit n) (kids c) (visit c d).2 with d' | d'
        · exact .refl _ _
        · have hne : c ≠ top := fun heq => by rw [heq] at hlt; omega
          refine .head ?_
          rw [step, if_neg hne]
          dsimp only
          rw [hf.up_eq a c hc, after_of_suffix (hf.nodup a) hrest]
          exact ih d' hn htop hcs

/-- The loop ends, and with the data of the recursion. -/
theorem exec_eq_descend (hf : IsForest kids up rank) {n : ℕ} (hn : rank top ≤ n) (d : σ) :
    exec (step kids up visit top) (cost kids n (kids top) + 1) (.inl ⟨top, kids top, d⟩) =
      .inr (final (descend kids visit (n + 1) top d)) := by
  refine ((reaches_visitAll hf n top (kids top) d hn (Nat.le_refl _)
    (List.suffix_refl _)).trans ?_).exec_eq (Nat.le_refl _)
  rw [descend]
  rcases visitAll visit (descend kids visit n) (kids top) d with d' | d'
  · exact .refl _ _
  · refine .head ?_
    rw [step, if_pos rfl]
    exact .refl _ _

end

/-! ## Marking -/

section

variable {kids : α → List α} {up : α → α} {rank : α → ℕ} {blocked : α → Bool} {a b c p : α}
  {m m' : α → Bool}

/-- The visitor that marks a node and goes down, unless it is marked already, or blocked. -/
def mark [DecidableEq α] (blocked : α → Bool) (c : α) (m : α → Bool) : Int × (α → Bool) :=
  if m c || blocked c then (0, m) else (1, Function.update m c true)

variable (kids blocked) in
/-- `p` is below `a`, and neither `p` nor a node on the way is blocked. -/
def Under (a p : α) : Prop := Relation.TransGen (fun a c => c ∈ kids a ∧ blocked c = false) a p

theorem under_iff : Under kids blocked a p ↔
    ∃ c ∈ kids a, blocked c = false ∧ (p = c ∨ Under kids blocked c p) := by
  rw [Under, Relation.TransGen.head'_iff]
  simp only [Relation.reflTransGen_iff_eq_or_transGen, and_assoc]
  rfl

/-- What is reached is not blocked itself. -/
theorem Under.not_blocked (h : Under kids blocked a p) : blocked p = false := by
  cases h with
  | single h => exact h.2
  | tail _ h => exact h.2

theorem Under.rank_lt (hf : IsForest kids up rank) (h : Under kids blocked a p) :
    rank p < rank a := by
  induction h with
  | single h => exact hf.rank_lt _ _ h.1
  | tail _ h ih => exact Nat.lt_trans (hf.rank_lt _ _ h.1) ih

variable (kids blocked) in
/-- Below `a`, the marks are closed: what is under a marked node is marked. -/
def Closed (a : α) (m : α → Bool) : Prop :=
  ∀ p, Under kids blocked a p → m p = true → ∀ q ∈ kids p, blocked q = false → m q = true

theorem Closed.marked (h : Closed kids blocked a m) (hb : Under kids blocked a b) (hm : m b = true)
    (hp : Under kids blocked b p) : m p = true := by
  induction hp with
  | single hp => exact h b hb hm _ hp.1 hp.2
  | tail hq hp ih => exact h _ (hb.trans hq) ih _ hp.1 hp.2

/-- A node is marked before what is under it. -/
theorem Closed.update [DecidableEq α] (hf : IsForest kids up rank) (h : Closed kids blocked a m)
    (hc : Under kids blocked a c) : Closed kids blocked c (Function.update m c true) := by
  intro p hp hm q hq hblocked
  have hne : p ≠ c := fun heq => Nat.lt_irrefl _ (heq ▸ hp.rank_lt hf)
  have hqc : q ≠ c := fun heq => by
    have := hf.rank_lt p q hq
    have := hp.rank_lt hf
    rw [heq] at *
    omega
  rw [Function.update_of_ne hne] at hm
  rw [Function.update_of_ne hqc]
  exact h p (hc.trans hp) hm q hq hblocked

theorem Closed.add (h : Closed kids blocked a m)
    (hm' : ∀ p, m' p = true ↔ m p = true ∨ p = c ∨ Under kids blocked c p) :
    Closed kids blocked a m' := by
  intro p hp hmp q hq hblocked
  rw [hm'] at hmp ⊢
  rcases hmp with hmp | rfl | hmp
  · exact .inl (h p hp hmp q hq hblocked)
  · exact .inr (.inr (.single ⟨hq, hblocked⟩))
  · exact .inr (.inr (hmp.tail ⟨hq, hblocked⟩))

variable [DecidableEq α] {below : α → (α → Bool) → Except (α → Bool) (α → Bool)} {cs : List α}

theorem visitAll_mark_pass (h : (m c || blocked c) = true) :
    visitAll (mark blocked) below (c :: cs) m = visitAll (mark blocked) below cs m := by
  simp [visitAll, mark, h]

theorem visitAll_mark_down (hm : m c = false) (hblocked : blocked c = false) :
    visitAll (mark blocked) below (c :: cs) m =
      (below c (Function.update m c true)).bind (visitAll (mark blocked) below cs) := by
  simp [visitAll, mark, hm, hblocked]

/-- The visited nodes that are not blocked, and what is under them, are marked. -/
theorem visitAll_mark (hf : IsForest kids up rank) (n : ℕ) :
    ∀ a rest m, rank a ≤ n → rest ⊆ kids a → Closed kids blocked a m →
      ∃ m', visitAll (mark blocked) (descend kids (mark blocked) n) rest m = .ok m' ∧
        ∀ p, m' p = true ↔ m p = true ∨
          ∃ c ∈ rest, blocked c = false ∧ (p = c ∨ Under kids blocked c p) := by
  induction n with
  | zero =>
    intro a rest m hn hrest _
    rcases rest with _ | ⟨c, cs⟩
    · exact ⟨m, rfl, fun p => by simp⟩
    · exact absurd (hf.rank_lt a c (hrest List.mem_cons_self)) (by omega)
  | succ n ihn =>
    intro a rest
    induction rest with
    | nil => exact fun m _ _ _ => ⟨m, rfl, fun p => by simp⟩
    | cons c cs ih =>
      intro m hn hrest hclosed
      have hc : c ∈ kids a := hrest List.mem_cons_self
      have hcs : cs ⊆ kids a := fun x hx => hrest (List.mem_cons_of_mem c hx)
      have hlt := hf.rank_lt a c hc
      simp only [List.exists_mem_cons_iff]
      by_cases hpass : (m c || blocked c) = true
      · -- A marked node has all that is under it marked.
        obtain ⟨m', hm', hmarks⟩ := ih m hn hcs hclosed
        rw [visitAll_mark_pass hpass]
        refine ⟨m', hm', fun p => ?_⟩
        rw [hmarks]
        refine ⟨Or.imp_right .inr, ?_⟩
        rintro (hm | ⟨hblocked, hp⟩ | hp)
        · exact .inl hm
        · have hmc : m c = true := by simpa [hblocked] using hpass
          rcases hp with rfl | hp
          · exact .inl hmc
          · exact .inl (hclosed.marked (.single ⟨hc, hblocked⟩) hmc hp)
        · exact .inr hp
      · rw [Bool.or_eq_true, not_or, Bool.not_eq_true, Bool.not_eq_true] at hpass
        have hunder : Under kids blocked a c := .single ⟨hc, hpass.2⟩
        obtain ⟨m₁, hm₁, hmarks₁⟩ := ihn c (kids c) (Function.update m c true) (by omega)
          (fun _ h => h) (hclosed.update hf hunder)
        have hmarks : ∀ p, m₁ p = true ↔ m p = true ∨ p = c ∨ Under kids blocked c p := by
          intro p
          rw [hmarks₁, ← under_iff, Function.update_apply]
          by_cases hpc : p = c <;> simp [hpc]
        obtain ⟨m', hm', hmarks'⟩ := ih m₁ hn hcs (hclosed.add hmarks)
        rw [visitAll_mark_down hpass.1 hpass.2, descend, hm₁]
        refine ⟨m', hm', fun p => ?_⟩
        rw [hmarks', hmarks, or_assoc, hpass.2]
        simp

/-- The marks after a walk below `a`. -/
theorem descend_mark (hf : IsForest kids up rank) {n : ℕ} (hn : rank a ≤ n)
    (hclosed : Closed kids blocked a m) :
    ∃ m', descend kids (mark blocked) (n + 1) a m = .ok m' ∧
      ∀ p, m' p = true ↔ m p = true ∨ Under kids blocked a p := by
  obtain ⟨m', hm', hmarks⟩ := visitAll_mark hf n a (kids a) m hn (fun _ h => h) hclosed
  refine ⟨m', hm', fun p => ?_⟩
  rw [hmarks, ← under_iff]

end

end Forest
