import LuisKernel.Clone
import LuisKernel.ProcessTree

/-!
# Subreapers

A group can ask with `PR_SET_CHILD_SUBREAPER` to be the new parent of orphans below it. The groups
below a subreaper carry a flag, `has_child_subreaper`, which a new group inherits from its parent.
The option sets the flag by a walk over the process tree; the walk passes by groups that have the
flag already, on the ground that all below them have it too, and by the first groups of pid
namespaces, whose orphans never leave the namespace.

The events are those that change the tree: new threads and groups, with `CLONE_PARENT` or not and
in any namespace; the option; the adoption of the children of a thread that exits; and the exits of
threads and of groups. The last three are code of `kernel/exit.c`, which is not part of this
project: what is assumed of it has a name for each function (`ExitCode`), and the results hold for
all code that meets it.

* In every state, the walk ends and is a recursion (`walk_recursive`), although the tree has been
  changed in the meantime.
* Every group below a subreaper has the flag, if neither the subreaper nor a group in between is
  the first of a namespace (`covered`). Below a first group there may be groups without it: an
  orphan that it adopts need not have been below it.
* The option sets the flag of all groups below that are not behind the first group of a namespace,
  and of no other, although it passes by many of them (`prctl_exact`).
-/

namespace LuisKernel

namespace ProcessTree

open Forest Machine Bits Clone

/-! ## What changes the tree -/

inductive Event
  /-- The new group is in the namespace of the first group `ns`, or in a new one. -/
  | fork (current : Nat) (flags : UInt64) (ns : Option Nat)
  | prctl (me : Nat) (arg2 : UInt64)
  | adopt (father reaper : Nat)
  | exitThread (t : Nat)
  | exitGroup (leader : Nat)

/-- The group with one more thread. -/
def Group.join (t : Nat) (g : Group) : Group := { g with others := g.others ++ [t] }

/-- The group with one thread less, which is not the leader. -/
def Group.leave (t : Nat) (g : Group) : Group := { g with others := g.others.filter (· != t) }

/-- The group, adopted by `reaper` if its parent was `father`. -/
def Group.adopted (father reaper : Nat) (g : Group) : Group :=
  if g.realParent = some father then { g with realParent := some reaper } else g

namespace Tree

variable (T : Tree)

/-- `propagate_has_child_subreaper`, for a leader. -/
def propagateHasChildSubreaper (p : Nat) (has : Nat → Bool) : Int × (Nat → Bool) :=
  if has p || T.childReaper p then (0, has) else (1, Function.update has p true)

/-- `prctl(PR_SET_CHILD_SUBREAPER, arg2)`, called by the thread `me`. -/
def setChildSubreaper (me : Nat) (arg2 : UInt64) : Tree :=
  match T.groupOf? me with
  | none => T
  | some g =>
    let is := Function.update T.isChildSubreaper g.leader (arg2 != 0)
    if arg2 = 0 then { T with isChildSubreaper := is }
    else
      let has := T.walkProcessTree T.propagateHasChildSubreaper me T.hasChildSubreaper
      { T with isChildSubreaper := is, hasChildSubreaper := has.getD T.hasChildSubreaper }

/-- What `copy_process` does to the tree: a thread joins its group; a group inherits the flag from
    its parent. The first group of a namespace is `SIGNAL_UNKILLABLE`, and may not use
    `CLONE_PARENT`. -/
def copyProcess (current : Nat) (flags : UInt64) (ns : Option Nat) : Tree :=
  match T.groupOf? current with
  | none => T
  | some g =>
    if sets flags CLONE_PARENT ∧ g.childReaper then T
    else if sets flags CLONE_THREAD then
      { T with
        groups := Keyed.write Group.leader g.leader (Group.join T.next) T.groups
        next := T.next + 1 }
    -- `alloc_pid` fails in a namespace without its first group
    else if ns.any (fun n => !T.childReaper n) then T
    else
      let realParent := if sets flags CLONE_PARENT then g.realParent else some current
      let parent := realParent.elim T.next T.groupLeader
      { groups := T.groups ++ [⟨T.next, [], realParent, ns.getD T.next⟩]
        next := T.next + 1
        hasChildSubreaper := Function.update T.hasChildSubreaper T.next
          (T.hasChildSubreaper parent || T.isChildSubreaper parent)
        isChildSubreaper := Function.update T.isChildSubreaper T.next false }

/-- The children of `father` get `reaper` for a parent, and are put at the end of its list. -/
def adopt (father reaper : Nat) : Tree :=
  { T with groups := T.groups.filter (fun c => c.realParent != some father) ++
      (T.groups.filter fun c => c.realParent == some father).map (Group.adopted father reaper) }

/-- A thread leaves its group. -/
def exitThread (t : Nat) : Tree :=
  match T.groupOf? t with
  | none => T
  | some g => { T with groups := Keyed.write Group.leader g.leader (Group.leave t) T.groups }

/-- A group is gone. -/
def exitGroup (leader : Nat) : Tree :=
  { T with groups := Keyed.erase Group.leader leader T.groups }

/-- The thread `reaper` is of the group of `father`; or of a group above it, and there is no first
    group of a namespace from that of `father` up to it; or of the first group of the namespace
    of `father`, wherever that is. -/
def Reaper (father reaper : Nat) : Prop :=
  ∃ g ∈ T.groups, ∃ r ∈ T.groups, father ∈ g.threads ∧ reaper ∈ r.threads ∧
    (r = g ∨ Under T.kids T.childReaper r.leader g.leader ∨ r.leader = g.ns)

end Tree

/-- The code of `kernel/exit.c`, by what it may do in a tree, and what is assumed of it. -/
structure ExitCode where
  /-- `find_new_reaper` finds `reaper` for the children of `father`. -/
  findNewReaper : Tree → (father reaper : Nat) → Bool
  /-- `release_task` of a thread. -/
  releaseThread : Tree → Nat → Bool
  /-- `release_task` of a leader, and of all other threads of the group before it. -/
  releaseGroup : Tree → Nat → Bool
  findNewReaper_reaper : ∀ {T : Tree} {father reaper : Nat},
    findNewReaper T father reaper = true → T.Reaper father reaper
  /-- A leader is released last, and a thread not before its children have been adopted. -/
  releaseThread_childless : ∀ {T : Tree} {t : Nat}, releaseThread T t = true →
    (∀ g ∈ T.groups, g.leader ≠ t) ∧ T.children t = []
  releaseGroup_childless : ∀ {T : Tree} {leader : Nat}, releaseGroup T leader = true →
    T.kids leader = []

namespace Tree

/-- The tree after an event. -/
def step (x : ExitCode) (T : Tree) : Event → Tree
  | .fork current flags ns => T.copyProcess current flags ns
  | .prctl me arg2 => T.setChildSubreaper me arg2
  | .adopt father reaper => if x.findNewReaper T father reaper then T.adopt father reaper else T
  | .exitThread t => if x.releaseThread T t then T.exitThread t else T
  | .exitGroup leader => if x.releaseGroup T leader then T.exitGroup leader else T

/-- The first group, which is that of the first namespace. -/
def boot : Tree where
  groups := [⟨0, [], none, 0⟩]
  next := 1
  hasChildSubreaper _ := false
  isChildSubreaper _ := false

end Tree

/-! ## The invariant -/

/-- The flags of `g` are passed on to `c`, unless one of them is the first of a namespace. -/
def Tree.Inherits (T : Tree) (g c : Group) : Prop :=
  g.childReaper = false → c.childReaper = false →
    (T.hasChildSubreaper g.leader || T.isChildSubreaper g.leader) = true →
      T.hasChildSubreaper c.leader = true

/-- What holds in every state: a namespace is as old as its first group, and a group has its
    parent's flags. -/
structure Inv (T : Tree) : Prop where
  wellFormed : WellFormed T
  reaper : ∀ g ∈ T.groups, g.realParent = none → g.childReaper = true
  ns_le : ∀ g ∈ T.groups, g.ns ≤ g.leader
  first : ∀ g ∈ T.groups, ∀ r ∈ T.groups, r.leader = g.ns → r.childReaper = true
  flags : ∀ g ∈ T.groups, ∀ c ∈ T.groups, ∀ t ∈ g.threads, c.realParent = some t → T.Inherits g c

section

variable {T : Tree} {g c : Group} {t : Nat}

/-- The state of the flags, along one link of the tree. -/
theorem Inv.kids (h : Inv T) {a c : Nat} (hc : c ∈ T.kids a) (ha : T.childReaper a = false)
    (hreaper : T.childReaper c = false)
    (hflag : (T.hasChildSubreaper a || T.isChildSubreaper a) = true) :
    T.hasChildSubreaper c = true := by
  obtain ⟨g, hg, g', hg', t, ht, rfl, rfl, hparent⟩ := h.wellFormed.mem_kids.1 hc
  rw [h.wellFormed.childReaper_eq hg] at ha
  rw [h.wellFormed.childReaper_eq hg'] at hreaper
  exact h.flags g hg g' hg' t ht hparent ha hreaper hflag

/-- … and along a path. -/
theorem Inv.under (h : Inv T) {a p : Nat} (ha : T.childReaper a = false)
    (hp : Under T.kids T.childReaper a p)
    (hflag : (T.hasChildSubreaper a || T.isChildSubreaper a) = true) :
    T.hasChildSubreaper p = true := by
  induction hp with
  | single hp => exact h.kids hp.1 ha hp.2 hflag
  | tail hunder hp ih =>
    exact h.kids hp.1 (Under.not_blocked hunder) hp.2 (by rw [ih, Bool.true_or])

theorem groupOf?_some (h : T.groupOf? t = some g) : g ∈ T.groups ∧ t ∈ g.threads :=
  ⟨List.mem_of_find?_eq_some h, by simpa using List.find?_some h⟩

/-! ### The option -/

/-- The walk of the option sets the flag of all that is under the group. -/
theorem walk_marks (h : Inv T) (hg : g ∈ T.groups) (ht : t ∈ g.threads) :
    ∃ has, T.walkProcessTree T.propagateHasChildSubreaper t T.hasChildSubreaper = some has ∧
      ∀ p, has p = true ↔
        T.hasChildSubreaper p = true ∨ Under T.kids T.childReaper g.leader p := by
  have hclosed : Closed T.kids T.childReaper g.leader T.hasChildSubreaper :=
    fun p hunder hp q hq hr => h.kids hq hunder.not_blocked hr (by rw [hp, Bool.true_or])
  obtain ⟨has, hhas, hmarks⟩ := descend_mark h.wellFormed.isForest
    (Nat.sub_le T.next g.leader) hclosed
  refine ⟨has, ?_, hmarks⟩
  rw [walkProcessTree_eq h.wellFormed hg ht]
  exact congrArg (fun d => some (final d)) hhas

/-- The tree does not depend on the flags. -/
theorem WellFormed.of_flags (h : WellFormed T) (has is : Nat → Bool) :
    WellFormed { T with hasChildSubreaper := has, isChildSubreaper := is } :=
  ⟨h.distinct, h.nodup, h.eq_of_mem, h.older, h.below⟩

theorem Inv.setChildSubreaper (h : Inv T) (me : Nat) (arg2 : UInt64) :
    Inv (T.setChildSubreaper me arg2) := by
  rw [Tree.setChildSubreaper]
  rcases hme : T.groupOf? me with _ | m
  · exact h
  obtain ⟨hm, hthread⟩ := groupOf?_some hme
  obtain ⟨has, hhas, hmarks⟩ := walk_marks h hm hthread
  dsimp only
  rw [hhas, Option.getD_some]
  split_ifs with hzero
  · refine ⟨h.wellFormed.of_flags _ _, h.reaper, h.ns_le, h.first,
      fun g hg c hc t ht hparent hfirst hreaper hflag => ?_⟩
    refine h.flags g hg c hc t ht hparent hfirst hreaper ?_
    -- A flag less.
    dsimp only at hflag
    rw [hzero, Function.update_apply, Bool.or_eq_true] at hflag
    rw [Bool.or_eq_true]
    refine hflag.imp_right fun his => ?_
    split_ifs at his
    · cases his
    · exact his
  · refine ⟨h.wellFormed.of_flags _ _, h.reaper, h.ns_le, h.first,
      fun g hg c hc t ht hparent hfirst hreaper hflag => ?_⟩
    have hkid : c.leader ∈ T.kids g.leader :=
      h.wellFormed.mem_kids.2 ⟨g, hg, c, hc, t, ht, rfl, rfl, hparent⟩
    have hg' : T.childReaper g.leader = false := by rwa [h.wellFormed.childReaper_eq hg]
    have hc' : T.childReaper c.leader = false := by rwa [h.wellFormed.childReaper_eq hc]
    have hold : (T.hasChildSubreaper g.leader || T.isChildSubreaper g.leader) = true →
        has c.leader = true := fun hflag => (hmarks _).2 (.inl (h.kids hkid hg' hc' hflag))
    dsimp only at hflag
    rw [Bool.or_eq_true, hmarks, Function.update_apply] at hflag
    rcases hflag with (hflag | hunder) | his
    · exact hold (by rw [hflag, Bool.true_or])
    · exact (hmarks _).2 (.inr (hunder.tail ⟨hkid, hc'⟩))
    · split_ifs at his with heq
      · rw [heq] at hkid
        exact (hmarks _).2 (.inr (.single ⟨hkid, hc'⟩))
      · exact hold (by rw [his, Bool.or_true])

/-! ### Threads and parents -/

/-- The threads and the parents of the groups have changed, but every parent is found, and its
    flags are those of its children. -/
theorem Inv.map (h : Inv T) {T' : Tree} {f : Group → Group}
    (hgroups : T'.groups.Perm (T.groups.map f))
    (hhas : T'.hasChildSubreaper = T.hasChildSubreaper)
    (his : T'.isChildSubreaper = T.isChildSubreaper)
    (hleader : ∀ g, (f g).leader = g.leader) (hns : ∀ g, (f g).ns = g.ns)
    (hnodup : ∀ g ∈ T.groups, (f g).threads.Nodup)
    (hthreads : ∀ g ∈ T.groups, ∀ g' ∈ T.groups, ∀ t ∈ (f g).threads, t ∈ (f g').threads → g = g')
    (hbelow : ∀ g ∈ T.groups, ∀ t ∈ (f g).threads, t < T'.next)
    (hnone : ∀ c ∈ T.groups, (f c).realParent = none → c.realParent = none)
    (hparent : ∀ c ∈ T.groups, ∀ t, (f c).realParent = some t → ∃ g ∈ T.groups,
      t ∈ (f g).threads ∧ g.leader < c.leader ∧ T.Inherits g c) : Inv T' := by
  have hreaper (g : Group) : (f g).childReaper = g.childReaper := by
    rw [Group.childReaper, hns, hleader]
    rfl
  have hmem {g' : Group} : g' ∈ T'.groups ↔ ∃ g ∈ T.groups, f g = g' := by
    rw [hgroups.mem_iff, List.mem_map]
  have hdistinct : Keyed.Distinct Group.leader T'.groups := by
    have hmap : (T.groups.map f).map Group.leader = T.groups.map Group.leader := by
      rw [List.map_map]
      exact List.map_congr_left fun g _ => hleader g
    rw [Keyed.Distinct, (hgroups.map _).nodup_iff, hmap]
    exact h.wellFormed.distinct
  refine ⟨⟨hdistinct, fun g' hg' => ?_, fun g' hg' c' hc' t ht ht' => ?_, fun c' hc' t ht => ?_,
    fun g' hg' t ht => ?_⟩, fun c' hc' hp => ?_, fun g' hg' => ?_, fun g' hg' r' hr' heq => ?_,
    fun g' hg' c' hc' t ht hp hfirst hr hflag => ?_⟩
  · obtain ⟨g, hg, rfl⟩ := hmem.1 hg'
    exact hnodup g hg
  · obtain ⟨g, hg, rfl⟩ := hmem.1 hg'
    obtain ⟨c, hc, rfl⟩ := hmem.1 hc'
    rw [hthreads g hg c hc t ht ht']
  · obtain ⟨c, hc, rfl⟩ := hmem.1 hc'
    obtain ⟨g, hg, htg, hlt, _⟩ := hparent c hc t ht
    exact ⟨f g, hmem.2 ⟨g, hg, rfl⟩, htg, by rwa [hleader, hleader]⟩
  · obtain ⟨g, hg, rfl⟩ := hmem.1 hg'
    exact hbelow g hg t ht
  · obtain ⟨c, hc, rfl⟩ := hmem.1 hc'
    rw [hreaper]
    exact h.reaper c hc (hnone c hc hp)
  · obtain ⟨g, hg, rfl⟩ := hmem.1 hg'
    rw [hns, hleader]
    exact h.ns_le g hg
  · obtain ⟨g, hg, rfl⟩ := hmem.1 hg'
    obtain ⟨r, hr, rfl⟩ := hmem.1 hr'
    rw [hreaper]
    exact h.first g hg r hr (by rwa [hns, hleader] at heq)
  · obtain ⟨g, hg, rfl⟩ := hmem.1 hg'
    obtain ⟨c, hc, rfl⟩ := hmem.1 hc'
    obtain ⟨g₂, hg₂, ht₂, _, hflags⟩ := hparent c hc t hp
    rw [hreaper] at hfirst hr
    rw [hleader, hhas, his] at hflag
    rw [hhas, hleader]
    rw [hthreads g hg g₂ hg₂ t ht ht₂] at hfirst hflag
    exact hflags hfirst hr hflag

/-- The parent of a group is found, and its flags are those of the group. -/
theorem Inv.exists_parent (h : Inv T) (hc : c ∈ T.groups) (ht : c.realParent = some t) :
    ∃ g ∈ T.groups, t ∈ g.threads ∧ g.leader < c.leader ∧ T.Inherits g c := by
  obtain ⟨g, hg, htg, hlt⟩ := h.wellFormed.older c hc t ht
  exact ⟨g, hg, htg, hlt, h.flags g hg c hc t htg ht⟩

theorem Inv.join (h : Inv T) (leader : Nat) : Inv { T with
    groups := Keyed.write Group.leader leader (Group.join T.next) T.groups
    next := T.next + 1 } := by
  have hnew (g : Group) (hg : g ∈ T.groups) : T.next ∉ g.threads :=
    fun hmem => Nat.lt_irrefl _ (h.wellFormed.below g hg _ hmem)
  -- The threads of a group are those it had, and in one case the new one.
  have hmem (g : Group) (t : Nat) :
      t ∈ (if g.leader = leader then Group.join T.next g else g).threads ↔
        t ∈ g.threads ∨ g.leader = leader ∧ t = T.next := by
    split_ifs with hleader
    · simp [Group.join, Group.threads, hleader, or_assoc]
    · simp [hleader]
  refine h.map (f := fun g => if g.leader = leader then Group.join T.next g else g)
    (.of_eq h.wellFormed.distinct.write_eq_map) rfl rfl (fun g => ?_) (fun g => ?_)
    (fun g hg => ?_) (fun g hg g' hg' t ht ht' => ?_) (fun g hg t ht => ?_) (fun c hc hp => ?_)
    fun c hc t ht => ?_
  · split_ifs <;> rfl
  · split_ifs <;> rfl
  · split_ifs
    · have happend : (Group.join T.next g).threads = g.threads ++ [T.next] := rfl
      rw [happend, List.nodup_append]
      refine ⟨h.wellFormed.nodup g hg, List.nodup_singleton _, fun a ha b hb heq => ?_⟩
      rw [heq, List.mem_singleton.1 hb] at ha
      exact hnew g hg ha
    · exact h.wellFormed.nodup g hg
  · rcases (hmem g t).1 ht with ht | ⟨hleader, rfl⟩
    · rcases (hmem g' t).1 ht' with ht' | ⟨_, rfl⟩
      · exact h.wellFormed.eq_of_mem g hg g' hg' t ht ht'
      · exact absurd ht (hnew g hg)
    · rcases (hmem g' _).1 ht' with ht' | ⟨hleader', _⟩
      · exact absurd ht' (hnew g' hg')
      · refine h.wellFormed.eq_of_mem g hg g' hg' g.leader g.leader_mem ?_
        rw [hleader, ← hleader']
        exact g'.leader_mem
  · rcases (hmem g t).1 ht with ht | ⟨_, rfl⟩
    · exact Nat.lt_succ_of_lt (h.wellFormed.below g hg t ht)
    · exact Nat.lt_succ_self _
  · split_ifs at hp
    exacts [hp, hp]
  · have hparent : c.realParent = some t := by
      split_ifs at ht
      exacts [ht, ht]
    obtain ⟨g, hg, htg, hlt, hflags⟩ := h.exists_parent hc hparent
    exact ⟨g, hg, (hmem g t).2 (.inl htg), hlt, hflags⟩

theorem Inv.exitThread (h : Inv T) {t₀ : Nat} (hleaders : ∀ g ∈ T.groups, g.leader ≠ t₀)
    (hchildren : T.children t₀ = []) : Inv (T.exitThread t₀) := by
  rw [Tree.exitThread]
  rcases hgroup : T.groupOf? t₀ with _ | m
  · exact h
  dsimp only
  obtain ⟨hm, hmt⟩ := groupOf?_some hgroup
  -- The threads of a group are those it had, but for the one that exits.
  have hmem (g : Group) (hg : g ∈ T.groups) (t : Nat) :
      t ∈ (if g.leader = m.leader then Group.leave t₀ g else g).threads ↔
        t ∈ g.threads ∧ t ≠ t₀ := by
    split_ifs with hleader
    · have hleader₀ : g.leader ≠ t₀ := hleaders g hg
      simp only [Group.leave, Group.threads, List.mem_cons, List.mem_filter, bne_iff_ne,
        or_and_right]
      constructor
      · rintro (rfl | ht)
        exacts [.inl ⟨rfl, hleader₀⟩, .inr ht]
      · rintro (⟨rfl, _⟩ | ht)
        exacts [.inl rfl, .inr ht]
    · refine ⟨fun ht => ⟨ht, ?_⟩, And.left⟩
      rintro rfl
      exact hleader (congrArg Group.leader (h.wellFormed.eq_of_mem g hg m hm t ht hmt))
  refine h.map (f := fun g => if g.leader = m.leader then Group.leave t₀ g else g)
    (.of_eq h.wellFormed.distinct.write_eq_map) rfl rfl (fun g => ?_) (fun g => ?_)
    (fun g hg => ?_) (fun g hg g' hg' t ht ht' => ?_) (fun g hg t ht => ?_) (fun c hc hp => ?_)
    fun c hc t ht => ?_
  · split_ifs <;> rfl
  · split_ifs <;> rfl
  · have hsub :
        (if g.leader = m.leader then Group.leave t₀ g else g).threads.Sublist g.threads := by
      split_ifs
      exacts [List.filter_sublist.cons_cons _, .refl _]
    exact hsub.nodup (h.wellFormed.nodup g hg)
  · exact h.wellFormed.eq_of_mem g hg g' hg' t ((hmem g hg t).1 ht).1 ((hmem g' hg' t).1 ht').1
  · exact h.wellFormed.below g hg t ((hmem g hg t).1 ht).1
  · split_ifs at hp
    exacts [hp, hp]
  · have hparent : c.realParent = some t := by
      split_ifs at ht
      exacts [ht, ht]
    obtain ⟨g, hg, htg, hlt, hflags⟩ := h.exists_parent hc hparent
    refine ⟨g, hg, (hmem g hg t).2 ⟨htg, ?_⟩, hlt, hflags⟩
    rintro rfl
    have hchild := Tree.mem_children.2 ⟨c, hc, hparent, rfl⟩
    rw [hchildren] at hchild
    exact List.not_mem_nil hchild

/-- The flags of the new parent are those of the old one, which was below it, or it is the first of
    its namespace and passes on nothing. -/
theorem Inv.inherits_reaper (h : Inv T) {r : Group} (hg : g ∈ T.groups) (hr : r ∈ T.groups)
    (hreaper : r = g ∨ Under T.kids T.childReaper r.leader g.leader ∨ r.leader = g.ns)
    (hflags : T.Inherits g c) : r.leader ≤ g.leader ∧ T.Inherits r c := by
  rcases hreaper with rfl | hunder | hns
  · exact ⟨le_refl _, hflags⟩
  · have hrank := hunder.rank_lt h.wellFormed.isForest
    have hfirst : g.childReaper = false := by
      rw [← h.wellFormed.childReaper_eq hg]
      exact hunder.not_blocked
    refine ⟨by omega, fun hrfirst hc hflag => hflags hfirst hc ?_⟩
    rw [← h.wellFormed.childReaper_eq hr] at hrfirst
    rw [h.under hrfirst hunder hflag, Bool.true_or]
  · have hfirst := h.first g hg r hr hns
    refine ⟨hns.trans_le (h.ns_le g hg), fun hrfirst => ?_⟩
    rw [hfirst] at hrfirst
    cases hrfirst

theorem Inv.adopt (h : Inv T) {father reaper : Nat} (hreaper : T.Reaper father reaper) :
    Inv (T.adopt father reaper) := by
  obtain ⟨g, hg, r, hr, hfather, hthread, habove⟩ := hreaper
  rw [Tree.adopt]
  have hthreads (c : Group) : (Group.adopted father reaper c).threads = c.threads := by
    rw [Group.adopted]
    split_ifs <;> rfl
  refine h.map (f := Group.adopted father reaper) ?_ rfl rfl (fun c => ?_) (fun c => ?_)
    (fun c hc => ?_) (fun c hc c' hc' t ht ht' => ?_) (fun c hc t ht => ?_) (fun c hc hp => ?_)
    fun c hc t ht => ?_
  · -- The others are not changed.
    have hothers : (T.groups.filter (fun c => c.realParent != some father)).map
        (Group.adopted father reaper) = T.groups.filter fun c => c.realParent != some father := by
      refine (List.map_congr_left fun c hc => ?_).trans (List.map_id _)
      exact if_neg (bne_iff_ne.1 (List.mem_filter.1 hc).2)
    rw [← hothers, ← List.map_append]
    exact (List.perm_append_comm.trans
      (List.filter_append_perm (fun c => c.realParent == some father) T.groups)).map _
  · rw [Group.adopted]
    split_ifs <;> rfl
  · rw [Group.adopted]
    split_ifs <;> rfl
  · rw [hthreads]
    exact h.wellFormed.nodup c hc
  · rw [hthreads] at ht ht'
    exact h.wellFormed.eq_of_mem c hc c' hc' t ht ht'
  · rw [hthreads] at ht
    exact h.wellFormed.below c hc t ht
  · rw [Group.adopted] at hp
    split_ifs at hp
    exact hp
  · rw [Group.adopted] at ht
    split_ifs at ht with hparent
    · cases ht
      obtain ⟨g', hg', htg', hlt, hflags⟩ := h.exists_parent hc hparent
      rw [h.wellFormed.eq_of_mem g' hg' g hg _ htg' hfather] at hlt hflags
      obtain ⟨hle, hinherits⟩ := h.inherits_reaper hg hr habove hflags
      exact ⟨r, hr, by rwa [hthreads], hle.trans_lt hlt, hinherits⟩
    · obtain ⟨g', hg', htg', hlt, hflags⟩ := h.exists_parent hc ht
      exact ⟨g', hg', by rwa [hthreads], hlt, hflags⟩

/-! ### Groups that come and go -/

theorem Inv.exitGroup (h : Inv T) {leader : Nat} (hkids : T.kids leader = []) :
    Inv (T.exitGroup leader) := by
  rw [Tree.exitGroup]
  have hmem {g : Group} : g ∈ Keyed.erase Group.leader leader T.groups ↔
      g ∈ T.groups ∧ g.leader ≠ leader := h.wellFormed.distinct.mem_erase_iff
  refine ⟨⟨h.wellFormed.distinct.erase, fun g hg => h.wellFormed.nodup g (hmem.1 hg).1,
    fun g hg g' hg' => h.wellFormed.eq_of_mem g (hmem.1 hg).1 g' (hmem.1 hg').1,
    fun c hc t ht => ?_, fun g hg => h.wellFormed.below g (hmem.1 hg).1⟩,
    fun g hg => h.reaper g (hmem.1 hg).1, fun g hg => h.ns_le g (hmem.1 hg).1,
    fun g hg r hr => h.first g (hmem.1 hg).1 r (hmem.1 hr).1,
    fun g hg c hc => h.flags g (hmem.1 hg).1 c (hmem.1 hc).1⟩
  obtain ⟨g, hg, htg, hlt⟩ := h.wellFormed.older c (hmem.1 hc).1 t ht
  refine ⟨g, hmem.2 ⟨hg, fun hleader => ?_⟩, htg, hlt⟩
  have hkid : c.leader ∈ T.kids leader :=
    h.wellFormed.mem_kids.2 ⟨g, hg, c, (hmem.1 hc).1, t, htg, hleader, rfl, ht⟩
  rw [hkids] at hkid
  exact List.not_mem_nil hkid

/-- A new group takes over the flags of its parent. -/
theorem WellFormed.ne_next (h : WellFormed T) (hg : g ∈ T.groups) (ht : t ∈ g.threads) :
    t ≠ T.next :=
  (h.below g hg t ht).ne

theorem mem_groups_append {g' : Group} {gs : List Group} :
    g' ∈ gs ++ [g] ↔ g' ∈ gs ∨ g' = g := by
  rw [List.mem_append, List.mem_singleton]

theorem WellFormed.newGroup (h : WellFormed T) (hg : g ∈ T.groups) (ht : t ∈ g.threads)
    (ns : Nat) (has is : Nat → Bool) :
    WellFormed ⟨T.groups ++ [⟨T.next, [], some t, ns⟩], T.next + 1, has, is⟩ := by
  have hdistinct : Keyed.Distinct Group.leader (T.groups ++ [⟨T.next, [], some t, ns⟩]) := by
    rw [Keyed.Distinct, (List.perm_append_comm.map _).nodup_iff]
    exact Keyed.distinct_cons.2 ⟨fun b hb => h.ne_next hb b.leader_mem, h.distinct⟩
  refine ⟨hdistinct, fun g' hg' => ?_, fun g₁ hg₁ g₂ hg₂ t' ht₁ ht₂ => ?_, fun c hc t' ht' => ?_,
    fun g' hg' t' ht' => ?_⟩
  · rcases mem_groups_append.1 hg' with hg' | rfl
    · exact h.nodup g' hg'
    · exact List.nodup_singleton _
  · rcases mem_groups_append.1 hg₁ with hg₁ | rfl
    · rcases mem_groups_append.1 hg₂ with hg₂ | rfl
      · exact h.eq_of_mem g₁ hg₁ g₂ hg₂ t' ht₁ ht₂
      · exact absurd (List.mem_singleton.1 ht₂) (h.ne_next hg₁ ht₁)
    · rcases mem_groups_append.1 hg₂ with hg₂ | rfl
      · exact absurd (List.mem_singleton.1 ht₁) (h.ne_next hg₂ ht₂)
      · rfl
  · rcases mem_groups_append.1 hc with hc | rfl
    · obtain ⟨g', hg', htg', hlt⟩ := h.older c hc t' ht'
      exact ⟨g', mem_groups_append.2 (.inl hg'), htg', hlt⟩
    · cases ht'
      exact ⟨g, mem_groups_append.2 (.inl hg), ht, h.below g hg _ g.leader_mem⟩
  · rcases mem_groups_append.1 hg' with hg' | rfl
    · exact Nat.lt_succ_of_lt (h.below g' hg' t' ht')
    · rw [List.mem_singleton.1 ht']
      exact Nat.lt_succ_self _

theorem Inv.newGroup (h : Inv T) (hg : g ∈ T.groups) (ht : t ∈ g.threads) {ns : Nat}
    (hns : ns = T.next ∨ ∃ r ∈ T.groups, r.leader = ns ∧ r.childReaper = true) :
    Inv { groups := T.groups ++ [⟨T.next, [], some t, ns⟩]
          next := T.next + 1
          hasChildSubreaper := Function.update T.hasChildSubreaper T.next
            (T.hasChildSubreaper g.leader || T.isChildSubreaper g.leader)
          isChildSubreaper := Function.update T.isChildSubreaper T.next false } := by
  have hold := h.wellFormed
  refine ⟨hold.newGroup hg ht ns _ _, fun c hc hp => ?_, fun g' hg' => ?_,
    fun g' hg' r hr heq => ?_, fun g' hg' c hc t' ht' hp hfirst hr hflag => ?_⟩
  · rcases mem_groups_append.1 hc with hc | rfl
    · exact h.reaper c hc hp
    · cases hp
  · rcases mem_groups_append.1 hg' with hg' | rfl
    · exact h.ns_le g' hg'
    · rcases hns with rfl | ⟨r, hr, rfl, -⟩
      · exact le_refl _
      · exact (hold.below r hr _ r.leader_mem).le
  · rcases mem_groups_append.1 hr with hrOld | rfl
    · rcases mem_groups_append.1 hg' with hg' | rfl
      · exact h.first g' hg' r hrOld heq
      · rcases hns with rfl | ⟨r', hr', rfl, hfirst⟩
        · exact absurd heq (hold.ne_next hrOld r.leader_mem)
        · rwa [List.inj_on_of_nodup_map hold.distinct hrOld hr' heq]
    · -- The new group is in no old namespace.
      rcases mem_groups_append.1 hg' with hg' | rfl
      · have hle := h.ns_le g' hg'
        have hlt := hold.below g' hg' _ g'.leader_mem
        dsimp only at heq
        omega
      · exact beq_iff_eq.2 heq.symm
  · -- The parent of a group is an old group.
    have hparent : g' ∈ T.groups := by
      refine (mem_groups_append.1 hg').resolve_right ?_
      rintro rfl
      rw [List.mem_singleton.1 ht'] at hp
      rcases mem_groups_append.1 hc with hc | rfl
      · obtain ⟨g₁, hg₁, ht₁, _⟩ := hold.older c hc _ hp
        exact hold.ne_next hg₁ ht₁ rfl
      · exact hold.ne_next hg ht (Option.some.inj hp)
    dsimp only at hflag ⊢
    rw [Function.update_of_ne (hold.ne_next hparent g'.leader_mem),
      Function.update_of_ne (hold.ne_next hparent g'.leader_mem)] at hflag
    rcases mem_groups_append.1 hc with hc | rfl
    · rw [Function.update_of_ne (hold.ne_next hc c.leader_mem)]
      exact h.flags g' hparent c hc t' ht' hp hfirst hr hflag
    · cases hp
      rw [Function.update_self, hold.eq_of_mem g hg g' hparent _ ht ht']
      exact hflag

/-- The first group of a namespace that there is. -/
theorem exists_first {n : Nat} (h : T.childReaper n = true) :
    ∃ r ∈ T.groups, r.leader = n ∧ r.childReaper = true := by
  rw [Tree.childReaper] at h
  rcases hgroup : T.group? n with _ | r
  · rw [hgroup] at h
    cases h
  · rw [hgroup] at h
    obtain ⟨hr, hleader⟩ := Keyed.find_some hgroup
    exact ⟨r, hr, hleader, h⟩

theorem Inv.copyProcess (h : Inv T) (current : Nat) (flags : UInt64) (ns : Option Nat) :
    Inv (T.copyProcess current flags ns) := by
  rw [Tree.copyProcess]
  rcases hgroup : T.groupOf? current with _ | g
  · exact h
  obtain ⟨hg, ht⟩ := groupOf?_some hgroup
  dsimp only
  by_cases hrefused : sets flags CLONE_PARENT ∧ g.childReaper
  · rw [if_pos hrefused]
    exact h
  rw [if_neg hrefused]
  split_ifs with hthread hgone hparent
  · exact h.join g.leader
  · exact h
  all_goals
    have hns : ns.getD T.next = T.next ∨
        ∃ r ∈ T.groups, r.leader = ns.getD T.next ∧ r.childReaper = true := by
      cases ns with
      | none => exact .inl rfl
      | some n => exact .inr (exists_first (by simpa using hgone))
  · -- The new group is a child of the parent of the caller.
    rcases hp : g.realParent with _ | t
    · exact absurd ⟨hparent, h.reaper g hg hp⟩ hrefused
    · obtain ⟨g', hg', ht', _⟩ := h.wellFormed.older g hg t hp
      rw [Option.elim_some, h.wellFormed.groupLeader_eq hg' ht']
      exact h.newGroup hg' ht' hns
  · rw [Option.elim_some, h.wellFormed.groupLeader_eq hg ht]
    exact h.newGroup hg ht hns

/-! ## Runs -/

theorem inv_boot : Inv Tree.boot := by
  refine ⟨⟨List.nodup_singleton _, fun g hg => ?_, fun g hg g' hg' _ _ _ => ?_, fun g hg t ht => ?_,
    fun g hg t ht => ?_⟩, fun g hg _ => ?_, fun g hg => ?_, fun g hg r hr _ => ?_,
    fun g hg c hc t ht hp => ?_⟩
  · rw [List.mem_singleton.1 hg]
    exact List.nodup_singleton _
  · rw [List.mem_singleton.1 hg, List.mem_singleton.1 hg']
  · rw [List.mem_singleton.1 hg] at ht
    cases ht
  · rw [List.mem_singleton.1 hg] at ht
    rw [List.mem_singleton.1 ht]
    exact Nat.zero_lt_one
  · rw [List.mem_singleton.1 hg]
    rfl
  · rw [List.mem_singleton.1 hg]
  · rw [List.mem_singleton.1 hr]
    rfl
  · rw [List.mem_singleton.1 hc] at hp
    cases hp

variable (x : ExitCode)

theorem Inv.step (h : Inv T) (e : Event) : Inv (T.step x e) := by
  cases e with
  | fork current flags ns => exact h.copyProcess current flags ns
  | prctl me arg2 => exact h.setChildSubreaper me arg2
  | adopt father reaper =>
    rw [Tree.step]
    split_ifs with hfound
    · exact h.adopt (x.findNewReaper_reaper hfound)
    · exact h
  | exitThread t =>
    rw [Tree.step]
    split_ifs with hreleased
    · obtain ⟨hleaders, hchildren⟩ := x.releaseThread_childless hreleased
      exact h.exitThread hleaders hchildren
    · exact h
  | exitGroup leader =>
    rw [Tree.step]
    split_ifs with hreleased
    · exact h.exitGroup (x.releaseGroup_childless hreleased)
    · exact h

theorem inv_run (es : List Event) : Inv (run (Tree.step x) .boot es) :=
  (always_of_step (R := fun _ => True) inv_boot (fun _ _ => trivial) fun _ e _ h => h.step x e).run

/-- In every run, `walk_process_tree` ends, for any visitor, and does what a recursion over the
    tree does: the children of the threads of a group are visited in turn, and what is below one
    comes before the next. -/
theorem walk_recursive {σ : Type} (es : List Event) (visitor : Nat → σ → Int × σ) (t : Nat)
    (data : σ) (ht : ((run (Tree.step x) .boot es).groupOf? t).isSome = true) :
    (run (Tree.step x) .boot es).walkProcessTree visitor t data =
      some (final (descend (run (Tree.step x) .boot es).kids visitor
        ((run (Tree.step x) .boot es).next + 1)
        ((run (Tree.step x) .boot es).groupLeader t) data)) := by
  obtain ⟨g, hgroup⟩ := Option.isSome_iff_exists.1 ht
  obtain ⟨hg, htg⟩ := groupOf?_some hgroup
  rw [walkProcessTree_eq (inv_run x es).wellFormed hg htg,
    (inv_run x es).wellFormed.groupLeader_eq hg htg]

/-- In every run, a group below a subreaper has the flag, if neither of them nor a group in between
    is the first of a namespace. -/
theorem covered (es : List Event) (s p : Nat)
    (hs : (run (Tree.step x) .boot es).isChildSubreaper s = true)
    (hfirst : (run (Tree.step x) .boot es).childReaper s = false)
    (hp : Under (run (Tree.step x) .boot es).kids (run (Tree.step x) .boot es).childReaper s p) :
    (run (Tree.step x) .boot es).hasChildSubreaper p = true :=
  (inv_run x es).under hfirst hp (by rw [hs, Bool.or_true])

/-- In every run, the option gives the flag to exactly the groups below that are not behind the
    first group of a namespace. -/
theorem prctl_exact (es : List Event) (me p : Nat) (arg2 : UInt64) (hon : arg2 ≠ 0)
    (hme : ((run (Tree.step x) .boot es).groupOf? me).isSome = true) :
    (run (Tree.step x) .boot (es ++ [.prctl me arg2])).hasChildSubreaper p = true ↔
      (run (Tree.step x) .boot es).hasChildSubreaper p = true ∨
        Under (run (Tree.step x) .boot es).kids (run (Tree.step x) .boot es).childReaper
          ((run (Tree.step x) .boot es).groupLeader me) p := by
  obtain ⟨g, hgroup⟩ := Option.isSome_iff_exists.1 hme
  obtain ⟨hg, htg⟩ := groupOf?_some hgroup
  obtain ⟨has, hhas, hmarks⟩ := walk_marks (inv_run x es) hg htg
  rw [run_concat, Tree.step, Tree.setChildSubreaper, hgroup]
  dsimp only
  rw [if_neg hon, hhas, (inv_run x es).wellFormed.groupLeader_eq hg htg]
  exact hmarks p

end

/-- Code where all orphans go to the first group of the namespace, and no thread is released
    before its group. -/
def childReaperAdopts : ExitCode where
  findNewReaper T father reaper :=
    T.groups.any fun g => T.groups.any fun r =>
      decide (father ∈ g.threads) && decide (reaper ∈ r.threads) && r.leader == g.ns
  releaseThread _ _ := false
  releaseGroup T leader := (T.kids leader).isEmpty
  findNewReaper_reaper h := by
    simp only [List.any_eq_true, Bool.and_eq_true, decide_eq_true_eq, beq_iff_eq] at h
    obtain ⟨g, hg, r, hr, ⟨hfather, hreaper⟩, hns⟩ := h
    exact ⟨g, hg, r, hr, hfather, hreaper, .inr (.inr hns)⟩
  releaseThread_childless h := by cases h
  releaseGroup_childless h := List.isEmpty_iff.1 h

/-- A group makes a namespace with two groups, `2` and `3`. The child of the second is adopted by
    the first, a subreaper, of which it was not a descendant; then it becomes a subreaper itself. -/
def orphaned : List Event :=
  [.fork 0 0 (some 0), .fork 1 0 none, .fork 1 0 (some 2), .prctl 2 1, .fork 3 0 (some 2),
    .adopt 3 2, .exitGroup 3, .prctl 4 1, .fork 4 0 (some 2), .fork 4 CLONE_THREAD none]

theorem walk_recursive_orphaned :
    (run (Tree.step childReaperAdopts) .boot orphaned).walkProcessTree (fun c l => (1, c :: l)) 0
        [] =
      some (final (descend (run (Tree.step childReaperAdopts) .boot orphaned).kids
        (fun c l => (1, c :: l)) ((run (Tree.step childReaperAdopts) .boot orphaned).next + 1)
          ((run (Tree.step childReaperAdopts) .boot orphaned).groupLeader 0) [])) :=
  walk_recursive childReaperAdopts orphaned _ 0 [] (by decide)

theorem covered_orphaned :
    (run (Tree.step childReaperAdopts) .boot orphaned).hasChildSubreaper 5 = true :=
  covered childReaperAdopts orphaned 4 5 (by decide) (by decide) (.single (by decide))

/-- The first group sets the flag of the orphan. -/
theorem prctl_exact_orphaned :
    (run (Tree.step childReaperAdopts) .boot orphaned).hasChildSubreaper 4 = false ∧
      (run (Tree.step childReaperAdopts) .boot (orphaned ++ [.prctl 2 1])).hasChildSubreaper 4 =
        true :=
  ⟨by decide, (prctl_exact childReaperAdopts orphaned 2 4 1 (by decide) (by decide)).2
    (.inr (.single (by decide)))⟩

end ProcessTree

end LuisKernel
