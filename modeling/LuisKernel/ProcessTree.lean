import Mathlib.Data.Int.Order.Basic
import LuisKernel.Forest
import LuisKernel.Keyed
import LuisKernel.Machine

/-!
# The process tree

Every thread group has a parent, one of the threads of another group, and a thread has a list of
children, the leaders of the groups whose parent it is. `walk_process_tree` of `kernel/fork.c` goes
through all that is below a group with two nested loops, over the threads of a group and the
children of a thread, and two jumps: `down` starts the loops for a child, and `up` resumes them
after it. It keeps no stack; the way back is found by the links of the tasks.

The walk ends, and it does what a recursion over the tree does (`walkProcessTree_eq`): the two
loops are those of a walk over a forest (`Forest`), in which the end of a thread does not show.
-/

namespace LuisKernel

namespace ProcessTree

open Forest Loop

/-- A thread group: the numbers of its threads are their addresses. -/
structure Group where
  leader : Nat
  /-- The threads besides the leader. -/
  others : List Nat
  /-- `real_parent` of the leader and of all threads; the first group has none. -/
  realParent : Option Nat
  /-- The pid namespace, named by the leader of its first group. -/
  ns : Nat

/-- The list of `for_each_thread`. -/
def Group.threads (g : Group) : List Nat := g.leader :: g.others

/-- `is_child_reaper` of the pid of the leader: the group is the first of its namespace. -/
def Group.childReaper (g : Group) : Bool := g.ns == g.leader

/-- The thread groups of the system; new threads are numbered from `next`. The flags of the
    `signal_struct` of a group are found under its leader. -/
structure Tree where
  groups : List Group
  next : Nat
  hasChildSubreaper : Nat → Bool
  isChildSubreaper : Nat → Bool

namespace Tree

variable (T : Tree)

def group? (leader : Nat) : Option Group := Keyed.find Group.leader leader T.groups

/-- The group of a thread. -/
def groupOf? (t : Nat) : Option Group := T.groups.find? fun g => t ∈ g.threads

/-- `task->group_leader`. -/
def groupLeader (t : Nat) : Nat := ((T.groupOf? t).map Group.leader).getD t

/-- `task->real_parent`, of a leader. -/
def realParent (leader : Nat) : Nat := ((T.group? leader).bind Group.realParent).getD leader

/-- The list of `for_each_thread`, for a leader. -/
def threads (leader : Nat) : List Nat := ((T.group? leader).map Group.threads).getD []

/-- The list `task->children`. -/
def children (t : Nat) : List Nat :=
  (T.groups.filter fun g => g.realParent = some t).map Group.leader

/-- `is_child_reaper(task_pid(leader))`. -/
def childReaper (leader : Nat) : Bool := ((T.group? leader).map Group.childReaper).getD false

/-! ## The walk -/

/-- The variables of `walk_process_tree`. The loop over the children of `parent` is at its
    beginning, or after `child`. -/
structure Walker (σ : Type) where
  leader : Nat
  parent : Nat
  child : Option Nat
  data : σ

variable {σ : Type} (visitor : Nat → σ → Int × σ) (top : Nat)

/-- The children that the inner loop has not come to. -/
def pending (s : Walker σ) : List Nat :=
  match s.child with
  | none => T.children s.parent
  | some child => after child (T.children s.parent)

/-- One round of the loops of `walk_process_tree`, with the jumps. -/
def walkStep (s : Walker σ) : Walker σ ⊕ σ :=
  match T.pending s with
  | child :: _ =>
    let (res, data) := visitor child s.data
    if res ≠ 0 then
      if res < 0 then .inr data
      -- `goto down`: the first thread is the leader.
      else .inl ⟨child, child, none, data⟩
    else .inl ⟨s.leader, s.parent, some child, data⟩
  | [] =>
    match after s.parent (T.threads s.leader) with
    | thread :: _ => .inl ⟨s.leader, thread, none, s.data⟩
    | [] =>
      if s.leader ≠ top then
        -- `goto up`
        let parent := T.realParent s.leader
        .inl ⟨T.groupLeader parent, parent, some s.leader, s.data⟩
      else .inr s.data

/-- The children of all threads of a group. -/
def kids (leader : Nat) : List Nat := (T.threads leader).flatMap T.children

/-- The group above a group. -/
def above (leader : Nat) : Nat := T.groupLeader (T.realParent leader)

/-- The number of all threads. -/
def threadCount : Nat := (T.groups.flatMap Group.threads).length

/-- A number of rounds that is enough for the walk. -/
def rounds (top : Nat) : Nat := (cost T.kids T.next (T.kids top) + 1) * (T.threadCount + 1)

/-- `walk_process_tree`: the data at the end, if there is one. -/
def walkProcessTree (t : Nat) (data : σ) : Option σ :=
  let top := T.groupLeader t
  match exec (T.walkStep visitor top) (T.rounds top) (.inl ⟨top, top, none, data⟩) with
  | .inr data => some data
  | .inl _ => none

end Tree

/-! ## Well-formed trees -/

/-- No number belongs to two threads, and a group is younger than the group of its parent. -/
structure WellFormed (T : Tree) : Prop where
  distinct : Keyed.Distinct Group.leader T.groups
  nodup : ∀ g ∈ T.groups, g.threads.Nodup
  eq_of_mem : ∀ g ∈ T.groups, ∀ g' ∈ T.groups, ∀ t ∈ g.threads, t ∈ g'.threads → g = g'
  older : ∀ g ∈ T.groups, ∀ t, g.realParent = some t →
    ∃ g' ∈ T.groups, t ∈ g'.threads ∧ g'.leader < g.leader
  below : ∀ g ∈ T.groups, ∀ t ∈ g.threads, t < T.next

section

variable {T : Tree} {g g' : Group} {t c leader : Nat}

theorem Group.leader_mem (g : Group) : g.leader ∈ g.threads := List.mem_cons_self

theorem Tree.mem_children : c ∈ T.children t ↔
    ∃ g ∈ T.groups, g.realParent = some t ∧ g.leader = c := by
  simp [Tree.children, and_assoc]

namespace WellFormed

theorem group?_eq (h : WellFormed T) (hg : g ∈ T.groups) : T.group? g.leader = some g :=
  h.distinct.find_eq_some_iff.2 ⟨hg, rfl⟩

theorem groupLeader_eq (h : WellFormed T) (hg : g ∈ T.groups) (ht : t ∈ g.threads) :
    T.groupLeader t = g.leader := by
  rw [Tree.groupLeader, Tree.groupOf?]
  rcases hfind : T.groups.find? fun g => t ∈ g.threads with _ | g'
  · exact absurd ht (by simpa using List.find?_eq_none.1 hfind g hg)
  · have ht' : t ∈ g'.threads := by simpa using List.find?_some hfind
    rw [hfind, h.eq_of_mem g' (List.mem_of_find?_eq_some hfind) g hg t ht' ht]
    rfl

theorem threads_eq (h : WellFormed T) (hg : g ∈ T.groups) : T.threads g.leader = g.threads := by
  rw [Tree.threads, h.group?_eq hg]
  rfl

theorem realParent_eq (h : WellFormed T) (hg : g ∈ T.groups) (ht : g.realParent = some t) :
    T.realParent g.leader = t := by
  rw [Tree.realParent, h.group?_eq hg, Option.bind_some, ht]
  rfl

theorem childReaper_eq (h : WellFormed T) (hg : g ∈ T.groups) :
    T.childReaper g.leader = g.childReaper := by
  rw [Tree.childReaper, h.group?_eq hg]
  rfl

theorem kids_eq (h : WellFormed T) (hg : g ∈ T.groups) :
    T.kids g.leader = g.threads.flatMap T.children := by
  rw [Tree.kids, h.threads_eq hg]

/-- The groups below a group, one step. -/
theorem mem_kids (h : WellFormed T) : c ∈ T.kids leader ↔
    ∃ g ∈ T.groups, ∃ g' ∈ T.groups, ∃ t ∈ g.threads,
      g.leader = leader ∧ g'.leader = c ∧ g'.realParent = some t := by
  constructor
  · intro hc
    rw [Tree.kids, Tree.threads] at hc
    rcases hgroup : T.group? leader with _ | g
    · rw [hgroup] at hc
      exact absurd hc List.not_mem_nil
    · obtain ⟨hg, hleader⟩ := Keyed.find_some hgroup
      rw [hgroup, Option.map_some, Option.getD_some, List.mem_flatMap] at hc
      obtain ⟨t, ht, hc⟩ := hc
      obtain ⟨g', hg', hparent, hc⟩ := Tree.mem_children.1 hc
      exact ⟨g, hg, g', hg', t, ht, hleader, hc, hparent⟩
  · rintro ⟨g, hg, g', hg', t, ht, rfl, rfl, hparent⟩
    rw [h.kids_eq hg, List.mem_flatMap]
    exact ⟨t, ht, Tree.mem_children.2 ⟨g', hg', hparent, rfl⟩⟩

/-- A child has one parent. -/
theorem parent_eq (h : WellFormed T) {t' : Nat} (hc : c ∈ T.children t)
    (hc' : c ∈ T.children t') : t = t' := by
  obtain ⟨g, hg, hparent, rfl⟩ := Tree.mem_children.1 hc
  obtain ⟨g', hg', hparent', hleader⟩ := Tree.mem_children.1 hc'
  have heq : g' = g := h.eq_of_mem g' hg' g hg _ g'.leader_mem (hleader ▸ g.leader_mem)
  rw [heq, hparent] at hparent'
  exact Option.some.inj hparent'

theorem nodup_children (h : WellFormed T) (t : Nat) : (T.children t).Nodup :=
  (h.distinct.sublist (List.filter_sublist.map _))

theorem isForest (h : WellFormed T) :
    IsForest T.kids T.above (T.next - ·) := by
  refine ⟨fun a c hc => ?_, fun a => ?_, fun a c hc => ?_⟩
  · obtain ⟨g, hg, g', hg', t, ht, rfl, rfl, hparent⟩ := h.mem_kids.1 hc
    rw [Tree.above, h.realParent_eq hg' hparent, h.groupLeader_eq hg ht]
  · rw [Tree.kids, Tree.threads]
    rcases hgroup : T.group? a with _ | g
    · exact List.nodup_nil
    · have hg := (Keyed.find_some hgroup).1
      refine List.nodup_flatMap.2 ⟨fun t _ => h.nodup_children t, ?_⟩
      refine (h.nodup g hg).imp fun hne c hc hc' => hne (h.parent_eq hc hc')
  · obtain ⟨g, hg, g', hg', t, ht, rfl, rfl, hparent⟩ := h.mem_kids.1 hc
    obtain ⟨g'', hg'', ht'', hlt⟩ := h.older g' hg' t hparent
    rw [h.eq_of_mem g'' hg'' g hg t ht'' ht] at hlt
    have := h.below g' hg' _ g'.leader_mem
    omega

end WellFormed

/-! ## The walk is a walk over the forest -/

variable {σ : Type} {visitor : Nat → σ → Int × σ} {top : Nat} {w : Tree.Walker σ}
  {s : Walk Nat σ}

variable (T top) in
/-- A state of the two loops stands for a state of the walk over the forest: the rest of the
    children of the thread, and the children of the rest of the threads, are left. -/
structure Shows (w : Tree.Walker σ) (s : Walk Nat σ) : Prop where
  /-- The group is below the first one, or is it. -/
  under : Relation.ReflTransGen (fun a c => c ∈ T.kids a) top w.leader
  exists_group : ∃ g ∈ T.groups, g.leader = w.leader ∧ w.parent ∈ g.threads ∧
    s = ⟨w.leader, T.pending w ++ (after w.parent g.threads).flatMap T.children, w.data⟩

theorem Tree.pending_suffix (w : Tree.Walker σ) : T.pending w <:+ T.children w.parent := by
  rw [Tree.pending]
  rcases w.child with _ | child
  · exact List.suffix_refl _
  · exact after_suffix _ _

/-- A group, seen from the beginning of its first thread. -/
theorem shows_down (h : WellFormed T) (hg : g ∈ T.groups) (d : σ)
    (hunder : Relation.ReflTransGen (fun a c => c ∈ T.kids a) top g.leader) :
    Shows T top ⟨g.leader, g.leader, none, d⟩ ⟨g.leader, T.kids g.leader, d⟩ := by
  refine ⟨hunder, g, hg, rfl, g.leader_mem, ?_⟩
  rw [h.kids_eq hg, Group.threads, after, if_pos rfl]
  rfl

/-- The loops, resumed after a child, have what is left after it. -/
theorem shows_up (h : WellFormed T) (hg : g ∈ T.groups) (ht : t ∈ g.threads)
    (hc : c ∈ T.children t) (d : σ)
    (hunder : Relation.ReflTransGen (fun a c => c ∈ T.kids a) top g.leader) :
    Shows T top ⟨g.leader, t, some c, d⟩ ⟨g.leader, after c (T.kids g.leader), d⟩ := by
  refine ⟨hunder, g, hg, rfl, ht, ?_⟩
  rw [h.kids_eq hg, after_flatMap ht hc fun t' _ hc' => h.parent_eq hc' hc]
  rfl

/-- A child is visited. -/
theorem follows_child (h : WellFormed T) (hshows : Shows T top w s) {child : Nat}
    {rest : List Nat} (hp : T.pending w = child :: rest) :
    Follows (T.walkStep visitor top) (Shows T top) 1 w (step T.kids T.above visitor top s) := by
  obtain ⟨hunder, g, hg, hleader, hparent, rfl⟩ := hshows
  have hsuffix : child :: rest <:+ T.children w.parent := hp ▸ T.pending_suffix w
  have hchild : child ∈ T.children w.parent := hsuffix.subset List.mem_cons_self
  have hw : T.walkStep visitor top w =
      if (visitor child w.data).1 ≠ 0 then
        if (visitor child w.data).1 < 0 then .inr (visitor child w.data).2
        else .inl ⟨child, child, none, (visitor child w.data).2⟩
      else .inl ⟨w.leader, w.parent, some child, (visitor child w.data).2⟩ := by
    rw [Tree.walkStep, hp]
  rw [hp, List.cons_append, step]
  dsimp only
  rcases Int.lt_trichotomy (visitor child w.data).1 0 with hres | hres | hres
  · rw [if_pos hres.ne, if_pos hres] at hw
    rw [if_pos hres]
    exact follows_done hw
  · rw [if_neg (not_not.2 hres)] at hw
    rw [if_neg hres.not_lt, if_pos hres]
    refine follows_one hw ⟨hunder, g, hg, hleader, hparent, ?_⟩
    have hrest : after child (T.children w.parent) = rest :=
      after_of_suffix (h.nodup_children _) hsuffix
    rw [Tree.pending]
    dsimp only
    rw [hrest]
  · obtain ⟨g', hg', hparent', rfl⟩ := Tree.mem_children.1 hchild
    rw [if_pos hres.ne', if_neg hres.not_gt] at hw
    rw [if_neg hres.not_gt, if_neg hres.ne']
    refine follows_one hw (shows_down h hg' _ (hunder.tail ?_))
    exact h.mem_kids.2 ⟨g, hg, g', hg', w.parent, hparent, hleader, rfl, hparent'⟩

/-- The last thread is done. -/
theorem follows_up (h : WellFormed T) (hshows : Shows T top w s) (hp : T.pending w = [])
    (hlast : after w.parent (T.threads w.leader) = []) :
    Follows (T.walkStep visitor top) (Shows T top) 1 w (step T.kids T.above visitor top s) := by
  obtain ⟨hunder, g, hg, hleader, hparent, rfl⟩ := hshows
  have hw : T.walkStep visitor top w =
      if w.leader ≠ top then .inl ⟨T.above w.leader, T.realParent w.leader, some w.leader, w.data⟩
      else .inr w.data := by
    rw [Tree.walkStep, hp, hlast]
    rfl
  rw [← hleader, h.threads_eq hg] at hlast
  rw [hp, hlast, List.flatMap_nil, List.append_nil, step]
  dsimp only
  by_cases htop : w.leader = top
  · rw [if_neg (not_not.2 htop)] at hw
    rw [if_pos htop]
    exact follows_done hw
  · rw [if_pos htop] at hw
    rw [if_neg htop]
    -- The group has come from a thread of the one above.
    rcases hunder.cases_tail with heq | ⟨above, habove, hkid⟩
    · exact absurd heq htop
    obtain ⟨g₁, hg₁, g₂, hg₂, t, ht, rfl, hleader₂, hparent₂⟩ := h.mem_kids.1 hkid
    have habove₂ : T.above w.leader = g₁.leader := by
      rw [Tree.above, ← hleader₂, h.realParent_eq hg₂ hparent₂, h.groupLeader_eq hg₁ ht]
    have hchild : w.leader ∈ T.children t := Tree.mem_children.2 ⟨g₂, hg₂, hparent₂, hleader₂⟩
    rw [habove₂, ← hleader₂, h.realParent_eq hg₂ hparent₂, hleader₂] at hw
    rw [habove₂]
    exact follows_one hw (shows_up h hg₁ ht hchild w.data habove)

theorem follows_threads (h : WellFormed T) (ts : List Nat) :
    ∀ w s, Shows T top w s → after w.parent (T.threads w.leader) = ts →
      Follows (T.walkStep visitor top) (Shows T top) (ts.length + 1) w
        (step T.kids T.above visitor top s) := by
  -- On the threads that are left; the end of a thread does not show.
  induction ts with
  | nil =>
    intro w s hshows hlast
    rcases hp : T.pending w with _ | ⟨child, rest⟩
    · exact follows_up h hshows hp hlast
    · exact follows_child h hshows hp
  | cons thread ts ih =>
    intro w s hshows hrest
    rcases hp : T.pending w with _ | ⟨child, rest⟩
    · obtain ⟨hunder, g, hg, hleader, hparent, rfl⟩ := hshows
      have hw : T.walkStep visitor top w = .inl ⟨w.leader, thread, none, w.data⟩ := by
        rw [Tree.walkStep, hp, hrest]
      have hsuffix := after_suffix w.parent (T.threads w.leader)
      have hthreads := h.threads_eq hg
      rw [hleader] at hthreads
      rw [hrest] at hsuffix
      have hnodup : (T.threads w.leader).Nodup := hthreads ▸ h.nodup g hg
      have hnext : after thread (T.threads w.leader) = ts := after_of_suffix hnodup hsuffix
      refine .head hw (ih _ _ ⟨hunder, g, hg, hleader, ?_, ?_⟩ hnext)
      · exact hthreads ▸ hsuffix.subset List.mem_cons_self
      · rw [hp, ← hthreads, hrest, hnext]
        rfl
    · exact (follows_child h hshows hp).mono (by omega)

theorem length_threads_le (leader : Nat) : (T.threads leader).length ≤ T.threadCount := by
  rw [Tree.threads, Tree.threadCount]
  rcases hgroup : T.group? leader with _ | g
  · exact Nat.zero_le _
  · have hmem : g.threads ∈ T.groups.map Group.threads :=
      List.mem_map_of_mem (Keyed.find_some hgroup).1
    rw [List.flatMap_def]
    exact (List.sublist_flatten_of_mem hmem).length_le

theorem simulates (h : WellFormed T) : Simulates (step T.kids T.above visitor top)
    (T.walkStep visitor top) (Shows T top) (T.threadCount + 1) := by
  intro w s hshows
  have hlength := (after_suffix w.parent (T.threads w.leader)).length_le
  exact (follows_threads h _ w s hshows rfl).mono
    (Nat.succ_le_succ (hlength.trans (length_threads_le w.leader)))

/-- `walk_process_tree` ends, with the data that a recursion over the children of the threads of a
    group would give: each child is visited in turn, and if its visitor says so, the walk over
    what is below it comes before the next one. -/
theorem walkProcessTree_eq (h : WellFormed T) (hg : g ∈ T.groups) (ht : t ∈ g.threads)
    (data : σ) :
    T.walkProcessTree visitor t data =
      some (final (descend T.kids visitor (T.next + 1) g.leader data)) := by
  have hend : exec (step T.kids T.above visitor g.leader) (cost T.kids T.next _ + 1) _ = _ :=
    exec_eq_descend h.isForest (Nat.sub_le T.next g.leader) data
  have hstart : Shows T g.leader ⟨g.leader, g.leader, none, data⟩
      ⟨g.leader, T.kids g.leader, data⟩ := shows_down h hg data .refl
  rw [Tree.walkProcessTree, h.groupLeader_eq hg ht, Tree.rounds,
    exec_of_simulates (simulates h) hstart hend]

end

end ProcessTree

end LuisKernel
