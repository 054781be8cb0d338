import LuisKernel.Process

/-!
# Whose entry it is

An entry of the registry names its process by an id, and the id of a process
that has exited may be given to another one. Whom an entry was made for is not
part of the kernel; it is recorded along the run (`Owned`), as are the tasks
that were limited at all.

One expects that an entry names a live task, the one it was made for, so that no
other process is found to be limited already, or listed (`Attributed`). Since an
exit does not tell the registry, this is so until a listed process exits, and no
longer (`always_attributed_iff`).
-/

namespace LuisKernel

/-! ## What the calls see -/

section

variable {env : Env} {c : Call} {s : State} {head : List MemoryLimitation} {t : TaskStruct}
  {p : PidT} {v maxEntries : SizeT}

/-- Only a call that does not find its process in the list as it wants is
    rejected with the error for this. -/
theorem listed_of_mismatch (h : c.checks env head = .error c.mismatch) :
    (findNodeByPid c.pid head).isSome = c.isAdd := by
  have hmismatch : ∀ e ∈ [-EPERM, -EINVAL, -ESRCH, -100], e ≠ c.mismatch := by
    rw [Call.mismatch]
    split_ifs <;> decide
  rw [Call.checks] at h
  cases hfound : env.findTaskByVpid c.pid with
  | none =>
    rw [hfound] at h
    split_ifs at h <;> exact absurd (Except.error.inj h) (hmismatch _ (by simp))
  | some task =>
    rw [hfound] at h
    dsimp only at h
    split_ifs at h with hcap harg hlist husage
    · exact absurd (Except.error.inj h) (hmismatch _ (by simp))
    · exact absurd (Except.error.inj h) (hmismatch _ (by simp))
    · exact hlist
    · exact absurd (Except.error.inj h) (hmismatch _ (by simp))

/-- An add returns `-101` only for a listed process id, if the security hook does
    not return this number. -/
theorem listed_of_exec_add (hhook : ∀ t r l, env.securityTaskSetrlimit t r l ≠ -101)
    (h : ((Call.add p v).exec env s).1 = -101) : ∃ n ∈ s.head, n.pid = p := by
  rcases hexec : (Call.add p v).exec env s with ⟨ret, s'⟩
  rw [hexec] at h
  change ret = -101 at h
  cases Call.exec_outcome hexec with
  | rejected hadm =>
    rw [h] at hadm
    exact Keyed.isSome_find_iff.1 (listed_of_mismatch (c := .add p v) hadm)
  | @refused t _ _ =>
    -- `do_prlimit` returns `-EPERM`, or what the hook returns.
    rw [limitRetval, prlimitRetval] at h
    split_ifs at h
    · exact absurd h (by decide)
    · exact absurd h (hhook _ _ _)
  | starved _ _ _ => exact absurd h (by decide)
  | done _ => exact absurd h (by decide)

/-- The entries in the buffer are nodes of the list. -/
theorem mem_fillBuffer {f : Fill} {x : Int32 × MemoryLimitation}
    (h : x ∈ (fillBuffer maxEntries head f).stores) : x ∈ f.stores ∨ x.2 ∈ head := by
  induction head generalizing f with
  | nil => exact .inl h
  | cons n head ih =>
    rw [fillBuffer] at h
    split_ifs at h
    · exact .inl h
    · rcases ih h with h | h
      · rcases List.mem_append.1 h with h | h
        · exact .inl h
        · rw [List.mem_singleton.1 h]
          exact .inr List.mem_cons_self
      · exact .inr (List.mem_cons_of_mem _ h)

/-- What the listing copies to user memory are nodes of the list. -/
theorem mem_of_luisGetMemoryLimits {buffer size : UInt64} {f : Fill}
    (h : (luisGetMemoryLimits env buffer maxEntries size s).2.1 = some f)
    {x : Int32 × MemoryLimitation} (hx : x ∈ f.stores) : x.2 ∈ s.head := by
  have hf : f = fillBuffer maxEntries s.head ⟨0, []⟩ := by
    rw [luisGetMemoryLimits] at h
    split_ifs at h <;> exact (Option.some.inj h).symm
  rw [hf] at hx
  exact (mem_fillBuffer hx).resolve_left List.not_mem_nil

end

/-! ## The record of the adds -/

/-- The process id and the task of an add that succeeds. -/
def Kernel.granted (k : Kernel) : Event → Option (PidT × TaskStruct)
  | .call env c =>
    if c.isAdd = true ∧ (c.exec (env.withTasks k.tasks) k.state).1 = 0 then
      (k.tasks c.pid).map fun t => (c.pid, t)
    else none
  | _ => none

/-- The kernel, with a record of the adds that succeeded. -/
structure Owned where
  kernel : Kernel
  /-- The task for which a process id was last added. -/
  owner : PidT → Option TaskStruct
  /-- All the tasks for which an add succeeded. -/
  limited : List TaskStruct

namespace Kernel

variable {k : Kernel} {e : Event} {p : PidT} {t : TaskStruct} {n : MemoryLimitation}

theorem granted_eq_some (h : k.granted e = some (p, t)) :
    k.tasks p = some t ∧ ∃ env c, e = .call env c ∧ c.pid = p ∧
      (c.exec (env.withTasks k.tasks) k.state).1 = 0 := by
  cases e with
  | call env c =>
    rw [granted] at h
    split_ifs at h with hadd
    obtain ⟨t', ht', heq⟩ := Option.map_eq_some_iff.1 h
    cases heq
    exact ⟨ht', env, c, rfl, rfl, hadd.2⟩
  | _ => cases h

/-- A call that fails adds nothing. -/
theorem granted_of_ne_zero {env : Env} {c : Call}
    (h : (c.exec (env.withTasks k.tasks) k.state).1 ≠ 0) : k.granted (.call env c) = none :=
  if_neg fun hadd => h hadd.2

/-- A node of the list was there before, up to its limit, or it is made by an
    add, for a process id that was not there. -/
theorem origin (hwf : WellFormed k.state.head) (hn : n ∈ (k.step e).state.head) :
    (∃ n' ∈ k.state.head, n'.pid = n.pid ∧ ∀ t, k.granted e ≠ some (n.pid, t)) ∨
      ∃ t, k.granted e = some (n.pid, t) := by
  cases e with
  | call env c =>
    rcases hexec : c.exec (env.withTasks k.tasks) k.state with ⟨ret, s'⟩
    have hhead : (k.step (.call env c)).state = s' := congrArg Prod.snd hexec
    rw [hhead] at hn
    -- A call that fails leaves the list as it is.
    have hfails : ret ≠ 0 → n ∈ k.state.head →
        ∃ n' ∈ k.state.head, n'.pid = n.pid ∧ ∀ t, k.granted (.call env c) ≠ some (n.pid, t) := by
      intro hret hn
      have hnone : k.granted (.call env c) = none :=
        granted_of_ne_zero (by rw [hexec]; exact hret)
      exact ⟨n, hn, rfl, fun t h => by cases hnone.symm.trans h⟩
    cases Call.exec_outcome hexec with
    | rejected h => exact .inl (hfails (Call.ne_zero_of_checks h) hn)
    | refused _ hret => exact .inl (hfails hret hn)
    | starved _ _ _ => exact .inl (hfails (by decide) hn)
    | @done t h =>
      rcases (hwf.mem_apply_iff h.toAdmitted).1 hn with ⟨hn', hne⟩ | ⟨_, rfl⟩
      · refine .inl ⟨n, hn', rfl, fun t' hgranted => ?_⟩
        obtain ⟨_, env', c', heq, hpid, _⟩ := granted_eq_some hgranted
        cases heq
        exact hne hpid.symm
      · -- The node of an add is new; that of an update was there.
        by_cases hadd : c.isAdd = true
        · refine .inr ⟨t, ?_⟩
          have hfound : k.tasks c.pid = some t := h.found
          rw [granted, if_pos ⟨hadd, by rw [hexec]⟩, hfound]
          rfl
        · have hlisted : (findNodeByPid c.pid k.state.head).isSome := by
            rw [h.listed, eq_false_of_ne_true hadd]
            rfl
          obtain ⟨n', hn', hpid⟩ := Keyed.isSome_find_iff.1 hlisted
          have hnone : k.granted (.call env c) = none := if_neg fun h => hadd h.1
          exact .inl ⟨n', hn', hpid, fun t h => by cases hnone.symm.trans h⟩
  | _ =>
    rw [head_step fun _ _ h => by cases h] at hn
    exact .inl ⟨n, hn, rfl, fun _ h => by cases h⟩

end Kernel

namespace Owned

variable {o : Owned} {e : Event} {p : PidT} {t : TaskStruct}

/-- The kernel and the record after an event. -/
def step (o : Owned) (e : Event) : Owned :=
  match o.kernel.granted e with
  | none => ⟨o.kernel.step e, o.owner, o.limited⟩
  | some (p, t) => ⟨o.kernel.step e, Function.update o.owner p (some t), t :: o.limited⟩

/-- Nothing is recorded when the registry is set up. -/
def start (k : Kernel) : Owned := ⟨k.boot, fun _ => none, []⟩

theorem kernel_step : (o.step e).kernel = o.kernel.step e := by
  rw [step]
  split <;> rfl

theorem owner_step_of_ne (h : ∀ t, o.kernel.granted e ≠ some (p, t)) :
    (o.step e).owner p = o.owner p := by
  rw [step]
  split
  · rfl
  · rename_i q t hgranted
    have hp : p ≠ q := fun hp => h t (hp ▸ hgranted)
    exact Function.update_of_ne hp (some t) o.owner

theorem owner_step_of_granted (h : o.kernel.granted e = some (p, t)) :
    (o.step e).owner p = some t := by
  rw [step, h]
  exact Function.update_self p (some t) o.owner

theorem mem_limited_of_granted (h : o.kernel.granted e = some (p, t)) :
    t ∈ (o.step e).limited := by
  rw [step, h]
  exact List.mem_cons_self

theorem mem_limited_step (h : t ∈ o.limited) : t ∈ (o.step e).limited := by
  rw [step]
  split
  · exact h
  · exact List.mem_cons_of_mem _ h

/-- Every node was made for a recorded task. -/
structure Traced (o : Owned) : Prop where
  wellFormed : WellFormed o.kernel.state.head
  owner : ∀ n ∈ o.kernel.state.head, ∃ t, o.owner n.pid = some t ∧ t ∈ o.limited

theorem traced_start (k : Kernel) : Traced (start k) :=
  ⟨wellFormed_nil, fun _ h => absurd h List.not_mem_nil⟩

theorem Traced.step (h : Traced o) : Traced (o.step e) := by
  refine ⟨?_, fun n hn => ?_⟩
  · rw [kernel_step]
    exact Kernel.wellFormed_step h.wellFormed
  · rw [kernel_step] at hn
    rcases Kernel.origin h.wellFormed hn with ⟨n', hn', hpid, hne⟩ | ⟨t, hgranted⟩
    · obtain ⟨t, ht, hlim⟩ := h.owner n' hn'
      refine ⟨t, ?_, mem_limited_step hlim⟩
      rw [owner_step_of_ne hne, ← hpid, ht]
    · exact ⟨t, owner_step_of_granted hgranted, mem_limited_of_granted hgranted⟩

/-! ## Attribution -/

/-- Every node names a live task, the one it was made for. -/
def Owns (o : Owned) : Prop :=
  ∀ n ∈ o.kernel.state.head, ∃ t, o.kernel.tasks n.pid = some t ∧ o.owner n.pid = some t

/-- The entries belong to the processes they were added for. -/
structure Attributed (o : Owned) : Prop where
  owns : Owns o
  /-- Only a task that was limited is found to be in the list by an add. -/
  add : ∀ (env : Env) (p : PidT) (v : SizeT) (t : TaskStruct),
    (∀ t r l, env.securityTaskSetrlimit t r l ≠ -101) → o.kernel.tasks p = some t →
    ((Call.add p v).exec (env.withTasks o.kernel.tasks) o.kernel.state).1 = -101 → t ∈ o.limited
  /-- Only live tasks that were limited are listed. -/
  get : ∀ (env : Env) (buffer : UInt64) (maxEntries : SizeT) (size : UInt64) (f : Fill),
    (luisGetMemoryLimits (env.withTasks o.kernel.tasks) buffer maxEntries size
      o.kernel.state).2.1 = some f →
    ∀ x ∈ f.stores, ∃ t, o.kernel.tasks x.2.pid = some t ∧ t ∈ o.limited

/-- A listed process exits. -/
def ExitsListed (o : Owned) (e : Event) : Prop := ∃ n ∈ o.kernel.state.head, e = .exit n.pid

/-- What the calls see follows from the ownership of the nodes. -/
theorem Traced.attributed_iff (h : Traced o) : Attributed o ↔ Owns o := by
  refine ⟨Attributed.owns, fun howns => ?_⟩
  have hlive : ∀ n ∈ o.kernel.state.head, ∃ t, o.kernel.tasks n.pid = some t ∧ t ∈ o.limited := by
    intro n hn
    obtain ⟨t, ht, howner⟩ := howns n hn
    obtain ⟨t', howner', hlim⟩ := h.owner n hn
    cases howner.symm.trans howner'
    exact ⟨t, ht, hlim⟩
  refine ⟨howns, fun env p v t hhook ht hret => ?_, fun env buffer maxEntries size f hf x hx => ?_⟩
  · have hhook' : ∀ t r l,
        (env.withTasks o.kernel.tasks).securityTaskSetrlimit t r l ≠ -101 := hhook
    obtain ⟨n, hn, hp⟩ := listed_of_exec_add hhook' hret
    obtain ⟨t', ht', hlim⟩ := hlive n hn
    rw [hp] at ht'
    cases ht.symm.trans ht'
    exact hlim
  · exact hlive x.2 (mem_of_luisGetMemoryLimits hf hx)

/-- An event keeps the nodes owned exactly if no listed process exits in it. -/
theorem owns_step_iff (h : Traced o) (howns : Owns o) :
    Owns (o.step e) ↔ ¬o.ExitsListed e := by
  constructor
  · -- The exit leaves the node, but not its task.
    rintro hstep ⟨n, hn, rfl⟩
    have hmem : n ∈ (o.step (.exit n.pid)).kernel.state.head := hn
    obtain ⟨t, ht, _⟩ := hstep n hmem
    rw [kernel_step] at ht
    change Function.update o.kernel.tasks n.pid none n.pid = some t at ht
    rw [Function.update_self] at ht
    cases ht
  · intro hexit n hn
    rw [kernel_step] at hn ⊢
    rcases Kernel.origin h.wellFormed hn with ⟨n', hn', hpid, hne⟩ | ⟨t, hgranted⟩
    · -- The task of an old node is still there, as it does not exit.
      obtain ⟨t, ht, howner⟩ := howns n' hn'
      have he : e ≠ .exit n'.pid := fun he => hexit ⟨n', hn', he⟩
      rw [hpid] at ht howner he
      exact ⟨t, Kernel.tasks_step ht he, (owner_step_of_ne hne).trans howner⟩
    · have he : e ≠ .exit n.pid := by
        rintro rfl
        cases hgranted
      exact ⟨t, Kernel.tasks_step (Kernel.granted_eq_some hgranted).1 he,
        owner_step_of_granted hgranted⟩

/-- From the time the registry is set up, the entries belong to the processes
    they were added for, in every state of a run, exactly if no process exits in
    the run while it is listed. -/
theorem always_attributed_iff (k : Kernel) (es : List Event) :
    Machine.Always step Attributed (start k) es ↔
      Machine.Each step (fun o e => ¬o.ExitsListed e) (start k) es :=
  Machine.always_iff_each (R := fun _ => True) (traced_start k)
    ((traced_start k).attributed_iff.2 fun _ h => absurd h List.not_mem_nil)
    (fun _ _ => trivial) (fun _ _ _ h => h.step)
    fun _ _ _ h hattr => h.step.attributed_iff.trans (owns_step_iff h hattr.owns)

/-- The process `7` has a child `9`, is limited, and exits; the child makes a new
    process, which gets the id `7`. -/
def reuse : List Event :=
  [.fork 7 9 false true, .call Env.quiet (.add 7 4096), .exit 7, .fork 9 7 false true]

/-- The new process cannot be limited: it is found to be in the list already. -/
theorem not_always_attributed : ¬Machine.Always step Attributed (start .small) reuse := by
  intro h
  have hmem := h.run.add Env.quiet 7 4096 ⟨9, 3⟩
    (fun _ _ _ h => absurd (show (0 : Int) = -101 from h) (by decide)) (by decide) (by decide)
  exact absurd hmem (by decide)

end Owned

end LuisKernel
