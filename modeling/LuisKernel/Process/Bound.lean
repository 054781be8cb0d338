import LuisKernel.Process

/-!
# Limits cannot be escaped

A thread group has a *bound*: its hard limit at first, then the limit of the
last registry call that succeeded for one of its threads; a new process starts
with the bound of its parent. The bound is no part of the kernel, it is recorded
along the run (`Guarded`).

Without `CAP_SYS_RESOURCE` no system call raises a hard limit, so one expects
every thread group to stay within its bound (`Contained`). This fails in one
way: an add by a capable caller may raise the limit of a process, and then fail
for want of memory. `always_contained_iff` says that the runs in which this does
not happen are exactly those in which no bound is exceeded.
-/

namespace LuisKernel

/-- The kernel, with the bounds of the thread groups. -/
structure Guarded where
  kernel : Kernel
  bound : Nat → SizeT

/-- An event whose limits, if it sets any on its own, are set without
    `CAP_SYS_RESOURCE`. -/
def Event.Unprivileged (e : Event) : Prop :=
  ∀ env, e.setter = some env → env.capable .sysResource = false

namespace Guarded

variable {g : Guarded} {e : Event}

/-- The bounds after an event. -/
def nextBound (g : Guarded) : Event → Nat → SizeT
  | .call env c =>
    if (c.exec (env.withTasks g.kernel.tasks) g.kernel.state).1 = 0 then
      match g.kernel.tasks c.pid with
      | none => g.bound
      | some t => Function.update g.bound t.signal c.limit
    else g.bound
  | .fork parent pid cloneThread alloc =>
    match g.kernel.copyProcess parent pid cloneThread alloc with
    | none => g.bound
    | some (current, task, _) => Function.update g.bound task.signal (g.bound current.signal)
  | _ => g.bound

/-- The kernel and the bounds after an event. -/
def step (g : Guarded) (e : Event) : Guarded := ⟨g.kernel.step e, g.nextBound e⟩

/-- The kernel `k`, where every hard limit is a bound. -/
def start (k : Kernel) : Guarded := ⟨k, fun signal => (k.state.limitAs signal).rlimMax⟩

/-- The limit `r` is consistent, and within the bound `b`. -/
def Within (r : Rlimit) (b : SizeT) : Prop := r.rlimCur ≤ r.rlimMax ∧ r.rlimMax ≤ b

/-- The limit of every thread group is within its bound. -/
def Contained (g : Guarded) : Prop :=
  ∀ p t, g.kernel.tasks p = some t → Within (g.kernel.state.limitAs t.signal) (g.bound t.signal)

/-- The event is an add that `do_prlimit` accepts, but that finds no memory for
    its node, with a limit above the bound of the thread group. -/
def Escapes (g : Guarded) : Event → Prop
  | .call env c => ∃ t, c.Accepted (env.withTasks g.kernel.tasks) g.kernel.state t ∧
      c.isAdd = true ∧ env.kmalloc = false ∧ g.bound t.signal < c.limit
  | _ => False

/-- Setting the limit of a thread group within its new bound. -/
theorem within_setLimitAs {s : State} {bound : Nat → SizeT} {signal signal' : Nat} {v b : SizeT}
    (hv : v ≤ b) (h : Within (s.limitAs signal') (bound signal')) :
    Within ((s.setLimitAs signal v).limitAs signal') (Function.update bound signal b signal') := by
  by_cases hsignal : signal' = signal
  · rw [hsignal, limitAs_setLimitAs_self, Function.update_self]
    exact ⟨UInt64.le_refl v, hv⟩
  · rw [limitAs_setLimitAs_of_ne hsignal, Function.update_of_ne hsignal]
    exact h

/-- A call of the registry keeps every limit within its bound, unless it escapes. -/
theorem contained_call_iff {env : Env} {c : Call} (hg : Contained g) :
    Contained (g.step (.call env c)) ↔ ¬g.Escapes (.call env c) := by
  rcases hexec : c.exec (env.withTasks g.kernel.tasks) g.kernel.state with ⟨ret, s'⟩
  have hkernel : g.kernel.step (.call env c) = g.kernel.setState s' := by
    rw [Kernel.step, hexec]
  have hbound : ret ≠ 0 → g.nextBound (.call env c) = g.bound := by
    intro hret
    rw [nextBound, hexec, if_neg hret]
  rw [step, hkernel]
  cases Call.exec_outcome hexec with
  | rejected h =>
    rw [hbound (Call.ne_zero_of_checks h)]
    refine iff_of_true hg ?_
    rintro ⟨t, hacc, _⟩
    exact Call.not_accepted_of_error h hacc
  | refused h hret =>
    rw [hbound hret]
    refine iff_of_true hg ?_
    rintro ⟨t, hacc, _⟩
    exact Call.not_accepted_of_refused h hret hacc
  | @starved t hacc hadd hmem =>
    rw [hbound (by decide)]
    constructor
    · -- The limit that was set is the hard limit of the process now.
      rintro h ⟨t', hacc', _, _, hlt⟩
      cases hacc.toAdmitted.unique hacc'.toAdmitted
      have hle := (h c.pid t hacc.found).2
      have hset : ((g.kernel.state.setLimitAs t.signal c.limit).limitAs t.signal).rlimMax =
        c.limit := congrArg Rlimit.rlimMax limitAs_setLimitAs_self
      exact absurd (hset.symm.trans_le hle) (UInt64.not_le.2 hlt)
    · -- The bound stays, and the new limit is not above it.
      intro h p t' ht'
      have hle : c.limit ≤ g.bound t.signal :=
        UInt64.not_lt.1 fun hlt => h ⟨t, hacc, hadd, hmem, hlt⟩
      have hw : Within ((g.kernel.state.setLimitAs t.signal c.limit).limitAs t'.signal)
          (Function.update g.bound t.signal (g.bound t.signal) t'.signal) :=
        within_setLimitAs hle (hg p t' ht')
      rwa [Function.update_eq_self] at hw
  | @done t hsucc =>
    -- The limit that was set is the bound now.
    have hnext : g.nextBound (.call env c) = Function.update g.bound t.signal c.limit := by
      rw [nextBound, hexec, if_pos rfl]
      have hfound : g.kernel.tasks c.pid = some t := hsucc.found
      rw [hfound]
    rw [hnext]
    refine iff_of_true (fun p t' ht' => within_setLimitAs (UInt64.le_refl _) (hg p t' ht')) ?_
    rintro ⟨t', _, hadd, hmem, _⟩
    cases (hsucc.allocated hadd).symm.trans hmem

/-- A new task is within the bound it takes over from its parent. -/
theorem contained_addTask {k : Kernel} {bound : Nat → SizeT} {pid : PidT}
    {current task : TaskStruct} {s : State} (hg : Contained ⟨k, bound⟩)
    (h : k.Creates pid current task s) :
    Contained ⟨k.addTask pid task s h.id_eq h.signal_le,
      Function.update bound task.signal (bound current.signal)⟩ := by
  obtain ⟨parent, hparent⟩ := h.parent
  -- The new task is in a group of its own or in that of its parent: either way
  -- this group has the limit and the bound of the parent now.
  have hgroup : ∀ signal, (signal ≠ task.signal → Within (k.state.limitAs signal) (bound signal)) →
      Within (s.limitAs signal)
        (Function.update bound task.signal (bound current.signal) signal) := by
    intro signal hold
    by_cases hsignal : signal = task.signal
    · rw [hsignal, Function.update_self, State.limitAs, h.rlim_eq]
      exact hg parent current hparent
    · rw [Function.update_of_ne hsignal, State.limitAs, h.rlim_of_ne signal hsignal]
      exact hold hsignal
  intro p t ht
  rcases Kernel.tasks_of_update_some ht with ⟨_, rfl⟩ | ht
  · exact hgroup task.signal fun hne => absurd rfl hne
  · exact hgroup t.signal fun _ => hg p t ht

/-- A limit set without `CAP_SYS_RESOURCE` stays within its bound. -/
theorem contained_of_adjusts {k : Kernel} {bound : Nat → SizeT} {s : State}
    (hg : Contained ⟨k, bound⟩) (h : Adjusts false k.state s) :
    Contained ⟨k.setState s, bound⟩ := by
  intro p t ht
  obtain ⟨hcur, hmax⟩ := hg p t ht
  -- The limit is as it was, or its hard part was lowered.
  rcases h.limitAs t.signal with heq | ⟨hcur', hmax' | hcap⟩
  · exact heq.symm ▸ ⟨hcur, hmax⟩
  · exact ⟨hcur', UInt64.le_trans hmax' hmax⟩
  · cases hcap

/-- The system calls of `kernel/sys.c` leave the bounds alone, and are no escape. -/
theorem bound_of_setter {env : Env} (h : e.setter = some env) :
    g.nextBound e = g.bound ∧ ¬g.Escapes e := by
  cases e with
  | call | fork | exit => cases h
  | setrlimit | compatSetrlimit | prlimit64 => exact ⟨rfl, id⟩

/-- An event keeps every limit within its bound exactly if it is no escape. -/
theorem contained_step_iff (he : e.Unprivileged) (hg : Contained g) :
    Contained (g.step e) ↔ ¬g.Escapes e := by
  have hout := g.kernel.step_outcome e
  rw [step]
  generalize hk : g.kernel.step e = k' at hout ⊢
  cases hout with
  | call => exact hk ▸ contained_call_iff hg
  | noFork h =>
    rw [nextBound, h]
    exact iff_of_true hg id
  | fork h hcreates =>
    rw [nextBound, h]
    exact iff_of_true (contained_addTask hg hcreates) id
  | exit =>
    exact iff_of_true (fun p t ht => hg p t (Kernel.tasks_of_freeTask ht)) id
  | limits hsetter h =>
    obtain ⟨hbound, hescapes⟩ := bound_of_setter (g := g) hsetter
    rw [he _ hsetter] at h
    rw [hbound]
    exact iff_of_true (contained_of_adjusts hg h) hescapes

/-- In a run whose callers set no limits with `CAP_SYS_RESOURCE`, except through
    the registry, every limit is within its bound in every state exactly if no
    event of the run is an escape. -/
theorem always_contained_iff (k : Kernel)
    (hk : ∀ p t, k.tasks p = some t →
      (k.state.limitAs t.signal).rlimCur ≤ (k.state.limitAs t.signal).rlimMax)
    (es : List Event) (hes : ∀ e ∈ es, e.Unprivileged) :
    Machine.Always step Contained (start k) es ↔
      Machine.Each step (fun g e => ¬g.Escapes e) (start k) es :=
  Machine.always_iff_each (I := fun _ => True) trivial
    (fun p t ht => ⟨hk p t ht, UInt64.le_refl _⟩) hes (fun _ _ _ _ => trivial)
    fun _ _ he _ hg => contained_step_iff he hg

/-- A caller without capabilities. -/
def powerless : Env := { Env.quiet with capable := fun _ => false }

/-- The process is limited, forks, and its child tries to raise the limit. -/
def forkRun : List Event :=
  [.call Env.quiet (.add 7 8192), .fork 7 9 false true,
    .prlimit64 powerless 9 RLIMIT_AS (some ⟨16384, 16384⟩) false]

/-- The condition decides this run. -/
theorem always_contained_iff_forkRun :
    Machine.Always step Contained (start .small) forkRun ↔
      Machine.Each step (fun g e => ¬g.Escapes e) (start .small) forkRun := by
  refine always_contained_iff .small (fun _ _ _ => UInt64.le_refl _) forkRun fun e he env henv => ?_
  simp only [forkRun, List.mem_cons, List.not_mem_nil, or_false] at he
  rcases he with rfl | rfl | rfl <;> cases henv
  rfl

/-- An add without memory for its node fails, but raises the limit. -/
theorem not_always_contained :
    ¬Machine.Always step Contained (start .small)
      [.call { Env.quiet with kmalloc := false } (.add 7 8192)] := by
  intro h
  have hle := (h.run 7 ⟨7, 1⟩ rfl).2
  exact absurd hle (by decide)

end Guarded

end LuisKernel
