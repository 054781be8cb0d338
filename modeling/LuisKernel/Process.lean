import LuisKernel.Registry.Map

/-!
# Processes

The registry in a kernel whose processes come and go, and change their resource
limits themselves. A `Kernel` is the registry with the limits, and the table of
process ids; its events are the calls of the registry, the creation and the exit
of tasks, and the system calls of `kernel/sys.c` that set limits, by any caller.

* A new process gets a copy of the limits of its parent, and a new thread shares
  those of its group (`copy_signal` in `kernel/fork.c`). The process id is any
  free one (`alloc_pid`), possibly that of a process that has exited. A task is
  told apart from the others, past and present, by its `id`.
* An exit frees the process id. Nothing tells the registry.
-/

namespace LuisKernel

/-- `copy_signal`: the `signal_struct` of a new task, whose memory is `fresh`, if
    any is found. With `CLONE_THREAD` it is that of `current`. -/
def copySignal (cloneThread alloc : Bool) (current : TaskStruct) (fresh : Nat) (s : State) :
    Option (Nat × State) :=
  if cloneThread then some (current.signal, s)
  else if alloc then
    some (fresh, { s with rlim := Function.update s.rlim fresh (s.rlim current.signal) })
  else none

/-- The registry, the limits and the tasks. -/
structure Kernel where
  state : State
  /-- The tasks by their process id, as `find_task_by_vpid` finds them. -/
  tasks : PidT → Option TaskStruct
  /-- The ids of the next task and of the next `signal_struct`, which are not in use. -/
  nextTask : Nat
  nextSignal : Nat
  id_lt : ∀ p t, tasks p = some t → t.id < nextTask
  signal_lt : ∀ p t, tasks p = some t → t.signal < nextSignal

/-- What can happen in the kernel. The events of a system call have the
    environment of the call, in which the table of tasks is that of the kernel. -/
inductive Event
  | call (env : Env) (c : Call)
  | fork (parent pid : PidT) (cloneThread alloc : Bool)
  | exit (pid : PidT)
  | setrlimit (env : Env) (resource : UInt32) (newRlim : Rlimit)
  | compatSetrlimit (env : Env) (resource : UInt32) (r32 : CompatRlimit)
  | prlimit64 (env : Env) (pid : PidT) (resource : UInt32) (newRlim : Option Rlimit64)
      (wantOld : Bool)

/-- The environment of the system calls of `kernel/sys.c`. -/
def Event.setter : Event → Option Env
  | setrlimit env _ _ => some env
  | compatSetrlimit env _ _ => some env
  | prlimit64 env _ _ _ _ => some env
  | _ => none

namespace Kernel

variable {k : Kernel} {e : Event} {parent pid p : PidT} {cloneThread alloc : Bool}
  {current task t : TaskStruct} {fresh signal : Nat} {s s' : State}

/-! ## New tasks -/

/-- A new task has the limits of its parent, and the other thread groups keep
    theirs. -/
theorem copySignal_eq_some (h : copySignal cloneThread alloc current fresh s = some (signal, s')) :
    (signal = current.signal ∨ signal = fresh) ∧ s'.head = s.head ∧
      s'.rlim signal = s.rlim current.signal ∧ ∀ g, g ≠ signal → s'.rlim g = s.rlim g := by
  rw [copySignal] at h
  split_ifs at h with hthread halloc
  · cases h
    exact ⟨.inl rfl, rfl, rfl, fun _ _ => rfl⟩
  · cases h
    exact ⟨.inr rfl, rfl, Function.update_self .., fun _ hg => Function.update_of_ne hg ..⟩

/-- The creation of a task: its parent, the new task, and the state. The parent
    must be there, and the process id free. -/
def copyProcess (k : Kernel) (parent pid : PidT) (cloneThread alloc : Bool) :
    Option (TaskStruct × TaskStruct × State) :=
  match k.tasks parent with
  | none => none
  | some current =>
    if pid ≤ 0 ∨ (k.tasks pid).isSome then none
    else
      match copySignal cloneThread alloc current k.nextSignal k.state with
      | none => none
      | some (signal, s) => some (current, ⟨k.nextTask, signal⟩, s)

/-- `task` is created by `current` under the id `pid`, which leaves the state `s`. -/
structure Creates (k : Kernel) (pid : PidT) (current task : TaskStruct) (s : State) : Prop where
  parent : ∃ p, k.tasks p = some current
  free : k.tasks pid = none
  id_eq : task.id = k.nextTask
  signal_le : task.signal ≤ k.nextSignal
  head_eq : s.head = k.state.head
  rlim_eq : s.rlim task.signal = k.state.rlim current.signal
  rlim_of_ne : ∀ g, g ≠ task.signal → s.rlim g = k.state.rlim g

theorem creates_of_copyProcess
    (h : k.copyProcess parent pid cloneThread alloc = some (current, task, s)) :
    k.Creates pid current task s := by
  rw [copyProcess] at h
  cases hparent : k.tasks parent with
  | none =>
    rw [hparent] at h
    cases h
  | some cur =>
    rw [hparent] at h
    dsimp only at h
    split_ifs at h with hpid
    cases hcopy : copySignal cloneThread alloc cur k.nextSignal k.state with
    | none =>
      rw [hcopy] at h
      cases h
    | some r =>
      rw [hcopy] at h
      cases h
      obtain ⟨hsignal, hhead, hrlim, hne⟩ := copySignal_eq_some hcopy
      -- A thread is in the group of its parent, which is in use already.
      refine ⟨⟨parent, hparent⟩, ?_, rfl, ?_, hhead, hrlim, hne⟩
      · exact Option.not_isSome_iff_eq_none.1 (not_or.1 hpid).2
      · rcases hsignal with hsignal | hsignal
        · exact hsignal ▸ (k.signal_lt parent _ hparent).le
        · exact hsignal.le

/-! ## The machine -/

/-- The kernel with a new state. -/
def setState (k : Kernel) (s : State) : Kernel := { k with state := s }

theorem tasks_of_update_some (h : Function.update k.tasks pid (some task) p = some t) :
    p = pid ∧ task = t ∨ k.tasks p = some t := by
  by_cases hp : p = pid
  · rw [hp, Function.update_self] at h
    exact .inl ⟨hp, Option.some.inj h⟩
  · rw [Function.update_of_ne hp] at h
    exact .inr h

/-- The kernel with a new task. -/
def addTask (k : Kernel) (pid : PidT) (task : TaskStruct) (s : State)
    (hid : task.id = k.nextTask) (hsignal : task.signal ≤ k.nextSignal) : Kernel where
  state := s
  tasks := Function.update k.tasks pid (some task)
  nextTask := k.nextTask + 1
  nextSignal := k.nextSignal + 1
  id_lt p t ht := by
    rcases tasks_of_update_some ht with ⟨_, rfl⟩ | ht
    · omega
    · exact (k.id_lt p t ht).trans (Nat.lt_succ_self _)
  signal_lt p t ht := by
    rcases tasks_of_update_some ht with ⟨_, rfl⟩ | ht
    · omega
    · exact (k.signal_lt p t ht).trans (Nat.lt_succ_self _)

theorem tasks_of_update_none (h : Function.update k.tasks pid none p = some t) :
    k.tasks p = some t := by
  by_cases hp : p = pid
  · rw [hp, Function.update_self] at h
    cases h
  · rwa [Function.update_of_ne hp] at h

/-- The kernel after the exit of a task. -/
def freeTask (k : Kernel) (pid : PidT) : Kernel where
  state := k.state
  tasks := Function.update k.tasks pid none
  nextTask := k.nextTask
  nextSignal := k.nextSignal
  id_lt p t ht := k.id_lt p t (tasks_of_update_none ht)
  signal_lt p t ht := k.signal_lt p t (tasks_of_update_none ht)

theorem tasks_of_freeTask (h : (k.freeTask pid).tasks p = some t) : k.tasks p = some t :=
  tasks_of_update_none h

/-- The kernel after an event. -/
def step (k : Kernel) : Event → Kernel
  | .call env c => k.setState (c.exec (env.withTasks k.tasks) k.state).2
  | .fork parent pid cloneThread alloc =>
    match h : k.copyProcess parent pid cloneThread alloc with
    | none => k
    | some (_, task, s) =>
      k.addTask pid task s (creates_of_copyProcess h).id_eq (creates_of_copyProcess h).signal_le
  | .exit pid => k.freeTask pid
  | .setrlimit env resource newRlim =>
    k.setState (setrlimit (env.withTasks k.tasks) resource newRlim k.state).2
  | .compatSetrlimit env resource r32 =>
    k.setState (compatSetrlimit (env.withTasks k.tasks) resource r32 k.state).2
  | .prlimit64 env pid resource newRlim wantOld =>
    k.setState (prlimit64 (env.withTasks k.tasks) pid resource newRlim wantOld k.state).2.2

/-- What an event can do to the kernel. -/
inductive Outcome (k : Kernel) : Event → Kernel → Prop
  | call {env : Env} {c : Call} :
      Outcome k (.call env c) (k.setState (c.exec (env.withTasks k.tasks) k.state).2)
  | noFork {parent pid : PidT} {cloneThread alloc : Bool} :
      k.copyProcess parent pid cloneThread alloc = none →
      Outcome k (.fork parent pid cloneThread alloc) k
  | fork {parent pid : PidT} {cloneThread alloc : Bool} {current task : TaskStruct} {s : State} :
      k.copyProcess parent pid cloneThread alloc = some (current, task, s) →
      (h : k.Creates pid current task s) →
      Outcome k (.fork parent pid cloneThread alloc) (k.addTask pid task s h.id_eq h.signal_le)
  | exit {pid : PidT} : Outcome k (.exit pid) (k.freeTask pid)
  | limits {e : Event} {env : Env} {s : State} : e.setter = some env →
      Adjusts (env.capable .sysResource) k.state s → Outcome k e (k.setState s)

theorem step_outcome (k : Kernel) (e : Event) : k.Outcome e (k.step e) := by
  cases e with
  | call env c => exact .call
  | fork parent pid cloneThread alloc =>
    rw [step]
    split
    · rename_i h
      exact .noFork h
    · rename_i h
      exact .fork h (creates_of_copyProcess h)
  | exit pid => exact .exit
  | setrlimit env resource newRlim =>
    exact .limits rfl (adjusts_setrlimit (env.withTasks k.tasks))
  | compatSetrlimit env resource r32 =>
    exact .limits rfl (adjusts_compatSetrlimit (env.withTasks k.tasks))
  | prlimit64 env pid resource newRlim wantOld =>
    exact .limits rfl (adjusts_prlimit64 (env.withTasks k.tasks))

/-! ## Runs -/

/-- Only a call of the registry changes its list. -/
theorem head_step (h : ∀ env c, e ≠ .call env c) : (k.step e).state.head = k.state.head := by
  have hout := k.step_outcome e
  generalize k.step e = k' at hout ⊢
  cases hout with
  | call => exact absurd rfl (h _ _)
  | noFork _ => rfl
  | fork _ hcreates => exact hcreates.head_eq
  | exit => rfl
  | limits _ hadjusts => exact hadjusts.head_eq

theorem wellFormed_step (hwf : WellFormed k.state.head) : WellFormed (k.step e).state.head := by
  cases e with
  | call env c => exact hwf.exec
  | _ =>
    rw [head_step fun _ _ h => by cases h]
    exact hwf

/-- A task is there until it exits. -/
theorem tasks_step (h : k.tasks p = some t) (he : e ≠ .exit p) : (k.step e).tasks p = some t := by
  have hout := k.step_outcome e
  generalize k.step e = k' at hout ⊢
  cases hout with
  | call => exact h
  | noFork _ => exact h
  | @fork _ pid _ _ _ task _ _ hcreates =>
    -- The id of a new task is free, so it is not that of `t`.
    have hp : p ≠ pid := by
      rintro rfl
      cases h.symm.trans hcreates.free
    exact (Function.update_of_ne hp (some task) k.tasks).trans h
  | @exit pid =>
    have hp : p ≠ pid := fun hp => he (hp ▸ rfl)
    exact (Function.update_of_ne hp none k.tasks).trans h
  | limits _ _ => exact h

/-- The kernel when the registry is set up: its list is empty. -/
def boot (k : Kernel) : Kernel := k.setState { k.state with head := [] }

/-- The kernel is reached by some run since the registry was set up. -/
def Reachable (k : Kernel) : Prop := ∃ k₀ es, Machine.run step (boot k₀) es = k

theorem Reachable.wellFormed (h : k.Reachable) : WellFormed k.state.head := by
  obtain ⟨k₀, es, rfl⟩ := h
  have hwf : Machine.Always step (fun k => WellFormed k.state.head) (boot k₀) es :=
    Machine.always_of_step (R := fun _ => True) wellFormed_nil (fun _ _ => trivial)
      fun _ _ _ => wellFormed_step
  exact hwf.run

/-- The kernel of one process, limited to 4096 bytes of everything. -/
def small : Kernel where
  state := ⟨[], fun _ _ => ⟨4096, 4096⟩⟩
  tasks := oneProcess
  nextTask := 8
  nextSignal := 2
  id_lt p t ht := by
    rw [oneProcess] at ht
    split_ifs at ht
    cases ht
    decide
  signal_lt p t ht := by
    rw [oneProcess] at ht
    split_ifs at ht
    cases ht
    decide

end Kernel

end LuisKernel
