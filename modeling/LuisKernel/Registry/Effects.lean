import LuisKernel.Registry.Enforce

/-!
# What a call leaves behind

Three things one would expect of the calls, each with the exact condition under
which the code gives it.

* *A call that fails changes nothing* (`atomic_iff`). All failures come before
  the limit is set, except one: an add that finds no memory for its node has
  already set the limit of the process, and does not take it back.
* *A call that succeeds leaves a process the memory it uses* (`fits_iff`). Add
  and update check the limit against the memory in use; remove imposes 110 MiB
  without looking.
* *Removing a limit undoes it* (`episode_undone_iff`). The limit a process had
  before the add is recorded nowhere: after the remove it has 110 MiB.
-/

namespace LuisKernel

variable {env : Env} {c : Call} {s s' : State} {t : TaskStruct} {p : PidT}
  {tasks : PidT → Option TaskStruct}

/-! ## Calls that fail -/

/-- The registry, and the limit on the address space of every thread group, are
    the same in the two states. -/
def Unchanged (s s' : State) : Prop :=
  s'.head = s.head ∧ ∀ signal, s'.limitAs signal = s.limitAs signal

theorem Unchanged.refl : Unchanged s s := ⟨rfl, fun _ => rfl⟩

/-- The call is an add that finds no memory for its node after `do_prlimit`
    accepted a limit the process did not have. -/
def LosesLimit (env : Env) (c : Call) (s : State) : Prop :=
  ∃ t, c.Accepted env s t ∧ c.isAdd = true ∧ env.kmalloc = false ∧
    s.limitAs t.signal ≠ ⟨c.limit, c.limit⟩

/-- A call that fails leaves the registry and the limits as they were, exactly
    if it is not an add that runs out of memory after changing a limit. -/
theorem atomic_iff (env : Env) (c : Call) (s : State) :
    ((c.exec env s).1 ≠ 0 → Unchanged s (c.exec env s).2) ↔ ¬LosesLimit env c s := by
  rcases hexec : c.exec env s with ⟨ret, s'⟩
  dsimp only
  cases Call.exec_outcome hexec with
  | rejected h =>
    refine iff_of_true (fun _ => .refl) ?_
    rintro ⟨t, hacc, _⟩
    exact Call.not_accepted_of_error h hacc
  | refused h hret =>
    refine iff_of_true (fun _ => .refl) ?_
    rintro ⟨t, hacc, _⟩
    exact Call.not_accepted_of_refused h hret hacc
  | @starved t hacc hadd hmem =>
    constructor
    · -- The call failed, but the limit is the new one.
      rintro h ⟨t', hacc', _, _, hne⟩
      cases hacc.toAdmitted.unique hacc'.toAdmitted
      exact hne (((h (by decide)).2 t.signal).symm.trans limitAs_setLimitAs_self)
    · -- The limit that was set is the one the process had.
      intro h _
      have hsame : s.limitAs t.signal = ⟨c.limit, c.limit⟩ :=
        not_not.1 fun hne => h ⟨t, hacc, hadd, hmem, hne⟩
      refine ⟨rfl, fun signal => ?_⟩
      by_cases hsignal : signal = t.signal
      · rw [hsignal, limitAs_setLimitAs_self, hsame]
      · exact limitAs_setLimitAs_of_ne hsignal
  | done h =>
    refine iff_of_true (fun hret => absurd rfl hret) ?_
    rintro ⟨t, _, hadd, hmem, _⟩
    cases (h.allocated hadd).symm.trans hmem

/-- The kernel of one process, out of memory. -/
def exhausted : Env := { Env.quiet.withTasks oneProcess with kmalloc := false }

/-- An add without memory for its node fails, and the process is limited. -/
theorem starved_not_atomic :
    ¬(((Call.add 7 4096).exec exhausted unlimited).1 ≠ 0 →
      Unchanged unlimited ((Call.add 7 4096).exec exhausted unlimited).2) := by
  intro h
  exact absurd ((h (by decide)).2 1) (by decide)

/-! ## Calls that succeed -/

/-- The limit of the process of a call, soft and hard, leaves it the memory it
    uses. -/
def Fits (env : Env) (c : Call) (s : State) : Prop :=
  ∃ t, env.findTaskByVpid c.pid = some t ∧
    getProcessMemoryUsage env t ≤ (s.limitAs t.signal).rlimCur ∧
    getProcessMemoryUsage env t ≤ (s.limitAs t.signal).rlimMax

/-- The call is a remove that succeeds for a process using more than 110 MiB. -/
def Strangles (env : Env) (c : Call) (s : State) : Prop :=
  ∃ t, c.Succeeds env s t ∧ c.isRemove = true ∧ removedLimit < getProcessMemoryUsage env t

/-- After a call that succeeds the limit of the process leaves it the memory it
    uses, exactly if the call does not remove the limit of a process using more
    than 110 MiB. -/
theorem fits_iff (env : Env) (c : Call) (s : State) :
    ((c.exec env s).1 = 0 → Fits env c (c.exec env s).2) ↔ ¬Strangles env c s := by
  constructor
  · rintro h ⟨t, hsucc, hremove, hlt⟩
    rw [Call.exec_of_succeeds hsucc] at h
    obtain ⟨t', ht', hcur, _⟩ := h rfl
    cases hsucc.found.symm.trans ht'
    have hset : ((s.setLimitAs t.signal c.limit).limitAs t.signal).rlimCur = c.limit := by
      rw [limitAs_setLimitAs_self]
    have hlimit : c.limit = removedLimit := by
      cases c with
      | remove p => rfl
      | _ => cases hremove
    exact absurd (hcur.trans_eq (hset.trans hlimit)) (UInt64.not_le.2 hlt)
  · intro h hzero
    obtain ⟨t, hsucc⟩ := Call.exec_eq_zero_iff.1 hzero
    -- Add and update have checked this; a remove has not.
    have hle : getProcessMemoryUsage env t ≤ c.limit := by
      cases c with
      | remove p => exact UInt64.not_lt.1 fun hlt => h ⟨t, hsucc, rfl, hlt⟩
      | _ => exact hsucc.usage rfl
    rw [Call.exec_of_succeeds hsucc]
    have hset : (s.setLimitAs t.signal c.limit).limitAs t.signal = ⟨c.limit, c.limit⟩ :=
      limitAs_setLimitAs_self
    exact ⟨t, hsucc.found, hle.trans_eq (congrArg Rlimit.rlimCur hset).symm,
      hle.trans_eq (congrArg Rlimit.rlimMax hset).symm⟩

/-- The kernel of the process `7`, which uses 200 MiB. -/
def busy : Env := { Env.quiet.withTasks oneProcess with totalVm := fun _ => some 51200 }

/-- The registry after this process was limited to 4 GiB. -/
def busyLimited : State := ((Call.add 7 4294967296).exec busy unlimited).2

/-- Removing the limit of a process that uses 200 MiB succeeds, and leaves it
    110 MiB. -/
theorem remove_strangles :
    ¬(((Call.remove 7).exec busy busyLimited).1 = 0 →
      Fits busy (.remove 7) ((Call.remove 7).exec busy busyLimited).2) := by
  intro h
  obtain ⟨t, ht, hcur, _⟩ := h (by decide)
  cases ht
  exact absurd hcur (by decide)

/-! ## Removing a limit -/

/-- The run of `es` from `s` limits the process `t`, of id `p` and not listed
    yet, and takes the limit off again: a successful add, then updates of `p`,
    successful or not, and calls for other processes, then a successful remove. -/
inductive Episode (tasks : PidT → Option TaskStruct) (p : PidT) (t : TaskStruct) (s : State) :
    List (Env × Call) → Prop
  | mk {env env' : Env} {v : SizeT} (es : List (Env × Call)) : tasks p = some t →
      findNodeByPid p s.head = none →
      ((Call.add p v).exec (env.withTasks tasks) s).1 = 0 →
      (∀ e ∈ es, (∃ w, e.2 = .update p w) ∨ e.2.pid ≠ p) →
      ((Call.remove p).exec (env'.withTasks tasks)
        (Machine.run (perform tasks) s ((env, .add p v) :: es))).1 = 0 →
      Episode tasks p t s ((env, .add p v) :: es ++ [(env', .remove p)])

/-- A process ends an episode with the limit of 110 MiB. -/
theorem Episode.limitAs_run {es : List (Env × Call)} (h : Episode tasks p t s es) :
    (Machine.run (perform tasks) s es).limitAs t.signal = ⟨removedLimit, removedLimit⟩ := by
  obtain ⟨es, ht, _, _, _, hremove⟩ := h
  obtain ⟨t', hsucc⟩ := Call.exec_eq_zero_iff.1 hremove
  cases ht.symm.trans hsucc.found
  -- Only the last call matters: it sets the limit.
  rw [Machine.run_concat, perform, Call.exec_of_succeeds hsucc]
  exact limitAs_setLimitAs_self

/-- Taking a limit off gives the process the limit it had before exactly if that
    was 110 MiB, soft and hard. -/
theorem episode_undone_iff {es : List (Env × Call)} (h : Episode tasks p t s es) :
    (Machine.run (perform tasks) s es).limitAs t.signal = s.limitAs t.signal ↔
      s.limitAs t.signal = ⟨removedLimit, removedLimit⟩ := by
  rw [h.limitAs_run]
  exact eq_comm

/-- Limiting the process `7` and removing the limit again, with a failed update,
    a successful one, and a call for another process in between. -/
def shortRun : List (Env × Call) :=
  [(Env.quiet, .add 7 4096), (Env.quiet, .update 7 0), (Env.quiet, .update 7 8192),
    (Env.quiet, .remove 9), (Env.quiet, .remove 7)]

theorem episode_shortRun : Episode oneProcess 7 ⟨7, 1⟩ unlimited shortRun := by
  refine .mk [(Env.quiet, .update 7 0), (Env.quiet, .update 7 8192),
    (Env.quiet, .remove 9)] rfl rfl (by decide) (fun e he => ?_) (by decide)
  simp only [List.mem_cons, List.not_mem_nil, or_false] at he
  rcases he with rfl | rfl | rfl
  exacts [.inl ⟨0, rfl⟩, .inl ⟨8192, rfl⟩, .inr (by decide)]

/-- The condition decides this run. -/
theorem episode_undone_iff_shortRun :
    (Machine.run (perform oneProcess) unlimited shortRun).limitAs 1 = unlimited.limitAs 1 ↔
      unlimited.limitAs 1 = ⟨removedLimit, removedLimit⟩ :=
  episode_undone_iff episode_shortRun

/-- A process without a limit has one after the limit imposed on it is removed. -/
theorem episode_not_undone : Episode oneProcess 7 ⟨7, 1⟩ unlimited shortRun ∧
    (Machine.run (perform oneProcess) unlimited shortRun).limitAs 1 ≠ unlimited.limitAs 1 :=
  ⟨episode_shortRun, by decide⟩

end LuisKernel
