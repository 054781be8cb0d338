import LuisKernel.Registry.Enforce

/-!
# Calls for different processes

A call reads two things of the state: whether its process is listed, and the
limit of its thread group (`Agree`). It changes the node of its process and the
limit of its thread group only. So calls for different processes, of different
thread groups, do not see each other, and commute (`exec_comm`): in either order
they return the same, and leave the same limits and the same list, up to the
order of the nodes when both are adds that succeed.
-/

namespace LuisKernel

variable {env env₁ env₂ : Env} {c c₁ c₂ : Call} {s s' : State} {t : TaskStruct}
  {head : List MemoryLimitation} {signal signal' : Nat} {v v' : SizeT} {p : PidT}

namespace Call

/-! ## What a call reads -/

/-- The two states look the same to the call. -/
structure Agree (env : Env) (c : Call) (s s' : State) : Prop where
  listed : (findNodeByPid c.pid s'.head).isSome = (findNodeByPid c.pid s.head).isSome
  limitAs : ∀ t, env.findTaskByVpid c.pid = some t → s'.limitAs t.signal = s.limitAs t.signal

theorem Agree.checks (h : c.Agree env s s') : c.checks env s'.head = c.checks env s.head :=
  checks_congr h.listed

theorem Agree.admitted_iff (h : c.Agree env s s') :
    c.Admitted env s'.head t ↔ c.Admitted env s.head t := by
  rw [← checks_eq_ok_iff, ← checks_eq_ok_iff, h.checks]

theorem Agree.limitRetval (h : c.Agree env s s') (ht : c.Admitted env head t) :
    limitRetval env t c.limit s' = limitRetval env t c.limit s :=
  limitRetval_congr (h.limitAs t ht.found)

theorem Agree.accepted (h : c.Agree env s s') (hacc : c.Accepted env s t) :
    c.Accepted env s' t :=
  ⟨h.admitted_iff.2 hacc.toAdmitted, (h.limitRetval hacc.toAdmitted).trans hacc.retval⟩

/-- A call whose limit is not accepted changes nothing, and returns the same in
    the states that look the same to it. -/
theorem Agree.exec_of_not_accepted (h : c.Agree env s s') (hacc : ∀ t, ¬c.Accepted env s t) :
    c.exec env s' = ((c.exec env s).1, s') := by
  cases hadm : c.checks env s.head with
  | error e => rw [exec_of_error hadm, exec_of_error (h.checks.trans hadm)]
  | ok t =>
    have hadm' := checks_eq_ok_iff.1 hadm
    have hret : LuisKernel.limitRetval env t c.limit s ≠ 0 := fun hret => hacc t ⟨hadm', hret⟩
    rw [exec_of_refused hadm' hret, ← h.limitRetval hadm',
      exec_of_refused (h.admitted_iff.2 hadm') ((h.limitRetval hadm').trans_ne hret)]

/-- A call returns the same in the states that look the same to it. -/
theorem Agree.exec_fst (h : c.Agree env s s') : (c.exec env s').1 = (c.exec env s).1 := by
  by_cases hacc : ∃ t, c.Accepted env s t
  · obtain ⟨t, hacc⟩ := hacc
    rw [exec_of_accepted hacc, exec_of_accepted (h.accepted hacc)]
    split_ifs <;> rfl
  · rw [h.exec_of_not_accepted (not_exists.1 hacc)]

/-! ## What a call changes -/

/-- A call does not list or unlist another process. -/
theorem find_apply_of_ne (h : p ≠ c.pid) :
    findNodeByPid p (c.apply head) = findNodeByPid p head := by
  cases c with
  | add q v => exact Keyed.find_cons_of_ne h.symm
  | update q v => exact Keyed.find_write_of_ne (pid_setLimit v) h
  | remove q => exact Keyed.find_erase_of_ne h

/-- A call leaves the nodes of the other processes. -/
theorem find_exec_of_ne (h : p ≠ c.pid) :
    findNodeByPid p (c.exec env s).2.head = findNodeByPid p s.head := by
  rcases hexec : c.exec env s with ⟨ret, s'⟩
  cases exec_outcome hexec with
  | rejected _ => rfl
  | refused _ _ => rfl
  | starved _ _ _ => rfl
  | done _ => exact find_apply_of_ne h

/-- A call leaves the limits of the other thread groups. -/
theorem limitAs_exec_of_ne
    (h : ∀ t, env.findTaskByVpid c.pid = some t → signal ≠ t.signal) :
    (c.exec env s).2.limitAs signal = s.limitAs signal := by
  rcases hexec : c.exec env s with ⟨ret, s'⟩
  cases exec_outcome hexec with
  | rejected _ => rfl
  | refused _ _ => rfl
  | starved hacc _ _ => exact limitAs_setLimitAs_of_ne (h _ hacc.found)
  | done hsucc => exact limitAs_setLimitAs_of_ne (h _ hsucc.found)

/-- The calls are for different processes, of different thread groups. -/
structure Independent (env₁ : Env) (c₁ : Call) (env₂ : Env) (c₂ : Call) : Prop where
  pid_ne : c₁.pid ≠ c₂.pid
  signal_ne : ∀ t₁ t₂, env₁.findTaskByVpid c₁.pid = some t₁ →
    env₂.findTaskByVpid c₂.pid = some t₂ → t₁.signal ≠ t₂.signal

theorem Independent.symm (h : Independent env₁ c₁ env₂ c₂) : Independent env₂ c₂ env₁ c₁ :=
  ⟨h.pid_ne.symm, fun t₂ t₁ h₂ h₁ => (h.signal_ne t₁ t₂ h₁ h₂).symm⟩

/-- A call does not see an independent one. -/
theorem Independent.agree (h : Independent env₁ c₁ env₂ c₂) (s : State) :
    c₁.Agree env₁ s (c₂.exec env₂ s).2 where
  listed := by rw [find_exec_of_ne h.pid_ne]
  limitAs t₁ h₁ := limitAs_exec_of_ne fun t₂ h₂ => h.signal_ne t₁ t₂ h₁ h₂

/-! ## Commuting -/

/-- On different processes the changes of the list commute, except that the
    later of two new nodes comes first. -/
theorem apply_comm (h : c₁.pid ≠ c₂.pid) :
    c₂.apply (c₁.apply head) = c₁.apply (c₂.apply head) ∨
      (c₁.isAdd = true ∧ c₂.isAdd = true ∧
        (c₂.apply (c₁.apply head)).Perm (c₁.apply (c₂.apply head))) := by
  cases c₁ with
  | add p v =>
    cases c₂ with
    | add q w => exact .inr ⟨rfl, rfl, List.Perm.swap _ _ _⟩
    | update q w => exact .inl (Keyed.write_cons_of_ne h)
    | remove q => exact .inl (Keyed.erase_cons_of_ne h)
  | update p v =>
    cases c₂ with
    | add q w =>
      have hne : (⟨q, w⟩ : MemoryLimitation).pid ≠ p := h.symm
      exact .inl (Keyed.write_cons_of_ne hne).symm
    | update q w => exact .inl (Keyed.write_comm (pid_setLimit w) (pid_setLimit v) h.symm)
    | remove q => exact .inl (Keyed.write_erase_comm (pid_setLimit v) h).symm
  | remove p =>
    cases c₂ with
    | add q w =>
      have hne : (⟨q, w⟩ : MemoryLimitation).pid ≠ p := h.symm
      exact .inl (Keyed.erase_cons_of_ne hne).symm
    | update q w => exact .inl (Keyed.write_erase_comm (pid_setLimit w) h.symm)
    | remove q => exact .inl (Keyed.erase_comm h.symm)

/-- The limits after a call whose limit is accepted. -/
theorem Accepted.rlim_exec (h : c.Accepted env s t) :
    (c.exec env s).2.rlim = (s.setLimitAs t.signal c.limit).rlim := by
  rw [exec_of_accepted h]
  split_ifs <;> rfl

/-- The list after a call whose limit is accepted: a starved add leaves it. -/
theorem Accepted.head_exec (h : c.Accepted env s t) :
    (c.exec env s).2.head = if c.isAdd = true ∧ env.kmalloc = false then s.head
      else c.apply s.head := by
  rw [exec_of_accepted h]
  split_ifs <;> rfl

/-- Setting the limits of two thread groups commutes. -/
theorem rlim_setLimitAs_comm {s₁ s₂ : State} (h : signal ≠ signal')
    (h₁ : s₁.rlim = (s.setLimitAs signal v).rlim) (h₂ : s₂.rlim = (s.setLimitAs signal' v').rlim) :
    (s₁.setLimitAs signal' v').rlim = (s₂.setLimitAs signal v).rlim := by
  simp only [State.setLimitAs, State.rlim_setRlim] at h₁ h₂ ⊢
  rw [h₁, h₂, Function.update_of_ne h.symm, Function.update_of_ne h, Function.update_comm h]

/-- The lists after two independent calls, when both limits are accepted. -/
theorem Independent.head_exec {t₁ t₂ : TaskStruct} (h : Independent env₁ c₁ env₂ c₂)
    (h₁ : c₁.Accepted env₁ s t₁) (h₂ : c₂.Accepted env₂ s t₂) :
    (c₂.exec env₂ (c₁.exec env₁ s).2).2.head = (c₁.exec env₁ (c₂.exec env₂ s).2).2.head ∨
      ((c₁.isAdd = true ∧ (c₁.exec env₁ s).1 = 0) ∧ (c₂.isAdd = true ∧ (c₂.exec env₂ s).1 = 0) ∧
        (c₂.exec env₂ (c₁.exec env₁ s).2).2.head.Perm
          (c₁.exec env₁ (c₂.exec env₂ s).2).2.head) := by
  have h₁' := (h.agree s).accepted h₁
  have h₂' := (h.symm.agree s).accepted h₂
  rw [h₂'.head_exec, h₁'.head_exec, h₁.head_exec, h₂.head_exec, exec_of_accepted h₁,
    exec_of_accepted h₂]
  by_cases hmem₁ : c₁.isAdd = true ∧ env₁.kmalloc = false
  · -- A starved add leaves the list as it is.
    simp only [if_pos hmem₁, true_or]
  · by_cases hmem₂ : c₂.isAdd = true ∧ env₂.kmalloc = false
    · simp only [if_pos hmem₂, true_or]
    · simp only [if_neg hmem₁, if_neg hmem₂, and_true]
      exact apply_comm h.pid_ne

/-- Two calls for different processes, of different thread groups, commute: in
    either order each returns the same, the limits end up the same, and so does
    the list, up to the order of its nodes if both calls are successful adds. -/
theorem exec_comm (h : Independent env₁ c₁ env₂ c₂) (s : State) :
    (c₁.exec env₁ (c₂.exec env₂ s).2).1 = (c₁.exec env₁ s).1 ∧
      (c₂.exec env₂ (c₁.exec env₁ s).2).1 = (c₂.exec env₂ s).1 ∧
      (c₂.exec env₂ (c₁.exec env₁ s).2).2.rlim = (c₁.exec env₁ (c₂.exec env₂ s).2).2.rlim ∧
      (c₂.exec env₂ (c₁.exec env₁ s).2).2.head.Perm (c₁.exec env₁ (c₂.exec env₂ s).2).2.head ∧
      ((c₂.exec env₂ (c₁.exec env₁ s).2).2.head = (c₁.exec env₁ (c₂.exec env₂ s).2).2.head ∨
        ((c₁.isAdd = true ∧ (c₁.exec env₁ s).1 = 0) ∧
          (c₂.isAdd = true ∧ (c₂.exec env₂ s).1 = 0))) := by
  have hag₁ := h.agree s
  have hag₂ := h.symm.agree s
  refine ⟨hag₁.exec_fst, hag₂.exec_fst, ?_⟩
  by_cases h₁ : ∃ t, c₁.Accepted env₁ s t
  · by_cases h₂ : ∃ t, c₂.Accepted env₂ s t
    · -- Both limits are accepted, in either order.
      obtain ⟨t₁, h₁⟩ := h₁
      obtain ⟨t₂, h₂⟩ := h₂
      constructor
      · rw [(hag₂.accepted h₂).rlim_exec, (hag₁.accepted h₁).rlim_exec]
        exact rlim_setLimitAs_comm (h.signal_ne t₁ t₂ h₁.found h₂.found) h₁.rlim_exec h₂.rlim_exec
      · rcases h.head_exec h₁ h₂ with heq | ⟨hadd₁, hadd₂, hperm⟩
        · exact ⟨heq ▸ List.Perm.refl _, .inl heq⟩
        · exact ⟨hperm, .inr ⟨hadd₁, hadd₂⟩⟩
    · -- The second call changes nothing, before or after the first.
      have hs : c₂.Agree env₂ s s := ⟨rfl, fun _ _ => rfl⟩
      rw [hag₂.exec_of_not_accepted (not_exists.1 h₂), hs.exec_of_not_accepted (not_exists.1 h₂)]
      exact ⟨rfl, List.Perm.refl _, .inl rfl⟩
  · have hs : c₁.Agree env₁ s s := ⟨rfl, fun _ _ => rfl⟩
    rw [hag₁.exec_of_not_accepted (not_exists.1 h₁), hs.exec_of_not_accepted (not_exists.1 h₁)]
    exact ⟨rfl, List.Perm.refl _, .inl rfl⟩

/-- Two processes. -/
def twoProcesses (p : PidT) : Option TaskStruct :=
  if p = 7 then some ⟨7, 1⟩ else if p = 8 then some ⟨8, 2⟩ else none

/-- Limiting the one and unlisting the other commute. -/
theorem exec_comm_twoProcesses :
    (Call.update 7 4096).pid ≠ (Call.remove 8).pid ∧
      ((Call.remove 8).exec (Env.quiet.withTasks twoProcesses)
        ((Call.update 7 4096).exec (Env.quiet.withTasks twoProcesses)
          { unlimited with head := [⟨8, 4096⟩, ⟨7, 8192⟩] }).2).2.rlim =
      ((Call.update 7 4096).exec (Env.quiet.withTasks twoProcesses)
        ((Call.remove 8).exec (Env.quiet.withTasks twoProcesses)
          { unlimited with head := [⟨8, 4096⟩, ⟨7, 8192⟩] }).2).2.rlim := by
  have h : Independent (Env.quiet.withTasks twoProcesses) (.update 7 4096)
      (Env.quiet.withTasks twoProcesses) (.remove 8) := by
    refine ⟨by decide, fun t₁ t₂ h₁ h₂ => ?_⟩
    cases h₁
    cases h₂
    decide
  exact ⟨h.pid_ne, (exec_comm h _).2.2.1⟩

end Call

end LuisKernel
