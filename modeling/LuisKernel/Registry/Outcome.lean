import LuisKernel.Registry

/-!
# What a registry call can do

The three calls have the same shape: they check, set the limit through
`do_prlimit`, and change the list. A call ends in one of four ways (`Outcome`):

* it is *rejected* by one of its checks, or *refused* by `do_prlimit`, and
  nothing changes;
* an add is *starved*: no memory is left for its node, when the limit of the
  process has already been set;
* it is *done*: the limit is set and the list is changed.

Everything about the calls is derived from this (`exec_outcome`).
-/

namespace LuisKernel

/-! ## Setting the limit -/

/-- Setting both parts of the limit on the address space of a thread group. -/
def State.setLimitAs (s : State) (signal : Nat) (v : SizeT) : State :=
  s.setRlim signal addressSpace ⟨v, v⟩

/-- The verdict of `do_prlimit` on the limit `v` for the address space of `task`. -/
def limitRetval (env : Env) (task : TaskStruct) (v : SizeT) (s : State) : Int :=
  prlimitRetval env task addressSpace ⟨v, v⟩ s

section

variable {env : Env} {task : TaskStruct} {v : SizeT} {s s' : State} {signal signal' : Nat}

theorem limitAs_setLimitAs_self : (s.setLimitAs signal v).limitAs signal = ⟨v, v⟩ :=
  State.limitAs_setRlim_self

theorem limitAs_setLimitAs_of_ne (h : signal' ≠ signal) :
    (s.setLimitAs signal v).limitAs signal' = s.limitAs signal' :=
  State.limitAs_setRlim_of_ne h

/-- The verdict depends on the old hard limit of the thread group only. -/
theorem limitRetval_congr (h : s'.limitAs task.signal = s.limitAs task.signal) :
    limitRetval env task v s' = limitRetval env task v s := by
  rw [limitRetval, limitRetval, prlimitRetval, prlimitRetval]
  change s'.rlim task.signal addressSpace = s.rlim task.signal addressSpace at h
  rw [h]

theorem setProcessMemoryLimit_eq : setProcessMemoryLimit env task v s =
    if limitRetval env task v s ≠ 0 then (limitRetval env task v s, s)
    else (0, s.setLimitAs task.signal v) := by
  have hbound : RLIMIT_AS.toNat < RLIM_NLIMITS := by decide
  have hcur : ¬v > v := UInt64.lt_irrefl v
  have hfile : ¬(RLIMIT_AS = RLIMIT_NOFILE ∧ v > env.sysctlNrOpen) :=
    fun h => absurd h.1 (by decide)
  have hret : prlimitRetval env task ⟨RLIMIT_AS.toNat, hbound⟩ ⟨v, v⟩ s =
    limitRetval env task v s := rfl
  rw [setProcessMemoryLimit, doPrlimit, dif_pos hbound]
  dsimp only
  rw [if_neg hcur, if_neg hfile, hret]
  split_ifs with h
  · rfl
  · rfl

end

namespace Call

variable {env : Env} {c : Call} {s s' : State} {head head' : List MemoryLimitation} {t : TaskStruct}
  {ret : Int}

/-! ## The checks -/

/-- A call that passed its checks. -/
structure Admitted (env : Env) (c : Call) (head : List MemoryLimitation) (t : TaskStruct) :
    Prop where
  capable : env.capable .sysAdmin = true
  pid_pos : 0 < c.pid
  limit_pos : 0 < c.limit
  found : env.findTaskByVpid c.pid = some t
  listed : (findNodeByPid c.pid head).isSome = !c.isAdd
  usage : c.isRemove = false → getProcessMemoryUsage env t ≤ c.limit

theorem checks_eq_ok_iff : c.checks env head = .ok t ↔ c.Admitted env head t := by
  constructor
  · intro h
    rw [checks] at h
    cases hfound : env.findTaskByVpid c.pid with
    | none =>
      rw [hfound] at h
      split_ifs at h
    | some task =>
      rw [hfound] at h
      dsimp only at h
      split_ifs at h with hcap harg hlist husage
      cases h
      obtain ⟨hpid, hlimit⟩ := not_or.1 harg
      refine ⟨by simpa using hcap, Int32.not_le.1 hpid, UInt64.not_le.1 hlimit, hfound,
        Bool.eq_not_of_ne hlist, fun hr => ?_⟩
      exact UInt64.not_lt.1 fun hgt => husage ⟨hr, hgt⟩
  · rintro ⟨hcap, hpid, hlimit, hfound, hlist, husage⟩
    have harg : ¬(c.pid ≤ 0 ∨ c.limit ≤ 0) :=
      not_or.2 ⟨Int32.not_le.2 hpid, UInt64.not_le.2 hlimit⟩
    have hgt : ¬(c.isRemove = false ∧ getProcessMemoryUsage env t > c.limit) :=
      fun h => UInt64.not_lt.2 (husage h.1) h.2
    rw [checks, if_neg (by simp [hcap]), if_neg harg, hfound]
    dsimp only
    rw [if_neg (by simp [hlist]), if_neg hgt]

/-- The errors of the checks are not `0`. -/
theorem ne_zero_of_checks {e : Int} (h : c.checks env head = .error e) : e ≠ 0 := by
  have hmismatch : c.mismatch ≠ 0 := by
    rw [mismatch]
    split_ifs <;> decide
  rw [checks] at h
  cases hfound : env.findTaskByVpid c.pid with
  | none =>
    rw [hfound] at h
    split_ifs at h <;> cases h <;> decide
  | some task =>
    rw [hfound] at h
    dsimp only at h
    split_ifs at h <;> cases h
    exacts [by decide, by decide, hmismatch, by decide]

/-- The checks only ask the list whether the process is in it. -/
theorem checks_congr (h : (findNodeByPid c.pid head').isSome = (findNodeByPid c.pid head).isSome) :
    c.checks env head' = c.checks env head := by
  rw [checks, checks, h]

/-! ## The outcomes -/

/-- A call that passed its checks and got its limit accepted by `do_prlimit`. -/
structure Accepted (env : Env) (c : Call) (s : State) (t : TaskStruct) : Prop
    extends c.Admitted env s.head t where
  retval : limitRetval env t c.limit s = 0

/-- A call that succeeds: memory for a new node is found as well. -/
structure Succeeds (env : Env) (c : Call) (s : State) (t : TaskStruct) : Prop
    extends c.Accepted env s t where
  allocated : c.isAdd = true → env.kmalloc = true

/-- The ways a call can end, with what it returns and the state it leaves. -/
inductive Outcome (env : Env) (c : Call) (s : State) : Int → State → Prop
  | rejected {e : Int} : c.checks env s.head = .error e → Outcome env c s e s
  | refused {t : TaskStruct} : c.Admitted env s.head t → limitRetval env t c.limit s ≠ 0 →
      Outcome env c s (limitRetval env t c.limit s) s
  | starved {t : TaskStruct} : c.Accepted env s t → c.isAdd = true → env.kmalloc = false →
      Outcome env c s (-ENOMEM) (s.setLimitAs t.signal c.limit)
  | done {t : TaskStruct} : c.Succeeds env s t →
      Outcome env c s 0 { s.setLimitAs t.signal c.limit with head := c.apply s.head }

/-- The limit of a call that is rejected or refused is not accepted. -/
theorem not_accepted_of_error {e : Int} (h : c.checks env s.head = .error e) :
    ¬c.Accepted env s t := by
  intro hacc
  cases (checks_eq_ok_iff.2 hacc.toAdmitted).symm.trans h

theorem not_accepted_of_refused {t' : TaskStruct} (h : c.Admitted env s.head t)
    (hret : limitRetval env t c.limit s ≠ 0) : ¬c.Accepted env s t' := by
  intro hacc
  cases h.found.symm.trans hacc.found
  exact hret hacc.retval

/-- What a call does to the list once the limit is set. -/
def finish (env : Env) : Call → State → Int × State
  | add p v, s => addMemoryLimitationNode env p v s
  | c, s => (0, { s with head := c.apply s.head })

/-- A call that fails one of its checks returns the error of this check. -/
theorem exec_of_error {e : Int} (h : c.checks env s.head = .error e) : c.exec env s = (e, s) := by
  cases c with
  | add p v =>
    simp only [checks, pid, limit, isAdd, isRemove, mismatch, true_and, if_true] at h
    simp only [exec, luisAddMemoryLimit]
    cases hfound : env.findTaskByVpid p with
    | none =>
      rw [hfound] at h
      split_ifs at h ⊢ <;> cases h <;> rfl
    | some task =>
      rw [hfound] at h
      dsimp only at h ⊢
      split_ifs at h ⊢ <;> cases h <;> rfl
  | update p v =>
    simp only [checks, pid, limit, isAdd, isRemove, mismatch, true_and, Bool.false_eq_true,
      if_false, Option.isSome_eq_false_iff] at h
    simp only [exec, luisUpdateMemoryLimit]
    cases hfound : env.findTaskByVpid p with
    | none =>
      rw [hfound] at h
      split_ifs at h ⊢ <;> cases h <;> rfl
    | some task =>
      rw [hfound] at h
      dsimp only at h ⊢
      split_ifs at h ⊢ <;> cases h <;> rfl
  | remove p =>
    -- A remove has no limit to check: that of 110 MiB passes.
    have harg : (p ≤ 0 ∨ removedLimit ≤ 0) ↔ p ≤ 0 := or_iff_left (by decide)
    simp only [checks, pid, limit, isAdd, isRemove, mismatch, harg, Bool.true_eq_false,
      Bool.false_eq_true, false_and, if_false, Option.isSome_eq_false_iff] at h
    simp only [exec, luisRemoveMemoryLimit]
    cases hfound : env.findTaskByVpid p with
    | none =>
      rw [hfound] at h
      split_ifs at h ⊢ <;> cases h <;> rfl
    | some task =>
      rw [hfound] at h
      dsimp only at h ⊢
      split_ifs at h ⊢ <;> cases h <;> rfl

/-- A call that passes its checks sets the limit, then changes the list. -/
theorem exec_of_admitted (h : c.Admitted env s.head t) : c.exec env s =
    match setProcessMemoryLimit env t c.limit s with
    | (ret, s') => if ret ≠ 0 then (ret, s') else c.finish env s' := by
  obtain ⟨hcap, hpid, hlimit, hfound, hlist, husage⟩ := h
  have hcap' : ¬env.capable .sysAdmin = false := by simp [hcap]
  have hpid' : ¬c.pid ≤ 0 := Int32.not_le.2 hpid
  have harg : ¬(c.pid ≤ 0 ∨ c.limit ≤ 0) := not_or.2 ⟨hpid', UInt64.not_le.2 hlimit⟩
  have husage' : c.isRemove = false → ¬getProcessMemoryUsage env t > c.limit :=
    fun hr => UInt64.not_lt.2 (husage hr)
  cases c with
  | add p v =>
    simp only [pid, limit, isAdd, isRemove, Bool.not_true, forall_const] at *
    simp only [exec, luisAddMemoryLimit, finish, if_neg hcap', if_neg harg, hfound, hlist,
      if_neg husage', Bool.false_eq_true, if_false]
    rfl
  | update p v =>
    simp only [pid, limit, isAdd, isRemove, Bool.not_false, forall_const] at *
    simp only [exec, luisUpdateMemoryLimit, finish, if_neg hcap', if_neg harg, hfound,
      ← Option.not_isSome, hlist, if_neg husage', Bool.not_true, Bool.false_eq_true, if_false]
    rfl
  | remove p =>
    simp only [pid, limit, isAdd, Bool.not_false] at *
    simp only [exec, luisRemoveMemoryLimit, finish, if_neg hcap', if_neg hpid', hfound,
      ← Option.not_isSome, hlist, Bool.not_true, Bool.false_eq_true, if_false]
    rfl

/-- What is left of a call once its limit is set: only an add can still fail. -/
theorem finish_eq (hlist : (findNodeByPid c.pid s.head).isSome = !c.isAdd) : c.finish env s =
    if c.isAdd ∧ env.kmalloc = false then (-ENOMEM, s)
    else (0, { s with head := c.apply s.head }) := by
  cases c with
  | add p v =>
    -- The second search finds what the first one found: nothing.
    simp only [pid, isAdd, Bool.not_true] at hlist
    simp only [finish, addMemoryLimitationNode, apply, isAdd, hlist, Bool.false_eq_true, if_false,
      true_and]
  | update p v => rfl
  | remove p => rfl

theorem exec_of_refused (h : c.Admitted env s.head t) (hret : limitRetval env t c.limit s ≠ 0) :
    c.exec env s = (limitRetval env t c.limit s, s) := by
  rw [exec_of_admitted h, setProcessMemoryLimit_eq, if_pos hret]
  exact if_pos hret

theorem exec_of_accepted (h : c.Accepted env s t) : c.exec env s =
    if c.isAdd ∧ env.kmalloc = false then (-ENOMEM, s.setLimitAs t.signal c.limit)
    else (0, { s.setLimitAs t.signal c.limit with head := c.apply s.head }) := by
  rw [exec_of_admitted h.toAdmitted, setProcessMemoryLimit_eq, if_neg (not_not.2 h.retval)]
  exact finish_eq (s := s.setLimitAs t.signal c.limit) h.listed

theorem exec_of_starved (h : c.Accepted env s t) (hadd : c.isAdd = true)
    (hmem : env.kmalloc = false) :
    c.exec env s = (-ENOMEM, s.setLimitAs t.signal c.limit) := by
  rw [exec_of_accepted h, if_pos ⟨hadd, hmem⟩]

theorem exec_of_succeeds (h : c.Succeeds env s t) : c.exec env s =
    (0, { s.setLimitAs t.signal c.limit with head := c.apply s.head }) := by
  rw [exec_of_accepted h.toAccepted, if_neg]
  rintro ⟨hadd, hmem⟩
  rw [h.allocated hadd] at hmem
  cases hmem

/-- Every call ends in one of the four ways. -/
theorem exec_outcome (hexec : c.exec env s = (ret, s')) : Outcome env c s ret s' := by
  cases h : c.checks env s.head with
  | error e =>
    cases (exec_of_error h).symm.trans hexec
    exact .rejected h
  | ok t =>
    have hadm := checks_eq_ok_iff.1 h
    by_cases hret : limitRetval env t c.limit s = 0
    · have hacc : c.Accepted env s t := ⟨hadm, hret⟩
      rw [exec_of_accepted hacc] at hexec
      split_ifs at hexec with hmem
      · cases hexec
        exact .starved hacc hmem.1 hmem.2
      · cases hexec
        exact .done ⟨hacc, fun hadd => by simpa [hadd] using hmem⟩
    · cases (exec_of_refused hadm hret).symm.trans hexec
      exact .refused hadm hret

/-- The task of a call is the one its process id names. -/
theorem Admitted.unique {t' : TaskStruct} (h : c.Admitted env head t)
    (h' : c.Admitted env head' t') : t = t' :=
  Option.some.inj (h.found.symm.trans h'.found)

/-- An add is made for a process that is not listed, … -/
theorem Admitted.find_eq_none (h : c.Admitted env head t) (hadd : c.isAdd = true) :
    findNodeByPid c.pid head = none := by
  rw [← Option.isSome_eq_false_iff.trans Option.isNone_iff_eq_none, h.listed, hadd]
  rfl

/-- … the other calls for one that is. -/
theorem Admitted.find_ne_none (h : c.Admitted env head t) (hadd : c.isAdd = false) :
    findNodeByPid c.pid head ≠ none := by
  rw [Option.ne_none_iff_isSome, h.listed, hadd]
  rfl

/-- The return value is `0` exactly for the calls that succeed. -/
theorem exec_eq_zero_iff : (c.exec env s).1 = 0 ↔ ∃ t, c.Succeeds env s t := by
  constructor
  · intro hzero
    rcases hexec : c.exec env s with ⟨ret, s'⟩
    rw [hexec] at hzero
    change ret = 0 at hzero
    cases exec_outcome hexec with
    | rejected h => exact absurd hzero (ne_zero_of_checks h)
    | refused _ hret => exact absurd hzero hret
    | starved _ _ _ => exact absurd hzero (by decide)
    | done h => exact ⟨_, h⟩
  · rintro ⟨t, h⟩
    rw [exec_of_succeeds h]

end Call

end LuisKernel
