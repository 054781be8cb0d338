import Mathlib.Tactic.SplitIfs
import LuisKernel.Basic

/-!
# Resource limits

The system calls of `kernel/sys.c` that set resource limits, and `do_prlimit`,
which all of them, and the registry, go through.

`do_prlimit` refuses a soft limit above the hard one, and raising the hard limit
needs `CAP_SYS_RESOURCE`; then the security hook decides. A refused call changes
nothing. (The timer that `update_rlimit_cpu` arms is not part of the limits, and
is left out.)

* `doPrlimit_outcome`: what `do_prlimit` can do, from which the facts about the
  callers follow;
* `Adjusts`: what all these calls do to the limits on the address space: a limit
  that changes gets a soft part not above its hard part, and a hard part not
  above the old one unless the caller has `CAP_SYS_RESOURCE`.
-/

namespace LuisKernel

def RLIM_INFINITY : SizeT := 0xffffffffffffffff
def RLIM64_INFINITY : UInt64 := 0xffffffffffffffff
def COMPAT_RLIM_INFINITY : UInt32 := 0xffffffff

/-- The checks of `do_prlimit` under the lock of the group leader: raising the
    hard limit needs `CAP_SYS_RESOURCE`, then the security hook is asked. -/
def prlimitRetval (env : Env) (tsk : TaskStruct) (resource : Resource) (new : Rlimit)
    (s : State) : Int :=
  if new.rlimMax > (s.rlim tsk.signal resource).rlimMax ∧ env.capable .sysResource = false then
    -EPERM
  else env.securityTaskSetrlimit tsk resource new

/-- `do_prlimit`: the return value, what is stored through `old_rlim` (when the
    caller passes one), and the state. -/
def doPrlimit (env : Env) (tsk : TaskStruct) (resource : UInt32) (newRlim : Option Rlimit)
    (s : State) : Int × Option Rlimit × State :=
  if h : resource.toNat < RLIM_NLIMITS then
    let rlim := s.rlim tsk.signal ⟨resource.toNat, h⟩
    match newRlim with
    | none => (0, some rlim, s)
    | some new =>
      if new.rlimCur > new.rlimMax then (-EINVAL, none, s)
      else if resource = RLIMIT_NOFILE ∧ new.rlimMax > env.sysctlNrOpen then (-EPERM, none, s)
      else
        let retval := prlimitRetval env tsk ⟨resource.toNat, h⟩ new s
        if retval ≠ 0 then (retval, none, s)
        else (0, some rlim, s.setRlim tsk.signal ⟨resource.toNat, h⟩ new)
  else (-EINVAL, none, s)

/-- `setrlimit`. -/
def setrlimit (env : Env) (resource : UInt32) (newRlim : Rlimit) (s : State) : Int × State :=
  if env.copyFromUser = false then (-EFAULT, s)
  else
    match doPrlimit env env.current resource (some newRlim) s with
    | (ret, _, s') => (ret, s')

/-- `struct compat_rlimit`. -/
structure CompatRlimit where
  rlimCur : UInt32
  rlimMax : UInt32
  deriving DecidableEq, Repr

/-- The conversion in the compat `setrlimit`: its infinity becomes the native one. -/
def CompatRlimit.toRlimit (r32 : CompatRlimit) : Rlimit where
  rlimCur := if r32.rlimCur = COMPAT_RLIM_INFINITY then RLIM_INFINITY else r32.rlimCur.toUInt64
  rlimMax := if r32.rlimMax = COMPAT_RLIM_INFINITY then RLIM_INFINITY else r32.rlimMax.toUInt64

/-- The compat `setrlimit`. -/
def compatSetrlimit (env : Env) (resource : UInt32) (r32 : CompatRlimit) (s : State) :
    Int × State :=
  if env.copyFromUser = false then (-EFAULT, s)
  else
    match doPrlimit env env.current resource (some r32.toRlimit) s with
    | (ret, _, s') => (ret, s')

/-- `struct rlimit64`. -/
structure Rlimit64 where
  rlimCur : UInt64
  rlimMax : UInt64
  deriving DecidableEq, Repr

/-- `rlim64_to_rlim`, on a 64-bit kernel. -/
def rlim64ToRlim (rlim64 : Rlimit64) : Rlimit where
  rlimCur := if rlim64.rlimCur = RLIM64_INFINITY then RLIM_INFINITY else rlim64.rlimCur
  rlimMax := if rlim64.rlimMax = RLIM64_INFINITY then RLIM_INFINITY else rlim64.rlimMax

/-- `rlim_to_rlim64`. -/
def rlimToRlim64 (rlim : Rlimit) : Rlimit64 where
  rlimCur := if rlim.rlimCur = RLIM_INFINITY then RLIM64_INFINITY else rlim.rlimCur
  rlimMax := if rlim.rlimMax = RLIM_INFINITY then RLIM64_INFINITY else rlim.rlimMax

/-- `check_prlimit_permission`. -/
def checkPrlimitPermission (env : Env) (task : TaskStruct) : Int :=
  if env.current = task then 0
  else
    let cred := env.taskCred env.current
    let tcred := env.taskCred task
    let idMatch := cred.uid = tcred.euid ∧ cred.uid = tcred.suid ∧ cred.uid = tcred.uid ∧
      cred.gid = tcred.egid ∧ cred.gid = tcred.sgid ∧ cred.gid = tcred.gid
    if ¬idMatch ∧ env.nsCapable task = false then -EPERM else env.securityTaskPrlimit task

/-- `prlimit64`: the return value, what is copied out to `old_rlim` (when
    `wantOld`), and the state. -/
def prlimit64 (env : Env) (pid : PidT) (resource : UInt32) (newRlim : Option Rlimit64)
    (wantOld : Bool) (s : State) : Int × Option Rlimit64 × State :=
  if newRlim.isSome ∧ env.copyFromUser = false then (-EFAULT, none, s)
  else
    match if pid = 0 then some env.current else env.findTaskByVpid pid with
    | none => (-ESRCH, none, s)
    | some tsk =>
      if checkPrlimitPermission env tsk ≠ 0 then (checkPrlimitPermission env tsk, none, s)
      else
        match doPrlimit env tsk resource (newRlim.map rlim64ToRlim) s with
        | (ret, old, s') =>
          if ret = 0 ∧ wantOld then
            -- The new limit stays set if the old one cannot be copied out.
            if env.copyToUser then (0, old.map rlimToRlim64, s') else (-EFAULT, none, s')
          else (ret, none, s')

/-! ## What a call does to the limits -/

section

variable {env : Env} {tsk : TaskStruct} {resource : UInt32} {r : Resource} {new : Rlimit}
  {newRlim : Option Rlimit} {s : State}

/-- A hard limit is only raised with `CAP_SYS_RESOURCE`. -/
theorem le_or_capable_of_prlimitRetval (h : prlimitRetval env tsk r new s = 0) :
    new.rlimMax ≤ (s.rlim tsk.signal r).rlimMax ∨ env.capable .sysResource = true := by
  rw [prlimitRetval] at h
  split_ifs at h with hcap
  · exact absurd h (by decide)
  · rcases not_and_or.1 hcap with hmax | hres
    · exact .inl (UInt64.not_lt.1 hmax)
    · exact .inr (Bool.not_eq_false _ ▸ hres)

/-- `do_prlimit` changes nothing, or it stores a limit whose soft part is not
    above its hard part, and that passed the checks. -/
theorem doPrlimit_outcome (env : Env) (tsk : TaskStruct) (resource : UInt32)
    (newRlim : Option Rlimit) (s : State) : (doPrlimit env tsk resource newRlim s).2.2 = s ∨
    ∃ (h : resource.toNat < RLIM_NLIMITS) (new : Rlimit), new.rlimCur ≤ new.rlimMax ∧
      prlimitRetval env tsk ⟨resource.toNat, h⟩ new s = 0 ∧
      (doPrlimit env tsk resource newRlim s).2.2 =
        s.setRlim tsk.signal ⟨resource.toNat, h⟩ new := by
  rw [doPrlimit]
  split_ifs with h
  · cases newRlim with
    | none => exact .inl rfl
    | some new =>
      dsimp only
      split_ifs with hcur hfile hret
      · exact .inl rfl
      · exact .inl rfl
      · exact .inl rfl
      · exact .inr ⟨h, new, UInt64.not_lt.1 hcur, not_not.1 hret, rfl⟩
  · exact .inl rfl

/-- A call by a caller that has `CAP_SYS_RESOURCE`, or has not, that sets limits. -/
structure Adjusts (capable : Bool) (s s' : State) : Prop where
  head_eq : s'.head = s.head
  limitAs : ∀ signal, s'.limitAs signal = s.limitAs signal ∨
    ((s'.limitAs signal).rlimCur ≤ (s'.limitAs signal).rlimMax ∧
      ((s'.limitAs signal).rlimMax ≤ (s.limitAs signal).rlimMax ∨ capable = true))

theorem Adjusts.refl {capable : Bool} : Adjusts capable s s := ⟨rfl, fun _ => .inl rfl⟩

theorem adjusts_doPrlimit (env : Env) :
    Adjusts (env.capable .sysResource) s (doPrlimit env tsk resource newRlim s).2.2 := by
  rcases doPrlimit_outcome env tsk resource newRlim s with h | ⟨hbound, new, hcur, hret, h⟩
  · rw [h]
    exact .refl
  · rw [h]
    -- Only the limit of this resource, in this thread group, is another one.
    refine ⟨rfl, fun signal => ?_⟩
    by_cases hres : (⟨resource.toNat, hbound⟩ : Resource) = addressSpace
    · by_cases hsignal : signal = tsk.signal
      · have hle := le_or_capable_of_prlimitRetval hret
        rw [hres] at hle ⊢
        rw [hsignal, State.limitAs_setRlim_self]
        exact .inr ⟨hcur, hle⟩
      · exact .inl (State.limitAs_setRlim_of_ne hsignal)
    · exact .inl (State.limitAs_setRlim_of_resource_ne hres)

theorem adjusts_setrlimit (env : Env) :
    Adjusts (env.capable .sysResource) s (setrlimit env resource new s).2 := by
  rw [setrlimit]
  split_ifs with hcopy
  · exact .refl
  · exact adjusts_doPrlimit env

theorem adjusts_compatSetrlimit (env : Env) {r32 : CompatRlimit} :
    Adjusts (env.capable .sysResource) s (compatSetrlimit env resource r32 s).2 := by
  rw [compatSetrlimit]
  split_ifs with hcopy
  · exact .refl
  · exact adjusts_doPrlimit env

theorem adjusts_prlimit64 (env : Env) {pid : PidT} {new64 : Option Rlimit64} {wantOld : Bool} :
    Adjusts (env.capable .sysResource) s (prlimit64 env pid resource new64 wantOld s).2.2 := by
  rw [prlimit64]
  -- Before `do_prlimit` nothing is set; after it, nothing more.
  by_cases hcopy : new64.isSome ∧ env.copyFromUser = false
  · rw [if_pos hcopy]
    exact .refl
  · rw [if_neg hcopy]
    cases (if pid = 0 then some env.current else env.findTaskByVpid pid) with
    | none => exact .refl
    | some tsk =>
      dsimp only
      split_ifs with hperm hold hout
      · exact .refl
      · exact adjusts_doPrlimit env
      · exact adjusts_doPrlimit env
      · exact adjusts_doPrlimit env

end

end LuisKernel
