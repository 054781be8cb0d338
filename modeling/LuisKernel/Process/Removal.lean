import LuisKernel.Process
import LuisKernel.Registry.Enforce

/-!
# Taking entries off

`luis_remove_memory_limit` asks for `CAP_SYS_ADMIN` only, but this does not make
every entry removable. It looks up the task of the entry, which may have exited,
and it sets the limit of 110 MiB through `do_prlimit`, which lets only a caller
with `CAP_SYS_RESOURCE` raise a hard limit. So an administrator takes an entry
off exactly if its process is there and has a hard limit of 110 MiB at least, or
the administrator may raise it (`Removable`); otherwise the call fails and
nothing changes.

Removing one entry does not make another one removable, or the contrary, so a
*sweep*, a remove for every listed process, leaves the entries that were not
removable in the first place. These are the contents of `takenOff_iff`.
-/

namespace LuisKernel

/-- A caller with `CAP_SYS_ADMIN`, whom the security hook lets set limits. -/
structure Env.Administrator (env : Env) : Prop where
  capable : env.capable .sysAdmin = true
  hook : ∀ t r l, env.securityTaskSetrlimit t r l = 0

/-- The process of id `p` is there, and the caller may set its hard limit to
    110 MiB. -/
def Removable (env : Env) (s : State) (p : PidT) : Prop :=
  ∃ t, env.findTaskByVpid p = some t ∧
    (removedLimit ≤ (s.limitAs t.signal).rlimMax ∨ env.capable .sysResource = true)

/-- A remove succeeds, and deletes the node `n` and no other. -/
structure TakenOff (env : Env) (s : State) (n : MemoryLimitation) : Prop where
  ret : ((Call.remove n.pid).exec env s).1 = 0
  head : ((Call.remove n.pid).exec env s).2.head = s.head.erase n

/-- A remove for every listed process. -/
def sweep (tasks : PidT → Option TaskStruct) (env : Env) (s : State) : State :=
  Machine.run (perform tasks) s (s.head.map fun n => (env, .remove n.pid))

variable {env : Env} {s : State} {n : MemoryLimitation} {t : TaskStruct} {p q : PidT} {v : SizeT}
  {tasks : PidT → Option TaskStruct}

/-! ## One entry -/

theorem removedLimit_pos : 0 < removedLimit := by decide

theorem Env.Administrator.withTasks (h : env.Administrator) : (env.withTasks tasks).Administrator :=
  ⟨h.capable, h.hook⟩

/-- What `do_prlimit` answers to an administrator. -/
theorem Env.Administrator.limitRetval_eq (h : env.Administrator) : limitRetval env t v s =
    if v > (s.limitAs t.signal).rlimMax ∧ env.capable .sysResource = false then -EPERM else 0 := by
  rw [limitRetval, prlimitRetval, h.hook]
  rfl

/-- The limit is accepted exactly if it raises nothing, or the caller may raise it. -/
theorem Env.Administrator.limitRetval_eq_zero_iff (h : env.Administrator) :
    limitRetval env t v s = 0 ↔
      v ≤ (s.limitAs t.signal).rlimMax ∨ env.capable .sysResource = true := by
  rw [h.limitRetval_eq]
  split_ifs with hlt
  · refine iff_of_false (by decide) ?_
    rintro (hle | hcap)
    · exact UInt64.not_le.2 hlt.1 hle
    · cases hcap.symm.trans hlt.2
  · refine iff_of_true rfl ?_
    by_cases hcap : env.capable .sysResource = true
    · exact .inr hcap
    · exact .inl (UInt64.not_lt.1 fun h => hlt ⟨h, eq_false_of_ne_true hcap⟩)

theorem Removable.of_succeeds (hadmin : env.Administrator)
    (h : (Call.remove p).Succeeds env s t) : Removable env s p :=
  ⟨t, h.found, hadmin.limitRetval_eq_zero_iff.1 h.retval⟩

/-- A listed process passes all the checks of a remove, if it is there. -/
theorem admitted_remove (hwf : WellFormed s.head) (hadmin : env.Administrator) (hn : n ∈ s.head)
    (ht : env.findTaskByVpid n.pid = some t) : (Call.remove n.pid).Admitted env s.head t where
  capable := hadmin.capable
  pid_pos := hwf.pid_pos n hn
  limit_pos := removedLimit_pos
  found := ht
  listed := Keyed.isSome_find_iff.2 ⟨n, hn, rfl⟩
  usage h := by cases h

theorem Removable.succeeds (hwf : WellFormed s.head) (hadmin : env.Administrator) (hn : n ∈ s.head)
    (h : Removable env s n.pid) : ∃ t, (Call.remove n.pid).Succeeds env s t := by
  obtain ⟨t, ht, hlimit⟩ := h
  exact ⟨t, ⟨admitted_remove hwf hadmin hn ht, hadmin.limitRetval_eq_zero_iff.2 hlimit⟩,
    fun hadd => by cases hadd⟩

/-- An entry is taken off exactly if it is removable. -/
theorem takenOff_iff_removable (hwf : WellFormed s.head) (hadmin : env.Administrator)
    (hn : n ∈ s.head) : TakenOff env s n ↔ Removable env s n.pid := by
  constructor
  · intro h
    obtain ⟨t, hsucc⟩ := Call.exec_eq_zero_iff.1 h.ret
    exact .of_succeeds hadmin hsucc
  · intro h
    obtain ⟨t, hsucc⟩ := h.succeeds hwf hadmin hn
    have hexec := Call.exec_of_succeeds hsucc
    refine ⟨congrArg Prod.fst hexec, ?_⟩
    rw [hexec]
    exact hwf.distinct.erase_key hn

/-- Removing an entry that is not removable fails, and changes nothing. -/
theorem exec_of_not_removable (hwf : WellFormed s.head) (hadmin : env.Administrator)
    (hn : n ∈ s.head) (h : ¬Removable env s n.pid) : (Call.remove n.pid).exec env s =
      (if env.findTaskByVpid n.pid = none then -ESRCH else -EPERM, s) := by
  cases hfound : env.findTaskByVpid n.pid with
  | none =>
    refine (Call.exec_of_error ?_).trans (by rw [if_pos rfl])
    have harg : ¬((Call.remove n.pid).pid ≤ 0 ∨ (Call.remove n.pid).limit ≤ 0) :=
      not_or.2 ⟨Int32.not_le.2 (hwf.pid_pos n hn), UInt64.not_le.2 removedLimit_pos⟩
    have hfound' : env.findTaskByVpid (Call.remove n.pid).pid = none := hfound
    rw [Call.checks, if_neg (by simp [hadmin.capable]), if_neg harg, hfound']
  | some t =>
    have hret : ¬limitRetval env t (Call.remove n.pid).limit s = 0 :=
      fun hret => h ⟨t, hfound, hadmin.limitRetval_eq_zero_iff.1 hret⟩
    have hperm : limitRetval env t (Call.remove n.pid).limit s = -EPERM := by
      rw [hadmin.limitRetval_eq] at hret ⊢
      split_ifs at hret ⊢
      · rfl
      · exact absurd rfl hret
    rw [Call.exec_of_refused (admitted_remove hwf hadmin hn hfound) hret, hperm, if_neg (by simp)]

/-! ## All entries -/

/-- A remove that does not succeed changes nothing. -/
theorem exec_remove_of_not_succeeds (h : ¬∃ t, (Call.remove p).Succeeds env s t) :
    ((Call.remove p).exec env s).2 = s := by
  rcases hexec : (Call.remove p).exec env s with ⟨ret, s'⟩
  cases Call.exec_outcome hexec with
  | rejected _ => rfl
  | refused _ _ => rfl
  | starved _ hadd _ => cases hadd
  | done hsucc => exact absurd ⟨_, hsucc⟩ h

/-- A remove leaves every process as removable as it was. -/
theorem removable_exec_iff (hadmin : env.Administrator) :
    Removable env ((Call.remove p).exec env s).2 q ↔ Removable env s q := by
  by_cases hsucc : ∃ t, (Call.remove p).Succeeds env s t
  · obtain ⟨t, hsucc⟩ := hsucc
    rw [Call.exec_of_succeeds hsucc]
    refine exists_congr fun t' => and_congr_right fun _ => ?_
    by_cases hsignal : t'.signal = t.signal
    · -- The group had 110 MiB at least, or the caller may raise its limit;
      -- it has 110 MiB now.
      have hset : (s.setLimitAs t.signal removedLimit).limitAs t'.signal =
          ⟨removedLimit, removedLimit⟩ := by
        rw [hsignal, limitAs_setLimitAs_self]
      refine iff_of_true (.inl ?_) ?_
      · exact (UInt64.le_refl removedLimit).trans_eq (congrArg Rlimit.rlimMax hset).symm
      · rw [hsignal]
        exact hadmin.limitRetval_eq_zero_iff.1 hsucc.retval
    · have hset : (s.setLimitAs t.signal removedLimit).limitAs t'.signal = s.limitAs t'.signal :=
        limitAs_setLimitAs_of_ne hsignal
      exact or_congr_left (iff_of_eq (congrArg (fun r => removedLimit ≤ r.rlimMax) hset))
  · rw [exec_remove_of_not_succeeds hsucc]

/-- A remove deletes the node of its process, if it is removable. -/
theorem mem_head_exec_iff (hwf : WellFormed s.head) (hadmin : env.Administrator) :
    n ∈ ((Call.remove p).exec env s).2.head ↔
      n ∈ s.head ∧ (n.pid = p → ¬Removable env s n.pid) := by
  by_cases hsucc : ∃ t, (Call.remove p).Succeeds env s t
  · obtain ⟨t, hsucc⟩ := hsucc
    have hrem := Removable.of_succeeds hadmin hsucc
    rw [Call.exec_of_succeeds hsucc]
    refine hwf.distinct.mem_erase_iff.trans (and_congr_right fun _ => ?_)
    exact ⟨fun hp hp' => absurd hp' hp, fun hp hp' => hp hp' (hp' ▸ hrem)⟩
  · rw [exec_remove_of_not_succeeds hsucc]
    refine ⟨fun hn => ⟨hn, fun hp hrem => hsucc ?_⟩, And.left⟩
    rw [← hp]
    exact hrem.succeeds hwf hadmin hn

/-- Removes for the processes of the nodes `ns` delete those that are removable. -/
theorem mem_head_run_iff (hadmin : env.Administrator) (hwf : WellFormed s.head)
    (ns : List MemoryLimitation) :
    n ∈ (Machine.run (perform tasks) s (ns.map fun n => (env, .remove n.pid))).head ↔
      n ∈ s.head ∧ ((∃ m ∈ ns, n.pid = m.pid) → ¬Removable (env.withTasks tasks) s n.pid) := by
  -- After the first remove the other nodes are as removable as before.
  induction ns generalizing s with
  | nil => simp
  | cons m ns ih =>
    rw [List.map_cons, Machine.run_cons, ih hwf.perform, perform, mem_head_exec_iff hwf
      hadmin.withTasks, removable_exec_iff hadmin.withTasks, and_assoc, ← or_imp]
    simp only [List.mem_cons, exists_eq_or_imp]

/-- In every state reached since the registry was set up, an administrator takes
    an entry off exactly if it is removable; otherwise the call returns `-ESRCH`
    or `-EPERM` and changes nothing. A sweep empties the registry exactly if all
    entries are removable. -/
theorem takenOff_iff (k : Kernel) (hk : k.Reachable) (env : Env) (hadmin : env.Administrator) :
    (∀ n ∈ k.state.head, (TakenOff (env.withTasks k.tasks) k.state n ↔
        Removable (env.withTasks k.tasks) k.state n.pid) ∧
      (¬Removable (env.withTasks k.tasks) k.state n.pid →
        (Call.remove n.pid).exec (env.withTasks k.tasks) k.state =
          (if k.tasks n.pid = none then -ESRCH else -EPERM, k.state))) ∧
    ((sweep k.tasks env k.state).head = [] ↔
      ∀ n ∈ k.state.head, Removable (env.withTasks k.tasks) k.state n.pid) := by
  have hwf := hk.wellFormed
  refine ⟨fun n hn => ⟨takenOff_iff_removable hwf hadmin.withTasks hn,
    exec_of_not_removable hwf hadmin.withTasks hn⟩, ?_⟩
  rw [List.eq_nil_iff_forall_not_mem]
  refine forall_congr' fun n => ?_
  rw [sweep, mem_head_run_iff hadmin hwf]
  constructor
  · intro h hn
    exact not_not.1 fun hrem => h ⟨hn, fun _ => hrem⟩
  · rintro h ⟨hn, hrem⟩
    exact hrem ⟨n, hn, rfl⟩ (h hn)

/-- The kernel of one process that was limited to 4096 bytes. -/
def limitedSmall : Kernel := Kernel.small.boot.step (.call Env.quiet (.add 7 4096))

theorem reachable_limitedSmall : limitedSmall.Reachable :=
  ⟨.small, [.call Env.quiet (.add 7 4096)], rfl⟩

/-- An administrator with all capabilities sweeps this registry. -/
theorem takenOff_iff_limitedSmall :
    limitedSmall.state.head = [⟨7, 4096⟩] ∧
      (sweep limitedSmall.tasks Env.quiet limitedSmall.state).head = [] := by
  refine ⟨by decide, ?_⟩
  refine (takenOff_iff limitedSmall reachable_limitedSmall Env.quiet ⟨rfl, fun _ _ _ => rfl⟩).2.2 ?_
  intro n hn
  have hn' : n ∈ [(⟨7, 4096⟩ : MemoryLimitation)] := hn
  rw [List.mem_singleton.1 hn']
  exact ⟨⟨7, 1⟩, rfl, .inr rfl⟩

/-- An administrator without `CAP_SYS_RESOURCE`. -/
def plainAdmin : Env := { Env.quiet with capable := fun c => c = .sysAdmin }

/-- This administrator cannot take the entry of this process off. -/
theorem not_takenOff : limitedSmall.Reachable ∧ plainAdmin.Administrator ∧
    ⟨7, 4096⟩ ∈ limitedSmall.state.head ∧
    ¬TakenOff (plainAdmin.withTasks limitedSmall.tasks) limitedSmall.state ⟨7, 4096⟩ := by
  refine ⟨reachable_limitedSmall, ⟨rfl, fun _ _ _ => rfl⟩, by decide, fun h => ?_⟩
  exact absurd h.ret (by decide)

end LuisKernel
