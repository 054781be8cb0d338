import LuisKernel.Machine
import LuisKernel.Registry.Outcome

/-!
# The registry is a map

What the registry is for: a finite map from process ids to limits. A successful
add inserts an absent id, a successful update overwrites the limit of a present
one, a successful remove erases it, and nothing else changes the map
(`MapStep`). The list stands for such a map because no process id occurs twice
in it (`WellFormed`), an invariant of the calls.

The main result, `registry_refines_map`, says that along every run of the four
system calls, from the empty list, the list represents a map of positive ids to
positive limits, and every call is one step of it. The return values are those
of a fixed order of checks on the map (`Call.code`).
-/

namespace LuisKernel

/-! ## The requests -/

/-- A request to the registry: one of its four system calls. -/
inductive Request
  | call (c : Call)
  | get (uProcessesBuffer : UInt64) (maxEntries : SizeT) (processesBufferSize : UInt64)
  deriving DecidableEq, Repr

/-- The return value of a request, and the state after it. -/
def Request.exec (env : Env) : Request → State → Int × State
  | call c, s => c.exec env s
  | get buffer maxEntries size, s => ((luisGetMemoryLimits env buffer maxEntries size s).1, s)

/-- The state after a request made in some environment. -/
def serve (s : State) (e : Env × Request) : State := (e.2.exec e.1 s).2

/-! ## The well-formed lists -/

/-- No process id is listed twice, and all ids and limits are positive. -/
structure WellFormed (head : List MemoryLimitation) : Prop where
  distinct : Keyed.Distinct MemoryLimitation.pid head
  pid_pos : ∀ n ∈ head, 0 < n.pid
  limit_pos : ∀ n ∈ head, 0 < n.memoryLimit

theorem pid_setLimit (v : SizeT) (n : MemoryLimitation) :
    (MemoryLimitation.setLimit v n).pid = n.pid := rfl

theorem wellFormed_nil : WellFormed [] where
  distinct := Keyed.distinct_nil
  pid_pos _ h := absurd h List.not_mem_nil
  limit_pos _ h := absurd h List.not_mem_nil

variable {env : Env} {c : Call} {s s' : State} {head : List MemoryLimitation} {t : TaskStruct}
  {ret : Int}

/-- After a call that passed its checks, the list has the nodes of the other
    processes, and, unless the call is a remove, the node of its process. -/
theorem WellFormed.mem_apply_iff (hwf : WellFormed head) (h : c.Admitted env head t)
    {n : MemoryLimitation} : n ∈ c.apply head ↔
      (n ∈ head ∧ n.pid ≠ c.pid) ∨ (c.isRemove = false ∧ n = ⟨c.pid, c.limit⟩) := by
  cases c with
  | add p v =>
    have habsent := Keyed.find_eq_none_iff.1 (h.find_eq_none rfl)
    rw [Call.apply, List.mem_cons]
    constructor
    · rintro (rfl | hn)
      exacts [.inr ⟨rfl, rfl⟩, .inl ⟨hn, habsent n hn⟩]
    · rintro (⟨hn, _⟩ | ⟨_, rfl⟩)
      exacts [.inr hn, .inl rfl]
  | update p v =>
    -- The node that is changed is there, and it is the only one of its id.
    obtain ⟨n₀, hn₀, hp⟩ := Keyed.isSome_find_iff.1 h.listed
    rw [Call.apply, hwf.distinct.mem_write_iff]
    constructor
    · rintro (hn | ⟨n', _, rfl, rfl⟩)
      exacts [.inl hn, .inr ⟨rfl, rfl⟩]
    · rintro (hn | ⟨_, rfl⟩)
      · exact .inl hn
      · refine .inr ⟨n₀, hn₀, hp, ?_⟩
        rw [MemoryLimitation.setLimit, hp]
        rfl
  | remove p =>
    rw [Call.apply, hwf.distinct.mem_erase_iff]
    exact ⟨.inl, fun hn => hn.resolve_right fun h => Bool.noConfusion h.1⟩

/-- A call that passed its checks keeps the list well formed. -/
theorem WellFormed.apply (hwf : WellFormed head) (h : c.Admitted env head t) :
    WellFormed (c.apply head) := by
  refine ⟨?_, fun n hn => ?_, fun n hn => ?_⟩
  · cases c with
    | add p v => exact hwf.distinct.cons (h.find_eq_none rfl)
    | update p v => exact hwf.distinct.write (pid_setLimit v)
    | remove p => exact hwf.distinct.erase
  · rcases (hwf.mem_apply_iff h).1 hn with ⟨hn, _⟩ | ⟨_, rfl⟩
    exacts [hwf.pid_pos n hn, h.pid_pos]
  · rcases (hwf.mem_apply_iff h).1 hn with ⟨hn, _⟩ | ⟨_, rfl⟩
    exacts [hwf.limit_pos n hn, h.limit_pos]

/-- Every call keeps the list well formed. -/
theorem WellFormed.exec (hwf : WellFormed s.head) : WellFormed (c.exec env s).2.head := by
  rcases hexec : c.exec env s with ⟨ret, s'⟩
  cases Call.exec_outcome hexec with
  | rejected _ => exact hwf
  | refused _ _ => exact hwf
  | starved _ _ _ => exact hwf
  | done h => exact hwf.apply h.toAdmitted

theorem WellFormed.serve {e : Env × Request} (hwf : WellFormed s.head) :
    WellFormed (serve s e).head := by
  obtain ⟨env, c | _⟩ := e
  · exact hwf.exec
  · exact hwf

/-! ## The map -/

/-- A map from process ids to limits. -/
abbrev Limits := PidT → Option SizeT

/-- The map a list stands for. -/
def limits (head : List MemoryLimitation) : Limits :=
  Keyed.toMap MemoryLimitation.pid MemoryLimitation.memoryLimit head

/-- The operations of the map. -/
inductive MapOp
  | insert (p : PidT) (v : SizeT)
  | overwrite (p : PidT) (v : SizeT)
  | erase (p : PidT)
  | skip

/-- The steps of the map: an insertion needs an absent id, overwriting and
    erasing a present one. -/
inductive MapStep (m : Limits) : MapOp → Limits → Prop
  | insert {p : PidT} {v : SizeT} : m p = none →
      MapStep m (.insert p v) (Function.update m p (some v))
  | overwrite {p : PidT} {v : SizeT} : m p ≠ none →
      MapStep m (.overwrite p v) (Function.update m p (some v))
  | erase {p : PidT} : m p ≠ none → MapStep m (.erase p) (Function.update m p none)
  | skip : MapStep m .skip m

/-- The operation of a successful call. -/
def Call.mapOp : Call → MapOp
  | add p v => .insert p v
  | update p v => .overwrite p v
  | remove p => .erase p

/-- The operation of a request that returned `ret`: a call that did not return
    `0`, and any listing, is no step of the map. -/
def Request.mapOp (ret : Int) : Request → MapOp
  | call c => if ret = 0 then c.mapOp else .skip
  | get _ _ _ => .skip

theorem limits_eq_none_iff {p : PidT} : limits head p = none ↔ findNodeByPid p head = none :=
  Keyed.toMap_eq_none_iff

/-- A call that passed its checks does to the list what its operation does to
    the map. -/
theorem mapStep_apply (hwf : WellFormed head) (h : c.Admitted env head t) :
    MapStep (limits head) c.mapOp (limits (c.apply head)) := by
  cases c with
  | add p v =>
    have hmap : limits ((Call.add p v).apply head) = Function.update (limits head) p (some v) :=
      Keyed.toMap_cons
    rw [hmap]
    exact .insert (limits_eq_none_iff.2 (h.find_eq_none rfl))
  | update p v =>
    have hsome : findNodeByPid p head ≠ none := h.find_ne_none rfl
    have hmap : limits ((Call.update p v).apply head) = Function.update (limits head) p (some v) :=
      Keyed.toMap_write (pid_setLimit v) (fun _ => rfl) hsome
    rw [hmap]
    exact .overwrite (limits_eq_none_iff.not.2 hsome)
  | remove p =>
    have hmap : limits ((Call.remove p).apply head) = Function.update (limits head) p none :=
      Keyed.toMap_erase hwf.distinct
    rw [hmap]
    exact .erase (limits_eq_none_iff.not.2 (h.find_ne_none rfl))

/-! ## The return values -/

/-- The error of the first check that fails, or `0`. -/
def firstError : List (Bool × Int) → Int
  | [] => 0
  | (failed, e) :: checks => if failed then e else firstError checks

/-- What `do_prlimit` answers to a call, or `0` if the call has no task. -/
def Call.verdict (env : Env) (c : Call) (s : State) : Int :=
  match env.findTaskByVpid c.pid with
  | none => 0
  | some task => (setProcessMemoryLimit env task c.limit s).1

/-- The memory used by the task of a call, or `0` if it has none. -/
def Call.usage (env : Env) (c : Call) : SizeT :=
  match env.findTaskByVpid c.pid with
  | none => 0
  | some task => getProcessMemoryUsage env task

/-- The return value of a call on the map `m`, when `do_prlimit` answers
    `verdict`: the checks are made in this order. -/
def Call.code (env : Env) (c : Call) (m : Limits) (verdict : Int) : Int :=
  firstError
    [(env.capable .sysAdmin = false, -EPERM),
     (c.pid ≤ 0 ∨ c.limit ≤ 0, -EINVAL),
     (env.findTaskByVpid c.pid = none, -ESRCH),
     ((m c.pid).isSome = c.isAdd, c.mismatch),
     (c.isRemove = false ∧ c.usage env > c.limit, -100),
     (verdict ≠ 0, verdict),
     (c.isAdd = true ∧ env.kmalloc = false, -ENOMEM)]

theorem limitRetval_eq {v : SizeT} :
    (setProcessMemoryLimit env t v s).1 = limitRetval env t v s := by
  rw [setProcessMemoryLimit_eq]
  split_ifs with h
  · rfl
  · exact (not_not.1 h).symm

/-- The checks on the map are those on the list; then `do_prlimit` and the
    allocation decide. -/
theorem code_eq (env : Env) (c : Call) (head : List MemoryLimitation) (verdict : Int) :
    c.code env (limits head) verdict =
      match c.checks env head with
      | .error e => e
      | .ok _ =>
        if verdict ≠ 0 then verdict
        else if c.isAdd = true ∧ env.kmalloc = false then -ENOMEM
        else 0 := by
  have hlist : (limits head c.pid).isSome = (findNodeByPid c.pid head).isSome := Keyed.isSome_toMap
  cases hfound : env.findTaskByVpid c.pid with
  | none =>
    simp only [Call.code, Call.checks, firstError, hfound, decide_eq_true_eq, if_true]
    split_ifs <;> rfl
  | some task =>
    have husage : c.usage env = getProcessMemoryUsage env task := by rw [Call.usage, hfound]
    simp only [Call.code, Call.checks, firstError, hfound, hlist, husage, decide_eq_true_eq,
      reduceCtorEq, if_false]
    split_ifs <;> rfl

/-- The return value of a call is that of its checks on the map. -/
theorem exec_code (env : Env) (c : Call) (s : State) :
    (c.exec env s).1 = c.code env (limits s.head) (c.verdict env s) := by
  rw [code_eq]
  cases h : c.checks env s.head with
  | error e => rw [Call.exec_of_error h]
  | ok t =>
    have hadm := Call.checks_eq_ok_iff.1 h
    have hverdict : c.verdict env s = limitRetval env t c.limit s := by
      rw [Call.verdict, hadm.found]
      exact limitRetval_eq
    dsimp only
    rw [hverdict]
    by_cases hret : limitRetval env t c.limit s = 0
    · rw [if_neg (not_not.2 hret), Call.exec_of_accepted ⟨hadm, hret⟩]
      split_ifs <;> rfl
    · rw [if_pos hret, Call.exec_of_refused hadm hret]

/-- Nothing is assumed about the outcomes: in every state some environment
    gives any answers at all to the questions of a call. -/
theorem exists_env (s : State) (v : SizeT) (cap mem : Bool) (tasks : PidT → Option TaskStruct)
    (totalVm : TaskStruct → Option SizeT) (ret : Int) :
    ∃ env : Env, env.capable .sysAdmin = cap ∧ env.findTaskByVpid = tasks ∧
      env.totalVm = totalVm ∧ (∀ t, (setProcessMemoryLimit env t v s).1 = ret) ∧
      env.kmalloc = mem := by
  refine ⟨{ Env.quiet with
    -- With `CAP_SYS_RESOURCE` the answer of `do_prlimit` is that of the hook.
    capable := fun r => if r = .sysAdmin then cap else true
    findTaskByVpid := tasks
    totalVm := totalVm
    securityTaskSetrlimit := fun _ _ _ => ret
    kmalloc := mem }, rfl, rfl, rfl, fun t => ?_, rfl⟩
  rw [limitRetval_eq, limitRetval, prlimitRetval, if_neg fun h => Bool.noConfusion h.2]

/-! ## The refinement -/

/-- The list represents the map `m`, of positive ids to positive limits: a
    process id is in one node at most, and the nodes are the entries of `m`. -/
structure Represents (head : List MemoryLimitation) (m : Limits) : Prop where
  nodup : (head.map MemoryLimitation.pid).Nodup
  entries : ∀ p v, m p = some v ↔ ⟨p, v⟩ ∈ head
  pos : ∀ p v, m p = some v → 0 < p ∧ 0 < v

theorem WellFormed.represents (hwf : WellFormed head) : Represents head (limits head) := by
  have hentries : ∀ p v, limits head p = some v ↔ ⟨p, v⟩ ∈ head := by
    intro p v
    rw [limits, Keyed.toMap, Option.map_eq_some_iff]
    constructor
    · rintro ⟨n, hn, rfl⟩
      obtain ⟨hmem, rfl⟩ := Keyed.find_some hn
      exact hmem
    · intro hmem
      exact ⟨⟨p, v⟩, hwf.distinct.find_eq_some_iff.2 ⟨hmem, rfl⟩, rfl⟩
  refine ⟨hwf.distinct, hentries, fun p v h => ?_⟩
  have hmem := (hentries p v).1 h
  exact ⟨hwf.pid_pos _ hmem, hwf.limit_pos _ hmem⟩

/-- The request `r`, made in the state `s`, is a step of the map. -/
structure Simulates (s : State) (env : Env) (r : Request) : Prop where
  /-- It is the operation of the request if it returned `0`, and no step otherwise. -/
  step : MapStep (limits s.head) (r.mapOp (r.exec env s).1) (limits (r.exec env s).2.head)
  /-- A request that fails leaves the map as it is. -/
  fails : (r.exec env s).1 ≠ 0 → limits (r.exec env s).2.head = limits s.head
  /-- The return value of the calls that change the registry is that of their checks. -/
  code : ∀ c, r = .call c → (r.exec env s).1 = c.code env (limits s.head) (c.verdict env s)

theorem WellFormed.simulates (hwf : WellFormed s.head) (env : Env) (r : Request) :
    Simulates s env r := by
  cases r with
  | get buffer maxEntries size => exact ⟨.skip, fun _ => rfl, fun c hc => by cases hc⟩
  | call c =>
    rcases hexec : c.exec env s with ⟨ret, s'⟩
    have hrexec : (Request.call c).exec env s = (ret, s') := hexec
    have hskip : ∀ {m : Limits}, ret ≠ 0 → MapStep m ((Request.call c).mapOp ret) m := by
      intro m hret
      rw [Request.mapOp, if_neg hret]
      exact .skip
    have hcode : ret = c.code env (limits s.head) (c.verdict env s) := by
      rw [← exec_code, hexec]
    refine ⟨?_, ?_, fun c' hc' => ?_⟩
    · -- Only a call that is done changes the list, and only this one returns `0`.
      rw [hrexec]
      cases Call.exec_outcome hexec with
      | rejected h => exact hskip (Call.ne_zero_of_checks h)
      | refused _ hret => exact hskip hret
      | starved _ _ _ => exact hskip (by decide)
      | done h => exact mapStep_apply hwf h.toAdmitted
    · rw [hrexec]
      intro hret
      cases Call.exec_outcome hexec with
      | rejected _ => rfl
      | refused _ _ => rfl
      | starved _ _ _ => rfl
      | done _ => exact absurd rfl hret
    · cases hc'
      rw [hrexec]
      exact hcode

/-- Along every run of the four system calls from the empty list, the list
    represents a map, and every call is a step of this map. -/
theorem registry_refines_map (rlim : Nat → Resource → Rlimit) (rs : List (Env × Request)) :
    Machine.Always serve (fun s => Represents s.head (limits s.head)) ⟨[], rlim⟩ rs ∧
      Machine.Each serve (fun s e => Simulates s e.1 e.2) ⟨[], rlim⟩ rs := by
  have hwf : Machine.Always serve (fun s => WellFormed s.head) ⟨[], rlim⟩ rs :=
    Machine.always_of_step (R := fun _ => True) wellFormed_nil (fun _ _ => trivial)
      fun _ _ _ => WellFormed.serve
  exact ⟨hwf.mono fun _ => WellFormed.represents,
    Machine.each_of_always hwf fun _ e h => h.simulates e.1 e.2⟩

end LuisKernel
