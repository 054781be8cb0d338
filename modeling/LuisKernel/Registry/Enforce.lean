import LuisKernel.Registry.Map

/-!
# What is recorded and what is enforced

The registry records a limit for each process id, the kernel enforces one for
each thread group. Over a fixed table of tasks, the two agree (`Enforced`) as
long as a thread group is limited through one of its ids only: a call through
another id sets the limit of the whole group, but leaves the node of the first
id as it is.

`always_enforced_iff` says exactly which runs keep the two in step: those in
which every call whose limit is accepted finds this very limit already recorded
for the other ids of the thread group (`Consistent`), in particular those in
which there are no such ids.
-/

namespace LuisKernel

variable {tasks : PidT → Option TaskStruct} {s : State} {e : Env × Call} {n : MemoryLimitation}
  {signal : Nat} {v : SizeT}

/-- The state after a call, over the table `tasks`. -/
def perform (tasks : PidT → Option TaskStruct) (s : State) (e : Env × Call) : State :=
  (e.2.exec (e.1.withTasks tasks) s).2

theorem WellFormed.perform (hwf : WellFormed s.head) : WellFormed (perform tasks s e).head :=
  hwf.exec

/-- The limit recorded in a node is the one enforced, soft and hard, for the
    task its process id names. -/
def NodeEnforced (tasks : PidT → Option TaskStruct) (s : State) (n : MemoryLimitation) : Prop :=
  ∃ t, tasks n.pid = some t ∧ s.limitAs t.signal = ⟨n.memoryLimit, n.memoryLimit⟩

/-- Every recorded limit is enforced. -/
def Enforced (tasks : PidT → Option TaskStruct) (s : State) : Prop :=
  ∀ n ∈ s.head, NodeEnforced tasks s n

/-- If the limit of the call is accepted, the other ids of the thread group that
    are listed already have this limit. -/
def Consistent (tasks : PidT → Option TaskStruct) (s : State) (e : Env × Call) : Prop :=
  ∀ t, e.2.Accepted (e.1.withTasks tasks) s t → ∀ n ∈ s.head, n.pid ≠ e.2.pid →
    ∀ t', tasks n.pid = some t' → t'.signal = t.signal → n.memoryLimit = e.2.limit

/-- Setting the limit of a thread group keeps a node enforced exactly if it
    names another group, or has this limit. -/
theorem NodeEnforced.setLimitAs_iff {head : List MemoryLimitation} (h : NodeEnforced tasks s n) :
    NodeEnforced tasks { s.setLimitAs signal v with head := head } n ↔
      ∀ t', tasks n.pid = some t' → t'.signal = signal → n.memoryLimit = v := by
  obtain ⟨t, ht, hlimit⟩ := h
  by_cases hsignal : t.signal = signal
  · have hset : (s.setLimitAs signal v).limitAs t.signal = ⟨v, v⟩ := by
      rw [hsignal]
      exact limitAs_setLimitAs_self
    constructor
    · rintro ⟨t', ht', hlimit'⟩ t'' ht'' _
      cases ht.symm.trans ht'
      cases hset.symm.trans hlimit'
      rfl
    · intro hv
      refine ⟨t, ht, hset.trans ?_⟩
      rw [hv t ht hsignal]
  · refine ⟨fun _ t' ht' hsignal' => ?_, fun _ => ⟨t, ht, ?_⟩⟩
    · cases ht.symm.trans ht'
      exact absurd hsignal' hsignal
    · exact (limitAs_setLimitAs_of_ne hsignal).trans hlimit

/-- A step keeps every recorded limit enforced exactly if it is consistent. -/
theorem enforced_perform_iff (hwf : WellFormed s.head) (henf : Enforced tasks s) :
    Enforced tasks (perform tasks s e) ↔ Consistent tasks s e := by
  obtain ⟨env, c⟩ := e
  rcases hexec : c.exec (env.withTasks tasks) s with ⟨ret, s'⟩
  have hs' : perform tasks s (env, c) = s' := congrArg Prod.snd hexec
  rw [hs']
  cases Call.exec_outcome hexec with
  | rejected h =>
    exact ⟨fun _ t hacc => absurd hacc (Call.not_accepted_of_error h), fun _ => henf⟩
  | refused h hret =>
    exact ⟨fun _ t hacc => absurd hacc (Call.not_accepted_of_refused h hret), fun _ => henf⟩
  | starved hacc hadd _ =>
    -- The process of a starved add is not listed: all nodes are of others.
    have habsent := Keyed.find_eq_none_iff.1 (hacc.find_eq_none hadd)
    constructor
    · intro h t hacc' n hn _
      cases hacc.toAdmitted.unique hacc'.toAdmitted
      exact (henf n hn).setLimitAs_iff.1 (h n hn)
    · intro h n hn
      exact (henf n hn).setLimitAs_iff.2 (h _ hacc n hn (habsent n hn))
  | done hsucc =>
    -- The nodes after the call: those of the other ids, and its own, which has
    -- the limit that was just set.
    have hmem := fun n => hwf.mem_apply_iff (n := n) hsucc.toAdmitted
    constructor
    · intro h t hacc' n hn hpid
      cases hsucc.toAdmitted.unique hacc'.toAdmitted
      exact (henf n hn).setLimitAs_iff.1 (h n ((hmem n).2 (.inl ⟨hn, hpid⟩)))
    · intro h n hn
      rcases (hmem n).1 hn with ⟨hn', hpid⟩ | ⟨_, rfl⟩
      · exact (henf n hn').setLimitAs_iff.2 (h _ hsucc.toAccepted n hn' hpid)
      · exact ⟨_, hsucc.found, limitAs_setLimitAs_self⟩

/-- Over a fixed table of tasks, every recorded limit is enforced in every state
    of a run from the empty registry exactly if every call of it is consistent. -/
theorem always_enforced_iff (tasks : PidT → Option TaskStruct) (rlim : Nat → Resource → Rlimit)
    (es : List (Env × Call)) :
    Machine.Always (perform tasks) (Enforced tasks) ⟨[], rlim⟩ es ↔
      Machine.Each (perform tasks) (Consistent tasks) ⟨[], rlim⟩ es :=
  Machine.always_iff_each (R := fun _ => True) (I := fun s => WellFormed s.head) wellFormed_nil
    (fun _ h => absurd h List.not_mem_nil) (fun _ _ => trivial) (fun _ _ _ h => h.perform)
    fun _ _ _ => enforced_perform_iff

/-- An empty registry, in a kernel where nothing is limited. -/
def unlimited : State := ⟨[], fun _ _ => ⟨RLIM_INFINITY, RLIM_INFINITY⟩⟩

/-- Two threads of one process. -/
def twoThreads (p : PidT) : Option TaskStruct :=
  if p = 7 then some ⟨7, 1⟩ else if p = 8 then some ⟨8, 1⟩ else none

/-- A process limited through two of its threads has two recorded limits, and
    one of them is not enforced. -/
theorem not_always_enforced :
    ¬Machine.Always (perform twoThreads) (Enforced twoThreads) unlimited
      [(Env.quiet, .add 7 4096), (Env.quiet, .add 8 8192)] := by
  intro h
  obtain ⟨t, ht, hlimit⟩ := h.run ⟨7, 4096⟩ (by decide)
  cases ht
  exact absurd hlimit (by decide)

end LuisKernel
