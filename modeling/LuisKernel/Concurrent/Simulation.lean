import LuisKernel.Concurrent

/-!
# Undisturbed calls are serialisable

Without a lock, the calls are serialisable as long as no call passes its checks
while another call, for the same process or thread group, is in flight
(`Undisturbed`). The order is that in which the calls return.

`Rel` relates the concurrent state to the sequential one, in which the calls that
have returned were made as a whole, and the others not at all. The list is the
same, as a call changes it in its last step; the limits are ahead for the calls
*pending* between `do_prlimit` and their return. What a call in flight has found
out is still so in the sequential state (`Valid`), as the others are independent
of it.
-/

namespace LuisKernel

variable {ι : Type} [DecidableEq ι] {calls : ι → Env × Call} {x : Config ι} {i j : ι}
  {env : Env} {c : Call} {head head' : List (Entry ι)} {node : Option (Address ι)}
  {e e' : Entry ι} {pc : Pc ι} {s q q' : State} {t : TaskStruct}

/-! ## The relation -/

/-- The pointer `node` of an update or a remove points to the node of its process. -/
def Points (c : Call) (node : Option (Address ι)) (head : List (Entry ι)) : Prop :=
  c.isAdd = false → ∃ e ∈ head, e.pid = c.pid ∧ node = some e.addr

/-- What a call has found out is so in the sequential state `q`. -/
def Valid (env : Env) (c : Call) (head : List (Entry ι)) (q : State) : Pc ι → Prop
  | .start => True
  | .prlimit t node => c.Admitted env q.head t ∧ Points c node head
  | .find => c.isAdd = true ∧ ∃ t, c.Accepted env q t
  | .alloc => c.isAdd = true ∧ ∃ t, c.Accepted env q t
  | .link => c.isAdd = true ∧ env.kmalloc = true ∧ ∃ t, c.Accepted env q t
  | .change node => c.isAdd = false ∧ (∃ t, c.Accepted env q t) ∧ Points c node head
  | .returned _ => True

/-- The task `t` is that of a call that has set its limit, and not returned. -/
def PendingTask (calls : ι → Env × Call) (x : Config ι) (i : ι) (t : TaskStruct) : Prop :=
  (x.pc i).pending = true ∧ (calls i).1.findTaskByVpid (calls i).2.pid = some t

/-- The concurrent state `x` is that of the sequential state `q`, in which the
    calls in flight are still to be made. -/
structure Rel (calls : ι → Env × Call) (x : Config ι) (q : State) : Prop where
  head : x.shared.state.head = q.head
  wellFormed : WellFormed q.head
  addr : Keyed.Distinct Entry.addr x.shared.head
  made : ∀ e ∈ x.shared.head, ∀ i, e.addr = .made i → x.result i ≠ none
  fault : x.shared.fault = false
  pending : ∀ i t, PendingTask calls x i t →
    x.shared.rlim t.signal = (q.setLimitAs t.signal (calls i).2.limit).rlim t.signal
  others : ∀ signal, (∀ i t, PendingTask calls x i t → t.signal ≠ signal) →
    x.shared.rlim signal = q.rlim signal
  valid : ∀ i, Valid (calls i).1 (calls i).2 x.shared.head q (x.pc i)
  independent : ∀ i j, i ≠ j → (x.pc i).inFlight = true → (x.pc j).inFlight = true →
    Call.Independent (calls i).1 (calls i).2 (calls j).1 (calls j).2

omit [DecidableEq ι] in
theorem Pc.inFlight_of_pending (h : pc.pending = true) : pc.inFlight = true := by
  cases pc with
  | start | prlimit | returned => cases h
  | _ => rfl

omit [DecidableEq ι] in
/-- What a call has found out stays so if its node and what it reads of the
    state stay. -/
theorem Valid.mono (h : Valid env c head q pc)
    (hpoints : pc.inFlight = true → ∀ node, Points c node head → Points c node head')
    (hagree : pc.inFlight = true → c.Agree env q q') : Valid env c head' q' pc := by
  cases pc with
  | start => trivial
  | prlimit t node => exact ⟨(hagree rfl).admitted_iff.2 h.1, hpoints rfl node h.2⟩
  | find =>
    obtain ⟨hadd, t, hacc⟩ := h
    exact ⟨hadd, t, (hagree rfl).accepted hacc⟩
  | alloc =>
    obtain ⟨hadd, t, hacc⟩ := h
    exact ⟨hadd, t, (hagree rfl).accepted hacc⟩
  | link =>
    obtain ⟨hadd, hmem, t, hacc⟩ := h
    exact ⟨hadd, hmem, t, (hagree rfl).accepted hacc⟩
  | change node =>
    obtain ⟨hadd, ⟨t, hacc⟩, hnode⟩ := h
    exact ⟨hadd, ⟨t, (hagree rfl).accepted hacc⟩, hpoints rfl node hnode⟩
  | returned ret => trivial

/-! ## The steps -/

section

variable {sh : Shared ι}

/-- The calls pending after a step of the call `i`. -/
theorem pendingTask_moveTo : PendingTask calls (x.moveTo i pc sh) j t ↔
    (j = i ∧ pc.pending = true ∧ (calls i).1.findTaskByVpid (calls i).2.pid = some t) ∨
      (j ≠ i ∧ PendingTask calls x j t) := by
  by_cases hj : j = i
  · subst hj
    rw [PendingTask, Config.pc_moveTo_self]
    simp
  · rw [PendingTask, Config.pc_moveTo_of_ne hj, PendingTask]
    simp [hj]

/-- A step keeps the relation if it keeps the lists equal, the limits right, and
    what the calls have found out. -/
theorem Rel.moveTo (h : Rel calls x q) (hhead : sh.state.head = q'.head)
    (hwf : WellFormed q'.head) (haddr : Keyed.Distinct Entry.addr sh.head)
    (hmade : ∀ e ∈ sh.head, ∀ j, e.addr = .made j → (x.moveTo i pc sh).result j ≠ none)
    (hfault : sh.fault = false)
    (hpending : ∀ j t, PendingTask calls (x.moveTo i pc sh) j t →
      sh.rlim t.signal = (q'.setLimitAs t.signal (calls j).2.limit).rlim t.signal)
    (hothers : ∀ signal, (∀ j t, PendingTask calls (x.moveTo i pc sh) j t → t.signal ≠ signal) →
      sh.rlim signal = q'.rlim signal)
    (hvalid : Valid (calls i).1 (calls i).2 sh.head q' pc)
    (hframe : ∀ j, j ≠ i → Valid (calls j).1 (calls j).2 sh.head q' (x.pc j))
    (hind : pc.inFlight = true → ∀ j, j ≠ i → (x.pc j).inFlight = true →
      Call.Independent (calls i).1 (calls i).2 (calls j).1 (calls j).2) :
    Rel calls (x.moveTo i pc sh) q' := by
  refine ⟨hhead, hwf, haddr, hmade, hfault, hpending, hothers, fun j => ?_, fun j k hjk hj hk => ?_⟩
  · by_cases hji : j = i
    · rw [hji, Config.pc_moveTo_self]
      exact hvalid
    · rw [Config.pc_moveTo_of_ne hji]
      exact hframe j hji
  · -- The call `i` may be the one or the other.
    by_cases hji : j = i
    · subst hji
      rw [Config.pc_moveTo_self] at hj
      rw [Config.pc_moveTo_of_ne hjk.symm] at hk
      exact hind hj k hjk.symm hk
    · rw [Config.pc_moveTo_of_ne hji] at hj
      by_cases hki : k = i
      · subst hki
        rw [Config.pc_moveTo_self] at hk
        exact (hind hk j hji hj).symm
      · rw [Config.pc_moveTo_of_ne hki] at hk
        exact h.independent j k hjk hj hk

/-- A call that has made no node: none is named after it. -/
theorem Rel.result_moveTo_ne_none (h : Rel calls x q) (hi : x.result i = none)
    (he : e ∈ x.shared.head) (ha : e.addr = .made j) :
    (x.moveTo i pc sh).result j ≠ none := by
  have hj := h.made e he j ha
  have hji : j ≠ i := fun hji => hj (hji ▸ hi)
  rw [Config.result_moveTo, Function.update_of_ne hji]
  exact hj

/-- A call goes on, or returns, without changing anything. -/
theorem Rel.goto (h : Rel calls x q) (hi : x.result i = none)
    (hvalid : Valid (calls i).1 (calls i).2 x.shared.head q pc)
    (hpending : pc.pending = (x.pc i).pending)
    (hind : pc.inFlight = true → ∀ j, j ≠ i → (x.pc j).inFlight = true →
      Call.Independent (calls i).1 (calls i).2 (calls j).1 (calls j).2) :
    Rel calls (x.moveTo i pc x.shared) q := by
  -- The same calls are pending.
  have htask : ∀ j t, PendingTask calls (x.moveTo i pc x.shared) j t ↔ PendingTask calls x j t := by
    intro j t
    rw [pendingTask_moveTo, hpending]
    by_cases hj : j = i
    · subst hj
      simp [PendingTask]
    · simp [hj]
  refine h.moveTo h.head h.wellFormed h.addr (fun e he j ha => h.result_moveTo_ne_none hi he ha)
    h.fault (fun j t hj => h.pending j t ((htask j t).1 hj)) (fun signal hs => ?_) hvalid
    (fun j _ => h.valid j) hind
  exact h.others signal fun j t hj => hs j t ((htask j t).2 hj)

omit [DecidableEq ι] in
/-- No pending call has set the limit of the task of another call in flight. -/
theorem Rel.signal_ne (h : Rel calls x q) (hi : (x.pc i).inFlight = true) (hji : j ≠ i)
    (ht : (calls i).1.findTaskByVpid (calls i).2.pid = some t) {t' : TaskStruct}
    (hj : PendingTask calls x j t') : t'.signal ≠ t.signal :=
  (h.independent j i hji (Pc.inFlight_of_pending hj.1) hi).signal_ne t' t hj.2 ht

omit [DecidableEq ι] in
/-- Before a call sets its limit, its task has the limits of the sequential state. -/
theorem Rel.rlim_eq (h : Rel calls x q) (hi : (x.pc i).inFlight = true)
    (hpending : (x.pc i).pending = false)
    (ht : (calls i).1.findTaskByVpid (calls i).2.pid = some t) :
    x.shared.rlim t.signal = q.rlim t.signal := by
  refine h.others t.signal fun j t' hj => ?_
  have hji : j ≠ i := by
    rintro rfl
    cases hpending.symm.trans hj.1
  exact h.signal_ne hi hji ht hj

theorem rlim_setLimitAs_self {v : SizeT} {signal : Nat} : (s.setLimitAs signal v).rlim signal =
    Function.update (s.rlim signal) addressSpace ⟨v, v⟩ :=
  Function.update_self ..

theorem rlim_setLimitAs_of_ne {v : SizeT} {signal signal' : Nat} (h : signal' ≠ signal) :
    (s.setLimitAs signal v).rlim signal' = s.rlim signal' :=
  Function.update_of_ne h ..

/-- A call sets its limit: it is pending from now on. -/
theorem Rel.setLimit (h : Rel calls x q) (hi : (x.pc i).inFlight = true)
    (hresult : x.result i = none) (hpending : (x.pc i).pending = false)
    (hpc : pc.pending = true) (hacc : (calls i).2.Accepted (calls i).1 q t)
    (hvalid : Valid (calls i).1 (calls i).2 x.shared.head q pc) :
    Rel calls (x.moveTo i pc { x.shared with
      rlim := (x.shared.state.setLimitAs t.signal (calls i).2.limit).rlim }) q := by
  refine h.moveTo h.head h.wellFormed h.addr
    (fun e he j ha => h.result_moveTo_ne_none hresult he ha) h.fault (fun j t' hj => ?_)
    (fun signal hs => ?_) hvalid (fun j _ => h.valid j) (fun _ j hji hj => ?_)
  · rcases pendingTask_moveTo.1 hj with ⟨rfl, _, ht'⟩ | ⟨hji, hj⟩
    · -- No one else has touched the limits of this group.
      cases hacc.found.symm.trans ht'
      have hrlim : x.shared.state.rlim t.signal = q.rlim t.signal :=
        h.rlim_eq hi hpending hacc.found
      dsimp only
      rw [rlim_setLimitAs_self, rlim_setLimitAs_self, hrlim]
    · dsimp only
      rw [rlim_setLimitAs_of_ne (h.signal_ne hi hji hacc.found hj)]
      exact h.pending j t' hj
  · have hsignal : signal ≠ t.signal :=
      (hs i t (pendingTask_moveTo.2 (.inl ⟨rfl, hpc, hacc.found⟩))).symm
    dsimp only
    rw [rlim_setLimitAs_of_ne hsignal]
    refine h.others signal fun j t' hj => ?_
    have hji : j ≠ i := by
      rintro rfl
      cases hpending.symm.trans hj.1
    exact hs j t' (pendingTask_moveTo.2 (.inr ⟨hji, hj⟩))
  · exact h.independent i j hji.symm hi hj

/-- A pending call returns: it is made as a whole in the sequential state. -/
theorem Rel.finish {ret : Int} (h : Rel calls x q) (hi : (x.pc i).pending = true)
    (hacc : (calls i).2.Accepted (calls i).1 q t) (hexec : execAll calls i q = (ret, q'))
    (hhead : sh.state.head = q'.head) (hrlim : sh.rlim = x.shared.rlim)
    (haddr : Keyed.Distinct Entry.addr sh.head)
    (hmade : ∀ e ∈ sh.head, ∀ j, e.addr = .made j → j = i ∨ x.result j ≠ none)
    (hfault : sh.fault = false)
    (hpoints : ∀ j, j ≠ i → (calls i).2.pid ≠ (calls j).2.pid → ∀ node,
      Points (calls j).2 node x.shared.head → Points (calls j).2 node sh.head) :
    Rel calls (x.moveTo i (.returned ret) sh) q' := by
  have hflight := Pc.inFlight_of_pending hi
  have hq' : q' = ((calls i).2.exec (calls i).1 q).2 := (congrArg Prod.snd hexec).symm
  -- The sequential limits change for the task of the call only.
  have hseq : q'.rlim = (q.setLimitAs t.signal (calls i).2.limit).rlim := by
    rw [hq', hacc.rlim_exec]
  have hseq' : ∀ signal, signal ≠ t.signal → q'.rlim signal = q.rlim signal := by
    intro signal hsignal
    rw [hseq, rlim_setLimitAs_of_ne hsignal]
  refine h.moveTo hhead (hq' ▸ h.wellFormed.exec) haddr (fun e he j ha => ?_) hfault
    (fun j t' hj => ?_) (fun signal hs => ?_) trivial (fun j hji => ?_) (fun h => by cases h)
  · rw [Config.result_moveTo]
    rcases hmade e he j ha with rfl | hj
    · rw [Function.update_self]
      exact Option.some_ne_none _
    · by_cases hji : j = i
      · rw [hji, Function.update_self]
        exact Option.some_ne_none _
      · rwa [Function.update_of_ne hji]
  · rcases pendingTask_moveTo.1 hj with ⟨_, hpc, _⟩ | ⟨hji, hj⟩
    · cases hpc
    · have hsignal := h.signal_ne hflight hji hacc.found hj
      rw [hrlim, h.pending j t' hj, rlim_setLimitAs_self, rlim_setLimitAs_self,
        hseq' t'.signal hsignal]
  · rw [hrlim]
    by_cases hsignal : signal = t.signal
    · -- The limit that was pending is that of the sequential state now.
      rw [hsignal, h.pending i t ⟨hi, hacc.found⟩, hseq]
    · rw [hseq' signal hsignal]
      refine h.others signal fun j t' hj => ?_
      by_cases hji : j = i
      · subst hji
        cases hacc.found.symm.trans hj.2
        exact fun h => hsignal h.symm
      · exact hs j t' (pendingTask_moveTo.2 (.inr ⟨hji, hj⟩))
  · refine (h.valid j).mono (fun hj => ?_) fun hj => ?_
    · exact hpoints j hji (h.independent i j hji.symm hflight hj).pid_ne
    · exact hq' ▸ (h.independent i j hji.symm hflight hj).symm.agree q

end

/-! ## The nodes by their addresses -/

omit [DecidableEq ι] in
/-- The nodes that the calls see have distinct process ids, as in the sequential
    state. -/
theorem Rel.distinct (h : Rel calls x q) : Keyed.Distinct Entry.pid x.shared.head := by
  have hdistinct := h.wellFormed.distinct
  rw [← h.head, Shared.state, Keyed.Distinct, List.map_map] at hdistinct
  exact hdistinct

omit [DecidableEq ι] in
/-- An update or a remove finds the node of its process. -/
theorem points_find (h : c.Admitted env (head.map Entry.node) t) :
    Points c ((Keyed.find Entry.pid c.pid head).map Entry.addr) head := by
  intro hadd
  have hsome : ((Keyed.find Entry.pid c.pid head).map Entry.node).isSome = true := by
    have hmap : (Keyed.find Entry.pid c.pid head).map Entry.node =
      findNodeByPid c.pid (head.map Entry.node) := Keyed.map_find
    rw [hmap, h.listed, hadd]
    rfl
  rw [Option.isSome_map] at hsome
  obtain ⟨e, he⟩ := Option.isSome_iff_exists.1 hsome
  obtain ⟨hmem, hpid⟩ := Keyed.find_some he
  exact ⟨e, hmem, hpid, by rw [he]; rfl⟩

/-- Changing the node a call found is changing the node of its process. -/
theorem map_node_changeAt (haddr : Keyed.Distinct Entry.addr head)
    (hpid : Keyed.Distinct Entry.pid head) (he : e ∈ head) (hp : e.pid = c.pid)
    (hadd : c.isAdd = false) :
    (c.changeAt e.addr head).map Entry.node = c.apply (head.map Entry.node) := by
  cases c with
  | add p v => cases hadd
  | update p v =>
    have hp : e.pid = p := hp
    rw [Call.changeAt, haddr.write_key he, ← hpid.write_key he, hp]
    exact Keyed.map_write fun _ => rfl
  | remove p =>
    have hp : e.pid = p := hp
    rw [Call.changeAt, haddr.erase_key he, ← hpid.erase_key he, hp]
    exact Keyed.map_erase

theorem distinct_changeAt {a : Address ι} (haddr : Keyed.Distinct Entry.addr head) :
    Keyed.Distinct Entry.addr (c.changeAt a head) := by
  cases c with
  | add p v => exact haddr
  | update p v => exact haddr.write fun _ => rfl
  | remove p => exact haddr.erase

/-- No node is made by changing one, … -/
theorem addr_of_mem_changeAt {a : Address ι} (haddr : Keyed.Distinct Entry.addr head)
    (he : e ∈ c.changeAt a head) : ∃ e' ∈ head, e'.addr = e.addr := by
  cases c with
  | add p v => exact ⟨e, he, rfl⟩
  | update p v =>
    rcases haddr.mem_write_iff.1 he with ⟨he, _⟩ | ⟨e', he', _, rfl⟩
    · exact ⟨e, he, rfl⟩
    · exact ⟨e', he', rfl⟩
  | remove p => exact ⟨e, (haddr.mem_erase_iff.1 he).1, rfl⟩

/-- … and the other nodes stay. -/
theorem mem_changeAt {a : Address ι} (haddr : Keyed.Distinct Entry.addr head) (he : e ∈ head)
    (ha : e.addr ≠ a) : e ∈ c.changeAt a head := by
  cases c with
  | add p v => exact he
  | update p v => exact haddr.mem_write_iff.2 (.inl ⟨he, ha⟩)
  | remove p => exact haddr.mem_erase_iff.2 ⟨he, ha⟩

/-! ## The calls, step by step -/

omit [DecidableEq ι] in
theorem Pc.result_of_inFlight (h : pc.inFlight = true) : pc.result = none := by
  cases pc with
  | returned ret => cases h
  | _ => rfl

theorem step_eq {sh : Shared ι} {pc' : Pc ι} (hpc : x.pc i = pc)
    (hadv : advance (calls i).1 (calls i).2 i pc x.shared = (pc', sh)) :
    x.step calls i = x.moveTo i pc' sh := by
  rw [Config.step, hpc, hadv]

/-- A step in which the call does not return. -/
theorem Rel.silent {sh : Shared ι} (hi : x.result i = none) (hpc : pc.result = none)
    (h : Rel calls (x.moveTo i pc sh) q) :
    Serial.Matches (execAll calls) Config.result (Rel calls) q i x (x.moveTo i pc sh) := by
  refine .silent ?_ h
  rw [Config.result_moveTo, hpc, ← hi, Function.update_eq_self]

/-- A step in which the call returns `ret`. -/
theorem Rel.returns {sh : Shared ι} {ret : Int} (hi : x.result i = none)
    (hexec : execAll calls i q = (ret, q')) (h : Rel calls (x.moveTo i (.returned ret) sh) q') :
    Serial.Matches (execAll calls) Config.result (Rel calls) q i x
      (x.moveTo i (.returned ret) sh) := by
  refine .returns hi ?_ ?_
  · rw [Config.result_moveTo, hexec]
    rfl
  · rw [hexec]
    exact h

/-- A call in flight goes on without changing anything. -/
theorem Rel.continues {pc' : Pc ι} (h : Rel calls x q) (hpc : x.pc i = pc)
    (hflight : pc.inFlight = true) (hresult : pc'.result = none)
    (hvalid : Valid (calls i).1 (calls i).2 x.shared.head q pc')
    (hpending : pc'.pending = pc.pending) :
    Serial.Matches (execAll calls) Config.result (Rel calls) q i x (x.moveTo i pc' x.shared) := by
  subst hpc
  have hi : x.result i = none := Pc.result_of_inFlight hflight
  refine Rel.silent hi hresult (h.goto hi hvalid hpending fun _ j hji hj => ?_)
  exact h.independent i j hji.symm hflight hj

/-- The first step: the checks. The calls in flight are independent of one that
    passes them. -/
theorem Rel.matches_start (h : Rel calls x q) (hQ : Undisturbed calls x i)
    (hpc : x.pc i = .start) :
    Serial.Matches (execAll calls) Config.result (Rel calls) q i x (x.step calls i) := by
  have hi : x.result i = none := congrArg Pc.result hpc
  have hpending : (x.pc i).pending = false := congrArg Pc.pending hpc
  cases hadm : (calls i).2.checks (calls i).1 x.shared.state.head with
  | error ret =>
    have hexec : execAll calls i q = (ret, q) := Call.exec_of_error (h.head ▸ hadm)
    rw [step_eq hpc (by rw [advance, hadm])]
    exact Rel.returns hi hexec (h.goto hi trivial hpending.symm fun hflight => by cases hflight)
  | ok t =>
    have hadm' := Call.checks_eq_ok_iff.1 hadm
    rw [step_eq hpc (by rw [advance, hadm])]
    exact Rel.silent hi rfl (h.goto hi ⟨h.head ▸ hadm', points_find hadm'⟩ hpending.symm
      fun _ => hQ hpc ⟨t, hadm'⟩)

/-- `do_prlimit`: the limit of the task is that of the sequential state. -/
theorem Rel.matches_prlimit (h : Rel calls x q) (hpc : x.pc i = .prlimit t node) :
    Serial.Matches (execAll calls) Config.result (Rel calls) q i x (x.step calls i) := by
  have hi : x.result i = none := congrArg Pc.result hpc
  have hflight : (x.pc i).inFlight = true := congrArg Pc.inFlight hpc
  have hpending : (x.pc i).pending = false := congrArg Pc.pending hpc
  have hvalid := h.valid i
  rw [hpc] at hvalid
  obtain ⟨hadm, hnode⟩ := hvalid
  -- Both states give the same verdict.
  have hverdict : limitRetval (calls i).1 t (calls i).2.limit x.shared.state =
      limitRetval (calls i).1 t (calls i).2.limit q :=
    limitRetval_congr (congrFun (h.rlim_eq hflight hpending hadm.found) addressSpace)
  by_cases hret : limitRetval (calls i).1 t (calls i).2.limit q = 0
  · have hacc : (calls i).2.Accepted (calls i).1 q t := ⟨hadm, hret⟩
    have hset : setProcessMemoryLimit (calls i).1 t (calls i).2.limit x.shared.state =
        (0, x.shared.state.setLimitAs t.signal (calls i).2.limit) := by
      rw [setProcessMemoryLimit_eq, if_neg (not_not.2 (hverdict.trans hret))]
    have hadv : advance (calls i).1 (calls i).2 i (.prlimit t node) x.shared =
        (if (calls i).2.isAdd then .find else .change node, { x.shared with
          rlim := (x.shared.state.setLimitAs t.signal (calls i).2.limit).rlim }) := by
      rw [advance, hset]
      exact if_neg (not_not.2 rfl)
    rw [step_eq hpc hadv]
    cases hadd : (calls i).2.isAdd with
    | true => exact Rel.silent hi rfl (h.setLimit hflight hi hpending rfl hacc ⟨hadd, t, hacc⟩)
    | false =>
      exact Rel.silent hi rfl
        (h.setLimit hflight hi hpending rfl hacc ⟨hadd, ⟨t, hacc⟩, hnode⟩)
  · have hset : setProcessMemoryLimit (calls i).1 t (calls i).2.limit x.shared.state =
        (limitRetval (calls i).1 t (calls i).2.limit q, x.shared.state) := by
      rw [setProcessMemoryLimit_eq, hverdict, if_pos hret]
    have hadv : advance (calls i).1 (calls i).2 i (.prlimit t node) x.shared =
        (.returned (limitRetval (calls i).1 t (calls i).2.limit q), x.shared) := by
      rw [advance, hset]
      exact if_pos hret
    rw [step_eq hpc hadv]
    exact Rel.returns hi (Call.exec_of_refused hadm hret)
      (h.goto hi trivial hpending.symm fun hflight => by cases hflight)

/-- The second search of an add: its process is still not listed. -/
theorem Rel.matches_find (h : Rel calls x q) (hpc : x.pc i = .find) :
    Serial.Matches (execAll calls) Config.result (Rel calls) q i x (x.step calls i) := by
  have hvalid := h.valid i
  rw [hpc] at hvalid
  obtain ⟨hadd, t, hacc⟩ := hvalid
  have hnone : findNodeByPid (calls i).2.pid x.shared.state.head = none :=
    h.head ▸ hacc.find_eq_none hadd
  have hadv : advance (calls i).1 (calls i).2 i .find x.shared = (.alloc, x.shared) := by
    rw [advance, hnone]
    rfl
  rw [step_eq hpc hadv]
  exact h.continues hpc rfl rfl ⟨hadd, t, hacc⟩ rfl

/-- The allocation: an add that finds no memory returns here. -/
theorem Rel.matches_alloc (h : Rel calls x q) (hpc : x.pc i = .alloc) :
    Serial.Matches (execAll calls) Config.result (Rel calls) q i x (x.step calls i) := by
  have hvalid := h.valid i
  rw [hpc] at hvalid
  obtain ⟨hadd, t, hacc⟩ := hvalid
  cases hmem : (calls i).1.kmalloc with
  | false =>
    have hexec : execAll calls i q = (-ENOMEM, q.setLimitAs t.signal (calls i).2.limit) :=
      Call.exec_of_starved hacc hadd hmem
    rw [step_eq hpc (by rw [advance, if_pos hmem])]
    exact Rel.returns (congrArg Pc.result hpc) hexec
      (h.finish (congrArg Pc.pending hpc) hacc hexec h.head rfl h.addr
        (fun e he j ha => .inr (h.made e he j ha)) h.fault fun _ _ _ _ hnode => hnode)
  | true =>
    have hadv : advance (calls i).1 (calls i).2 i .alloc x.shared = (.link, x.shared) := by
      rw [advance, hmem]
      rfl
    rw [step_eq hpc hadv]
    exact h.continues hpc rfl rfl ⟨hadd, hmem, t, hacc⟩ rfl

/-- `list_add`: the new node is at an address of its own. -/
theorem Rel.matches_link (h : Rel calls x q) (hpc : x.pc i = .link) :
    Serial.Matches (execAll calls) Config.result (Rel calls) q i x (x.step calls i) := by
  have hi : x.result i = none := congrArg Pc.result hpc
  have hvalid := h.valid i
  rw [hpc] at hvalid
  obtain ⟨hadd, hmem, t, hacc⟩ := hvalid
  have hexec : execAll calls i q = (0, { q.setLimitAs t.signal (calls i).2.limit with
      head := (calls i).2.apply q.head }) :=
    Call.exec_of_succeeds ⟨hacc, fun _ => hmem⟩
  have happly : (calls i).2.apply q.head = ⟨(calls i).2.pid, (calls i).2.limit⟩ :: q.head := by
    cases hc : (calls i).2 with
    | add p v => rfl
    | _ => rw [hc] at hadd; cases hadd
  have hfresh : ∀ e ∈ x.shared.head, e.addr ≠ .made i := fun e he ha => h.made e he i ha hi
  rw [step_eq hpc (by rw [advance])]
  refine Rel.returns hi hexec
    (h.finish (congrArg Pc.pending hpc) hacc hexec ?_ rfl ?_ ?_ h.fault ?_)
  · rw [happly, ← h.head]
    rfl
  · exact Keyed.distinct_cons.2 ⟨hfresh, h.addr⟩
  · intro e he j ha
    rcases List.mem_cons.1 he with rfl | he
    · cases ha
      exact .inl rfl
    · exact .inr (h.made e he j ha)
  · intro j _ _ node hnode hadd
    obtain ⟨e, he, hp, ha⟩ := hnode hadd
    exact ⟨e, List.mem_cons_of_mem _ he, hp, ha⟩

/-- The last step of an update or a remove: its node is still there, and the
    nodes the others found stay. -/
theorem Rel.matches_change (h : Rel calls x q) (hpc : x.pc i = .change node) :
    Serial.Matches (execAll calls) Config.result (Rel calls) q i x (x.step calls i) := by
  have hvalid := h.valid i
  rw [hpc] at hvalid
  obtain ⟨hadd, ⟨t, hacc⟩, hnode⟩ := hvalid
  obtain ⟨e, he, hp, rfl⟩ := hnode hadd
  have hexec : execAll calls i q = (0, { q.setLimitAs t.signal (calls i).2.limit with
      head := (calls i).2.apply q.head }) :=
    Call.exec_of_succeeds ⟨hacc, fun h => by cases hadd.symm.trans h⟩
  have hchange : x.shared.change (calls i).2 (some e.addr) =
      { x.shared with head := (calls i).2.changeAt e.addr x.shared.head } :=
    if_pos (Keyed.isSome_find_iff.2 ⟨e, he, rfl⟩)
  rw [step_eq hpc (by rw [advance, hchange])]
  refine Rel.returns (congrArg Pc.result hpc) hexec
    (h.finish (congrArg Pc.pending hpc) hacc hexec ?_ rfl (distinct_changeAt h.addr) ?_ h.fault ?_)
  · refine (map_node_changeAt h.addr h.distinct he hp hadd).trans ?_
    rw [← h.head]
    rfl
  · intro e' he' j ha
    obtain ⟨e'', he'', heq⟩ := addr_of_mem_changeAt h.addr he'
    exact .inr (h.made e'' he'' j (heq.trans ha))
  · intro j _ hne node hnode hadd'
    obtain ⟨e', he', hp', ha'⟩ := hnode hadd'
    refine ⟨e', mem_changeAt h.addr he' fun ha => hne ?_, hp', ha'⟩
    -- One address is one node, hence one process.
    rw [← hp, ← hp', List.inj_on_of_nodup_map h.addr he' he ha]

/-- Every step of an undisturbed call matches the sequential calls. -/
theorem Rel.matches_step (h : Rel calls x q) (hQ : Undisturbed calls x i) :
    Serial.Matches (execAll calls) Config.result (Rel calls) q i x (x.step calls i) := by
  cases hpc : x.pc i with
  | start => exact h.matches_start hQ hpc
  | prlimit t node => exact h.matches_prlimit hpc
  | find => exact h.matches_find hpc
  | alloc => exact h.matches_alloc hpc
  | link => exact h.matches_link hpc
  | change node => exact h.matches_change hpc
  | returned ret =>
    have hstep : x.step calls i = x := by
      rw [step_eq hpc (by rw [advance]), Config.moveTo, ← hpc, Function.update_eq_self]
    rw [hstep]
    exact .silent rfl h

/-! ## Serialisability -/

omit [DecidableEq ι] in
theorem rel_start (hwf : WellFormed s.head) : Rel calls (Config.start s) s where
  head := by
    rw [Shared.state, Config.start, List.map_map]
    exact List.zipIdx_map_fst 0 s.head
  wellFormed := hwf
  addr := by
    have hidx : (s.head.zipIdx.map Prod.snd).Nodup := by
      rw [List.zipIdx_map_snd]
      exact List.nodup_range'
    have hinj : Function.Injective (Address.initial : Nat → Address ι) :=
      fun _ _ h => Address.initial.inj h
    have haddr := hidx.map hinj
    rw [List.map_map] at haddr
    rw [Keyed.Distinct, Config.start, List.map_map]
    exact haddr
  made e he i ha := by
    obtain ⟨r, _, rfl⟩ := List.mem_map.1 he
    cases ha
  fault := rfl
  pending i t h := by cases h.1
  others _ _ := rfl
  valid _ := trivial
  independent i j _ h := by cases h

omit [DecidableEq ι] in
/-- Once all calls have returned, nothing is pending any more. -/
theorem Rel.state_eq (h : Rel calls x q) (hall : ∀ i, x.result i ≠ none) :
    x.shared.state = q := by
  have hrlim : x.shared.rlim = q.rlim := by
    funext signal
    refine h.others signal fun i t hi => ?_
    exact absurd (Pc.result_of_inFlight (Pc.inFlight_of_pending hi.1)) (hall i)
  have hhead := h.head
  obtain ⟨qhead, qrlim⟩ := q
  rw [Shared.state] at hhead ⊢
  rw [hrlim]
  exact congrArg (fun l => State.mk l qrlim) hhead

/-- From a registry as the calls leave it, however the steps of the calls are
    interleaved, whenever all calls have returned they did what they do in some
    sequential order, if no call passes its checks while another one is in
    flight for the same process id or thread group. -/
theorem always_serialised (calls : ι → Env × Call) (s : State) (hwf : WellFormed s.head)
    (schedule : List ι)
    (h : Machine.Each (Config.step calls) (Undisturbed calls) (.start s) schedule) :
    Machine.Always (Config.step calls)
      (fun x => (∀ i, x.result i ≠ none) → Serialised calls s x) (.start s) schedule := by
  have hexp := Serial.always_explained (execAll calls) Config.result rfl (rel_start hwf) h
    fun x i q hQ hrel => hrel.matches_step hQ
  refine hexp.mono ?_
  rintro x ⟨order, q, hexp, hrel⟩ hall
  refine ⟨hrel.fault, hrel.distinct, order, fun i => hexp.mem_iff.2 (hall i), ?_⟩
  rw [hrel.state_eq hall]
  exact hexp

/-- Limiting one process while the limit of another is removed. -/
def sideBySide : Bool → Env × Call
  | true => (Env.quiet.withTasks Call.twoProcesses, .add 7 4096)
  | false => (Env.quiet.withTasks Call.twoProcesses, .remove 8)

/-- These calls are serialisable in every interleaving; here is one. -/
theorem always_serialised_sideBySide :
    (∀ i, (Machine.run (Config.step sideBySide) (.start ⟨[⟨8, 4096⟩], unlimited.rlim⟩)
      [true, false, false, true, true, true, false, true]).result i ≠ none) ∧
    Serialised sideBySide ⟨[⟨8, 4096⟩], unlimited.rlim⟩
      (Machine.run (Config.step sideBySide) (.start ⟨[⟨8, 4096⟩], unlimited.rlim⟩)
        [true, false, false, true, true, true, false, true]) := by
  have hwf : WellFormed [(⟨8, 4096⟩ : MemoryLimitation)] :=
    ⟨List.nodup_singleton _, by decide, by decide⟩
  have hne : Call.Independent (sideBySide true).1 (sideBySide true).2 (sideBySide false).1
      (sideBySide false).2 := by
    refine ⟨by decide, fun t₁ t₂ h₁ h₂ => ?_⟩
    cases h₁
    cases h₂
    decide
  have hind : ∀ i j, j ≠ i → Call.Independent (sideBySide i).1 (sideBySide i).2
      (sideBySide j).1 (sideBySide j).2 := by
    intro i j hji
    cases i <;> cases j
    exacts [absurd rfl hji, hne.symm, hne, absurd rfl hji]
  have hall : ∀ i, (Machine.run (Config.step sideBySide) (.start ⟨[⟨8, 4096⟩], unlimited.rlim⟩)
      [true, false, false, true, true, true, false, true]).result i ≠ none := by decide
  exact ⟨hall, (always_serialised sideBySide ⟨[⟨8, 4096⟩], unlimited.rlim⟩ hwf _
    fun _ i _ _ _ j hji _ => hind i j hji).run hall⟩

end LuisKernel
