import LuisKernel.Registry.Frame
import LuisKernel.Registry.Leak

/-!
# What a listing shows

An add puts its node in front of the list, an update changes a node where it is
and a remove takes it out. So a listing tells the *history* of the registry: it
shows the registered process ids, the one added last first, each with the limit
given last. The history is kept apart from the list, as the calls that have
returned `0` (`history`).

This is said of the memory of the user (`Fill.toUser`), to which the entries are
copied first and the count is written last. So it is right if the count has a
place of its own (`listing_newest_first`); a count in the buffer overwrites the
entries (`listing_overwritten`).
-/

namespace LuisKernel

open Layout

/-! ## The history -/

/-- The registry and the calls that have returned `0` so far, the latest first,
    after one more request. -/
def logged (x : State × List Call) (e : Env × Request) : State × List Call :=
  (serve x.1 e,
    match e.2 with
    | .call c => if (c.exec e.1 x.1).1 = 0 then c :: x.2 else x.2
    | .get _ _ _ => x.2)

/-- The calls that returned `0` in a run from the empty list, the latest first. -/
def history (rlim : Nat → Resource → Rlimit) (rs : List (Env × Request)) : List Call :=
  (Machine.run logged (⟨[], rlim⟩, []) rs).2

/-- The place in the history of the most recent add of `p`, counted from the
    first call on, unless `p` has been removed since. -/
def addedAt : List Call → PidT → Option Nat
  | [], _ => none
  | .add q _ :: h, p => if q = p then some h.length else addedAt h p
  | .update _ _ :: h, p => addedAt h p
  | .remove q :: h, p => if q = p then none else addedAt h p

/-- The limit given by the last add or update of `p`. -/
def lastLimit : List Call → PidT → Option SizeT
  | [], _ => none
  | .add q v :: h, p => if q = p then some v else lastLimit h p
  | .update q v :: h, p => if q = p then some v else lastLimit h p
  | .remove _ :: h, p => lastLimit h p

/-- The registered process ids according to the history, in the order of their
    adds, the latest first. -/
structure NewestFirst (h : List Call) (order : List PidT) : Prop where
  mem_iff : ∀ p, p ∈ order ↔ (addedAt h p).isSome
  sorted : order.Pairwise fun p q => ∀ t u, addedAt h p = some t → addedAt h q = some u → u < t

section

variable {h : List Call} {order order' : List PidT} {p q : PidT} {v : SizeT} {t : Nat}

theorem addedAt_lt_length (ht : addedAt h p = some t) : t < h.length := by
  induction h with
  | nil => cases ht
  | cons c h ih =>
    rw [List.length_cons]
    cases c with
    | add q v =>
      rw [addedAt] at ht
      split_ifs at ht with hq
      · cases ht
        exact Nat.lt_succ_self _
      · exact Nat.lt_succ_of_lt (ih ht)
    | update q v => exact Nat.lt_succ_of_lt (ih ht)
    | remove q =>
      rw [addedAt] at ht
      split_ifs at ht with hq
      exact Nat.lt_succ_of_lt (ih ht)

namespace NewestFirst

/-- Two process ids in the order are not the same, as an add is not before itself. -/
theorem nodup (ho : NewestFirst h order) : order.Nodup := by
  rw [List.nodup_iff_pairwise_ne]
  refine ho.sorted.imp_of_mem ?_
  rintro p q hp _ hlt rfl
  obtain ⟨t, ht⟩ := Option.isSome_iff_exists.1 ((ho.mem_iff p).1 hp)
  exact lt_irrefl t (hlt t t ht ht)

/-- The history determines the order. -/
theorem unique (ho : NewestFirst h order) (ho' : NewestFirst h order') : order' = order := by
  have hperm : order'.Perm order := (List.perm_ext_iff_of_nodup ho'.nodup ho.nodup).2 fun p => by
    rw [ho.mem_iff, ho'.mem_iff]
  refine hperm.eq_of_pairwise (fun p q hp hq hpq hqp => ?_) ho'.sorted ho.sorted
  obtain ⟨t, ht⟩ := Option.isSome_iff_exists.1 ((ho'.mem_iff p).1 hp)
  obtain ⟨u, hu⟩ := Option.isSome_iff_exists.1 ((ho.mem_iff q).1 hq)
  exact absurd (hpq t u ht hu) (not_lt.2 (hqp u t hu ht).le)

/-- A call that does not concern the processes in the order leaves them sorted. -/
theorem sorted_congr (ho : NewestFirst h order) {h' : List Call} (hsub : order'.Sublist order)
    (hsame : ∀ q ∈ order', addedAt h' q = addedAt h q) :
    order'.Pairwise fun p q => ∀ t u, addedAt h' p = some t → addedAt h' q = some u → u < t := by
  refine (ho.sorted.sublist hsub).imp_of_mem fun {a b} ha hb hab => ?_
  rw [hsame a ha, hsame b hb]
  exact hab

theorem nil : NewestFirst [] [] where
  mem_iff p := by simp [addedAt]
  sorted := .nil

/-- An add goes to the front, … -/
theorem add (ho : NewestFirst h order) (hp : p ∉ order) :
    NewestFirst (.add p v :: h) (p :: order) := by
  have hother : ∀ q ∈ order, addedAt (.add p v :: h) q = addedAt h q :=
    fun q hq => if_neg fun (hpq : p = q) => hp (hpq ▸ hq)
  have hself : addedAt (.add p v :: h) p = some h.length := if_pos rfl
  refine ⟨fun q => ?_,
    List.pairwise_cons.2 ⟨fun q hq t u ht hu => ?_, ho.sorted_congr (.refl _) hother⟩⟩
  · rw [List.mem_cons]
    by_cases hqp : q = p
    · simp [hqp, hself]
    · rw [addedAt, if_neg fun hpq => hqp hpq.symm, ho.mem_iff]
      simp [hqp]
  · rw [hself] at ht
    cases ht
    exact addedAt_lt_length ((hother q hq).symm.trans hu)

/-- … an update changes no place, … -/
theorem update (ho : NewestFirst h order) : NewestFirst (.update p v :: h) order :=
  ⟨ho.mem_iff, ho.sorted⟩

/-- … and a remove takes its process out. -/
theorem remove (ho : NewestFirst h order) : NewestFirst (.remove p :: h) (order.erase p) := by
  have hother : ∀ q ∈ order.erase p, addedAt (.remove p :: h) q = addedAt h q :=
    fun q hq => if_neg fun hpq => (ho.nodup.mem_erase_iff.1 hq).1 hpq.symm
  refine ⟨fun q => ?_, ho.sorted_congr List.erase_sublist hother⟩
  rw [ho.nodup.mem_erase_iff, ho.mem_iff]
  by_cases hqp : q = p
  · simp [hqp, addedAt]
  · rw [addedAt, if_neg fun hpq => hqp hpq.symm]
    simp [hqp]

end NewestFirst

end

/-! ## The list and the history -/

/-- The list is what the history says: its process ids are the registered ones,
    newest first, and its limits those given last. -/
structure Listed (s : State) (h : List Call) : Prop where
  wellFormed : WellFormed s.head
  order : NewestFirst h (s.head.map MemoryLimitation.pid)
  limit : ∀ n ∈ s.head, lastLimit h n.pid = some n.memoryLimit

variable {maxEntries : SizeT} {head : List MemoryLimitation} {env : Env} {c : Call} {s : State}
  {h : List Call} {t : TaskStruct}

/-- The limit given last, after a call that succeeded. -/
theorem lastLimit_of_mem_apply (hl : Listed s h) (hadm : c.Admitted env s.head t)
    {n : MemoryLimitation} (hn : n ∈ c.apply s.head) :
    lastLimit (c :: h) n.pid = some n.memoryLimit := by
  rcases (hl.wellFormed.mem_apply_iff hadm).1 hn with ⟨hmem, hne⟩ | ⟨hrem, rfl⟩
  · have hlimit := hl.limit n hmem
    cases c with
    | add p v => rw [lastLimit, if_neg fun hp => hne hp.symm, hlimit]
    | update p v => rw [lastLimit, if_neg fun hp => hne hp.symm, hlimit]
    | remove p => exact hlimit
  · cases c with
    | add p v => exact if_pos rfl
    | update p v => exact if_pos rfl
    | remove p => cases hrem

/-- A call that succeeds does to the list what it adds to the history. -/
theorem Listed.apply (hl : Listed s h) (hadm : c.Admitted env s.head t)
    {s' : State} (hs' : s'.head = c.apply s.head) : Listed s' (c :: h) := by
  refine ⟨?_, ?_, ?_⟩
  · rw [hs']
    exact hl.wellFormed.apply hadm
  · rw [hs']
    cases c with
    | add p v =>
      refine hl.order.add fun hp => ?_
      obtain ⟨n, hn, hpid⟩ := List.mem_map.1 hp
      exact Keyed.find_eq_none_iff.1 (hadm.find_eq_none rfl) n hn hpid
    | update p v =>
      rw [Call.apply, Keyed.map_key_write (pid_setLimit v)]
      exact hl.order.update
    | remove p =>
      rw [Call.apply, Keyed.map_key_erase]
      exact hl.order.remove
  · rw [hs']
    exact fun n hn => lastLimit_of_mem_apply hl hadm hn

/-- Every request keeps the list in step with the history. -/
theorem Listed.logged {x : State × List Call} {e : Env × Request} (hl : Listed x.1 x.2) :
    Listed (logged x e).1 (logged x e).2 := by
  obtain ⟨s, h⟩ := x
  obtain ⟨env, c | _⟩ := e
  · rcases hexec : c.exec env s with ⟨ret, s'⟩
    have hlogged : LuisKernel.logged (s, h) (env, .call c) =
        (s', if ret = 0 then c :: h else h) := by
      simp only [LuisKernel.logged, serve, Request.exec, hexec]
    rw [hlogged]
    cases Call.exec_outcome hexec with
    | rejected herr =>
      rw [if_neg (Call.ne_zero_of_checks herr)]
      exact hl
    | refused _ hret =>
      rw [if_neg hret]
      exact hl
    | starved _ _ _ =>
      -- The limit of the process has changed, the list has not.
      rw [if_neg (by decide)]
      exact ⟨hl.wellFormed, hl.order, hl.limit⟩
    | done hsucc =>
      rw [if_pos rfl]
      exact hl.apply hsucc.toAdmitted rfl
  · exact hl

theorem run_logged (x : State × List Call) (rs : List (Env × Request)) :
    (Machine.run logged x rs).1 = Machine.run serve x.1 rs := by
  induction rs generalizing x with
  | nil => rfl
  | cons e rs ih =>
    rw [Machine.run_cons, ih, Machine.run_cons]
    rfl

/-- After every run from the empty list, the list is what the history says. -/
theorem listed_run (rlim : Nat → Resource → Rlimit) (rs : List (Env × Request)) :
    Listed (Machine.run serve ⟨[], rlim⟩ rs) (history rlim rs) := by
  have hnil : Listed ⟨[], rlim⟩ [] :=
    ⟨wellFormed_nil, .nil, fun n hn => absurd hn List.not_mem_nil⟩
  have hrun : Machine.Always logged (fun x => Listed x.1 x.2) (⟨[], rlim⟩, []) rs :=
    Machine.always_of_step (R := fun _ => True) hnil (fun _ _ => trivial)
      fun _ _ _ => Listed.logged
  have hlast := hrun.run
  rw [run_logged] at hlast
  exact hlast

/-- There are fewer nodes than values of an `int`: their process ids are
    positive and distinct. -/
theorem WellFormed.length_lt (hwf : WellFormed head) : head.length < 2 ^ 31 := by
  have hpos : ∀ n ∈ head, 0 < n.pid.toInt := fun n hn => Int32.lt_iff_toInt_lt.1 (hwf.pid_pos n hn)
  have hnodup : (head.map fun n => n.pid.toInt.toNat).Nodup := by
    refine List.Nodup.map_on (fun n hn n' hn' heq => ?_) hwf.distinct.of_map
    have hn₀ := hpos n hn
    have hn₀' := hpos n' hn'
    have hpid : n.pid = n'.pid := Int32.toInt_inj.1 (by omega)
    exact List.inj_on_of_nodup_map hwf.distinct hn hn' hpid
  have hsub : (head.map fun n => n.pid.toInt.toNat) ⊆ List.range' 1 (2 ^ 31 - 1) := by
    intro k hk
    obtain ⟨n, hn, rfl⟩ := List.mem_map.1 hk
    have hn₀ := hpos n hn
    have hn₁ := n.pid.toInt_lt
    rw [List.mem_range'_1]
    omega
  have hlen := (List.subperm_of_subset hnodup hsub).length_le
  rw [List.length_map, List.length_range'] at hlen
  omega

/-- A call that returns `0` is added to the history, no other call is. -/
theorem history_concat (rlim : Nat → Resource → Rlimit) (rs : List (Env × Request)) (env : Env)
    (c : Call) : history rlim (rs ++ [(env, .call c)]) =
      if (c.exec env (Machine.run serve ⟨[], rlim⟩ rs)).1 = 0 then c :: history rlim rs
      else history rlim rs := by
  rw [history, Machine.run_concat, logged, run_logged]
  rfl

/-! ## The listing -/

/-- The memory of the user after a call that returned `0`: `copy_to_user` of the
    entries to `u_processes_buffer`, then `put_user` of the count. The allocated
    buffer had the contents `init`. -/
def Fill.toUser (f : Fill) (init user : Mem) (uProcessesBuffer processesBufferSize : UInt64) :
    Mem :=
  Layout.stores user [(uProcessesBuffer.toNat, f.copied init),
    (processesBufferSize.toNat, i32.encode f.count)]

/-- The memory `user'`, which was `user` before, lists the process ids `shown`: it has
    their number, the first slots of the buffer hold them in this order, each with
    the limit given to it last, and nothing else is written. -/
structure Shows (h : List Call) (shown : List PidT) (uProcessesBuffer processesBufferSize : UInt64)
    (user user' : Mem) : Prop where
  count : (i32.decode (load user' processesBufferSize.toNat 4)).toInt = shown.length
  slots : ∃ entries : List MemoryLimitation, entries.map MemoryLimitation.pid = shown ∧
    (∀ n ∈ entries, lastLimit h n.pid = some n.memoryLimit) ∧
    (readArray user' uProcessesBuffer.toNat Client.memoryLimitation shown.length).map
      MemoryLimitation.ofFields = entries.map some
  rest : ∀ k, (k < uProcessesBuffer.toNat ∨
      uProcessesBuffer.toNat + shown.length * sizeof Client.memoryLimitation ≤ k) →
    (k < processesBufferSize.toNat ∨ processesBufferSize.toNat + 4 ≤ k) → user' k = user k

/-- The count is written to a place that is not in the buffer. -/
def CountApart (uProcessesBuffer : UInt64) (maxEntries : SizeT) (processesBufferSize : UInt64) :
    Prop :=
  processesBufferSize.toNat + 4 ≤ uProcessesBuffer.toNat ∨
    uProcessesBuffer.toNat + maxEntries.toNat * sizeof Client.memoryLimitation ≤
      processesBufferSize.toNat

instance (uProcessesBuffer : UInt64) (maxEntries : SizeT) (processesBufferSize : UInt64) :
    Decidable (CountApart uProcessesBuffer maxEntries processesBufferSize) :=
  inferInstanceAs (Decidable (_ ∨ _))

/-- The listing of a list that is what the history says. -/
theorem Listed.shows {uProcessesBuffer processesBufferSize : UInt64} (hl : Listed s h)
    (hapart : CountApart uProcessesBuffer maxEntries processesBufferSize) (init user : Mem) :
    Shows h ((s.head.map MemoryLimitation.pid).take maxEntries.toNat) uProcessesBuffer
      processesBufferSize user ((fillBuffer maxEntries s.head ⟨0, []⟩).toUser init user
        uProcessesBuffer processesBufferSize) := by
  have hlen := hl.wellFormed.length_lt
  have hint : min maxEntries.toNat s.head.length < 2 ^ 31 := by omega
  have hshown : ((s.head.map MemoryLimitation.pid).take maxEntries.toNat).length =
      (s.head.take maxEntries.toNat).length := by
    rw [← List.map_take, List.length_map]
  have hcopied : ((fillBuffer maxEntries s.head ⟨0, []⟩).copied init).length =
      (s.head.take maxEntries.toNat).length * sizeof Client.memoryLimitation := by
    rw [Fill.copied, length_load, copyLength_fillBuffer hint]
    rfl
  have hle : (s.head.take maxEntries.toNat).length * sizeof Client.memoryLimitation ≤
      maxEntries.toNat * sizeof Client.memoryLimitation :=
    Nat.mul_le_mul_right _ (List.length_take_le _ _)
  refine ⟨?_, ⟨s.head.take maxEntries.toNat, List.map_take, fun n hn => ?_, ?_⟩,
    fun k hbuffer hcount => ?_⟩
  · rw [Fill.toUser, stores_cons, stores_cons, stores_nil,
      load_store_self (i32.length_encode _), i32.decode_encode, fillBuffer_empty hint, hshown,
      List.length_take]
    exact Int32.toInt_ofNat_of_lt hint
  · exact hl.limit n (List.mem_of_mem_take hn)
  · -- the count is not in the slots that are read
    have hout : ∀ x ∈ [(processesBufferSize.toNat,
        i32.encode (fillBuffer maxEntries s.head ⟨0, []⟩).count)], Outside x uProcessesBuffer.toNat
        ((s.head.take maxEntries.toNat).length * sizeof Client.memoryLimitation) := by
      intro x hx
      rw [List.mem_singleton.1 hx, Outside, i32.length_encode]
      rcases hapart with hbefore | hbehind
      · exact .inl hbefore
      · exact .inr (by omega)
    rw [Fill.toUser, stores_cons, hshown, readArray_stores_of_outside hout]
    exact readArray_copied hint init user _
  · rw [Fill.toUser]
    refine stores_of_not_covered fun x hx hcovers => ?_
    rw [hshown, ← hcopied] at hbuffer
    rcases List.mem_pair.1 hx with rfl | rfl
    · exact absurd hbuffer (by obtain ⟨h₁, h₂⟩ := hcovers; dsimp only at h₁ h₂; omega)
    · rw [Covers, i32.length_encode] at hcovers
      omega

/-- A listing that meets no failure, and whose count is not in the buffer, shows
    the process ids registered according to the history, the one added last
    first, as many as there is room for. An update keeps the order, and a process
    that is removed and added again moves to the front. -/
theorem listing_newest_first (rlim : Nat → Resource → Rlimit) (rs : List (Env × Request))
    (env : Env) (uProcessesBuffer : UInt64) (maxEntries : SizeT) (processesBufferSize : UInt64)
    (hmax : 1 ≤ maxEntries)
    (hbuffer : env.accessOk uProcessesBuffer (maxEntries * sizeofMemoryLimitation) = true)
    (hsize : env.accessOk processesBufferSize sizeofInt = true)
    (halloc : env.kmallocArray maxEntries sizeofMemoryLimitation = true)
    (hcopy : env.copyToUser = true) (hput : env.putUser = true)
    (hapart : CountApart uProcessesBuffer maxEntries processesBufferSize) :
    ∃ order, NewestFirst (history rlim rs) order ∧ order.Nodup ∧
      (∀ order', NewestFirst (history rlim rs) order' → order' = order) ∧
      (∃ f, luisGetMemoryLimits env uProcessesBuffer maxEntries processesBufferSize
          (Machine.run serve ⟨[], rlim⟩ rs) = (0, some f, some f.count) ∧
        ∀ init user : Mem, Shows (history rlim rs) (order.take maxEntries.toNat) uProcessesBuffer
          processesBufferSize user
          (f.toUser init user uProcessesBuffer processesBufferSize)) ∧
      (∀ env' p v, NewestFirst (history rlim (rs ++ [(env', .call (.update p v))])) order) ∧
      ∀ env₁ env₂ p v,
        ((Call.remove p).exec env₁ (Machine.run serve ⟨[], rlim⟩ rs)).1 = 0 →
        ((Call.add p v).exec env₂
          (Machine.run serve ⟨[], rlim⟩ (rs ++ [(env₁, .call (.remove p))]))).1 = 0 →
        NewestFirst (history rlim (rs ++ [(env₁, .call (.remove p)), (env₂, .call (.add p v))]))
          (p :: order.erase p) := by
  have hl := listed_run rlim rs
  refine ⟨_, hl.order, hl.order.nodup, fun _ => hl.order.unique, ?_, fun env' p v => ?_,
    fun env₁ env₂ p v hremove hadd => ?_⟩
  · have hpos : ¬maxEntries ≤ 0 := UInt64.not_le.2 hmax
    refine ⟨fillBuffer maxEntries (Machine.run serve ⟨[], rlim⟩ rs).head ⟨0, []⟩, ?_,
      hl.shows hapart⟩
    simp only [luisGetMemoryLimits, if_neg hpos, hbuffer, hsize, halloc, hcopy, hput, or_self,
      Bool.true_eq_false, if_false]
  · rw [history_concat]
    split_ifs
    · exact hl.order.update
    · exact hl.order
  · have hcons : rs ++ [(env₁, Request.call (.remove p)), (env₂, .call (.add p v))] =
        (rs ++ [(env₁, .call (.remove p))]) ++ [(env₂, .call (.add p v))] := by simp
    rw [hcons, history_concat, if_pos hadd, history_concat, if_pos hremove]
    exact hl.order.remove.add hl.order.nodup.not_mem_erase

/-- Two processes are added, one after the other. -/
def addedBoth : List (Env × Request) :=
  [(Env.quiet.withTasks Call.twoProcesses, .call (.add 7 4096)),
    (Env.quiet.withTasks Call.twoProcesses, .call (.add 8 2048))]

/-- The listing of both, in memory that was not zero. -/
theorem listing_newest_first_two :
    ∃ f, luisGetMemoryLimits Env.quiet 4096 10 8192
        (Machine.run serve ⟨[], fun _ _ => ⟨4096, 4096⟩⟩ addedBoth) = (0, some f, some f.count) ∧
      (readArray (f.toUser (fun _ => 170) (fun _ => 255) 4096 8192) 4096 Client.memoryLimitation
        2).map MemoryLimitation.ofFields = [some ⟨8, 2048⟩, some ⟨7, 4096⟩] := by
  obtain ⟨order, -, -, hunique, ⟨f, hf, hshows⟩, -⟩ := listing_newest_first
    (fun _ _ => ⟨4096, 4096⟩) addedBoth Env.quiet 4096 10 8192 (by decide) rfl rfl rfl rfl rfl
    (by decide)
  have horder : NewestFirst (history (fun _ _ => ⟨4096, 4096⟩) addedBoth) [8, 7] :=
    (NewestFirst.nil.add (v := 4096) (by decide)).add (v := 2048) (by decide)
  rw [← hunique _ horder] at hshows
  obtain ⟨entries, hpids, hlimits, hread⟩ := (hshows (fun _ => 170) fun _ => 255).slots
  refine ⟨f, hf, ?_⟩
  have hlen : entries.length = 2 := by
    have hmap := congrArg List.length hpids
    rwa [List.length_map] at hmap
  obtain ⟨⟨p, v⟩, ⟨q, w⟩, rfl⟩ := List.length_eq_two.1 hlen
  obtain ⟨rfl, rfl⟩ : p = 8 ∧ q = 7 := by simpa using hpids
  have hv : some 2048 = some v := hlimits ⟨8, v⟩ List.mem_cons_self
  have hw : some 4096 = some w := hlimits ⟨7, w⟩ (List.mem_cons_of_mem _ List.mem_cons_self)
  rw [← Option.some.inj hv, ← Option.some.inj hw] at hread
  exact hread

/-- A count at the first slot of the buffer is found in place of its process id. -/
theorem listing_overwritten :
    ∃ f, luisGetMemoryLimits Env.quiet 4096 10 4096
        (Machine.run serve ⟨[], fun _ _ => ⟨4096, 4096⟩⟩ (addedBoth.take 1)) =
          (0, some f, some f.count) ∧
      NewestFirst (history (fun _ _ => ⟨4096, 4096⟩) (addedBoth.take 1)) [7] ∧
      (readArray (f.toUser (fun _ => 170) (fun _ => 255) 4096 4096) 4096 Client.memoryLimitation
        1).map MemoryLimitation.ofFields = [some ⟨1, 4096⟩] :=
  ⟨_, rfl, NewestFirst.nil.add (v := 4096) (by decide), by decide +kernel⟩

end LuisKernel
