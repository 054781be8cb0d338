import Mathlib.Data.List.Forall2
import LuisKernel.IoThrottle

/-!
# The report of input and output

What the caller of `luis_get_io_throttle` finds in its own structure, in the
declaration of the client.

The loop skips the processes that have neither read nor written, and stops at the
first one for which there is no slot. So the slots it fills are those of the first
twenty *active* processes, in their order (`slots_fillStats`), and its stores are
those of an array with these records, and of their number (`writes_eq`). The client
reads both as they were stored (`luisGetIoThrottle_reports`).
-/

namespace LuisKernel

open Layout

/-- The process has read or written something. -/
def IoTask.Active (task : IoTask) : Prop := task.readBytes ≠ 0 ∨ task.writeBytes ≠ 0

instance : DecidablePred IoTask.Active := fun _ => inferInstanceAs (Decidable (_ ∨ _))

/-- The name of a process has at most 15 characters, and none of them is zero. -/
def IoTask.Named (task : IoTask) : Prop := task.comm.length ≤ 15 ∧ 0 ∉ task.comm

instance : DecidablePred IoTask.Named := fun _ => inferInstanceAs (Decidable (_ ∧ _))

/-- The processes with a slot: the first active ones. -/
def reported (tasks : List IoTask) : List IoTask := (tasks.filter IoTask.Active).take MAX_PROCS

/-- The slot is that of the process: the string in `comm` ends, and is the name. -/
structure IoStats.Describes (x : IoStats) (task : IoTask) : Prop where
  pid : x.pid = task.pid
  terminated : 0 ∈ x.comm.toList
  comm : x.comm.toList.takeWhile (· ≠ 0) = task.comm
  bytesRead : x.bytesRead = task.readBytes
  bytesWritten : x.bytesWritten = task.writeBytes
  cancelledWriteBytes : x.cancelledWriteBytes = task.cancelledWriteBytes

/-- The structure of the client has the number of the reported processes, and a slot for each of
    them, in their order. -/
structure Reports (user : Mem) (tasks : List IoTask) : Prop where
  numProcs : (i32.decode (load user (offsetof Client.allIoStats "num_procs") 4)).toInt =
    (min MAX_PROCS (tasks.countP IoTask.Active) : Nat)
  slots : ∃ slots : List IoStats,
    (readArray user (offsetof Client.allIoStats "stats") Client.ioStats
      (min MAX_PROCS (tasks.countP IoTask.Active))).map IoStats.ofFields = slots.map some ∧
    List.Forall₂ IoStats.Describes slots (reported tasks)

theorem length_reported (tasks : List IoTask) :
    (reported tasks).length = min MAX_PROCS (tasks.countP IoTask.Active) := by
  rw [reported, List.length_take, List.countP_eq_length_filter]

/-! ## The loop -/

section

variable {tasks : List IoTask} {t : Throttle} {task : IoTask}

theorem not_active_iff : ¬task.Active ↔ task.readBytes = 0 ∧ task.writeBytes = 0 := by
  rw [IoTask.Active, not_or, not_not, not_not]

/-- The loop fills slots for the first active processes, as long as there are any. -/
theorem slots_fillStats (tasks : List IoTask) (t : Throttle) :
    (fillStats tasks t).slots.map Prod.snd = t.slots.map Prod.snd ++
      ((tasks.filter IoTask.Active).take (MAX_PROCS - t.i)).map IoTask.stats := by
  induction tasks generalizing t with
  | nil => simp [fillStats]
  | cons task rest ih =>
    rw [fillStats]
    split_ifs with hidle hfull
    · rw [ih, List.filter_cons_of_neg (by simpa using not_active_iff.2 hidle)]
    · rw [Nat.sub_eq_zero_of_le hfull, List.take_zero, List.map_nil, List.append_nil]
    · have hactive : task.Active := not_not.1 (mt not_active_iff.1 hidle)
      have hroom : MAX_PROCS - t.i = MAX_PROCS - (t.i + 1) + 1 := by omega
      rw [ih, List.filter_cons_of_pos (by simpa using hactive), hroom, List.take_succ_cons]
      simp

theorem slots_fillStats_empty (tasks : List IoTask) :
    (fillStats tasks ⟨0, []⟩).slots.map Prod.snd = (reported tasks).map IoTask.stats :=
  slots_fillStats tasks ⟨0, []⟩

theorem Throttle.InOrder.length_slots (h : t.InOrder) : t.slots.length = t.i := by
  rw [← List.length_map Prod.fst, h.indices, List.length_range]

theorem i_fillStats (tasks : List IoTask) :
    (fillStats tasks ⟨0, []⟩).i = min MAX_PROCS (tasks.countP IoTask.Active) := by
  rw [← (fillStats_empty_inOrder tasks).length_slots, ← List.length_map Prod.snd,
    slots_fillStats_empty, List.length_map, length_reported]

/-- The slots are filled up to `MAX_PROCS` at most. -/
theorem Throttle.InOrder.index_lt (h : t.InOrder) {x : Nat × IoStats} (hx : x ∈ t.slots) :
    x.1 < MAX_PROCS := by
  have hmem : x.1 ∈ List.range t.i := h.indices ▸ List.mem_map_of_mem hx
  exact (List.mem_range.1 hmem).trans_le h.bound

end

/-! ## The bytes -/

/-- The stores of consecutive slots are those of an array. -/
theorem flatMap_write_eq (base : Nat) (slots : List (Nat × IoStats)) (k : Nat)
    (h : slots.map Prod.fst = List.range' k slots.length) :
    (slots.flatMap fun x => write (base + x.1 * sizeof Kernel.ioStats) Kernel.ioStats x.2.fields) =
      writeArray (base + k * sizeof Kernel.ioStats) Kernel.ioStats
        ((slots.map Prod.snd).map IoStats.fields) := by
  induction slots generalizing k with
  | nil => rfl
  | cons x slots ih =>
    rw [List.map_cons, List.length_cons, List.range'_succ, List.cons.injEq] at h
    obtain ⟨hx, hslots⟩ := h
    rw [List.flatMap_cons, ih (k + 1) hslots, hx, Nat.succ_mul, ← Nat.add_assoc]
    rfl

/-- The stores of the call: the records of the reported processes, and their number. -/
theorem writes_eq (tasks : List IoTask) :
    (fillStats tasks ⟨0, []⟩).writes = IoStats.writes ((reported tasks).map IoTask.stats)
      (Int32.ofNat (min MAX_PROCS (tasks.countP IoTask.Active))) := by
  have horder := fillStats_empty_inOrder tasks
  have hindices : (fillStats tasks ⟨0, []⟩).slots.map Prod.fst =
      List.range' 0 (fillStats tasks ⟨0, []⟩).slots.length := by
    rw [horder.indices, horder.length_slots, List.range_eq_range']
  rw [Throttle.writes, flatMap_write_eq _ _ 0 hindices, slots_fillStats_empty, i_fillStats,
    Nat.zero_mul, Nat.add_zero, IoStats.writes]

theorem length_stats_reported (tasks : List IoTask) :
    ((reported tasks).map IoTask.stats).length = min MAX_PROCS (tasks.countP IoTask.Active) := by
  rw [List.length_map, length_reported]

theorem length_stats_reported_le (tasks : List IoTask) :
    ((reported tasks).map IoTask.stats).length ≤ MAX_PROCS :=
  (length_stats_reported tasks).le.trans (Nat.min_le_left _ _)

/-- The stores are within the structure. -/
theorem writes_le {tasks : List IoTask} {y : Store} (hy : y ∈ (fillStats tasks ⟨0, []⟩).writes) :
    y.1 + y.2.length ≤ sizeof Kernel.allIoStats := by
  have hnumber : offsetof Kernel.allIoStats "num_procs" + 4 ≤ sizeof Kernel.allIoStats := by decide
  have hslots := IoStats.slots_le (length_stats_reported_le tasks)
  rw [writes_eq] at hy
  rcases List.mem_append.1 hy with hy' | hy'
  · have hfits : ∀ v ∈ ((reported tasks).map IoTask.stats).map IoStats.fields,
        Fits Kernel.ioStats v := List.forall_mem_map.2 fun x _ => x.fits
    have hbound := (writeArray_bounds hfits hy').2
    rw [List.length_map] at hbound
    omega
  · rw [List.mem_singleton.1 hy', i32.length_encode]
    exact hnumber

/-- The slot of a process describes it. -/
theorem describes_stats {task : IoTask} (h : task.Named) : task.stats.Describes task := by
  obtain ⟨hlen, hnul⟩ := h
  have hcomm : task.stats.comm.toList =
      task.comm ++ (List.replicate (17 - task.comm.length) 0 ++ [0]) := by
    have hlist : task.stats.comm.toList = strncpy 17 task.comm ++ [0] := rfl
    rw [hlist, strncpy, List.take_of_length_le (by omega), List.append_assoc]
  have hchars : ∀ c ∈ task.comm, decide (c ≠ 0) = true := fun c hc =>
    decide_eq_true fun hzero => hnul (hzero ▸ hc)
  refine ⟨rfl, ?_, ?_, rfl, rfl, rfl⟩
  · rw [hcomm]
    simp
  · rw [hcomm, List.takeWhile_append_of_pos hchars]
    have hzeros : List.replicate (17 - task.comm.length) (0 : UInt8) ++ [0] =
        List.replicate (17 - task.comm.length + 1) 0 := List.replicate_succ'.symm
    rw [hzeros]
    simp

/-- The client finds the report in its structure after the copy. -/
theorem reports_copied {tasks : List IoTask} (hnamed : ∀ task ∈ tasks, task.Named)
    (init user : Mem) :
    Reports (copyTo user (stores init (fillStats tasks ⟨0, []⟩).writes)
      (sizeof Kernel.allIoStats)) tasks := by
  have hle : min MAX_PROCS (tasks.countP IoTask.Active) ≤ 20 := Nat.min_le_left _ _
  rw [writes_eq]
  refine ⟨?_, (reported tasks).map IoTask.stats, ?_, ?_⟩
  · rw [IoStats.load_copied]
    exact Int32.toInt_ofNat_of_lt (by omega)
  · rw [← length_stats_reported]
    exact IoStats.readArray_copied (length_stats_reported_le tasks) _
  · rw [List.forall₂_map_left_iff, List.forall₂_same]
    exact fun task htask => describes_stats
      (hnamed task (List.mem_of_mem_filter (List.mem_of_mem_take htask)))

/-- A call that succeeds gives the client the first twenty active processes, whatever was on the
    stack and in the structure of the client, and no call stores a slot past the last one. -/
theorem luisGetIoThrottle_reports (env : Env) (userStats : UInt64) (tasks : List IoTask)
    (init user : Mem) (hnamed : ∀ task ∈ tasks, task.Named) :
    ((luisGetIoThrottle env userStats tasks init).1 = 0 →
      ∃ bytes, (luisGetIoThrottle env userStats tasks init).2 = some bytes ∧
        Reports (store user (0, bytes)) tasks) ∧
    (∀ x ∈ (fillStats tasks ⟨0, []⟩).slots, x.1 < MAX_PROCS) ∧
    ∀ y ∈ (fillStats tasks ⟨0, []⟩).writes, y.1 + y.2.length ≤ sizeof Kernel.allIoStats := by
  refine ⟨fun hzero => ?_, fun x hx => (fillStats_empty_inOrder tasks).index_lt hx,
    fun y hy => writes_le hy⟩
  rw [luisGetIoThrottle] at hzero ⊢
  split_ifs at hzero ⊢
  · exact absurd hzero (by decide)
  · exact absurd hzero (by decide)
  · exact ⟨_, rfl, reports_copied hnamed init user⟩

/-- Of three processes, the second one is idle. -/
theorem luisGetIoThrottle_reports_two :
    ∃ bytes, (luisGetIoThrottle Env.quiet 0 [⟨1, [105, 110, 105, 116], 512, 0, 0, 90, 30⟩,
        ⟨2, [107], 0, 0, 0, 10, 10⟩, ⟨7, [98, 97, 115, 104], 0, 64, 8, 90, 30⟩]
        fun _ => 170).2 = some bytes ∧
      Reports (store (fun _ => 255) (0, bytes)) [⟨1, [105, 110, 105, 116], 512, 0, 0, 90, 30⟩,
        ⟨2, [107], 0, 0, 0, 10, 10⟩, ⟨7, [98, 97, 115, 104], 0, 64, 8, 90, 30⟩] :=
  (luisGetIoThrottle_reports Env.quiet 0 _ _ _ (by decide)).1 rfl

end LuisKernel
