import LuisKernel.Records

/-!
# The statistics of input and output

`luis_get_io_throttle` goes over the processes, takes the first twenty that have
read or written anything, and copies a structure with a slot for each of them to
the user. The structure is a local variable; the loop writes the slots it needs,
and the copy is of all of it.

The bytes that are written are the fields of the slots that were filled, and the
number of processes (`exists_covers_iff`). The others come from the stack: the
slots that were not filled, two bytes in every slot that was, and the last four
bytes of the structure. As the last ones are never written, there is no list of
processes for which the copy does not depend on the stack
(`luisGetIoThrottle_never_const`).
-/

namespace LuisKernel

open Layout

/-- What the call reads of a `task_struct`. The name `comm` is a string, without
    the zero that ends it. -/
structure IoTask where
  pid : PidT
  comm : List UInt8
  readBytes : UInt64
  writeBytes : UInt64
  cancelledWriteBytes : UInt64
  sumExecRuntime : UInt64
  vruntime : UInt64
  deriving DecidableEq, Repr

/-- The characters that `strncpy` stores: what the string leaves of the `n`
    characters is filled with zeros. -/
def strncpy (n : Nat) (s : List UInt8) : List UInt8 := s.take n ++ List.replicate (n - s.length) 0

theorem length_strncpy (n : Nat) (s : List UInt8) : (strncpy n s).length = n := by
  rw [strncpy, List.length_append, List.length_take, List.length_replicate]
  omega

/-- The slot of a process: the name is copied to the first 17 characters of
    `comm`, and the last one is zero. -/
def IoTask.stats (task : IoTask) : IoStats where
  pid := task.pid
  comm := ⟨(strncpy 17 task.comm ++ [0]).toArray, by simp [length_strncpy]⟩
  bytesRead := task.readBytes
  bytesWritten := task.writeBytes
  cancelledWriteBytes := task.cancelledWriteBytes
  ioWaitTime := task.sumExecRuntime - task.vruntime

/-- The structure while it is filled: the next slot, and the slots stored, each
    with its index. -/
structure Throttle where
  i : Nat
  slots : List (Nat × IoStats)
  deriving DecidableEq

/-- The loop of `luis_get_io_throttle` over the processes. -/
def fillStats : List IoTask → Throttle → Throttle
  | [], t => t
  | task :: rest, t =>
    if task.readBytes = 0 ∧ task.writeBytes = 0 then fillStats rest t
    else if t.i ≥ MAX_PROCS then t
    else fillStats rest ⟨t.i + 1, t.slots ++ [(t.i, task.stats)]⟩

/-- The stores of the loop in the bytes of `kernel_stats`, and that of `num_procs`. -/
def Throttle.writes (t : Throttle) : List Store :=
  (t.slots.flatMap fun x =>
    write (offsetof Kernel.allIoStats "stats" + x.1 * sizeof Kernel.ioStats) Kernel.ioStats
      x.2.fields) ++
    [(offsetof Kernel.allIoStats "num_procs", i32.encode (Int32.ofNat t.i))]

/-- The bytes of `kernel_stats` when they are copied, if its contents were
    `init` at first. -/
def copiedStats (tasks : List IoTask) (init : Mem) : List UInt8 :=
  load (stores init (fillStats tasks ⟨0, []⟩).writes) 0 (sizeof Kernel.allIoStats)

/-- `luis_get_io_throttle`: the return value, and the bytes copied to `user_stats`. -/
def luisGetIoThrottle (env : Env) (userStats : UInt64) (tasks : List IoTask) (init : Mem) :
    Int × Option (List UInt8) :=
  if env.accessOk userStats (UInt64.ofNat (sizeof Kernel.allIoStats)) = false then (-EFAULT, none)
  else if env.copyToUser = false then (-EFAULT, none)
  else (0, some (copiedStats tasks init))

/-! ## The slots -/

/-- The slots `0, …, i - 1` are stored, one after the other, and no other. -/
structure Throttle.InOrder (t : Throttle) : Prop where
  indices : t.slots.map Prod.fst = List.range t.i
  bound : t.i ≤ MAX_PROCS

/-- The loop fills the slots in their order. -/
theorem fillStats_inOrder {tasks : List IoTask} {t : Throttle} (h : t.InOrder) :
    (fillStats tasks t).InOrder := by
  induction tasks generalizing t with
  | nil => exact h
  | cons task rest ih =>
    rw [fillStats]
    split_ifs with hidle hfull
    · exact ih h
    · exact h
    · refine ih ⟨?_, Nat.lt_of_not_le hfull⟩
      rw [List.map_append, h.indices, List.range_succ]
      rfl

theorem fillStats_empty_inOrder (tasks : List IoTask) : (fillStats tasks ⟨0, []⟩).InOrder :=
  fillStats_inOrder ⟨rfl, Nat.zero_le _⟩

/-! ## The bytes -/

/-- The stores of a slot leave out the two bytes after the name. -/
theorem exists_covers_slot_iff {x : IoStats} {base k : Nat} :
    (∃ y ∈ write base Kernel.ioStats x.fields, Covers y k) ↔
      (base ≤ k ∧ k < base + 22) ∨ base + 24 ≤ k ∧ k < base + 56 := by
  have hwrite : write base Kernel.ioStats x.fields =
      [(base, i32.encode x.pid), (base + 4, (chars 18).encode x.comm),
        (base + 24, u64.encode x.bytesRead), (base + 32, u64.encode x.bytesWritten),
        (base + 40, u64.encode x.cancelledWriteBytes), (base + 48, u64.encode x.ioWaitTime)] := rfl
  simp only [hwrite, List.exists_mem_cons_iff, List.not_mem_nil, false_and, exists_false, or_false,
    Covers, Codec.length_encode, Nat.add_assoc, Nat.reduceAdd]
  omega

/-- The bytes of the structure that are written: those of the filled slots, but
    for two bytes in each, and those of the number of processes. -/
theorem exists_covers_iff {t : Throttle} (h : t.InOrder) {k : Nat} :
    (∃ y ∈ t.writes, Covers y k) ↔
      (k < t.i * 56 ∧ ¬(22 ≤ k % 56 ∧ k % 56 < 24)) ∨ (1120 ≤ k ∧ k < 1124) := by
  have hsize : sizeof Kernel.ioStats = 56 := rfl
  have hstats : offsetof Kernel.allIoStats "stats" = 0 := rfl
  have hprocs : offsetof Kernel.allIoStats "num_procs" = 1120 := rfl
  rw [Throttle.writes, hsize, hstats, hprocs]
  simp only [List.mem_append, or_and_right, exists_or, List.mem_singleton, exists_eq_left, Covers,
    Codec.length_encode]
  refine or_congr_left ?_
  constructor
  · rintro ⟨y, hy, hcov⟩
    obtain ⟨x, hx, hy⟩ := List.mem_flatMap.1 hy
    have hi : x.1 < t.i := by
      rw [← List.mem_range, ← h.indices]
      exact List.mem_map_of_mem hx
    have hbyte := exists_covers_slot_iff.1 ⟨y, hy, hcov⟩
    omega
  · rintro ⟨hk, hpad⟩
    -- The byte is in the slot `k / 56`.
    have hmem : k / 56 ∈ t.slots.map Prod.fst := by
      rw [h.indices, List.mem_range]
      omega
    obtain ⟨x, hx, hindex⟩ := List.mem_map.1 hmem
    obtain ⟨y, hy, hcov⟩ : ∃ y ∈ write (0 + x.1 * 56) Kernel.ioStats x.2.fields, Covers y k :=
      exists_covers_slot_iff.2 (by omega)
    exact ⟨y, List.mem_flatMap.2 ⟨x, hx, hy⟩, hcov⟩

/-- Two contents of the stack give the same copy if and only if they agree on the
    bytes that are not written. -/
theorem copiedStats_eq_iff {tasks : List IoTask} {init init' : Mem} :
    copiedStats tasks init = copiedStats tasks init' ↔
      ∀ k < 1128, ¬((k < (fillStats tasks ⟨0, []⟩).i * 56 ∧ ¬(22 ≤ k % 56 ∧ k % 56 < 24)) ∨
        (1120 ≤ k ∧ k < 1124)) → init k = init' k := by
  have hsize : sizeof Kernel.allIoStats = 1128 := rfl
  rw [copiedStats, copiedStats, load_stores_eq_iff, hsize]
  refine forall_congr' fun k => forall_congr' fun _ => ?_
  rw [← exists_covers_iff (fillStats_empty_inOrder tasks)]
  push Not
  rfl

/-- A call that succeeds never copies the same whatever was on the stack: the
    last bytes of the structure come from there, for every list of processes. -/
theorem luisGetIoThrottle_never_const (env : Env) (userStats : UInt64) (tasks : List IoTask)
    (haccess : env.accessOk userStats (UInt64.ofNat (sizeof Kernel.allIoStats)) = true)
    (hcopy : env.copyToUser = true) :
    ¬∀ init init', luisGetIoThrottle env userStats tasks init =
      luisGetIoThrottle env userStats tasks init' := by
  intro hconst
  have hcall : ∀ init, luisGetIoThrottle env userStats tasks init =
      (0, some (copiedStats tasks init)) := by
    intro init
    simp only [luisGetIoThrottle, haccess, hcopy, Bool.true_eq_false, if_false]
  have hbytes : copiedStats tasks (fun _ => 0) = copiedStats tasks fun _ => 1 := by
    have heq := hconst (fun _ => 0) fun _ => 1
    rw [hcall, hcall] at heq
    exact Option.some.inj (congrArg Prod.snd heq)
  -- The first byte after the number of processes is after all slots.
  have hi : (fillStats tasks ⟨0, []⟩).i ≤ 20 := (fillStats_empty_inOrder tasks).bound
  have hbyte := copiedStats_eq_iff.1 hbytes 1124 (by decide) (by omega)
  exact absurd hbyte (by decide)

theorem luisGetIoThrottle_never_const_nil :
    ¬∀ init init', luisGetIoThrottle Env.quiet 0 [] init = luisGetIoThrottle Env.quiet 0 [] init' :=
  luisGetIoThrottle_never_const Env.quiet 0 [] rfl rfl

/-- One process with some bytes read, on a stack of zeros and on another one. -/
theorem luisGetIoThrottle_stale :
    luisGetIoThrottle Env.quiet 0 [⟨7, [98, 97, 115, 104], 512, 0, 0, 90, 30⟩] (fun _ => 0) ≠
      luisGetIoThrottle Env.quiet 0 [⟨7, [98, 97, 115, 104], 512, 0, 0, 90, 30⟩] fun _ => 255 := by
  intro heq
  have hbytes : copiedStats [⟨7, [98, 97, 115, 104], 512, 0, 0, 90, 30⟩] (fun _ => 0) =
      copiedStats [⟨7, [98, 97, 115, 104], 512, 0, 0, 90, 30⟩] fun _ => 255 :=
    Option.some.inj (congrArg Prod.snd heq)
  have hbyte := copiedStats_eq_iff.1 hbytes 22 (by decide) (by decide)
  exact absurd hbyte (by decide)

end LuisKernel
