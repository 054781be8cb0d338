import LuisKernel.Records
import LuisKernel.Registry.Listing

/-!
# The bytes of a listing

`luis_get_memory_limits` fills its buffer field by field and copies it to the
user by whole structures. The buffer comes from `kmalloc_array` and is not
cleared, so the bytes between the two fields of an entry are those that were in
this memory before.

The client reads the entries of the list (`readArray_copied`), but it gets these
bytes too: what it gets is independent of the old contents of the buffer only if
there is no entry at all (`copied_const_iff`).
-/

namespace LuisKernel

open Layout

/-- The stores of the loop, `k_processes_buffer[count].pid = …` and
    `k_processes_buffer[count].memory_limit = …`, in the bytes of the buffer. -/
def Fill.writes (f : Fill) : List Store :=
  f.stores.flatMap fun x =>
    write (x.1.toInt.toNat * sizeof Kernel.memoryLimitation) Kernel.memoryLimitation x.2.fields

/-- The bytes copied to `u_processes_buffer`, when the allocated buffer had the
    contents `init`. -/
def Fill.copied (f : Fill) (init : Mem) : List UInt8 :=
  load (Layout.stores init f.writes) 0 f.copyLength.toNat

variable {maxEntries : SizeT} {head : List MemoryLimitation} {env : Env}
  {uProcessesBuffer processesBufferSize : UInt64} {s : State} {f : Fill}

/-- The entries are stored one after the other. -/
theorem flatMap_indexed {l : List MemoryLimitation} {k : Nat} (hint : k + l.length ≤ 2 ^ 31) :
    ((indexed k l).flatMap fun x =>
      write (x.1.toInt.toNat * sizeof Kernel.memoryLimitation) Kernel.memoryLimitation x.2.fields) =
    writeArray (k * sizeof Kernel.memoryLimitation) Kernel.memoryLimitation
      (l.map MemoryLimitation.fields) := by
  induction l generalizing k with
  | nil => rfl
  | cons n l ih =>
    rw [List.length_cons] at hint
    have hk : (Int32.ofNat k).toInt.toNat = k := by
      rw [Int32.toInt_ofNat_of_lt (by omega), Int.toNat_natCast]
    rw [indexed_cons, List.flatMap_cons, ih (by omega), List.map_cons, writeArray, hk, Nat.succ_mul]

/-- The stores of the loop are those of the entries at the front of the list, … -/
theorem writes_fillBuffer (hint : min maxEntries.toNat head.length < 2 ^ 31) :
    (fillBuffer maxEntries head ⟨0, []⟩).writes =
      writeArray 0 Kernel.memoryLimitation
        ((head.take maxEntries.toNat).map MemoryLimitation.fields) := by
  have hwrites := flatMap_indexed (l := head.take maxEntries.toNat) (k := 0)
    (by rw [List.length_take]; omega)
  rw [Nat.zero_mul] at hwrites
  rw [Fill.writes, fillBuffer_empty hint, hwrites]

/-- … and the length of the copy is theirs. -/
theorem copyLength_fillBuffer (hint : min maxEntries.toNat head.length < 2 ^ 31) :
    (fillBuffer maxEntries head ⟨0, []⟩).copyLength.toNat =
      (head.take maxEntries.toNat).length * sizeof Kernel.memoryLimitation := by
  rw [copyLength_toNat hint, List.length_take]
  rfl

/-- The client reads the entries at the front of the list, wherever its buffer is. -/
theorem readArray_copied (hint : min maxEntries.toNat head.length < 2 ^ 31) (init user : Mem)
    (a : Nat) :
    (readArray (store user (a, (fillBuffer maxEntries head ⟨0, []⟩).copied init)) a
      Client.memoryLimitation (head.take maxEntries.toNat).length).map MemoryLimitation.ofFields =
        (head.take maxEntries.toNat).map some := by
  rw [Fill.copied, writes_fillBuffer hint, copyLength_fillBuffer hint]
  have hread := map_readArray_writeArray MemoryLimitation.fits MemoryLimitation.ofFields_fields init
    0 (head.take maxEntries.toNat)
  rw [← hread]
  exact congrArg _ (readArray_congr fun k hk => store_load hk)

/-- The buffer of a call that returned `0`. -/
theorem filledBuffer_of_success
    (h : luisGetMemoryLimits env uProcessesBuffer maxEntries processesBufferSize s =
      (0, some f, some f.count)) :
    filledBuffer env uProcessesBuffer maxEntries processesBufferSize s = .ok f := by
  rw [luisGetMemoryLimits_eq] at h
  cases hfilled : filledBuffer env uProcessesBuffer maxEntries processesBufferSize s with
  | error e =>
    rw [hfilled] at h
    cases h
  | ok f' =>
    rw [hfilled] at h
    dsimp only at h
    split_ifs at h
    · cases h
    · cases h
    · cases h
      rfl

/-- The stores of such a call and the length of its copy. -/
theorem writes_of_success (hmalloc : env.KmallocArrayBounded)
    (h : luisGetMemoryLimits env uProcessesBuffer maxEntries processesBufferSize s =
      (0, some f, some f.count)) :
    0 < maxEntries.toNat ∧
      f.writes = writeArray 0 Kernel.memoryLimitation
        ((s.head.take maxEntries.toNat).map MemoryLimitation.fields) ∧
      f.copyLength.toNat =
        (s.head.take maxEntries.toNat).length * sizeof Kernel.memoryLimitation := by
  obtain ⟨hpos, hmax, rfl⟩ := filledBuffer_ok hmalloc (filledBuffer_of_success h)
  exact ⟨hpos, writes_fillBuffer (by omega), copyLength_fillBuffer (by omega)⟩

/-- The stores of an entry leave out the bytes between the process id and the limit. -/
theorem exists_covers_write_iff {n : MemoryLimitation} {base k : Nat} :
    (∃ x ∈ write base Kernel.memoryLimitation n.fields, Covers x k) ↔
      (base ≤ k ∧ k < base + 4) ∨ base + 8 ≤ k ∧ k < base + 16 := by
  have hwrite : write base Kernel.memoryLimitation n.fields =
      [(base, i32.encode n.pid), (base + 8, u64.encode n.memoryLimit)] := rfl
  simp only [hwrite, List.exists_mem_cons_iff, List.not_mem_nil, false_and, exists_false, or_false,
    Covers, Codec.length_encode, Nat.add_assoc, Nat.reduceAdd]

/-- The bytes of the entries that are written. -/
theorem exists_covers_writeArray_iff (l : List MemoryLimitation) (base : Nat) {k : Nat}
    (hbase : base ≤ k) (hk : k < base + l.length * 16) :
    (∃ x ∈ writeArray base Kernel.memoryLimitation (l.map MemoryLimitation.fields), Covers x k) ↔
      ¬(4 ≤ (k - base) % 16 ∧ (k - base) % 16 < 8) := by
  induction l generalizing base with
  | nil => exact absurd hk (by simpa using hbase)
  | cons n l ih =>
    have hsize : sizeof Kernel.memoryLimitation = 16 := rfl
    rw [List.length_cons, Nat.succ_mul] at hk
    rw [List.map_cons, writeArray]
    simp only [List.mem_append, or_and_right, exists_or, exists_covers_write_iff, hsize]
    by_cases hfirst : k < base + 16
    · -- A byte of the first entry: the stores of the other ones are after it.
      have hrest : ¬∃ x ∈ writeArray (base + 16) Kernel.memoryLimitation
          (l.map MemoryLimitation.fields), Covers x k := by
        rintro ⟨x, hx, hcov, _⟩
        have hx' := (writeArray_bounds (List.forall_mem_map.2 fun n _ => n.fits) hx).1
        omega
      rw [or_iff_left hrest]
      omega
    · rw [ih _ (by omega) (by omega)]
      have hmod : (k - (base + 16)) % 16 = (k - base) % 16 := by omega
      rw [hmod]
      omega

/-- Two contents of the buffer give the same copy if and only if they agree on
    the bytes between the fields of the entries that are copied. -/
theorem copied_eq_iff (hmalloc : env.KmallocArrayBounded)
    (h : luisGetMemoryLimits env uProcessesBuffer maxEntries processesBufferSize s =
      (0, some f, some f.count)) {init init' : Mem} :
    f.copied init = f.copied init' ↔
      ∀ k < min maxEntries.toNat s.head.length * 16, 4 ≤ k % 16 → k % 16 < 8 →
        init k = init' k := by
  obtain ⟨_, hwrites, hlen⟩ := writes_of_success hmalloc h
  have hsize : sizeof Kernel.memoryLimitation = 16 := rfl
  rw [hsize] at hlen
  rw [Fill.copied, Fill.copied, load_stores_eq_iff, hwrites, hlen, ← List.length_take]
  refine forall_congr' fun k => forall_congr' fun hk => ?_
  have hcov := exists_covers_writeArray_iff (s.head.take maxEntries.toNat) 0 (Nat.zero_le k)
    (by omega)
  rw [Nat.sub_zero] at hcov
  constructor
  · intro heq h₁ h₂
    exact heq fun x hx hc => hcov.1 ⟨x, hx, hc⟩ ⟨h₁, h₂⟩
  · intro heq hnot
    have hpad : 4 ≤ k % 16 ∧ k % 16 < 8 := by
      by_contra hne
      obtain ⟨x, hx, hc⟩ := hcov.2 hne
      exact hnot x hx hc
    exact heq hpad.1 hpad.2

/-- The copy is independent of the old contents of the buffer if and only if the
    registry is empty. -/
theorem copied_const_iff (env : Env) (hmalloc : env.KmallocArrayBounded)
    (uProcessesBuffer : UInt64) (maxEntries : SizeT) (processesBufferSize : UInt64) (s : State)
    (f : Fill)
    (h : luisGetMemoryLimits env uProcessesBuffer maxEntries processesBufferSize s =
      (0, some f, some f.count)) :
    (∀ init init', f.copied init = f.copied init') ↔ s.head = [] := by
  constructor
  · intro hconst
    by_contra hne
    have hhead : 0 < s.head.length := List.length_pos_of_ne_nil hne
    have hpos := (writes_of_success hmalloc h).1
    -- The fifth byte of the first entry is copied, and was not written.
    have hbyte := (copied_eq_iff hmalloc h).1 (hconst (fun _ => 0) fun _ => 1) 4 (by omega)
      (by decide) (by decide)
    exact absurd hbyte (by decide)
  · intro hnil init init'
    refine (copied_eq_iff hmalloc h).2 fun k hk => ?_
    rw [hnil, List.length_nil, Nat.min_zero, Nat.zero_mul] at hk
    exact absurd hk (Nat.not_lt_zero k)

/-- The listings of an empty registry, and of one with an entry. -/
theorem copied_const_iff_small :
    luisGetMemoryLimits fourMegabytes 4096 1 8192 ⟨[], fun _ _ => ⟨0, 0⟩⟩ =
        (0, some ⟨0, []⟩, some 0) ∧
      (∀ init init', (⟨0, []⟩ : Fill).copied init = (⟨0, []⟩ : Fill).copied init') ∧
    luisGetMemoryLimits fourMegabytes 4096 1 8192 ⟨[⟨7, 4096⟩], fun _ _ => ⟨0, 0⟩⟩ =
        (0, some ⟨1, [(0, ⟨7, 4096⟩)]⟩, some 1) ∧
      ¬∀ init init', (⟨1, [(0, ⟨7, 4096⟩)]⟩ : Fill).copied init =
        (⟨1, [(0, ⟨7, 4096⟩)]⟩ : Fill).copied init' := by
  have hmalloc : fourMegabytes.KmallocArrayBounded :=
    ⟨4194304, by decide, fun _ _ h => of_decide_eq_true h⟩
  refine ⟨rfl, ?_, rfl, fun hconst => ?_⟩
  · exact (copied_const_iff fourMegabytes hmalloc 4096 1 8192 ⟨[], fun _ _ => ⟨0, 0⟩⟩ ⟨0, []⟩
      rfl).2 rfl
  · have hnil := (copied_const_iff fourMegabytes hmalloc 4096 1 8192
      ⟨[⟨7, 4096⟩], fun _ _ => ⟨0, 0⟩⟩ ⟨1, [(0, ⟨7, 4096⟩)]⟩ rfl).1 hconst
    cases hnil

/-- One entry: a successful call copies bytes that were in the buffer before. -/
theorem copied_stale :
    luisGetMemoryLimits fourMegabytes 0 1 0 ⟨[⟨7, 4096⟩], fun _ _ => ⟨0, 0⟩⟩ =
        (0, some ⟨1, [(0, ⟨7, 4096⟩)]⟩, some 1) ∧
      (⟨1, [(0, ⟨7, 4096⟩)]⟩ : Fill).copied (fun _ => 0) ≠
        (⟨1, [(0, ⟨7, 4096⟩)]⟩ : Fill).copied fun _ => 255 := by
  exact ⟨rfl, by decide⟩

end LuisKernel
