import LuisKernel.Basic
import LuisKernel.Layout

/-!
# The records shared with user programs

Four records cross the boundary between the kernel and the test programs. Each
is declared twice, in the kernel and in the program that asks for it:

* `struct track_counters`, in `sys.c` and `SyscallsP1/syscall2.c`;
* `struct all_io_stats`, in `sys.c` and `SyscallsP1/syscall3.c`;
* `struct memory_limitation`, in `fase3/syscall3.c` and
  `SyscallsP3/ejemplo_test.c`;
* `struct memory_snapshot`, in `sys.c` and `SyscallsP1/syscall1.c`.

The two declarations of the first three have the same fields in the same order,
so a record written by the kernel is read as it is, although there is padding
in it (`records_round_trip`). Those of `struct memory_snapshot` differ.
-/

namespace LuisKernel

open Layout

def MAX_PROCS : Nat := 20

/-! ## The declarations -/

namespace Kernel

def trackCounters : List Field :=
  [.int "counter_open" 8, .int "counter_read" 8, .int "counter_write" 8, .int "counter_fork" 8]

def ioStats : List Field :=
  [.int "pid" 4, .chars "comm" 18, .int "bytes_read" 8, .int "bytes_written" 8,
    .int "cancelled_write_bytes" 8, .int "io_wait_time" 8]

def allIoStats : List Field := [.array "stats" ioStats MAX_PROCS, .int "num_procs" 4]

def memoryLimitation : List Field := [.int "pid" 4, .int "memory_limit" 8]

def memorySnapshot : List Field :=
  [.int "total_mem_kb" 8, .int "free_mem_kb" 8, .int "cached_mem_kb" 8, .int "dirty_page_count" 8,
    .int "slab_mem_kb" 8, .int "reclaimable_slab_mem_kb" 8, .int "active_page_count" 8,
    .int "inactive_page_count" 8, .int "total_swap_kb" 8, .chars "snapshot_date" 36]

end Kernel

namespace Client

def trackCounters : List Field :=
  [.int "counter_open" 8, .int "counter_read" 8, .int "counter_write" 8, .int "counter_fork" 8]

def ioStats : List Field :=
  [.int "pid" 4, .chars "comm" 18, .int "bytes_read" 8, .int "bytes_written" 8,
    .int "cancelled_write_bytes" 8, .int "io_wait_time" 8]

def allIoStats : List Field := [.array "stats" ioStats MAX_PROCS, .int "num_procs" 4]

def memoryLimitation : List Field := [.int "pid" 4, .int "memory_limit" 8]

def memorySnapshot : List Field :=
  [.int "total_mem_kb" 8, .int "free_mem_kb" 8, .int "active_page_count" 8,
    .int "inactive_page_count" 8, .int "total_swap_kb" 8, .int "slab_mem_kb" 8,
    .int "reclaimable_slab_mem_kb" 8, .chars "snapshot_date" 36]

end Client

/-! ## The values -/

/-- `struct track_counters`. -/
structure TrackCounters where
  counterOpen : Int64
  counterRead : Int64
  counterWrite : Int64
  counterFork : Int64
  deriving DecidableEq, Repr

/-- `struct io_stats`. -/
structure IoStats where
  pid : PidT
  comm : Vector UInt8 18
  bytesRead : UInt64
  bytesWritten : UInt64
  cancelledWriteBytes : UInt64
  ioWaitTime : UInt64
  deriving DecidableEq

/-- `struct all_io_stats`. -/
structure AllIoStats where
  stats : Vector IoStats MAX_PROCS
  numProcs : Int32
  deriving DecidableEq

/-- `struct memory_snapshot`. -/
structure MemorySnapshot where
  totalMemKb : UInt64
  freeMemKb : UInt64
  cachedMemKb : UInt64
  dirtyPageCount : UInt64
  slabMemKb : UInt64
  reclaimableSlabMemKb : UInt64
  activePageCount : UInt64
  inactivePageCount : UInt64
  totalSwapKb : UInt64
  snapshotDate : Vector UInt8 36
  deriving DecidableEq

/-- The bytes of the fields of a record, in the order of the kernel's declaration. -/
def TrackCounters.fields (x : TrackCounters) : List (List UInt8) :=
  [i64.encode x.counterOpen, i64.encode x.counterRead, i64.encode x.counterWrite,
    i64.encode x.counterFork]

@[inherit_doc TrackCounters.fields]
def IoStats.fields (x : IoStats) : List (List UInt8) :=
  [i32.encode x.pid, (chars 18).encode x.comm, u64.encode x.bytesRead, u64.encode x.bytesWritten,
    u64.encode x.cancelledWriteBytes, u64.encode x.ioWaitTime]

@[inherit_doc TrackCounters.fields]
def MemoryLimitation.fields (x : MemoryLimitation) : List (List UInt8) :=
  [i32.encode x.pid, u64.encode x.memoryLimit]

@[inherit_doc TrackCounters.fields]
def MemorySnapshot.fields (x : MemorySnapshot) : List (List UInt8) :=
  [u64.encode x.totalMemKb, u64.encode x.freeMemKb, u64.encode x.cachedMemKb,
    u64.encode x.dirtyPageCount, u64.encode x.slabMemKb, u64.encode x.reclaimableSlabMemKb,
    u64.encode x.activePageCount, u64.encode x.inactivePageCount, u64.encode x.totalSwapKb,
    (chars 36).encode x.snapshotDate]

/-- The record with the given bytes of its fields, in the order of the client's
    declaration. -/
def TrackCounters.ofFields : List (List UInt8) → Option TrackCounters
  | [opens, reads, writes, forks] =>
    some ⟨i64.decode opens, i64.decode reads, i64.decode writes, i64.decode forks⟩
  | _ => none

@[inherit_doc TrackCounters.ofFields]
def IoStats.ofFields : List (List UInt8) → Option IoStats
  | [pid, comm, reads, writes, cancelled, wait] =>
    some ⟨i32.decode pid, (chars 18).decode comm, u64.decode reads, u64.decode writes,
      u64.decode cancelled, u64.decode wait⟩
  | _ => none

@[inherit_doc TrackCounters.ofFields]
def MemoryLimitation.ofFields : List (List UInt8) → Option MemoryLimitation
  | [pid, limit] => some ⟨i32.decode pid, u64.decode limit⟩
  | _ => none

/-- The stores that write some slots of a `struct all_io_stats`, from the first one on, and
    `num_procs`. -/
def IoStats.writes (l : List IoStats) (numProcs : Int32) : List Store :=
  writeArray (offsetof Kernel.allIoStats "stats") Kernel.ioStats (l.map IoStats.fields)
    ++ [(offsetof Kernel.allIoStats "num_procs", i32.encode numProcs)]

/-- The stores that write the structure with all its slots. -/
def AllIoStats.writes (x : AllIoStats) : List Store := IoStats.writes x.stats.toList x.numProcs

section

variable {m user : Mem} {n : Nat}

theorem TrackCounters.fits (x : TrackCounters) : Fits Kernel.trackCounters x.fields := by
  simp [Fits, fields, Kernel.trackCounters, Field.int]

theorem IoStats.fits (x : IoStats) : Fits Kernel.ioStats x.fields := by
  simp [Fits, fields, Kernel.ioStats, Field.int, Field.chars]

theorem MemoryLimitation.fits (x : MemoryLimitation) : Fits Kernel.memoryLimitation x.fields := by
  simp [Fits, fields, Kernel.memoryLimitation, Field.int]

theorem MemorySnapshot.fits (x : MemorySnapshot) : Fits Kernel.memorySnapshot x.fields := by
  simp [Fits, fields, Kernel.memorySnapshot, Field.int, Field.chars]

theorem TrackCounters.ofFields_fields (x : TrackCounters) : ofFields x.fields = some x := by
  simp [fields, ofFields]

theorem IoStats.ofFields_fields (x : IoStats) : ofFields x.fields = some x := by
  simp [fields, ofFields]

theorem MemoryLimitation.ofFields_fields (x : MemoryLimitation) : ofFields x.fields = some x := by
  simp [fields, ofFields]

/-! ## The round trips -/

/-- The client reads the counters of the kernel, … -/
theorem TrackCounters.read_copied (x : TrackCounters) :
    ofFields (read (copyTo user (stores m (write 0 Kernel.trackCounters x.fields))
      (sizeof Kernel.trackCounters)) 0 Client.trackCounters) = some x := by
  rw [read_copyTo (by decide)]
  exact (congrArg ofFields (read_write m 0 x.fits)).trans x.ofFields_fields

/-- The slots end where the number is. -/
theorem IoStats.slots_le {l : List IoStats} (hl : l.length ≤ MAX_PROCS) :
    offsetof Kernel.allIoStats "stats" + l.length * sizeof Kernel.ioStats ≤
      offsetof Kernel.allIoStats "num_procs" :=
  Nat.add_le_add_left (Nat.mul_le_mul_right _ hl) _

/-- … the slots of the statistics that were written, … -/
theorem IoStats.readArray_copied {l : List IoStats} (hl : l.length ≤ MAX_PROCS)
    (numProcs : Int32) :
    (readArray (copyTo user (stores m (writes l numProcs)) (sizeof Kernel.allIoStats))
      (offsetof Client.allIoStats "stats") Client.ioStats l.length).map ofFields = l.map some := by
  have hout : ∀ y ∈ [(offsetof Kernel.allIoStats "num_procs", i32.encode numProcs)],
      Outside y (offsetof Kernel.allIoStats "stats") (l.length * sizeof Kernel.ioStats) := by
    intro y hy
    rw [List.mem_singleton.1 hy]
    exact .inr (slots_le hl)
  have hread := map_readArray_writeArray fits ofFields_fields m
    (offsetof Kernel.allIoStats "stats") l
  rw [← readArray_stores_of_outside hout, ← stores_append] at hread
  have hcopied : offsetof Client.allIoStats "stats" + l.length * sizeof Client.ioStats ≤
      sizeof Kernel.allIoStats := (slots_le hl).trans (by decide)
  rw [readArray_copyTo hcopied]
  exact hread

/-- … and their number. -/
theorem IoStats.load_copied (l : List IoStats) (numProcs : Int32) :
    i32.decode (load (copyTo user (stores m (writes l numProcs)) (sizeof Kernel.allIoStats))
      (offsetof Client.allIoStats "num_procs") 4) = numProcs := by
  have hload : load (stores m (writes l numProcs)) (offsetof Client.allIoStats "num_procs") 4 =
      i32.encode numProcs := by
    rw [writes, stores_append, stores_cons, stores_nil]
    exact load_store_self (i32.length_encode numProcs)
  rw [load_copyTo (by decide), hload, i32.decode_encode]

theorem AllIoStats.readArray_copied (x : AllIoStats) :
    (readArray (copyTo user (stores m x.writes) (sizeof Kernel.allIoStats))
      (offsetof Client.allIoStats "stats") Client.ioStats MAX_PROCS).map IoStats.ofFields =
    x.stats.toList.map some := by
  have hlen : x.stats.toList.length = MAX_PROCS := Vector.length_toList
  have hread := @IoStats.readArray_copied m user _ hlen.le x.numProcs
  rw [hlen] at hread
  exact hread

theorem AllIoStats.load_copied (x : AllIoStats) :
    i32.decode (load (copyTo user (stores m x.writes) (sizeof Kernel.allIoStats))
      (offsetof Client.allIoStats "num_procs") 4) = x.numProcs :=
  IoStats.load_copied x.stats.toList x.numProcs

/-- The client reads the entries of the kernel, whatever their number. -/
theorem MemoryLimitation.readArray_copied (l : List MemoryLimitation) :
    (readArray (copyTo user (stores m (writeArray 0 Kernel.memoryLimitation
      (l.map MemoryLimitation.fields))) (l.length * sizeof Kernel.memoryLimitation))
      0 Client.memoryLimitation l.length).map ofFields = l.map some := by
  have hsize : l.length * sizeof Client.memoryLimitation ≤
      l.length * sizeof Kernel.memoryLimitation := le_rfl
  rw [readArray_copyTo (by rw [Nat.zero_add]; exact hsize)]
  exact map_readArray_writeArray fits ofFields_fields m 0 l

end

/-- The three records are read by the client as the kernel wrote them, whatever
    was in the memory of the kernel and of the client before, and the copies are
    within the objects of the client: its two structures, and its buffer of
    `maxEntries` entries. -/
theorem records_round_trip (init user : Mem) (x : TrackCounters) (y : AllIoStats)
    (l : List MemoryLimitation) (maxEntries : Nat) (hl : l.length ≤ maxEntries) :
    (sizeof Kernel.trackCounters ≤ sizeof Client.trackCounters ∧
      TrackCounters.ofFields (read (copyTo user
        (stores init (write 0 Kernel.trackCounters x.fields)) (sizeof Kernel.trackCounters))
        0 Client.trackCounters) = some x) ∧
    (sizeof Kernel.allIoStats ≤ sizeof Client.allIoStats ∧
      (readArray (copyTo user (stores init y.writes) (sizeof Kernel.allIoStats))
        (offsetof Client.allIoStats "stats") Client.ioStats MAX_PROCS).map IoStats.ofFields =
          y.stats.toList.map some ∧
      i32.decode (load (copyTo user (stores init y.writes) (sizeof Kernel.allIoStats))
        (offsetof Client.allIoStats "num_procs") 4) = y.numProcs) ∧
    l.length * sizeof Kernel.memoryLimitation ≤ maxEntries * sizeof Client.memoryLimitation ∧
      (readArray (copyTo user (stores init (writeArray 0 Kernel.memoryLimitation
        (l.map MemoryLimitation.fields))) (l.length * sizeof Kernel.memoryLimitation))
        0 Client.memoryLimitation l.length).map MemoryLimitation.ofFields = l.map some := by
  have hsize : sizeof Kernel.memoryLimitation = sizeof Client.memoryLimitation := rfl
  refine ⟨⟨by decide, x.read_copied⟩, ⟨by decide, y.readArray_copied, y.load_copied⟩, ?_,
    MemoryLimitation.readArray_copied l⟩
  rw [hsize]
  exact Nat.mul_le_mul_right _ hl

/-- Two entries in a buffer of ten, in memory that was not zero. -/
theorem records_round_trip_two :
    (readArray (copyTo (fun _ => 255) (stores (fun _ => 170) (writeArray 0 Kernel.memoryLimitation
      ([⟨7, 4096⟩, ⟨8, 8192⟩].map MemoryLimitation.fields))) (2 * sizeof Kernel.memoryLimitation))
      0 Client.memoryLimitation 2).map MemoryLimitation.ofFields =
        [some ⟨7, 4096⟩, some ⟨8, 8192⟩] :=
  (records_round_trip (fun _ => 170) (fun _ => 255) ⟨1, 2, 3, 4⟩
    ⟨Vector.replicate MAX_PROCS ⟨0, Vector.replicate 18 0, 0, 0, 0, 0⟩, 0⟩
    [⟨7, 4096⟩, ⟨8, 8192⟩] 10 (by decide)).2.2.2

/-! ## The memory snapshot -/

/-- What the client finds in the fields of its declaration. Only the first two
    are those of the same name; the next five are the five that follow in the
    kernel's declaration, and what it takes for the date begins with two more
    numbers. -/
theorem MemorySnapshot.read_copied (x : MemorySnapshot) (m user : Mem) :
    read (copyTo user (stores m (write 0 Kernel.memorySnapshot x.fields))
      (sizeof Kernel.memorySnapshot)) 0 Client.memorySnapshot =
    [u64.encode x.totalMemKb, u64.encode x.freeMemKb, u64.encode x.cachedMemKb,
      u64.encode x.dirtyPageCount, u64.encode x.slabMemKb, u64.encode x.reclaimableSlabMemKb,
      u64.encode x.activePageCount,
      u64.encode x.inactivePageCount ++ (u64.encode x.totalSwapKb ++
        ((chars 36).encode x.snapshotDate).take 20)] := by
  rw [read_copyTo (by decide)]
  have hread := read_write m 0 x.fits
  generalize stores m (write 0 Kernel.memorySnapshot x.fields) = k at hread ⊢
  have hkernel : read k 0 Kernel.memorySnapshot =
      [load k 0 8, load k 8 8, load k 16 8, load k 24 8, load k 32 8, load k 40 8, load k 48 8,
        load k 56 8, load k 64 8, load k 72 36] := rfl
  have hclient : read k 0 Client.memorySnapshot =
      [load k 0 8, load k 8 8, load k 16 8, load k 24 8, load k 32 8, load k 40 8, load k 48 8,
        load k 56 36] := rfl
  rw [hkernel, MemorySnapshot.fields] at hread
  simp only [List.cons.injEq, and_true] at hread
  obtain ⟨h₀, h₁, h₂, h₃, h₄, h₅, h₆, h₇, h₈, hdate⟩ := hread
  have htake : load k 72 20 = ((chars 36).encode x.snapshotDate).take 20 := by
    rw [← hdate, load_add 16 (n := 20), List.take_left' length_load]
  have hlong : load k 56 36 = load k 56 8 ++ (load k 64 8 ++ load k 72 20) := by
    rw [← load_add, ← load_add]
  rw [hclient, hlong, h₀, h₁, h₂, h₃, h₄, h₅, h₆, h₇, h₈, htake]

/-- No snapshot survives the copy to the client: it is longer than the object of
    the client. -/
theorem snapshot_never_survives (x : MemorySnapshot) (init user : Mem) :
    ¬Survives Kernel.memorySnapshot Client.memorySnapshot x.fields init user := by
  intro h
  exact absurd h.fits (by decide)

end LuisKernel
