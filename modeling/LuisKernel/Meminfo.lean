import LuisKernel.Records
import LuisKernel.Registry

/-!
# The reports on memory

Three places report how much memory the system has, in pages or kilobytes:

* `do_sysinfo`, the code of the kernel behind `sysinfo`, which counts in units
  of `mem_unit` bytes: pages, or bytes if the totals do not overflow then;
* `luis_capture_memory_snapshot`, in kilobytes, by a shift;
* `/proc/mem_stats` (`show_mem_stats`), in kilobytes, by a product and a
  division.

All of them let `si_meminfo` fill a `struct sysinfo`. It does not fill the
fields of the swap space, which `si_swapinfo` does, and only `do_sysinfo` calls
it. So the figures of the memory agree, and those of the swap space are what was
on the stack (`reports_agree_iff`).
-/

namespace LuisKernel

open Layout

/-! ## The state of the system -/

/-- `struct sysinfo`. -/
structure Sysinfo where
  uptime : Int64
  loads : Vector UInt64 3
  totalram : UInt64
  freeram : UInt64
  sharedram : UInt64
  bufferram : UInt64
  totalswap : UInt64
  freeswap : UInt64
  procs : UInt16
  totalhigh : UInt64
  freehigh : UInt64
  memUnit : UInt32
  deriving DecidableEq, Repr

/-- The counters of pages that are read by `global_node_page_state`. -/
inductive NodeStatItem
  | NR_ACTIVE_ANON
  | NR_ACTIVE_FILE
  | NR_INACTIVE_ANON
  | NR_INACTIVE_FILE
  | NR_FILE_DIRTY
  | NR_SLAB_UNRECLAIMABLE_B
  | NR_SLAB_RECLAIMABLE_B
  deriving DecidableEq, Repr

/-- `struct tm`, the fields of a date. -/
structure Tm where
  tmSec : Int32
  tmMin : Int32
  tmHour : Int32
  tmMday : Int32
  tmMon : Int32
  tmYear : Int64
  deriving DecidableEq, Repr

/-- What the rest of the kernel answers to the three reports. The sizes are
    numbers of pages. -/
structure System where
  totalram : UInt64
  sharedram : UInt64
  freeram : UInt64
  bufferram : UInt64
  totalhigh : UInt64
  freehigh : UInt64
  totalswap : UInt64
  freeswap : UInt64
  /-- The time since boot, in seconds and nanoseconds. -/
  tvSec : Int64
  tvNsec : Int64
  /-- `get_avenrun`. -/
  avenrun : Vector UInt64 3
  nrThreads : Int32
  nodePageState : NodeStatItem → UInt64
  /-- The date that `time64_to_tm` makes of the current time. -/
  tm : Tm

def PAGE_SIZE : UInt32 := 4096

/-- `si_meminfo`. -/
def siMeminfo (k : System) (info : Sysinfo) : Sysinfo :=
  { info with
    totalram := k.totalram
    sharedram := k.sharedram
    freeram := k.freeram
    bufferram := k.bufferram
    totalhigh := k.totalhigh
    freehigh := k.freehigh
    memUnit := PAGE_SIZE }

/-- `si_swapinfo`. -/
def siSwapinfo (k : System) (info : Sysinfo) : Sysinfo :=
  { info with totalswap := k.totalswap, freeswap := k.freeswap }

/-! ## The report of the kernel -/

/-- The `struct sysinfo` after `memset`. -/
def Sysinfo.zero : Sysinfo := ⟨0, Vector.replicate 3 0, 0, 0, 0, 0, 0, 0, 0, 0, 0, 0⟩

/-- The loop of `do_sysinfo`: the number of times `mem_unit` can be halved, or
    nothing if `mem_total` overflows while it is doubled as often. An
    `unsigned int` is halved `32` times at most. -/
def countBits : Nat → Nat → UInt64 → Nat → Option Nat
  | 0, _, _, bitcount => some bitcount
  | rounds + 1, memUnit, memTotal, bitcount =>
    if memUnit > 1 then
      if memTotal <<< 1 < memTotal then none
      else countBits rounds (memUnit / 2) (memTotal <<< 1) (bitcount + 1)
    else some bitcount

/-- The sizes in bytes. -/
def Sysinfo.scale (info : Sysinfo) (bitcount : UInt64) : Sysinfo :=
  { info with
    memUnit := 1
    totalram := info.totalram <<< bitcount
    freeram := info.freeram <<< bitcount
    sharedram := info.sharedram <<< bitcount
    bufferram := info.bufferram <<< bitcount
    totalswap := info.totalswap <<< bitcount
    freeswap := info.freeswap <<< bitcount
    totalhigh := info.totalhigh <<< bitcount
    freehigh := info.freehigh <<< bitcount }

/-- The `struct sysinfo` of `do_sysinfo`, once `si_meminfo` and `si_swapinfo` have
    filled it. -/
def collectSysinfo (k : System) : Sysinfo :=
  siSwapinfo k (siMeminfo k
    { Sysinfo.zero with
      uptime := k.tvSec + if k.tvNsec = 0 then 0 else 1
      loads := k.avenrun
      procs := k.nrThreads.toUInt32.toUInt16 })

/-- `do_sysinfo`. -/
def doSysinfo (k : System) : Sysinfo :=
  let info := collectSysinfo k
  let memTotal := info.totalram + info.totalswap
  if memTotal < info.totalram ∨ memTotal < info.totalswap then info
  else
    match countBits 32 info.memUnit.toNat memTotal 0 with
    | none => info
    | some bitcount => info.scale (UInt64.ofNat bitcount)

/-- A size of a `struct sysinfo` in kilobytes, `field * mem_unit / 1024`. -/
def Sysinfo.kilobytes (info : Sysinfo) (field : UInt64) : UInt64 :=
  field * info.memUnit.toUInt64 / 1024

/-! ## The snapshot -/

/-- A number in at least `width` characters, with zeros in front. -/
def zeroPadded (width : Nat) (n : Int) : String :=
  let sign := if n < 0 then "-" else ""
  let digits := toString n.natAbs
  sign ++ String.ofList (List.replicate (width - sign.length - digits.length) '0') ++ digits

/-- The text of `snapshot_date`. -/
def snapshotDate (tm : Tm) : String :=
  zeroPadded 4 (tm.tmYear + 1900).toInt ++ "-" ++ zeroPadded 2 (tm.tmMon + 1).toInt ++ "-" ++
    zeroPadded 2 tm.tmMday.toInt ++ " " ++ zeroPadded 2 tm.tmHour.toInt ++ ":" ++
    zeroPadded 2 tm.tmMin.toInt ++ ":" ++ zeroPadded 2 tm.tmSec.toInt ++ " UTC"

/-- `snprintf` to an array of `n` characters: the text that fits, and a zero. What
    is after the zero stays as it was. -/
def snprintf {n : Nat} (buffer : Vector UInt8 n) (text : String) : Vector UInt8 n :=
  Vector.ofFn fun i => ((text.toUTF8.toList.take (n - 1) ++ [0])[i.val]?).getD buffer[i]

/-- `luis_capture_memory_snapshot`: the return value, and the structure copied to
    `user_snapshot`. At first, `sys_info` and the date of `local_snapshot` have
    the contents given. -/
def luisCaptureMemorySnapshot (env : Env) (k : System) (userSnapshot : UInt64) (sysInfo : Sysinfo)
    (date : Vector UInt8 36) : Int × Option MemorySnapshot :=
  if userSnapshot = 0 then (-EINVAL, none)
  else
    let sysInfo := siMeminfo k sysInfo
    let localSnapshot : MemorySnapshot :=
      { totalMemKb := sysInfo.totalram <<< (PAGE_SHIFT - 10)
        freeMemKb := sysInfo.freeram <<< (PAGE_SHIFT - 10)
        cachedMemKb := sysInfo.bufferram <<< (PAGE_SHIFT - 10)
        totalSwapKb := sysInfo.totalswap <<< (PAGE_SHIFT - 10)
        activePageCount := k.nodePageState .NR_ACTIVE_ANON + k.nodePageState .NR_ACTIVE_FILE
        inactivePageCount := k.nodePageState .NR_INACTIVE_ANON + k.nodePageState .NR_INACTIVE_FILE
        dirtyPageCount := k.nodePageState .NR_FILE_DIRTY
        slabMemKb := k.nodePageState .NR_SLAB_UNRECLAIMABLE_B <<< (PAGE_SHIFT - 10)
        reclaimableSlabMemKb := k.nodePageState .NR_SLAB_RECLAIMABLE_B <<< (PAGE_SHIFT - 10)
        snapshotDate := snprintf date (snapshotDate k.tm) }
    if env.copyToUser = false then (-EFAULT, none) else (0, some localSnapshot)

/-! ## The file in `/proc` -/

/-- The figures of `/proc/mem_stats`. -/
structure MemStats where
  total : UInt64
  free : UInt64
  buffers : UInt64
  swapTotal : UInt64
  swapFree : UInt64
  deriving DecidableEq, Repr

/-- The figures that `show_mem_stats` prints, if the contents of `si` are those
    given at first. -/
def memStats (k : System) (si : Sysinfo) : MemStats :=
  let si := siMeminfo k si
  { total := si.totalram * si.memUnit.toUInt64 / 1024
    free := si.freeram * si.memUnit.toUInt64 / 1024
    buffers := si.bufferram * si.memUnit.toUInt64 / 1024
    swapTotal := si.totalswap * si.memUnit.toUInt64 / 1024
    swapFree := si.freeswap * si.memUnit.toUInt64 / 1024 }

/-- `show_mem_stats`. -/
def showMemStats (k : System) (si : Sysinfo) : String :=
  let stats := memStats k si
  "Memoria Total: " ++ toString stats.total ++ " KB\n" ++
    "Memoria Libre: " ++ toString stats.free ++ " KB\n" ++
    "Memoria en Buffers: " ++ toString stats.buffers ++ " KB\n" ++
    "Swap Total: " ++ toString stats.swapTotal ++ " KB\n" ++
    "Swap Libre: " ++ toString stats.swapFree ++ " KB\n"

/-! ## The figures -/

/-- The sizes of the system in bytes are numbers of 64 bits. -/
structure System.BytesFit (k : System) : Prop where
  totalram : k.totalram.toNat * 4096 < 2 ^ 64
  freeram : k.freeram.toNat * 4096 < 2 ^ 64
  bufferram : k.bufferram.toNat * 4096 < 2 ^ 64
  totalswap : k.totalswap.toNat * 4096 < 2 ^ 64
  freeswap : k.freeswap.toNat * 4096 < 2 ^ 64

/-- The figures of the snapshot and of `/proc/mem_stats` are those of the kernel,
    in kilobytes. -/
structure ReportsAgree (info : Sysinfo) (snapshot : MemorySnapshot) (stats : MemStats) : Prop where
  snapshotTotal : snapshot.totalMemKb = info.kilobytes info.totalram
  snapshotFree : snapshot.freeMemKb = info.kilobytes info.freeram
  snapshotCached : snapshot.cachedMemKb = info.kilobytes info.bufferram
  snapshotSwap : snapshot.totalSwapKb = info.kilobytes info.totalswap
  statsTotal : stats.total = info.kilobytes info.totalram
  statsFree : stats.free = info.kilobytes info.freeram
  statsBuffers : stats.buffers = info.kilobytes info.bufferram
  statsSwapTotal : stats.swapTotal = info.kilobytes info.totalswap
  statsSwapFree : stats.swapFree = info.kilobytes info.freeswap

variable {k : System} {x y z : UInt64}

/-- Pages in kilobytes, by a product and a division. -/
theorem toNat_mul_div (x : UInt64) :
    (x * PAGE_SIZE.toUInt64 / 1024).toNat = x.toNat % 2 ^ 52 * 4 := by
  have hpage : PAGE_SIZE.toUInt64.toNat = 4096 := rfl
  have hkb : (1024 : UInt64).toNat = 1024 := rfl
  rw [UInt64.toNat_div, UInt64.toNat_mul, hpage, hkb]
  omega

/-- Pages in bytes, and these in kilobytes. -/
theorem toNat_shift_div (x : UInt64) :
    (x <<< 12 * (1 : UInt32).toUInt64 / 1024).toNat = x.toNat % 2 ^ 52 * 4 := by
  have hunit : (1 : UInt32).toUInt64.toNat = 1 := rfl
  have hkb : (1024 : UInt64).toNat = 1024 := rfl
  have hshift : (12 : UInt64).toNat % 64 = 12 := rfl
  rw [UInt64.toNat_div, UInt64.toNat_mul, UInt64.toNat_shiftLeft, hunit, hkb, hshift,
    Nat.shiftLeft_eq]
  omega

/-- Pages in kilobytes, by a shift. -/
theorem toNat_shift (x : UInt64) : (x <<< (PAGE_SHIFT - 10)).toNat = x.toNat % 2 ^ 62 * 4 := by
  have hshift : (PAGE_SHIFT - 10).toNat % 64 = 2 := rfl
  rw [UInt64.toNat_shiftLeft, hshift, Nat.shiftLeft_eq]
  omega

/-- A figure `z` of the kernel for `y` pages is met by a product and a division if these
    are of `y` pages, but for a multiple of `2 ^ 52`, … -/
theorem mul_div_eq_iff (hz : z.toNat = y.toNat % 2 ^ 52 * 4) (hy : y.toNat * 4096 < 2 ^ 64) :
    x * PAGE_SIZE.toUInt64 / 1024 = z ↔ x.toNat % 2 ^ 52 = y.toNat := by
  rw [← UInt64.toNat_inj, toNat_mul_div, hz]
  omega

/-- … and by a shift if it is of `y` pages, but for a multiple of `2 ^ 62`. -/
theorem shift_eq_iff (hz : z.toNat = y.toNat % 2 ^ 52 * 4) (hy : y.toNat * 4096 < 2 ^ 64) :
    x <<< (PAGE_SHIFT - 10) = z ↔ x.toNat % 2 ^ 62 = y.toNat := by
  rw [← UInt64.toNat_inj, toNat_shift, hz]
  omega

/-- A power of two is halved down to one, unless the total overflows. -/
theorem countBits_two_pow {rounds j : Nat} (memTotal : UInt64) (bitcount : Nat) (hj : j ≤ rounds) :
    countBits rounds (2 ^ j) memTotal bitcount = none ∨
      countBits rounds (2 ^ j) memTotal bitcount = some (bitcount + j) := by
  induction j generalizing rounds memTotal bitcount with
  | zero =>
    right
    cases rounds with
    | zero => rfl
    | succ rounds => exact if_neg (lt_irrefl 1)
  | succ j ih =>
    obtain ⟨rounds, rfl⟩ : ∃ r, rounds = r + 1 := ⟨rounds - 1, by omega⟩
    have hgt : 2 ^ (j + 1) > 1 := Nat.one_lt_two_pow (Nat.succ_ne_zero j)
    have hhalf : 2 ^ (j + 1) / 2 = 2 ^ j := by
      rw [Nat.pow_succ, Nat.mul_div_cancel _ (by decide)]
    rw [countBits, if_pos hgt, hhalf]
    split_ifs with hover
    · exact .inl rfl
    · rw [← Nat.add_assoc, Nat.add_right_comm]
      exact ih _ _ (Nat.le_of_succ_le_succ hj)

/-- What the kernel reports is in pages, or in bytes. -/
theorem doSysinfo_cases (k : System) :
    doSysinfo k = collectSysinfo k ∨ doSysinfo k = (collectSysinfo k).scale 12 := by
  have hunit : (collectSysinfo k).memUnit.toNat = 2 ^ 12 := rfl
  rw [doSysinfo, hunit]
  split_ifs with hover
  · exact .inl rfl
  · rcases countBits_two_pow ((collectSysinfo k).totalram + (collectSysinfo k).totalswap) 0
      (show 12 ≤ 32 by decide) with hbits | hbits
    · rw [hbits]
      exact .inl rfl
    · rw [hbits]
      exact .inr rfl

/-- The sizes that the kernel reports, in kilobytes. -/
theorem kilobytes_doSysinfo (k : System) :
    ((doSysinfo k).kilobytes (doSysinfo k).totalram).toNat = k.totalram.toNat % 2 ^ 52 * 4 ∧
    ((doSysinfo k).kilobytes (doSysinfo k).freeram).toNat = k.freeram.toNat % 2 ^ 52 * 4 ∧
    ((doSysinfo k).kilobytes (doSysinfo k).bufferram).toNat = k.bufferram.toNat % 2 ^ 52 * 4 ∧
    ((doSysinfo k).kilobytes (doSysinfo k).totalswap).toNat = k.totalswap.toNat % 2 ^ 52 * 4 ∧
    ((doSysinfo k).kilobytes (doSysinfo k).freeswap).toNat = k.freeswap.toNat % 2 ^ 52 * 4 := by
  rcases doSysinfo_cases k with h | h
  · rw [h]
    exact ⟨toNat_mul_div _, toNat_mul_div _, toNat_mul_div _, toNat_mul_div _, toNat_mul_div _⟩
  · rw [h]
    exact ⟨toNat_shift_div _, toNat_shift_div _, toNat_shift_div _, toNat_shift_div _,
      toNat_shift_div _⟩

/-- The snapshot of a call that returned `0`. -/
theorem snapshot_of_success {env : Env} {userSnapshot : UInt64} {sysInfo : Sysinfo}
    {date : Vector UInt8 36} {snapshot : MemorySnapshot}
    (h : luisCaptureMemorySnapshot env k userSnapshot sysInfo date = (0, some snapshot)) :
    snapshot.totalMemKb = k.totalram <<< (PAGE_SHIFT - 10) ∧
      snapshot.freeMemKb = k.freeram <<< (PAGE_SHIFT - 10) ∧
      snapshot.cachedMemKb = k.bufferram <<< (PAGE_SHIFT - 10) ∧
      snapshot.totalSwapKb = sysInfo.totalswap <<< (PAGE_SHIFT - 10) := by
  rw [luisCaptureMemorySnapshot] at h
  dsimp only at h
  split_ifs at h with hnull hcopy
  · cases h
  · cases h
  · cases h
    exact ⟨rfl, rfl, rfl, rfl⟩

/-- The three reports agree if and only if what was on the stack, in the fields of
    the swap space, happens to be right: for the snapshot up to multiples of
    `2 ^ 62`, and for `/proc/mem_stats` up to multiples of `2 ^ 52`. -/
theorem reports_agree_iff (env : Env) (k : System) (hk : k.BytesFit) (userSnapshot : UInt64)
    (sysInfo : Sysinfo) (date : Vector UInt8 36) (snapshot : MemorySnapshot)
    (h : luisCaptureMemorySnapshot env k userSnapshot sysInfo date = (0, some snapshot))
    (si : Sysinfo) :
    ReportsAgree (doSysinfo k) snapshot (memStats k si) ↔
      sysInfo.totalswap.toNat % 2 ^ 62 = k.totalswap.toNat ∧
      si.totalswap.toNat % 2 ^ 52 = k.totalswap.toNat ∧
      si.freeswap.toNat % 2 ^ 52 = k.freeswap.toNat := by
  obtain ⟨hram, hfree, hbuffer, hswap, hfreeswap⟩ := kilobytes_doSysinfo k
  obtain ⟨htotal, hfreeram, hcached, hsnapshot⟩ := snapshot_of_success h
  obtain ⟨kram, kfree, kbuffer, kswap, kfreeswap⟩ := hk
  constructor
  · intro hagree
    -- The figures of the swap space are those of the stack.
    exact ⟨(shift_eq_iff hswap kswap).1 (hsnapshot.symm.trans hagree.snapshotSwap),
      (mul_div_eq_iff hswap kswap).1 hagree.statsSwapTotal,
      (mul_div_eq_iff hfreeswap kfreeswap).1 hagree.statsSwapFree⟩
  · rintro ⟨hsnap, hstat, hfreestat⟩
    exact
      { snapshotTotal := htotal.trans ((shift_eq_iff hram kram).2 (by omega))
        snapshotFree := hfreeram.trans ((shift_eq_iff hfree kfree).2 (by omega))
        snapshotCached := hcached.trans ((shift_eq_iff hbuffer kbuffer).2 (by omega))
        snapshotSwap := hsnapshot.trans ((shift_eq_iff hswap kswap).2 hsnap)
        statsTotal := (mul_div_eq_iff (x := k.totalram) hram kram).2 (by omega)
        statsFree := (mul_div_eq_iff (x := k.freeram) hfree kfree).2 (by omega)
        statsBuffers := (mul_div_eq_iff (x := k.bufferram) hbuffer kbuffer).2 (by omega)
        statsSwapTotal := (mul_div_eq_iff hswap kswap).2 hstat
        statsSwapFree := (mul_div_eq_iff hfreeswap kfreeswap).2 hfreestat }

/-- A system with 16 GiB of memory and 2 GiB of swap space, on the first day of 2025. -/
def sixteenGiB : System where
  totalram := 4194304
  sharedram := 1000
  freeram := 2000000
  bufferram := 50000
  totalhigh := 0
  freehigh := 0
  totalswap := 524288
  freeswap := 524288
  tvSec := 3600
  tvNsec := 5
  avenrun := Vector.replicate 3 0
  nrThreads := 300
  nodePageState _ := 100
  tm := ⟨0, 0, 0, 1, 0, 125⟩

/-- On a stack of zeros, the snapshot and `/proc/mem_stats` find no swap space. -/
theorem reports_differ_on_zeros :
    ∃ snapshot, luisCaptureMemorySnapshot Env.quiet sixteenGiB 4096 Sysinfo.zero
        (Vector.replicate 36 0) = (0, some snapshot) ∧
      snapshot.totalSwapKb = 0 ∧ (memStats sixteenGiB Sysinfo.zero).swapTotal = 0 ∧
      (doSysinfo sixteenGiB).kilobytes (doSysinfo sixteenGiB).totalswap = 2097152 ∧
      ¬ReportsAgree (doSysinfo sixteenGiB) snapshot (memStats sixteenGiB Sysinfo.zero) := by
  refine ⟨_, rfl, rfl, rfl, by decide, fun hagree => ?_⟩
  exact absurd hagree.statsSwapTotal (by decide)

/-- On a stack that happens to hold the sizes of the swap space, they agree. -/
theorem reports_agree_iff_sixteen :
    ∃ snapshot, luisCaptureMemorySnapshot Env.quiet sixteenGiB 4096
        { Sysinfo.zero with totalswap := 524288 } (Vector.replicate 36 0) = (0, some snapshot) ∧
      ReportsAgree (doSysinfo sixteenGiB) snapshot
        (memStats sixteenGiB { Sysinfo.zero with totalswap := 524288, freeswap := 524288 }) := by
  have hfit : sixteenGiB.BytesFit := ⟨by decide, by decide, by decide, by decide, by decide⟩
  refine ⟨_, rfl, ?_⟩
  exact (reports_agree_iff Env.quiet sixteenGiB hfit 4096 _ _ _ rfl _).2
    ⟨by decide, by decide, by decide⟩

/-- A snapshot whose active pages the client does not find: in their place it
    reads the cached memory, in kilobytes. -/
theorem snapshot_garbled :
    ∃ snapshot, luisCaptureMemorySnapshot Env.quiet sixteenGiB 4096 Sysinfo.zero
        (Vector.replicate 36 0) = (0, some snapshot) ∧
      ¬Survives Kernel.memorySnapshot Client.memorySnapshot snapshot.fields (fun _ => 0)
        (fun _ => 0) ∧
      sizeof Client.memorySnapshot < sizeof Kernel.memorySnapshot ∧
      lookup "active_page_count" Kernel.memorySnapshot snapshot.fields = some (u64.encode 200) ∧
      lookup "active_page_count" Client.memorySnapshot
        (read (copyTo (fun _ => 0) (stores (fun _ => 0) (write 0 Kernel.memorySnapshot
          snapshot.fields)) (sizeof Kernel.memorySnapshot)) 0 Client.memorySnapshot) =
        some (u64.encode 200000) := by
  refine ⟨_, rfl, fun h => absurd h.fits (by decide), by decide, rfl, ?_⟩
  rw [MemorySnapshot.read_copied]
  rfl

end LuisKernel
