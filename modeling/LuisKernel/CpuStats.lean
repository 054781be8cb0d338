import LuisKernel.Machine
import LuisKernel.Scan
import Mathlib.Algebra.Order.BigOperators.Group.List

/-!
# The CPU usage

The module `cpu_stats` shows the share of time that the CPU was busy since its
file was read before. The counters of the kernel are in `/proc/stat`, which the
module opens, reads and scans; it takes the ticks in which the CPU was idle and
the ticks in all, and their differences to those it kept from the last time.

But it does not take both from one reading: `get_cpu_idle_time` reads the file,
and then `get_cpu_total_time` reads it again. An idle tick in between is missing
in the idle time of this call and counted in its total. For the next call, it is
part of the difference of the idle times and not of that of the totals, so the
first may exceed the second: then the idle part is taken from less than it, the
result wraps, and what is shown is no percentage (`usage_not_percentage`). It is
one in every run where this does not happen and the counters fit in the buffer
(`usage_percentage`).
-/

namespace LuisKernel

namespace CpuStats

open Scan

/-! ## The file -/

/-- The contents of `/proc/stat`: the counters in its first line, and the lines
    after it. -/
structure Stat where
  user : UInt64
  nice : UInt64
  system : UInt64
  idle : UInt64
  iowait : UInt64
  irq : UInt64
  softirq : UInt64
  steal : UInt64
  guest : UInt64
  guestNice : UInt64
  more : List Char
  deriving DecidableEq, Repr

/-- The counters of the total time. -/
def Stat.counters (stat : Stat) : List Nat :=
  [stat.user, stat.nice, stat.system, stat.idle, stat.iowait, stat.irq, stat.softirq,
    stat.steal].map UInt64.toNat

/-- The text of the file. There are two blanks in front of the first counter. -/
def Stat.text (stat : Stat) : List Char :=
  ['c', 'p', 'u', ' '] ++ spaced stat.counters ++
    (spaced [stat.guest.toNat, stat.guestNice.toNat] ++ '\n' :: stat.more)

/-- What comes of opening and reading a file. -/
inductive Reading (α : Type)
  /-- `filp_open` fails. -/
  | openFails
  /-- `kernel_read` fails, or reads nothing. -/
  | readFails
  | reads (contents : α)
  deriving DecidableEq, Repr

/-- What is read, if the reading succeeds. -/
def Reading.contents {α : Type} : Reading α → Option α
  | .openFails => none
  | .readFails => none
  | .reads contents => some contents

/-- The string in `buffer` after any text was read: it has room for 127 characters and a NUL. -/
def Reading.buffer (r : Reading (List Char)) : Option (List Char) :=
  r.contents.map fun text => cString (text.take (128 - 1))

/-! ## The module -/

/-- The format `cpu  %*llu %*llu %*llu %llu %llu %*llu %*llu %*llu`. -/
def idleFormat : List Directive :=
  [.lit 'c', .lit 'p', .lit 'u'] ++ (times .skip 3 ++ (times .unsigned 2 ++ times .skip 3))

/-- The format `cpu  %llu %llu %llu %llu %llu %llu %llu %llu`. -/
def totalFormat : List Directive := [.lit 'c', .lit 'p', .lit 'u'] ++ times .unsigned 8

/-- `get_cpu_idle_time`. -/
def getCpuIdleTime (r : Reading (List Char)) : UInt64 :=
  match r.buffer with
  | none => -1
  | some buffer =>
    match scan idleFormat buffer with
    | [idle, iowait] => idle + iowait
    | _ => -1

/-- `get_cpu_total_time`. -/
def getCpuTotalTime (r : Reading (List Char)) : UInt64 :=
  match r.buffer with
  | none => -1
  | some buffer =>
    match scan totalFormat buffer with
    | [user, nice, system, idle, iowait, irq, softirq, steal] =>
      user + nice + system + idle + iowait + irq + softirq + steal
    | _ => -1

/-- The static variables of the module. -/
structure Prev where
  prevIdleTime : UInt64
  prevTotalTime : UInt64
  deriving DecidableEq, Repr

/-- The variables when the module is loaded. -/
def Prev.init : Prev := ⟨0, 0⟩

/-- A division, which faults if the divisor is zero. -/
def divide (a b : UInt64) : Option UInt64 := if b = 0 then none else some (a / b)

/-- The share of the time that is not idle, as an `int`, unless the division faults. -/
def cpuUsage (deltaIdle deltaTotal : UInt64) : Option Int32 :=
  if deltaTotal > 0 then
    (divide (100 * (deltaTotal - deltaIdle)) deltaTotal).map fun q => Int32.ofNat q.toNat
  else some 0

/-- What the two readings of a call give. -/
abbrev Readings := Reading (List Char) × Reading (List Char)

/-- `calculate_cpu_usage`. -/
def calculateCpuUsage (s : Prev) (r : Readings) : Option Int32 × Prev :=
  let idleTime := getCpuIdleTime r.1
  let totalTime := getCpuTotalTime r.2
  if idleTime = -1 ∨ totalTime = -1 then (some (-1), s)
  else
    (cpuUsage (idleTime - s.prevIdleTime) (totalTime - s.prevTotalTime), ⟨idleTime, totalTime⟩)

/-- The line that `show_cpu_stats` prints. -/
def usageLine (cpuUsage : Int32) : String :=
  if cpuUsage ≥ 0 then "Uso de CPU: " ++ toString cpuUsage.toInt ++ "%\n"
  else "Uso de CPU: Error\n"

/-- `show_cpu_stats`. -/
def showCpuStats (s : Prev) (r : Readings) : Option String × Prev :=
  let usage := calculateCpuUsage s r
  (usage.1.map usageLine, usage.2)

/-- Reading `/proc/cpu_stats` as a step. -/
def step (s : Prev) (r : Readings) : Prev := (showCpuStats s r).2

theorem step_eq (s : Prev) (r : Readings) : step s r = (calculateCpuUsage s r).2 := rfl

/-! ## The two figures -/

namespace Stat

variable {stat : Stat}

/-- The ticks in which the CPU was idle. -/
def idleTime (stat : Stat) : Nat := stat.idle.toNat + stat.iowait.toNat

/-- The ticks in all. -/
def totalTime (stat : Stat) : Nat := stat.counters.sum

/-- The counters are not cut off by the end of the buffer. -/
def Fits (stat : Stat) : Prop := 4 + (spaced stat.counters).length ≤ 127

instance : DecidablePred Fits := fun _ => inferInstanceAs (Decidable (_ ≤ 127))

theorem idleTime_le_totalTime : stat.idleTime ≤ stat.totalTime := by
  simp only [idleTime, totalTime, counters, List.map_cons, List.map_nil, List.sum_cons,
    List.sum_nil]
  omega

theorem lt_of_mem_counters {n : Nat} (h : n ∈ stat.counters) : n < 2 ^ 64 := by
  obtain ⟨x, _, rfl⟩ := List.mem_map.1 h
  exact x.toNat_lt

end Stat

variable {stat : Stat}

/-- The text from the counters after the first `k` on. -/
theorem ends_text (k : Nat) : Ends (spaced (stat.counters.drop k) ++
    (spaced [stat.guest.toNat, stat.guestNice.toNat] ++ '\n' :: stat.more)) :=
  ends_spaced_append (ends_spaced_append (ends_cons.2 (by decide)) _) _

theorem text_eq (stat : Stat) (k : Nat) :
    stat.text = ['c', 'p', 'u', ' '] ++ spaced (stat.counters.take k) ++
      (spaced (stat.counters.drop k) ++
        (spaced [stat.guest.toNat, stat.guestNice.toNat] ++ '\n' :: stat.more)) := by
  have happ : spaced stat.counters =
      spaced (stat.counters.take k) ++ spaced (stat.counters.drop k) := by
    rw [spaced, spaced, spaced, ← List.flatMap_append, List.take_append_drop]
  rw [Stat.text, happ]
  simp only [List.append_assoc]

theorem ne_nul_of_mem_cpu {ns : List Nat} {c : Char} (h : c ∈ ['c', 'p', 'u', ' '] ++ spaced ns) :
    c ≠ '\x00' := by
  rcases List.mem_append.1 h with hc | hc
  · rintro rfl
    exact absurd hc (by decide)
  · exact ne_nul_of_mem_spaced hc

/-- If the first `k` counters fit in the buffer, the string starts with them. -/
theorem exists_buffer (stat : Stat) (k : Nat)
    (h : 4 + (spaced (stat.counters.take k)).length ≤ 127) :
    ∃ rest, Ends rest ∧ (Reading.reads stat.text).buffer =
      some ('c' :: 'p' :: 'u' :: ' ' :: (spaced (stat.counters.take k) ++ rest)) := by
  have hlen : (['c', 'p', 'u', ' '] ++ spaced (stat.counters.take k)).length ≤ 127 := by
    rw [List.length_append]
    exact h
  obtain ⟨rest, hrest, hbuffer⟩ := cString_take (fun _ => ne_nul_of_mem_cpu) hlen (ends_text k)
  refine ⟨rest, hrest, ?_⟩
  rw [Reading.buffer, Reading.contents, Option.map_some, text_eq stat k, hbuffer]
  rfl

/-- If the counters do not fit, it is cut off in them. -/
theorem buffer_of_not_fits (h : ¬stat.Fits) :
    (Reading.reads stat.text).buffer =
      some ('c' :: 'p' :: 'u' :: ' ' :: (spaced stat.counters).take 123) := by
  have hlen : 127 ≤ (['c', 'p', 'u', ' '] ++ spaced stat.counters).length := by
    rw [List.length_append]
    exact (Nat.lt_of_not_le h).le
  have htake : (['c', 'p', 'u', ' '] ++ spaced stat.counters).take 127 =
      'c' :: 'p' :: 'u' :: ' ' :: (spaced stat.counters).take 123 := rfl
  have hnul : ∀ c ∈ (['c', 'p', 'u', ' '] ++ spaced stat.counters).take 127, c ≠ '\x00' :=
    fun c hc => ne_nul_of_mem_cpu (List.mem_of_mem_take hc)
  rw [Reading.buffer, Reading.contents, Option.map_some, Stat.text,
    List.take_append_of_le_length hlen, cString_eq_self hnul, htake]

/-- What the two formats have in common, on the text in the buffer. -/
theorem scan_cpu (fmt : List Directive) (s : List Char) :
    scan ([.lit 'c', .lit 'p', .lit 'u'] ++ .white :: fmt) ('c' :: 'p' :: 'u' :: ' ' :: s) =
      scan (.white :: fmt) s := by
  rw [← scan_white_blank]
  rfl

/-- The idle time is always scanned: five numbers fit in the buffer. -/
theorem exists_scan_idle (stat : Stat) :
    ∃ buffer, (Reading.reads stat.text).buffer = some buffer ∧
      scan idleFormat buffer = [stat.idle, stat.iowait] := by
  have hfits : 4 + (spaced (stat.counters.take 5)).length ≤ 127 := by
    have hlen : (spaced (stat.counters.take 5)).length ≤ (20 + 1) * 5 := by
      refine length_spaced_le (by decide) fun n hn => ?_
      have := Stat.lt_of_mem_counters (List.mem_of_mem_take hn)
      omega
    omega
  obtain ⟨rest, hrest, hbuffer⟩ := exists_buffer stat 5 hfits
  refine ⟨_, hbuffer, ?_⟩
  have hspaced : spaced (stat.counters.take 5) ++ rest =
      spaced [stat.user.toNat, stat.nice.toNat, stat.system.toNat] ++
        (spaced [stat.idle.toNat, stat.iowait.toNat] ++ rest) := by
    simp [spaced, Stat.counters]
  have hskip := scan_spaced_skip (times .unsigned 2 ++ times .skip 3)
    (ends_spaced_append hrest [stat.idle.toNat, stat.iowait.toNat])
    [stat.user.toNat, stat.nice.toNat, stat.system.toNat]
  have hconv := scan_spaced (times .skip 3) hrest [stat.idle.toNat, stat.iowait.toNat]
  rw [scan_times_skip] at hconv
  rw [hspaced]
  refine (scan_cpu _ _).trans (hskip.trans (hconv.trans ?_))
  simp

/-- The counters of the total time are scanned if they fit. -/
theorem exists_scan_total (h : stat.Fits) :
    ∃ buffer, (Reading.reads stat.text).buffer = some buffer ∧
      scan totalFormat buffer = [stat.user, stat.nice, stat.system, stat.idle, stat.iowait,
        stat.irq, stat.softirq, stat.steal] := by
  obtain ⟨rest, hrest, hbuffer⟩ := exists_buffer stat 8 h
  refine ⟨_, hbuffer, ?_⟩
  have hconv := scan_spaced [] hrest stat.counters
  refine (scan_cpu _ _).trans (hconv.trans ?_)
  simp [Stat.counters, scan]

theorem getCpuIdleTime_reads (stat : Stat) :
    getCpuIdleTime (.reads stat.text) = stat.idle + stat.iowait := by
  obtain ⟨buffer, hbuffer, hscan⟩ := exists_scan_idle stat
  simp only [getCpuIdleTime, hbuffer, hscan]

theorem getCpuTotalTime_reads (h : stat.Fits) :
    getCpuTotalTime (.reads stat.text) = stat.user + stat.nice + stat.system + stat.idle +
      stat.iowait + stat.irq + stat.softirq + stat.steal := by
  obtain ⟨buffer, hbuffer, hscan⟩ := exists_scan_total h
  simp only [getCpuTotalTime, hbuffer, hscan]

/-- As numbers, below `2 ^ 64`. -/
theorem toNat_getCpuIdleTime (h : stat.totalTime < 2 ^ 64) :
    (getCpuIdleTime (.reads stat.text)).toNat = stat.idleTime := by
  rw [getCpuIdleTime_reads, UInt64.toNat_add, ← Stat.idleTime]
  exact Nat.mod_eq_of_lt (stat.idleTime_le_totalTime.trans_lt h)

theorem toNat_getCpuTotalTime (hfits : stat.Fits) (h : stat.totalTime < 2 ^ 64) :
    (getCpuTotalTime (.reads stat.text)).toNat = stat.totalTime := by
  rw [getCpuTotalTime_reads hfits]
  simp only [UInt64.toNat_add, Nat.mod_add_mod]
  have hsum : stat.totalTime = stat.user.toNat + stat.nice.toNat + stat.system.toNat +
      stat.idle.toNat + stat.iowait.toNat + stat.irq.toNat + stat.softirq.toNat +
      stat.steal.toNat := by
    simp [Stat.totalTime, Stat.counters, Nat.add_assoc]
  rw [← hsum, Nat.mod_eq_of_lt h]

/-! ## The percentage -/

/-- One of the readings of a call fails, or its text is not scanned. -/
def Fails (r : Readings) : Prop := getCpuIdleTime r.1 = -1 ∨ getCpuTotalTime r.2 = -1

/-- From `0` to `100`. -/
def Percentage (usage : Int32) : Prop := 0 ≤ usage ∧ usage ≤ 100

/-- Where a call divides, the idle part does not exceed the whole. -/
def NoWrap (s : Prev) (r : Readings) : Prop :=
  getCpuTotalTime r.2 - s.prevTotalTime > 0 →
    getCpuIdleTime r.1 - s.prevIdleTime ≤ getCpuTotalTime r.2 - s.prevTotalTime

/-- A call that fails returns `-1`, and one that does not returns a percentage, and nothing
    wraps on the way. -/
structure Good (s : Prev) (r : Readings) : Prop where
  error : Fails r → (calculateCpuUsage s r).1 = some (-1)
  percentage : ¬Fails r → ∃ usage, (calculateCpuUsage s r).1 = some usage ∧ Percentage usage
  noWrap : ¬Fails r → NoWrap s r

/-- The counters `a` are not ahead of `b`. -/
def Stat.Le (a b : Stat) : Prop := List.Forall₂ (· ≤ ·) a.counters b.counters

/-- The two readings of a call, of the file as the kernel prints it. -/
abbrev StatReadings := Reading Stat × Reading Stat

/-- The text that is read. -/
def Reading.printed : Reading Stat → Reading (List Char)
  | .openFails => .openFails
  | .readFails => .readFails
  | .reads stat => .reads stat.text

def printed (r : StatReadings) : Readings := (r.1.printed, r.2.printed)

/-- A call that reads what the kernel prints. -/
def statStep (s : Prev) (r : StatReadings) : Prev := step s (printed r)

/-- The contents of the file at the successful readings of a run, in order. -/
def stats (rs : List StatReadings) : List Stat :=
  rs.flatMap fun r => r.1.contents.toList ++ r.2.contents.toList

/-- The condition on a call: the counters fit in the buffer at its second reading, and
    since the readings of the last good call, there are no more idle ticks from first
    to first than there are ticks in all from second to second. -/
def InStep (s : Prev) (r : StatReadings) : Prop :=
  ∀ a b, r = (.reads a, .reads b) → b.Fits ∧
    (b.totalTime = s.prevTotalTime.toNat ∨
      a.idleTime + s.prevTotalTime.toNat ≤ b.totalTime + s.prevIdleTime.toNat)

section

variable {s : Prev} {a b : Stat} {r : Readings} {sr : StatReadings} {rs : List StatReadings}

/-- A call that fails keeps the variables, … -/
theorem calculateCpuUsage_of_fails (h : Fails r) : calculateCpuUsage s r = (some (-1), s) :=
  if_pos h

/-- … and one that does not keeps its own figures. -/
theorem calculateCpuUsage_of_not_fails (h : ¬Fails r) :
    calculateCpuUsage s r =
      (cpuUsage (getCpuIdleTime r.1 - s.prevIdleTime) (getCpuTotalTime r.2 - s.prevTotalTime),
        ⟨getCpuIdleTime r.1, getCpuTotalTime r.2⟩) := if_neg h

theorem Stat.Le.idleTime_le (h : a.Le b) : a.idleTime ≤ b.idleTime := by
  simp only [Stat.Le, Stat.counters, List.map_cons, List.map_nil, List.forall₂_cons] at h
  simp only [Stat.idleTime]
  omega

theorem Stat.Le.totalTime_le (h : a.Le b) : a.totalTime ≤ b.totalTime := List.Forall₂.sum_le_sum h

/-- What the module keeps is not ahead of the contents of the file. -/
def Behind (s : Prev) (later : List Stat) : Prop :=
  ∀ c ∈ later, s.prevIdleTime.toNat ≤ c.idleTime ∧ s.prevTotalTime.toNat ≤ c.totalTime

/-- The division is guarded. -/
theorem cpuUsage_of_pos {deltaIdle deltaTotal : UInt64} (hpos : deltaTotal > 0) :
    cpuUsage deltaIdle deltaTotal =
      some (Int32.ofNat (100 * (deltaTotal - deltaIdle) / deltaTotal).toNat) := by
  have hne : deltaTotal ≠ 0 := fun hzero => by simp [hzero] at hpos
  rw [cpuUsage, if_pos hpos, divide, if_neg hne]
  rfl

theorem cpuUsage_of_not_pos {deltaIdle deltaTotal : UInt64} (hpos : ¬deltaTotal > 0) :
    cpuUsage deltaIdle deltaTotal = some 0 := if_neg hpos

/-- A part of a whole is a percentage of it. -/
theorem percentage_cpuUsage {deltaIdle deltaTotal : UInt64} (hlt : deltaTotal.toNat * 100 < 2 ^ 64)
    (h : deltaTotal > 0 → deltaIdle ≤ deltaTotal) :
    ∃ usage, cpuUsage deltaIdle deltaTotal = some usage ∧ Percentage usage := by
  by_cases hpos : deltaTotal > 0
  · refine ⟨_, cpuUsage_of_pos hpos, ?_⟩
    have hbusy : (100 * (deltaTotal - deltaIdle)).toNat =
        100 * (deltaTotal.toNat - deltaIdle.toNat) := by
      rw [UInt64.toNat_mul, UInt64.toNat_sub_of_le _ _ (h hpos)]
      have hhundred : (100 : UInt64).toNat = 100 := rfl
      rw [hhundred, Nat.mod_eq_of_lt (by omega)]
    have hle : (100 * (deltaTotal - deltaIdle) / deltaTotal).toNat ≤ 100 := by
      rw [UInt64.toNat_div, hbusy]
      refine Nat.div_le_of_le_mul ?_
      rw [Nat.mul_comm]
      exact Nat.mul_le_mul_right _ (Nat.sub_le _ _)
    rw [Percentage, Int32.le_iff_toInt_le, Int32.le_iff_toInt_le,
      Int32.toInt_ofNat_of_lt (by omega)]
    exact ⟨Int.natCast_nonneg _, Int.ofNat_le.2 hle⟩
  · exact ⟨0, cpuUsage_of_not_pos hpos, by decide, by decide⟩

/-- A figure is not taken for an error. -/
theorem ne_neg_one {x : UInt64} (h : x.toNat * 100 < 2 ^ 64) : x ≠ -1 := by
  rintro rfl
  exact absurd h (by decide)

/-- A call without an error is good if and only if it is in step. -/
theorem good_iff (hs : Behind s [a, b]) (hfits : b.Fits) (ha : a.totalTime * 100 < 2 ^ 64)
    (hb : b.totalTime * 100 < 2 ^ 64) :
    Good s (.reads a.text, .reads b.text) ↔ b.totalTime = s.prevTotalTime.toNat ∨
      a.idleTime + s.prevTotalTime.toNat ≤ b.totalTime + s.prevIdleTime.toNat := by
  have hidle : (getCpuIdleTime (.reads a.text)).toNat = a.idleTime :=
    toNat_getCpuIdleTime (by omega)
  have htotal := toNat_getCpuTotalTime hfits (by omega)
  have hle := a.idleTime_le_totalTime
  have hok : ¬Fails (.reads a.text, .reads b.text) :=
    not_or.2 ⟨ne_neg_one (by dsimp only; omega), ne_neg_one (by dsimp only; omega)⟩
  have hsa := (hs a (by simp)).1
  have hsb := (hs b (by simp)).2
  rw [← hidle] at hsa
  rw [← htotal] at hsb
  have hdeltaIdle := UInt64.toNat_sub_of_le _ _ (UInt64.le_iff_toNat_le.2 hsa)
  have hdeltaTotal := UInt64.toNat_sub_of_le _ _ (UInt64.le_iff_toNat_le.2 hsb)
  -- Both differences are those of the figures, so the call is good if the first does not exceed
  -- the second, or if the second is zero and there is no division.
  have hnowrap : NoWrap s (.reads a.text, .reads b.text) ↔ b.totalTime = s.prevTotalTime.toNat ∨
      a.idleTime + s.prevTotalTime.toNat ≤ b.totalTime + s.prevIdleTime.toNat := by
    simp only [NoWrap, gt_iff_lt, UInt64.lt_iff_toNat_lt, UInt64.le_iff_toNat_le, hdeltaIdle,
      hdeltaTotal, UInt64.toNat_zero]
    omega
  refine ⟨fun h => hnowrap.1 (h.noWrap hok), fun h => ⟨fun hfails => absurd hfails hok, fun _ => ?_,
    fun _ => hnowrap.2 h⟩⟩
  have hlt : (getCpuTotalTime (.reads b.text) - s.prevTotalTime).toNat * 100 < 2 ^ 64 := by omega
  rw [calculateCpuUsage_of_not_fails hok]
  dsimp only
  exact percentage_cpuUsage hlt (hnowrap.2 h)

/-- A call that fails is good, and keeps the variables. -/
theorem good_of_fails (h : Fails r) : Good s r ∧ step s r = s := by
  rw [step_eq, calculateCpuUsage_of_fails h]
  refine ⟨⟨fun _ => ?_, fun hok => absurd h hok, fun hok => absurd h hok⟩, rfl⟩
  rw [calculateCpuUsage_of_fails h]

/-- There is no figure without the contents of the file. -/
theorem exists_reads (h : ¬Fails (printed sr)) : ∃ a b, sr = (.reads a, .reads b) := by
  obtain ⟨r₁, r₂⟩ := sr
  rcases r₁ with _ | _ | a
  · exact absurd (.inl rfl) h
  · exact absurd (.inl rfl) h
  · rcases r₂ with _ | _ | b
    · exact absurd (.inr rfl) h
    · exact absurd (.inr rfl) h
    · exact ⟨a, b, rfl⟩

theorem stats_suffix (sr : StatReadings) (rs : List StatReadings) :
    stats rs <:+ stats (sr :: rs) := by
  rw [stats, stats, List.flatMap_cons]
  exact List.suffix_append _ _

/-- One step: a call in step is good, and what it keeps is not ahead of the readings
    after it. -/
theorem good_of_inStep (hs : Behind s (stats (sr :: rs)))
    (hle : (stats (sr :: rs)).Pairwise Stat.Le)
    (hlt : ∀ c ∈ stats (sr :: rs), c.totalTime * 100 < 2 ^ 64) (h : InStep s sr) :
    Good s (printed sr) ∧ Behind (statStep s sr) (stats rs) := by
  by_cases hfails : Fails (printed sr)
  · have hgood := good_of_fails (s := s) hfails
    rw [statStep, hgood.2]
    exact ⟨hgood.1, fun c hc => hs c ((stats_suffix sr rs).subset hc)⟩
  · obtain ⟨a, b, rfl⟩ := exists_reads hfails
    obtain ⟨hfits, hstep⟩ := h a b rfl
    have hstats : stats ((.reads a, .reads b) :: rs) = [a, b] ++ stats rs := rfl
    rw [hstats] at hs hle hlt
    have ha := hlt a (by simp)
    have hb := hlt b (by simp)
    have hab : Behind s [a, b] := fun c hc => hs c (List.mem_append_left _ hc)
    refine ⟨(good_iff hab hfits ha hb).2 hstep, fun c hc => ?_⟩
    -- The figures of the call are those of `a` and `b`, which are not ahead of `c`.
    have hac : a.Le c := (List.pairwise_append.1 hle).2.2 a (by simp) c hc
    have hbc : b.Le c := (List.pairwise_append.1 hle).2.2 b (by simp) c hc
    rw [statStep, step_eq, calculateCpuUsage_of_not_fails hfails]
    dsimp only [printed, Reading.printed]
    rw [toNat_getCpuIdleTime (by omega), toNat_getCpuTotalTime hfits (by omega)]
    exact ⟨hac.idleTime_le, hbc.totalTime_le⟩

end

/-- In every run whose calls are in step, if no counter decreases from one reading to
    the next and the totals stay below `2 ^ 64 / 100`, each call returns `-1`, if it fails,
    or a percentage. -/
theorem usage_percentage (rs : List StatReadings) (hle : (stats rs).Pairwise Stat.Le)
    (hlt : ∀ c ∈ stats rs, c.totalTime * 100 < 2 ^ 64)
    (h : Machine.Each statStep InStep Prev.init rs) :
    Machine.Each statStep (fun s r => Good s (printed r)) Prev.init rs := by
  have hrun : ∀ s, Behind s (stats rs) → Machine.Each statStep InStep s rs →
      Machine.Each statStep (fun s r => Good s (printed r)) s rs := by
    clear h
    induction rs with
    | nil => exact fun _ _ _ => Machine.each_nil.2 trivial
    | cons r rs ih =>
      intro s hs h
      obtain ⟨hr, hrs⟩ := Machine.each_cons.1 h
      obtain ⟨hgood, hbehind⟩ := good_of_inStep hs hle hlt hr
      have hsuffix := stats_suffix r rs
      refine Machine.each_cons.2 ⟨hgood, ih (hle.sublist hsuffix.sublist) (fun c hc => ?_) _
        hbehind hrs⟩
      exact hlt c (hsuffix.subset hc)
  exact hrun Prev.init (fun c _ => ⟨Nat.zero_le _, Nat.zero_le _⟩) h

/-- The file after `user` busy and `idle` idle ticks. -/
def ticks (user idle : UInt64) : Stat := ⟨user, 0, 0, idle, 0, 0, 0, 0, 0, 0, ['i', 'n', 't', 'r']⟩

/-- No tick falls between the two readings of a call, and thirty of forty are idle. -/
theorem usage_percentage_of_ticks :
    Machine.Each statStep (fun s r => Good s (printed r)) Prev.init
      [(.reads (ticks 0 0), .reads (ticks 0 0)), (.openFails, .reads (ticks 5 20)),
        (.reads (ticks 10 30), .reads (ticks 10 30))] ∧
    (calculateCpuUsage Prev.init (printed (.reads (ticks 10 30), .reads (ticks 10 30)))).1 =
      some 25 := by
  refine ⟨usage_percentage _ ?_ ?_ ?_, by decide +kernel⟩
  · simp [stats, Reading.contents, Stat.Le, Stat.counters, ticks]
  · simp [stats, Reading.contents, Stat.totalTime, Stat.counters, ticks]
  · rw [Machine.each_cons, Machine.each_cons, Machine.each_cons, Machine.each_nil]
    refine ⟨?_, ?_, ?_, trivial⟩
    · rintro a b ⟨⟩
      decide +kernel
    · rintro a b ⟨⟩
    · rintro a b ⟨⟩
      decide +kernel

/-- Ten idle ticks fall between the two readings of a call, and one busy tick between those of
    the next. -/
def apart : List StatReadings :=
  [(.reads (ticks 0 0), .reads (ticks 0 10)), (.reads (ticks 0 10), .reads (ticks 1 10))]

/-- The first call has the idle ticks in its total only, the second in its idle time only: the
    CPU is idle for ten ticks of one, and the second call returns `-900`. -/
theorem usage_not_percentage :
    (stats apart).Pairwise Stat.Le ∧ (∀ c ∈ stats apart, c.totalTime * 100 < 2 ^ 64) ∧
    (calculateCpuUsage (statStep Prev.init (.reads (ticks 0 0), .reads (ticks 0 10)))
      (printed (.reads (ticks 0 10), .reads (ticks 1 10)))).1 = some (-900) ∧
    ¬Machine.Each statStep (fun s r => Good s (printed r)) Prev.init apart := by
  have husage : (calculateCpuUsage (statStep Prev.init (.reads (ticks 0 0), .reads (ticks 0 10)))
      (printed (.reads (ticks 0 10), .reads (ticks 1 10)))).1 = some (-900) := by decide +kernel
  refine ⟨?_, ?_, husage, fun h => ?_⟩
  · simp [apart, stats, Reading.contents, Stat.Le, Stat.counters, ticks]
  · simp [apart, stats, Reading.contents, Stat.totalTime, Stat.counters, ticks]
  · have hgood := (Machine.each_cons.1 (Machine.each_cons.1 h).2).1
    have hok : ¬Fails (printed (.reads (ticks 0 10), .reads (ticks 1 10))) := by
      unfold Fails
      decide +kernel
    obtain ⟨usage, husage', hpercentage⟩ := hgood.percentage hok
    rw [husage, Option.some.injEq] at husage'
    rw [← husage'] at hpercentage
    exact absurd hpercentage.1 (by decide)

end CpuStats

end LuisKernel
