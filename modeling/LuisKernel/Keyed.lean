import Mathlib.Data.List.Nodup
import Mathlib.Data.List.Perm.Basic
import Mathlib.Logic.Function.Basic

/-!
# Lists of keyed records

A list whose records have a `key`, searched from the front: the operations act
on the *first* record of a key, as the loops over a linked list do.

* `find`, `write` and `erase` search, change and remove the first record of a
  key; a new record goes to the front;
* operations on different keys do not see each other (`find_write_of_ne`, …)
  and commute (`write_comm`, …);
* if no key occurs twice (`Distinct`), the list stands for a partial map
  (`toMap`), and the operations are the updates of this map
  (`toMap_cons`, `toMap_write`, `toMap_erase`);
* a part of the records may determine another (`Determines`).
-/

namespace Keyed

variable {α κ β : Type*} [DecidableEq κ] (key : α → κ)

/-- The first record of key `k`. -/
def find (k : κ) : List α → Option α
  | [] => none
  | a :: l => if key a = k then some a else find k l

/-- The list with its first record of key `k` changed by `f`. -/
def write (k : κ) (f : α → α) : List α → List α
  | [] => []
  | a :: l => if key a = k then f a :: l else a :: write k f l

/-- The list without its first record of key `k`. -/
def erase (k : κ) : List α → List α
  | [] => []
  | a :: l => if key a = k then l else a :: erase k l

/-- No key occurs twice. -/
def Distinct (l : List α) : Prop := (l.map key).Nodup

variable {key} {k k' : κ} {a b : α} {l : List α} {f g : α → α}

/-! ## Searching -/

@[simp] theorem find_nil : find key k [] = none := rfl

theorem find_cons : find key k (a :: l) = if key a = k then some a else find key k l := rfl

theorem find_cons_self : find key (key a) (a :: l) = some a := if_pos rfl

theorem find_cons_of_ne (h : key a ≠ k) : find key k (a :: l) = find key k l := if_neg h

theorem find_some (h : find key k l = some a) : a ∈ l ∧ key a = k := by
  induction l with
  | nil => cases h
  | cons b l ih =>
    rw [find_cons] at h
    split_ifs at h with hb
    · cases h
      exact ⟨List.mem_cons_self, hb⟩
    · exact ⟨List.mem_cons_of_mem _ (ih h).1, (ih h).2⟩

theorem find_eq_none_iff : find key k l = none ↔ ∀ a ∈ l, key a ≠ k := by
  induction l with
  | nil => simp
  | cons b l ih =>
    rw [find_cons, List.forall_mem_cons]
    split_ifs with hb
    · simp [hb]
    · simp [hb, ih]

theorem isSome_find_iff : (find key k l).isSome ↔ ∃ a ∈ l, key a = k := by
  rw [← Option.ne_none_iff_isSome, ne_eq, find_eq_none_iff]
  push Not
  rfl

/-! ## Changing and removing -/

@[simp] theorem write_nil : write key k f [] = [] := rfl

@[simp] theorem erase_nil : erase key k ([] : List α) = [] := rfl

theorem write_cons :
    write key k f (a :: l) = if key a = k then f a :: l else a :: write key k f l := rfl

theorem erase_cons :
    erase key k (a :: l) = if key a = k then l else a :: erase key k l := rfl

theorem write_cons_of_ne (h : key a ≠ k) :
    write key k f (a :: l) = a :: write key k f l := if_neg h

theorem erase_cons_of_ne (h : key a ≠ k) :
    erase key k (a :: l) = a :: erase key k l := if_neg h

theorem map_key_write (hf : ∀ a, key (f a) = key a) :
    (write key k f l).map key = l.map key := by
  induction l with
  | nil => rfl
  | cons b l ih =>
    rw [write_cons]
    split_ifs with hb
    · simp [hf]
    · simp [ih]

theorem map_key_erase : (erase key k l).map key = (l.map key).erase k := by
  induction l with
  | nil => rfl
  | cons b l ih =>
    rw [erase_cons, List.map_cons]
    split_ifs with hb
    · rw [hb, List.erase_cons_head]
    · rw [List.map_cons, ih, List.erase_cons_tail (by simpa using hb)]

theorem erase_sublist : (erase key k l).Sublist l := by
  induction l with
  | nil => exact .slnil
  | cons b l ih =>
    rw [erase_cons]
    split_ifs with hb
    · exact List.sublist_cons_self b l
    · exact ih.cons_cons b

/-! ## Different keys -/

theorem find_write_of_ne (hf : ∀ a, key (f a) = key a) (h : k ≠ k') :
    find key k (write key k' f l) = find key k l := by
  induction l with
  | nil => rfl
  | cons b l ih =>
    rw [write_cons]
    split_ifs with hb
    · have hk : key b ≠ k := fun hk => h (hk.symm.trans hb)
      rw [find_cons_of_ne hk, find_cons_of_ne ((hf b).symm ▸ hk)]
    · rw [find_cons, find_cons, ih]

theorem find_erase_of_ne (h : k ≠ k') : find key k (erase key k' l) = find key k l := by
  induction l with
  | nil => rfl
  | cons b l ih =>
    rw [erase_cons]
    split_ifs with hb
    · rw [find_cons_of_ne fun hk => h (hk.symm.trans hb)]
    · rw [find_cons, find_cons, ih]

theorem write_comm (hf : ∀ a, key (f a) = key a) (hg : ∀ a, key (g a) = key a) (h : k ≠ k') :
    write key k f (write key k' g l) = write key k' g (write key k f l) := by
  induction l with
  | nil => rfl
  | cons b l ih =>
    -- The record `b` is the first of one of the keys, or of neither.
    by_cases hb : key b = k
    · simp [write_cons, hb, h, hf]
    · by_cases hb' : key b = k'
      · simp [write_cons, hb', hg, h.symm]
      · simp [write_cons, hb, hb', ih]

theorem write_erase_comm (hf : ∀ a, key (f a) = key a) (h : k ≠ k') :
    write key k f (erase key k' l) = erase key k' (write key k f l) := by
  induction l with
  | nil => rfl
  | cons b l ih =>
    by_cases hb : key b = k
    · simp [write_cons, erase_cons, hb, h, hf]
    · by_cases hb' : key b = k'
      · simp [write_cons, erase_cons, hb', h.symm]
      · simp [write_cons, erase_cons, hb, hb', ih]

theorem erase_comm (h : k ≠ k') :
    erase key k (erase key k' l) = erase key k' (erase key k l) := by
  induction l with
  | nil => rfl
  | cons b l ih =>
    by_cases hb : key b = k
    · simp [erase_cons, hb, h]
    · by_cases hb' : key b = k'
      · simp [erase_cons, hb', h.symm]
      · simp [erase_cons, hb, hb', ih]

/-! ## Parts of records -/

section

variable {γ : Type*} {part : γ → α} {m : List γ}

theorem map_find : (find (key ∘ part) k m).map part = find key k (m.map part) := by
  induction m with
  | nil => rfl
  | cons b m ih =>
    rw [List.map_cons, find_cons, find_cons, ← ih]
    split_ifs <;> simp_all

theorem map_write {h : γ → γ} (hh : ∀ c, part (h c) = f (part c)) :
    (write (key ∘ part) k h m).map part = write key k f (m.map part) := by
  induction m with
  | nil => rfl
  | cons b m ih =>
    rw [List.map_cons, write_cons, write_cons, ← ih]
    split_ifs <;> simp_all

theorem map_erase : (erase (key ∘ part) k m).map part = erase key k (m.map part) := by
  induction m with
  | nil => rfl
  | cons b m ih =>
    rw [List.map_cons, erase_cons, erase_cons, ← ih]
    split_ifs <;> simp_all

end

/-! ## Distinct keys -/

omit [DecidableEq κ] in
theorem distinct_nil : Distinct key [] := List.nodup_nil

omit [DecidableEq κ] in
theorem distinct_cons : Distinct key (a :: l) ↔ (∀ b ∈ l, key b ≠ key a) ∧ Distinct key l := by
  rw [Distinct, List.map_cons, List.nodup_cons, List.mem_map]
  push Not
  rfl

theorem Distinct.cons (hl : Distinct key l) (h : find key (key a) l = none) :
    Distinct key (a :: l) := distinct_cons.2 ⟨find_eq_none_iff.1 h, hl⟩

theorem Distinct.write (hl : Distinct key l) (hf : ∀ a, key (f a) = key a) :
    Distinct key (write key k f l) := by
  rw [Distinct, map_key_write hf]
  exact hl

theorem Distinct.erase (hl : Distinct key l) : Distinct key (erase key k l) :=
  hl.sublist (erase_sublist.map key)

/-- In a list with distinct keys, a record is the one found under its key. -/
theorem Distinct.find_eq_some_iff (hl : Distinct key l) :
    find key k l = some a ↔ a ∈ l ∧ key a = k := by
  refine ⟨find_some, ?_⟩
  rintro ⟨ha, rfl⟩
  induction l with
  | nil => exact absurd ha List.not_mem_nil
  | cons b l ih =>
    obtain ⟨hb, hl⟩ := distinct_cons.1 hl
    rcases List.mem_cons.1 ha with rfl | ha'
    · exact find_cons_self
    · rw [find_cons_of_ne (hb a ha').symm, ih hl ha']

/-- Removing a key leaves the records of the other keys. -/
theorem Distinct.mem_erase_iff (hl : Distinct key l) :
    a ∈ Keyed.erase key k l ↔ a ∈ l ∧ key a ≠ k := by
  induction l with
  | nil => simp
  | cons b l ih =>
    obtain ⟨hb, hl⟩ := distinct_cons.1 hl
    rw [erase_cons]
    split_ifs with hk
    · -- The removed record is `b`: the records after it have other keys.
      refine ⟨fun ha => ⟨List.mem_cons_of_mem _ ha, hk ▸ hb a ha⟩, ?_⟩
      rintro ⟨ha, hak⟩
      exact (List.mem_cons.1 ha).resolve_left fun h => hak (h ▸ hk)
    · rw [List.mem_cons, List.mem_cons, ih hl]
      constructor
      · rintro (rfl | ⟨ha, hak⟩)
        exacts [⟨.inl rfl, hk⟩, ⟨.inr ha, hak⟩]
      · rintro ⟨rfl | ha, hak⟩
        exacts [.inl rfl, .inr ⟨ha, hak⟩]

/-- In a list with distinct keys, removing the key of a record removes this record. -/
theorem Distinct.erase_key [DecidableEq α] (hl : Distinct key l) (ha : a ∈ l) :
    Keyed.erase key (key a) l = l.erase a := by
  induction l with
  | nil => rfl
  | cons b l ih =>
    obtain ⟨hb, hl⟩ := distinct_cons.1 hl
    by_cases hab : b = a
    · rw [hab, erase_cons, if_pos rfl, List.erase_cons_head]
    · have ha' : a ∈ l := (List.mem_cons.1 ha).resolve_left fun h => hab h.symm
      rw [erase_cons_of_ne (hb a ha').symm, ih hl ha', List.erase_cons_tail (by simpa using hab)]

/-- … and changing it changes this record. -/
theorem Distinct.write_key [DecidableEq α] (hl : Distinct key l) (ha : a ∈ l) :
    Keyed.write key (key a) f l = l.map fun b => if b = a then f b else b := by
  induction l with
  | nil => rfl
  | cons b l ih =>
    obtain ⟨hb, hl⟩ := distinct_cons.1 hl
    rw [List.map_cons]
    by_cases hab : b = a
    · -- The other records are not `a`, as they have other keys.
      have hne : ∀ c ∈ l, (if c = a then f c else c) = id c := fun c hc =>
        if_neg fun hca => hb c hc (congrArg key (hca.trans hab.symm))
      have hrest : (l.map fun c => if c = a then f c else c) = l :=
        (List.map_congr_left hne).trans (List.map_id l)
      rw [hab, write_cons, if_pos rfl, if_pos rfl, hrest]
    · have ha' : a ∈ l := (List.mem_cons.1 ha).resolve_left fun h => hab h.symm
      rw [write_cons_of_ne (hb a ha').symm, ih hl ha', if_neg hab]

theorem Distinct.write_eq_map (hl : Distinct key l) :
    Keyed.write key k f l = l.map fun a => if key a = k then f a else a := by
  induction l with
  | nil => rfl
  | cons b l ih =>
    obtain ⟨hb, hl⟩ := distinct_cons.1 hl
    rw [write_cons, List.map_cons]
    split_ifs with hk
    · have hne : ∀ a ∈ l, (if key a = k then f a else a) = id a := fun a ha =>
        if_neg (hk ▸ hb a ha)
      rw [List.map_congr_left hne, List.map_id]
    · rw [ih hl]

/-- Changing a key changes its record and leaves those of the other keys. -/
theorem Distinct.mem_write_iff (hl : Distinct key l) :
    a ∈ Keyed.write key k f l ↔ (a ∈ l ∧ key a ≠ k) ∨ ∃ b ∈ l, key b = k ∧ a = f b := by
  induction l with
  | nil => simp
  | cons b l ih =>
    obtain ⟨hb, hl⟩ := distinct_cons.1 hl
    rw [write_cons]
    split_ifs with hk
    · rw [List.mem_cons]
      constructor
      · rintro (rfl | ha)
        · exact .inr ⟨b, List.mem_cons_self, hk, rfl⟩
        · exact .inl ⟨List.mem_cons_of_mem _ ha, hk ▸ hb a ha⟩
      · rintro (⟨ha, hak⟩ | ⟨c, hc, hck, rfl⟩)
        · exact .inr ((List.mem_cons.1 ha).resolve_left fun h => hak (h ▸ hk))
        · rcases List.mem_cons.1 hc with rfl | hc'
          · exact .inl rfl
          · exact absurd (hck.trans hk.symm) (hb c hc')
    · rw [List.mem_cons, ih hl]
      constructor
      · rintro (rfl | ⟨ha, hak⟩ | ⟨c, hc, hck⟩)
        exacts [.inl ⟨List.mem_cons_self, hk⟩, .inl ⟨List.mem_cons_of_mem _ ha, hak⟩,
          .inr ⟨c, List.mem_cons_of_mem _ hc, hck⟩]
      · rintro (⟨ha, hak⟩ | ⟨c, hc, hck, rfl⟩)
        · rcases List.mem_cons.1 ha with rfl | ha'
          exacts [.inl rfl, .inr (.inl ⟨ha', hak⟩)]
        · rcases List.mem_cons.1 hc with rfl | hc'
          exacts [absurd hck hk, .inr (.inr ⟨c, hc', hck, rfl⟩)]

/-! ## The map a list stands for -/

variable (key) in
/-- The partial map from keys to the values of their records. -/
def toMap (val : α → β) (l : List α) (k : κ) : Option β := (find key k l).map val

variable {val : α → β}

theorem toMap_eq_none_iff : toMap key val l k = none ↔ find key k l = none :=
  Option.map_eq_none_iff

@[simp] theorem isSome_toMap : (toMap key val l k).isSome = (find key k l).isSome :=
  Option.isSome_map

theorem toMap_cons :
    toMap key val (a :: l) = Function.update (toMap key val l) (key a) (some (val a)) := by
  funext k
  by_cases hk : k = key a
  · rw [hk, Function.update_self, toMap, find_cons_self, Option.map_some]
  · rw [Function.update_of_ne hk, toMap, find_cons_of_ne fun h => hk h.symm, toMap]

theorem toMap_write (hf : ∀ a, key (f a) = key a) {v : β} (hv : ∀ a, val (f a) = v)
    (hk : find key k l ≠ none) :
    toMap key val (write key k f l) = Function.update (toMap key val l) k (some v) := by
  induction l with
  | nil => exact absurd rfl hk
  | cons b l ih =>
    rw [write_cons]
    split_ifs with hb
    · rw [toMap_cons, toMap_cons, hf, hv, hb, Function.update_idem]
    · rw [find_cons_of_ne hb] at hk
      rw [toMap_cons, toMap_cons, ih hk, Function.update_comm fun h => hb h.symm]

theorem toMap_erase (hl : Distinct key l) :
    toMap key val (erase key k l) = Function.update (toMap key val l) k none := by
  funext k'
  by_cases hk : k' = k
  · have hnone : find key k (erase key k l) = none :=
      find_eq_none_iff.2 fun a ha => (hl.mem_erase_iff.1 ha).2
    rw [hk, Function.update_self, toMap, hnone, Option.map_none]
  · rw [Function.update_of_ne hk, toMap, find_erase_of_ne hk, toMap]

/-! ## A record and the others -/

/-- A record that is found, and the other records. -/
theorem perm_erase (h : find key k l = some a) : l.Perm (a :: erase key k l) := by
  induction l with
  | nil => cases h
  | cons b l ih =>
    rw [find_cons] at h
    rw [erase_cons]
    split_ifs at h ⊢ with hb
    · cases h
      exact .refl _
    · exact ((ih h).cons b).trans (.swap a b _)

/-- Changing a record leaves the others. -/
theorem perm_write (h : find key k l = some a) :
    (write key k f l).Perm (f a :: erase key k l) := by
  induction l with
  | nil => cases h
  | cons b l ih =>
    rw [find_cons] at h
    rw [write_cons, erase_cons]
    split_ifs at h ⊢ with hb
    · cases h
      exact .refl _
    · exact ((ih h).cons b).trans (.swap (f a) b _)

/-- What is written is the change of the record that is found. -/
theorem write_of_find (h : find key k l = some a) :
    write key k f l = write key k (fun _ => f a) l := by
  induction l with
  | nil => rfl
  | cons b l ih =>
    rw [find_cons] at h
    rw [write_cons, write_cons]
    split_ifs at h ⊢ with hb
    · cases h
      rfl
    · rw [ih h]

/-- A record written over itself. -/
theorem write_self (h : find key k l = some a) : write key k (fun _ => a) l = l := by
  induction l with
  | nil => rfl
  | cons b l ih =>
    rw [find_cons] at h
    rw [write_cons]
    split_ifs at h ⊢ with hb
    · cases h
      rfl
    · rw [ih h]

theorem write_of_find_none (h : find key k l = none) : write key k f l = l := by
  induction l with
  | nil => rfl
  | cons b l ih =>
    rw [find_eq_none_iff, List.forall_mem_cons] at h
    rw [write_cons_of_ne h.1, ih (find_eq_none_iff.2 h.2)]

theorem find_write_self (hf : ∀ a, key (f a) = key a) :
    find key k (write key k f l) = (find key k l).map f := by
  induction l with
  | nil => rfl
  | cons b l ih =>
    rw [write_cons, find_cons]
    split_ifs with hb
    · rw [find_cons, if_pos ((hf b).trans hb)]
      rfl
    · rw [find_cons_of_ne hb, ih]

/-! ## What determines what -/

section

variable {γ δ : Type*} {part : α → γ} {other : α → δ} {l' : List α}

/-- Records that agree in one part agree in another. -/
def Determines (part : α → γ) (other : α → δ) (l : List α) : Prop :=
  ∀ a ∈ l, ∀ b ∈ l, part a = part b → other a = other b

theorem Determines.of_subset (h : Determines part other l) (hsub : l' ⊆ l) :
    Determines part other l' :=
  fun a ha b hb => h a (hsub ha) b (hsub hb)

theorem determines_cons : Determines part other (a :: l) ↔
    (∀ b ∈ l, part a = part b → other a = other b) ∧ Determines part other l := by
  constructor
  · intro h
    exact ⟨fun b hb => h a List.mem_cons_self b (List.mem_cons_of_mem _ hb),
      h.of_subset (List.subset_cons_self a l)⟩
  · rintro ⟨ha, hl⟩ b hb c hc hbc
    rcases List.mem_cons.1 hb with rfl | hb'
    · rcases List.mem_cons.1 hc with rfl | hc'
      · rfl
      · exact ha c hc' hbc
    · rcases List.mem_cons.1 hc with rfl | hc'
      · exact (ha b hb' hbc.symm).symm
      · exact hl b hb' c hc' hbc

/-- A record may give way to one that agrees with it, or with no other record. -/
theorem Determines.replace (h : Determines part other (b :: l))
    (ha : part a = part b ∧ other a = other b ∨ ∀ c ∈ l, part a ≠ part c) :
    Determines part other (a :: l) := by
  obtain ⟨hb, hl⟩ := determines_cons.1 h
  refine determines_cons.2 ⟨fun c hc hac => ?_, hl⟩
  rcases ha with ⟨hpart, hother⟩ | hnew
  · rw [hother]
    exact hb c hc (hpart.symm.trans hac)
  · exact absurd hac (hnew c hc)

end

end Keyed
