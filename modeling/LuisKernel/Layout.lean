import Mathlib.Algebra.Order.Ring.Nat
import Mathlib.Data.List.Basic

/-!
# C records in memory

How the structures of C lie in memory in the ABI of x86-64, and what is left
there by the assignments of a program.

* A `Codec` writes the values of a type as a fixed number of bytes, integers
  with the least significant byte first.
* The memory is a function from addresses to bytes. A program leaves a trace of
  *stores* in it, each a list of bytes with its address. A byte none of them
  covers is the one that was there before, and only this byte depends on what
  was there (`stores_of_covered`, `stores_of_not_covered`). So what is copied
  out of the memory is the same for two old contents exactly when they agree on
  the bytes that are not covered (`load_stores_eq_iff`).
* A structure is given by its fields, each with a size and an alignment. They
  are placed in their order, each at the next multiple of its alignment; between
  them, and after the last one, there may be padding. Writing the fields of a
  record and reading them back gives what was written (`read_write`), and so it
  is for the records of an array (`readArray_writeArray`).
-/

namespace Layout

/-! ## Bytes -/

/-- The `w` lowest bytes of `n`, the least significant first. -/
def bytesOf : Nat → Nat → List UInt8
  | 0, _ => []
  | w + 1, n => UInt8.ofNat n :: bytesOf w (n / 256)

/-- The number with the given bytes, the least significant first. -/
def ofBytes (bs : List UInt8) : Nat := bs.foldr (fun b n => b.toNat + 256 * n) 0

@[simp] theorem length_bytesOf (w n : Nat) : (bytesOf w n).length = w := by
  induction w generalizing n with
  | zero => rfl
  | succ w ih => rw [bytesOf, List.length_cons, ih]

theorem ofBytes_bytesOf (w n : Nat) : ofBytes (bytesOf w n) = n % 256 ^ w := by
  induction w generalizing n with
  | zero => simp [bytesOf, ofBytes, Nat.mod_one]
  | succ w ih =>
    have hcons : ofBytes (bytesOf (w + 1) n) =
        (UInt8.ofNat n).toNat + 256 * ofBytes (bytesOf w (n / 256)) := rfl
    have hbyte : (UInt8.ofNat n).toNat = n % 256 := UInt8.toNat_ofNat'
    rw [hcons, hbyte, ih, Nat.pow_succ', Nat.mod_mul]

/-- A type whose values are written as `n` bytes. -/
structure Codec (α : Type) (n : Nat) where
  encode : α → List UInt8
  decode : List UInt8 → α
  length_encode : ∀ a, (encode a).length = n
  decode_encode : ∀ a, decode (encode a) = a

attribute [simp] Codec.length_encode Codec.decode_encode

/-- `unsigned long`, `unsigned long long` and `size_t`. -/
def u64 : Codec UInt64 8 where
  encode v := bytesOf 8 v.toNat
  decode bs := UInt64.ofNat (ofBytes bs)
  length_encode v := length_bytesOf 8 v.toNat
  decode_encode v := by
    have hlt : v.toNat < 256 ^ 8 := v.toNat_lt
    rw [ofBytes_bytesOf, Nat.mod_eq_of_lt hlt, UInt64.ofNat_toNat]

/-- `long`. -/
def i64 : Codec Int64 8 where
  encode v := u64.encode v.toUInt64
  decode bs := (u64.decode bs).toInt64
  length_encode v := u64.length_encode v.toUInt64
  decode_encode v := by rw [u64.decode_encode, Int64.toInt64_toUInt64]

/-- `int` and `pid_t`. -/
def i32 : Codec Int32 4 where
  encode v := bytesOf 4 v.toUInt32.toNat
  decode bs := (UInt32.ofNat (ofBytes bs)).toInt32
  length_encode v := length_bytesOf 4 v.toUInt32.toNat
  decode_encode v := by
    have hlt : v.toUInt32.toNat < 256 ^ 4 := v.toUInt32.toNat_lt
    rw [ofBytes_bytesOf, Nat.mod_eq_of_lt hlt, UInt32.ofNat_toNat, Int32.toInt32_toUInt32]

/-- An array of `n` characters. -/
def chars (n : Nat) : Codec (Vector UInt8 n) n where
  encode v := v.toList
  decode bs := Vector.ofFn fun i => bs.getD i 0
  length_encode v := Vector.length_toList
  decode_encode v := by
    ext i hi
    simp

/-! ## Memory -/

/-- A memory, or an object in it, from its first byte on. -/
abbrev Mem := Nat → UInt8

/-- A store: some bytes, and the address of the first one. -/
abbrev Store := Nat × List UInt8

/-- The memory after a store. -/
def store (m : Mem) (x : Store) : Mem :=
  fun k => if k < x.1 then m k else (x.2[k - x.1]?).getD (m k)

/-- The memory after some stores, one after the other. -/
def stores (m : Mem) (xs : List Store) : Mem := xs.foldl store m

/-- The `n` bytes from the address `a` on. -/
def load (m : Mem) (a n : Nat) : List UInt8 := (List.range n).map fun i => m (a + i)

/-- The store writes the byte at the address `k`. -/
def Covers (x : Store) (k : Nat) : Prop := x.1 ≤ k ∧ k < x.1 + x.2.length

instance (x : Store) (k : Nat) : Decidable (Covers x k) := inferInstanceAs (Decidable (_ ∧ _))

/-- The store writes no byte of the `n` bytes at `a`. -/
def Outside (x : Store) (a n : Nat) : Prop := x.1 + x.2.length ≤ a ∨ a + n ≤ x.1

variable {m m' : Mem} {x : Store} {xs ys : List Store} {a b k n : Nat}

@[simp] theorem stores_nil : stores m [] = m := rfl

@[simp] theorem stores_cons : stores m (x :: xs) = stores (store m x) xs := rfl

theorem stores_append : stores m (xs ++ ys) = stores (stores m xs) ys := List.foldl_append

@[simp] theorem length_load : (load m a n).length = n := by simp [load]

theorem getElem?_load (hk : k < n) : (load m a n)[k]? = some (m (a + k)) := by
  simp [load, hk]

/-- A byte that is written does not depend on what was there, … -/
theorem store_of_covers (h : Covers x k) : store m x k = store m' x k := by
  have hk : k - x.1 < x.2.length := by
    obtain ⟨h₁, h₂⟩ := h
    omega
  rw [store, store, if_neg (not_lt.2 h.1), if_neg (not_lt.2 h.1), List.getElem?_eq_getElem hk]
  rfl

/-- … and one that is not written is still there. -/
theorem store_of_not_covers (h : ¬Covers x k) : store m x k = m k := by
  rw [store]
  split_ifs with hk
  · rfl
  · have hnone : x.2[k - x.1]? = none := by
      rw [List.getElem?_eq_none_iff]
      by_contra hlt
      exact h ⟨not_lt.1 hk, by omega⟩
    rw [hnone, Option.getD_none]

theorem stores_of_not_covered (h : ∀ x ∈ xs, ¬Covers x k) : stores m xs k = m k := by
  induction xs generalizing m with
  | nil => rfl
  | cons x xs ih =>
    rw [stores_cons, ih fun y hy => h y (List.mem_cons_of_mem _ hy),
      store_of_not_covers (h x List.mem_cons_self)]

theorem stores_of_covered (h : ∃ x ∈ xs, Covers x k) : stores m xs k = stores m' xs k := by
  induction xs generalizing m m' with
  | nil =>
    obtain ⟨x, hx, _⟩ := h
    exact absurd hx List.not_mem_nil
  | cons x xs ih =>
    rw [stores_cons, stores_cons]
    by_cases hxs : ∃ y ∈ xs, Covers y k
    · exact ih hxs
    · -- The first store is the only one that writes the byte.
      have hnot : ∀ y ∈ xs, ¬Covers y k := fun y hy hc => hxs ⟨y, hy, hc⟩
      obtain ⟨y, hy, hc⟩ := h
      rcases List.mem_cons.1 hy with rfl | hy'
      · rw [stores_of_not_covered hnot, stores_of_not_covered hnot, store_of_covers hc]
      · exact absurd hc (hnot y hy')

theorem load_eq_iff : load m a n = load m' b n ↔ ∀ k < n, m (a + k) = m' (b + k) := by
  rw [load, load, List.map_inj_left]
  simp

/-- The bytes loaded after the same stores into two memories agree if and only if
    the memories agree on the bytes that were not written. -/
theorem load_stores_eq_iff : load (stores m xs) 0 n = load (stores m' xs) 0 n ↔
    ∀ k < n, (∀ x ∈ xs, ¬Covers x k) → m k = m' k := by
  rw [load_eq_iff]
  refine forall_congr' fun k => forall_congr' fun hk => ?_
  rw [Nat.zero_add]
  by_cases h : ∃ x ∈ xs, Covers x k
  · obtain ⟨x, hx, hc⟩ := h
    exact ⟨fun _ hnot => absurd hc (hnot x hx), fun _ => stores_of_covered ⟨x, hx, hc⟩⟩
  · have hnot : ∀ x ∈ xs, ¬Covers x k := fun x hx hc => h ⟨x, hx, hc⟩
    rw [stores_of_not_covered hnot, stores_of_not_covered hnot]
    exact ⟨fun heq _ => heq, fun heq => heq hnot⟩

/-- Stores elsewhere leave the bytes. -/
theorem load_stores_of_outside (h : ∀ x ∈ xs, Outside x a n) :
    load (stores m xs) a n = load m a n := by
  refine load_eq_iff.2 fun k hk => stores_of_not_covered fun x hx hc => ?_
  obtain ⟨h₁, h₂⟩ := hc
  rcases h x hx with ho | ho
  · omega
  · omega

/-- What was stored is there. -/
theorem load_store_self {bs : List UInt8} (h : bs.length = n) :
    load (store m (a, bs)) a n = bs := by
  refine List.ext_getElem? fun k => ?_
  by_cases hk : k < n
  · rw [getElem?_load hk, store, if_neg (by omega), Nat.add_sub_cancel_left,
      List.getElem?_eq_getElem (h.symm ▸ hk)]
    rfl
  · rw [List.getElem?_eq_none (by simpa using hk), List.getElem?_eq_none (by omega)]

/-- Bytes that are copied are found at their new address. -/
theorem store_load (hk : k < n) : store m (a, load m' b n) (a + k) = m' (b + k) := by
  rw [store, if_neg (by omega), Nat.add_sub_cancel_left, getElem?_load hk]
  rfl

theorem load_add (b : Nat) : load m a (n + b) = load m a n ++ load m (a + n) b := by
  rw [load, List.range_add, List.map_append, List.map_map, load, load]
  simp [Function.comp_def, Nat.add_assoc]

/-! ## Structures -/

/-- A field of a structure. -/
structure Field where
  name : String
  size : Nat
  align : Nat
  deriving DecidableEq, Repr

/-- A field of an integer type: it is aligned to its size. -/
def Field.int (name : String) (size : Nat) : Field := ⟨name, size, size⟩

/-- An array of characters: it is not aligned. -/
def Field.chars (name : String) (n : Nat) : Field := ⟨name, n, 1⟩

/-- The next multiple of `a`. -/
def alignUp (n a : Nat) : Nat := n + (a - n % a) % a

/-- The end of the last field, if the fields are placed from the offset `o` on. -/
def endOf (o : Nat) : List Field → Nat
  | [] => o
  | f :: fs => endOf (alignUp o f.align + f.size) fs

/-- The offset of a field, if the fields are placed from the offset `o` on. -/
def offsetFrom (o : Nat) (name : String) : List Field → Nat
  | [] => o
  | f :: fs =>
    if f.name = name then alignUp o f.align else offsetFrom (alignUp o f.align + f.size) name fs

/-- `offsetof`. -/
def offsetof (fs : List Field) (name : String) : Nat := offsetFrom 0 name fs

/-- The alignment of the structure. -/
def alignof (fs : List Field) : Nat := fs.foldr (fun f a => max f.align a) 1

/-- The size of the structure: it ends at a multiple of its alignment. -/
def sizeof (fs : List Field) : Nat := alignUp (endOf 0 fs) (alignof fs)

/-- An array of `n` structures. -/
def Field.array (name : String) (fs : List Field) (n : Nat) : Field :=
  ⟨name, n * sizeof fs, alignof fs⟩

/-- The stores of the fields at `base`, placed from the offset `o` on. -/
def writeFrom (base o : Nat) : List Field → List (List UInt8) → List Store
  | f :: fs, v :: vals =>
    (base + alignUp o f.align, v) :: writeFrom base (alignUp o f.align + f.size) fs vals
  | _, _ => []

/-- The bytes of the fields at `base`, placed from the offset `o` on. -/
def readFrom (m : Mem) (base o : Nat) : List Field → List (List UInt8)
  | [] => []
  | f :: fs =>
    load m (base + alignUp o f.align) f.size :: readFrom m base (alignUp o f.align + f.size) fs

/-- The stores that write a record at `base`, given by the bytes of its fields. -/
def write (base : Nat) (fs : List Field) (vals : List (List UInt8)) : List Store :=
  writeFrom base 0 fs vals

/-- The bytes of the fields of the record at `base`. -/
def read (m : Mem) (base : Nat) (fs : List Field) : List (List UInt8) := readFrom m base 0 fs

/-- The bytes of the fields have the sizes of the fields. -/
def Fits (fs : List Field) (vals : List (List UInt8)) : Prop :=
  vals.map List.length = fs.map Field.size

variable {base base' o : Nat} {f : Field} {fs : List Field} {v : List UInt8}
  {vals : List (List UInt8)} {vs : List (List (List UInt8))}

theorem le_alignUp : n ≤ alignUp n a := Nat.le_add_right _ _

theorem le_endOf (o : Nat) (fs : List Field) : o ≤ endOf o fs := by
  induction fs generalizing o with
  | nil => exact le_rfl
  | cons f fs ih => exact le_alignUp.trans ((Nat.le_add_right _ _).trans (ih _))

theorem endOf_le_sizeof : endOf 0 fs ≤ sizeof fs := le_alignUp

theorem fits_cons : Fits (f :: fs) (v :: vals) ↔ v.length = f.size ∧ Fits fs vals := by
  rw [Fits, List.map_cons, List.map_cons, List.cons.injEq, Fits]

/-- The stores of a record are within it. -/
theorem writeFrom_bounds (h : Fits fs vals) (hx : x ∈ writeFrom base o fs vals) :
    base + o ≤ x.1 ∧ x.1 + x.2.length ≤ base + endOf o fs := by
  induction fs generalizing o vals with
  | nil => cases hx
  | cons f fs ih =>
    cases vals with
    | nil => cases hx
    | cons v vals =>
      obtain ⟨hv, hvals⟩ := fits_cons.1 h
      have hle : o ≤ alignUp o f.align := le_alignUp
      have hend : alignUp o f.align + f.size ≤ endOf o (f :: fs) := le_endOf _ fs
      rcases List.mem_cons.1 hx with rfl | hx'
      · dsimp only
        omega
      · obtain ⟨h₁, h₂⟩ := ih hvals hx'
        exact ⟨by omega, h₂⟩

theorem write_bounds (h : Fits fs vals) (hx : x ∈ write base fs vals) :
    base ≤ x.1 ∧ x.1 + x.2.length ≤ base + sizeof fs := by
  obtain ⟨h₁, h₂⟩ := writeFrom_bounds h hx
  have hend : endOf 0 fs ≤ sizeof fs := endOf_le_sizeof
  omega

/-- The fields of a record are within it. -/
theorem readFrom_congr (h : ∀ k < endOf o fs, m (base + k) = m' (base' + k)) :
    readFrom m base o fs = readFrom m' base' o fs := by
  induction fs generalizing o with
  | nil => rfl
  | cons f fs ih =>
    have hend : alignUp o f.align + f.size ≤ endOf o (f :: fs) := le_endOf _ fs
    rw [readFrom, readFrom, ih h]
    congr 1
    refine load_eq_iff.2 fun k hk => ?_
    rw [Nat.add_assoc, Nat.add_assoc]
    exact h _ (by omega)

theorem read_congr (h : ∀ k < sizeof fs, m (base + k) = m' (base' + k)) :
    read m base fs = read m' base' fs :=
  readFrom_congr fun k hk => h k (hk.trans_le endOf_le_sizeof)

/-- Stores elsewhere leave the record. -/
theorem read_stores_of_outside (h : ∀ x ∈ xs, Outside x base (sizeof fs)) :
    read (stores m xs) base fs = read m base fs :=
  read_congr (load_eq_iff.1 (load_stores_of_outside h))

theorem readFrom_writeFrom (h : Fits fs vals) :
    readFrom (stores m (writeFrom base o fs vals)) base o fs = vals := by
  induction fs generalizing o vals m with
  | nil =>
    have hnil : vals = [] := List.map_eq_nil_iff.1 h
    rw [hnil]
    rfl
  | cons f fs ih =>
    cases vals with
    | nil => cases h
    | cons v vals =>
      obtain ⟨hv, hvals⟩ := fits_cons.1 h
      rw [writeFrom, stores_cons, readFrom, ih hvals]
      -- The later fields are placed after the first one.
      have hout : ∀ x ∈ writeFrom base (alignUp o f.align + f.size) fs vals,
          Outside x (base + alignUp o f.align) f.size := by
        intro x hx
        have hx' := writeFrom_bounds hvals hx
        exact .inr (by omega)
      rw [load_stores_of_outside hout, load_store_self hv]

/-- A record is read as it was written. -/
theorem read_write (m : Mem) (base : Nat) (h : Fits fs vals) :
    read (stores m (write base fs vals)) base fs = vals :=
  readFrom_writeFrom h

/-! ## Arrays -/

/-- The stores that write the records of an array at `base`. -/
def writeArray (base : Nat) (fs : List Field) : List (List (List UInt8)) → List Store
  | [] => []
  | v :: vs => write base fs v ++ writeArray (base + sizeof fs) fs vs

/-- The records of an array of length `n` at `base`. -/
def readArray (m : Mem) (base : Nat) (fs : List Field) : Nat → List (List (List UInt8))
  | 0 => []
  | n + 1 => read m base fs :: readArray m (base + sizeof fs) fs n

/-- The stores of an array are within it. -/
theorem writeArray_bounds (h : ∀ v ∈ vs, Fits fs v) (hx : x ∈ writeArray base fs vs) :
    base ≤ x.1 ∧ x.1 + x.2.length ≤ base + vs.length * sizeof fs := by
  induction vs generalizing base with
  | nil => cases hx
  | cons v vs ih =>
    obtain ⟨hv, hvs⟩ := List.forall_mem_cons.1 h
    rw [List.length_cons, Nat.succ_mul]
    rcases List.mem_append.1 hx with hx' | hx'
    · have hx'' := write_bounds hv hx'
      omega
    · have hx'' := ih hvs hx'
      omega

theorem readArray_congr (h : ∀ k < n * sizeof fs, m (base + k) = m' (base' + k)) :
    readArray m base fs n = readArray m' base' fs n := by
  induction n generalizing base base' with
  | zero => rfl
  | succ n ih =>
    rw [Nat.succ_mul] at h
    rw [readArray, readArray, read_congr fun k hk => h k (by omega), ih fun k hk => ?_]
    rw [Nat.add_assoc, Nat.add_assoc]
    exact h _ (by omega)

/-- Stores elsewhere leave the array. -/
theorem readArray_stores_of_outside (h : ∀ x ∈ xs, Outside x base (n * sizeof fs)) :
    readArray (stores m xs) base fs n = readArray m base fs n :=
  readArray_congr (load_eq_iff.1 (load_stores_of_outside h))

/-- The records of an array are read as they were written. -/
theorem readArray_writeArray (m : Mem) (base : Nat) (h : ∀ v ∈ vs, Fits fs v) :
    readArray (stores m (writeArray base fs vs)) base fs vs.length = vs := by
  induction vs generalizing base m with
  | nil => rfl
  | cons v vs ih =>
    obtain ⟨hv, hvs⟩ := List.forall_mem_cons.1 h
    have hout : ∀ x ∈ writeArray (base + sizeof fs) fs vs, Outside x base (sizeof fs) :=
      fun x hx => .inr (writeArray_bounds hvs hx).1
    rw [writeArray, stores_append, List.length_cons, readArray, ih _ _ hvs,
      read_stores_of_outside hout, read_write m base hv]

/-- So are values, if their encodings fit and are decoded. -/
theorem map_readArray_writeArray {α : Type} {encode : α → List (List UInt8)}
    {decode : List (List UInt8) → Option α} (hfits : ∀ x, Fits fs (encode x))
    (hdecode : ∀ x, decode (encode x) = some x) (m : Mem) (base : Nat) (l : List α) :
    (readArray (stores m (writeArray base fs (l.map encode))) base fs l.length).map decode =
      l.map some := by
  have hread := readArray_writeArray m base (List.forall_mem_map.2 fun x (_ : x ∈ l) => hfits x)
  rw [List.length_map] at hread
  rw [hread, List.map_map]
  exact List.map_congr_left fun x _ => hdecode x

/-! ## From one declaration to another -/

/-- What `xs` has for the field called `name`. -/
def lookup {α : Type} (name : String) : List Field → List α → Option α
  | f :: fs, x :: xs => if f.name = name then some x else lookup name fs xs
  | _, _ => none

/-- The object `user` after the first `n` bytes of `m` were copied to it. -/
def copyTo (user m : Mem) (n : Nat) : Mem := store user (0, load m 0 n)

theorem copyTo_of_lt {user : Mem} (hk : k < n) : copyTo user m n k = m k := by
  have hcopied : store user (0, load m 0 n) (0 + k) = m (0 + k) := store_load hk
  rwa [Nat.zero_add] at hcopied

/-- A record written under one declaration and copied, as a whole, to an object
    of another one keeps its fields: the copy is within the object, and every
    field it has is that of the same name. -/
structure Survives (source target : List Field) (vals : List (List UInt8)) (init user : Mem) :
    Prop where
  fits : sizeof source ≤ sizeof target
  same : ∀ f ∈ target,
    lookup f.name target
      (read (copyTo user (stores init (write 0 source vals)) (sizeof source)) 0 target) =
    lookup f.name source vals

theorem read_copyTo {user : Mem} (h : sizeof fs ≤ n) :
    read (copyTo user m n) 0 fs = read m 0 fs :=
  read_congr fun k hk => by
    rw [Nat.zero_add]
    exact copyTo_of_lt (hk.trans_le h)

theorem load_copyTo {user : Mem} (h : a + k ≤ n) : load (copyTo user m n) a k = load m a k :=
  load_eq_iff.2 fun _ hi => copyTo_of_lt (by omega)

theorem readArray_copyTo {user : Mem} (h : base + k * sizeof fs ≤ n) :
    readArray (copyTo user m n) base fs k = readArray m base fs k :=
  readArray_congr fun _ hi => copyTo_of_lt (by omega)

end Layout
