import Mathlib.Algebra.Order.Ring.Nat
import Mathlib.Order.Bounds.Defs
import LuisKernel.Basic

/-!
# Memory for a process

`luis_tamalloc` maps memory for the caller, and stores the address of it through a
pointer of the caller. The size is rounded up to pages first, modulo `2 ^ 64`: the
sizes within a page of `2 ^ 64`, as the size zero, become the length zero
(`isLeast_pageAlign`). The kernel maps no such length, so a call that succeeds always
has mapped enough. If the address cannot be stored, the call unmaps what it mapped,
under the length that was rounded.

What the rest of the kernel does is taken as documented (`Vm.Behaves`): `vm_mmap`
fails and has no effect, or maps the pages at a fresh address; `vm_munmap` takes them
away. Then a call delivers a region that is new and large enough, or leaves the
mappings as they were (`luisTamalloc_delivers`).
-/

namespace LuisKernel

namespace Tamalloc

/-! ## The address space -/

/-- The bits of `PROT_READ` and `PROT_WRITE`. -/
structure Prot where
  read : Bool
  write : Bool
  deriving DecidableEq, Repr

/-- `PROT_READ | PROT_WRITE`. -/
def Prot.readWrite : Prot := ⟨true, true⟩

/-- The flags of a mapping. -/
inductive MapFlag
  | mapPrivate
  | mapAnonymous
  | mapNoreserve
  deriving DecidableEq, Repr

/-- The mappings of an address space: what they allow at an address, if it is mapped. -/
def Mappings := Nat → Option Prot

/-- Nothing is mapped. -/
def Mappings.empty : Mappings := fun _ => none

/-- The address `k` is in the region of `len` bytes at `start`. -/
def InRegion (start len k : Nat) : Prop := start ≤ k ∧ k < start + len

instance (start len k : Nat) : Decidable (InRegion start len k) :=
  inferInstanceAs (Decidable (_ ∧ _))

/-- The same mappings, but for a region. -/
def Mappings.set (m : Mappings) (start len : Nat) (prot : Option Prot) : Mappings :=
  fun k => if InRegion start len k then prot else m k

/-- Nothing is mapped in the region. -/
def Mappings.Free (m : Mappings) (start len : Nat) : Prop := ∀ k, InRegion start len k → m k = none

def PAGE_SIZE : UInt64 := 4096

/-- `PAGE_ALIGN`. -/
def pageAlign (size : UInt64) : UInt64 := (size + (PAGE_SIZE - 1)) &&& ~~~(PAGE_SIZE - 1)

def MAX_ERRNO : UInt64 := 4095

/-- `IS_ERR_VALUE`. -/
def IsErrValue (x : UInt64) : Prop := x ≥ -MAX_ERRNO

instance (x : UInt64) : Decidable (IsErrValue x) := inferInstanceAs (Decidable (_ ≤ _))

/-- The functions that change the mappings of the caller, for anonymous memory. -/
structure Vm where
  vmMmap (m : Mappings) (addr len : UInt64) (prot : Prot) (flags : List MapFlag)
    (offset : UInt64) : UInt64 × Mappings
  vmMunmap (m : Mappings) (start len : UInt64) : Int × Mappings

/-- A result of `vm_mmap` that has failed, without effect. -/
def Refused (m : Mappings) (r : UInt64 × Mappings) : Prop := IsErrValue r.1 ∧ r.2 = m

/-- A result of `vm_mmap` that has mapped `len` bytes at a fresh address. -/
structure Mapped (m : Mappings) (len : UInt64) (prot : Prot) (r : UInt64 × Mappings) : Prop where
  ok : ¬IsErrValue r.1
  aligned : PAGE_SIZE.toNat ∣ r.1.toNat
  free : m.Free r.1.toNat len.toNat
  eq_set : r.2 = m.set r.1.toNat len.toNat (some prot)

/-- What is documented of these functions. -/
structure Vm.Behaves (vm : Vm) : Prop where
  mmap_zero : ∀ m prot flags, Refused m (vm.vmMmap m 0 0 prot flags 0)
  mmap : ∀ m len prot flags, len ≠ 0 → PAGE_SIZE.toNat ∣ len.toNat →
    Refused m (vm.vmMmap m 0 len prot flags 0) ∨ Mapped m len prot (vm.vmMmap m 0 len prot flags 0)
  munmap : ∀ m len prot flags, Mapped m len prot (vm.vmMmap m 0 len prot flags 0) →
    vm.vmMunmap (vm.vmMmap m 0 len prot flags 0).2 (vm.vmMmap m 0 len prot flags 0).1 len =
      (0, (vm.vmMmap m 0 len prot flags 0).2.set (vm.vmMmap m 0 len prot flags 0).1.toNat
        len.toNat none)

/-! ## The call -/

/-- What a call leaves: its return value, what it stores and where, and the mappings. -/
structure Result where
  ret : Int
  stored : Option (UInt64 × UInt64)
  mappings : Mappings

/-- `luis_tamalloc`. -/
def luisTamalloc (vm : Vm) (env : Env) (size addr : UInt64) (m : Mappings) : Result :=
  let size := pageAlign size
  let mapped := vm.vmMmap m 0 size .readWrite [.mapPrivate, .mapAnonymous, .mapNoreserve] 0
  if IsErrValue mapped.1 then ⟨mapped.1.toInt64.toInt, none, mapped.2⟩
  else if env.copyToUser = false then ⟨-EFAULT, none, (vm.vmMunmap mapped.2 mapped.1 size).2⟩
  else ⟨0, some (addr, mapped.1), mapped.2⟩

/-- The address `a` is that of a new region, as large as asked for: where nothing was mapped, there
    are now pages to read and to write. -/
structure Delivers (size : UInt64) (m m' : Mappings) (a : UInt64) : Prop where
  pos : 0 < size
  aligned : PAGE_SIZE.toNat ∣ a.toNat
  region : ∃ len, IsLeast {n | PAGE_SIZE.toNat ∣ n ∧ size.toNat ≤ n} len ∧
    (∀ k, InRegion a.toNat len k → m k = none ∧ m' k = some .readWrite) ∧
    ∀ k, ¬InRegion a.toNat len k → m' k = m k

/-! ## The size -/

section

variable {size x : UInt64}

/-- Clearing the low bits leaves the pages. -/
theorem and_mask {n : Nat} (h : n < 2 ^ 64) : n &&& 18446744073709547520 = n / 4096 * 4096 := by
  have hmask : 18446744073709547520 = (2 ^ 52 - 1) <<< 12 := rfl
  have hpages : n / 4096 * 4096 = (n >>> 12) <<< 12 := by
    rw [Nat.shiftLeft_eq, Nat.shiftRight_eq_div_pow]
  rw [hmask, hpages]
  refine Nat.eq_of_testBit_eq fun i => ?_
  rw [Nat.testBit_and, Nat.testBit_shiftLeft, Nat.testBit_shiftLeft, Nat.testBit_shiftRight,
    Nat.testBit_two_pow_sub_one]
  by_cases hi : i ≥ 12
  · rw [Nat.add_sub_of_le hi]
    by_cases hi' : i < 64
    · have hlt : i - 12 < 52 := by omega
      simp [hi, hlt]
    · have hbit : n.testBit i = false :=
        Nat.testBit_lt_two_pow (h.trans_le (Nat.pow_le_pow_right (by decide) (by omega)))
      simp [hbit]
  · simp [hi]

theorem toNat_pageAlign (size : UInt64) :
    (pageAlign size).toNat = (size.toNat + 4095) % 2 ^ 64 / 4096 * 4096 := by
  rw [pageAlign, UInt64.toNat_and]
  refine (and_mask (size + (PAGE_SIZE - 1)).toNat_lt).trans ?_
  rw [UInt64.toNat_add]
  rfl

theorem dvd_pageAlign (size : UInt64) : PAGE_SIZE.toNat ∣ (pageAlign size).toNat := by
  rw [toNat_pageAlign]
  exact Nat.dvd_mul_left _ _

/-- Unless it wraps around to zero, the size is rounded up. -/
theorem isLeast_pageAlign (h : pageAlign size ≠ 0) :
    0 < size ∧ IsLeast {n | PAGE_SIZE.toNat ∣ n ∧ size.toNat ≤ n} (pageAlign size).toNat := by
  have hlt := size.toNat_lt
  have hne : (pageAlign size).toNat ≠ 0 := fun h₀ => h (UInt64.toNat_inj.1 h₀)
  rw [toNat_pageAlign] at hne
  refine ⟨?_, ⟨dvd_pageAlign size, ?_⟩, ?_⟩
  · rw [UInt64.lt_iff_toNat_lt]
    have hzero : (0 : UInt64).toNat = 0 := rfl
    omega
  · rw [toNat_pageAlign]
    omega
  · rintro n ⟨⟨q, rfl⟩, hle⟩
    have hpage : PAGE_SIZE.toNat = 4096 := rfl
    rw [toNat_pageAlign, hpage]
    rw [hpage] at hle
    omega

/-- An error is a negative number. -/
theorem toInt_ne_zero_of_isErrValue (h : IsErrValue x) : x.toInt64.toInt ≠ 0 := by
  intro hzero
  have hx : x = 0 := by
    have h64 : x.toInt64 = 0 := Int64.toInt_inj.1 hzero
    rw [← UInt64.toUInt64_toInt64 x, h64]
    rfl
  rw [hx] at h
  exact absurd h (by decide)

end

/-! ## The mappings -/

section

variable {m : Mappings} {start len k : Nat} {prot : Option Prot}

theorem Mappings.set_of_inRegion (h : InRegion start len k) : m.set start len prot k = prot :=
  if_pos h

theorem Mappings.set_of_not_inRegion (h : ¬InRegion start len k) : m.set start len prot k = m k :=
  if_neg h

/-- What was mapped at a free place can be taken away again. -/
theorem Mappings.Free.set_set (h : m.Free start len) :
    (m.set start len prot).set start len none = m := by
  funext k
  by_cases hk : InRegion start len k
  · rw [set_of_inRegion hk, h k hk]
  · rw [set_of_not_inRegion hk, set_of_not_inRegion hk]

end

/-! ## What a call does -/

section

variable {vm : Vm} {env : Env} {size addr : UInt64} {m : Mappings}

/-- What `vm_mmap` returns to the call. -/
def mapping (vm : Vm) (size : UInt64) (m : Mappings) : UInt64 × Mappings :=
  vm.vmMmap m 0 (pageAlign size) .readWrite [.mapPrivate, .mapAnonymous, .mapNoreserve] 0

/-- Nothing is mapped, or it is new and large enough. -/
theorem mapping_cases (hvm : vm.Behaves) (size : UInt64) (m : Mappings) :
    Refused m (mapping vm size m) ∨
      pageAlign size ≠ 0 ∧ Mapped m (pageAlign size) .readWrite (mapping vm size m) := by
  by_cases hzero : pageAlign size = 0
  · refine .inl ?_
    rw [mapping, hzero]
    exact hvm.mmap_zero m _ _
  · rcases hvm.mmap m (pageAlign size) .readWrite [.mapPrivate, .mapAnonymous, .mapNoreserve] hzero
      (dvd_pageAlign size) with hrefused | hmapped
    · exact .inl hrefused
    · exact .inr ⟨hzero, hmapped⟩

theorem luisTamalloc_of_refused (h : Refused m (mapping vm size m)) :
    luisTamalloc vm env size addr m = ⟨(mapping vm size m).1.toInt64.toInt, none, m⟩ := by
  obtain ⟨herr, hm⟩ := h
  refine (if_pos herr).trans ?_
  exact congrArg (Result.mk (mapping vm size m).1.toInt64.toInt none) hm

theorem luisTamalloc_of_copyToUser (h : ¬IsErrValue (mapping vm size m).1)
    (hcopy : env.copyToUser = true) :
    luisTamalloc vm env size addr m =
      ⟨0, some (addr, (mapping vm size m).1), (mapping vm size m).2⟩ :=
  (if_neg h).trans (if_neg (by simp [hcopy]))

/-- If the address cannot be stored, the region is taken away again. -/
theorem luisTamalloc_of_not_copyToUser (hvm : vm.Behaves)
    (h : Mapped m (pageAlign size) .readWrite (mapping vm size m))
    (hcopy : env.copyToUser = false) :
    luisTamalloc vm env size addr m = ⟨-EFAULT, none, m⟩ := by
  refine (if_neg h.ok).trans ((if_pos hcopy).trans ?_)
  have hunmap := congrArg Prod.snd (hvm.munmap m (pageAlign size) _ _ h)
  refine congrArg (Result.mk (-EFAULT) none) (hunmap.trans ?_)
  exact (congrArg (Mappings.set · _ _ none) h.eq_set).trans h.free.set_set

/-- What is mapped is what was asked for. -/
theorem Mapped.delivers (hne : pageAlign size ≠ 0) {r : UInt64 × Mappings}
    (h : Mapped m (pageAlign size) .readWrite r) : Delivers size m r.2 r.1 := by
  obtain ⟨hpos, hleast⟩ := isLeast_pageAlign hne
  refine ⟨hpos, h.aligned, (pageAlign size).toNat, hleast, fun k hk => ⟨h.free k hk, ?_⟩,
    fun k hk => ?_⟩
  · rw [h.eq_set, Mappings.set_of_inRegion hk]
  · rw [h.eq_set, Mappings.set_of_not_inRegion hk]

end

/-- A call that returns zero has stored the address of a new region that is large enough, and any
    other call leaves the mappings as they were. -/
theorem luisTamalloc_delivers (vm : Vm) (hvm : vm.Behaves) (env : Env) (size addr : UInt64)
    (m : Mappings) :
    ((luisTamalloc vm env size addr m).ret = 0 → ∃ a,
      (luisTamalloc vm env size addr m).stored = some (addr, a) ∧
      Delivers size m (luisTamalloc vm env size addr m).mappings a) ∧
    ((luisTamalloc vm env size addr m).ret ≠ 0 →
      (luisTamalloc vm env size addr m).mappings = m) := by
  rcases mapping_cases hvm size m with hrefused | ⟨hne, hmapped⟩
  · rw [luisTamalloc_of_refused hrefused]
    exact ⟨fun hzero => absurd hzero (toInt_ne_zero_of_isErrValue hrefused.1), fun _ => rfl⟩
  · rcases Bool.eq_false_or_eq_true env.copyToUser with hcopy | hcopy
    · rw [luisTamalloc_of_copyToUser hmapped.ok hcopy]
      exact ⟨fun _ => ⟨_, rfl, hmapped.delivers hne⟩, fun h => absurd rfl h⟩
    · rw [luisTamalloc_of_not_copyToUser hvm hmapped hcopy]
      have herror : -EFAULT ≠ 0 := by decide
      exact ⟨fun hzero => absurd hzero herror, fun _ => rfl⟩

/-- A kernel that maps memory at one address only, if it is free there. -/
def oneAddress : Vm where
  vmMmap m _ len prot _ _ :=
    if len ≠ 0 ∧ ∀ k < len.toNat, m (4194304 + k) = none then
      (4194304, m.set 4194304 len.toNat (some prot))
    else (-12, m)
  vmMunmap m start len := (0, m.set start.toNat len.toNat none)

theorem oneAddress_of_free {m : Mappings} {len : UInt64} {prot : Prot} {flags : List MapFlag}
    (h : len ≠ 0 ∧ ∀ k < len.toNat, m (4194304 + k) = none) :
    oneAddress.vmMmap m 0 len prot flags 0 = (4194304, m.set 4194304 len.toNat (some prot)) :=
  if_pos h

theorem oneAddress_behaves : oneAddress.Behaves := by
  have herr : IsErrValue (-12) := by decide
  have hok : ¬IsErrValue 4194304 := by decide
  have hpage : PAGE_SIZE.toNat ∣ (4194304 : UInt64).toNat := by decide
  refine ⟨fun m prot flags => ⟨herr, rfl⟩, fun m len prot flags _ _ => ?_,
    fun m len prot flags _ => rfl⟩
  by_cases hfree : len ≠ 0 ∧ ∀ k < len.toNat, m (4194304 + k) = none
  · rw [oneAddress_of_free hfree]
    refine .inr ⟨hok, hpage, fun k hk => ?_, rfl⟩
    obtain ⟨j, rfl⟩ := Nat.exists_eq_add_of_le hk.1
    exact hfree.2 j (Nat.lt_of_add_lt_add_left hk.2)
  · have hmap : oneAddress.vmMmap m 0 len prot flags 0 = (-12, m) := if_neg hfree
    rw [hmap]
    exact .inl ⟨herr, rfl⟩

/-- A size that is no multiple of a page, in an empty address space. -/
theorem luisTamalloc_delivers_two_pages :
    ∃ a, (luisTamalloc oneAddress Env.quiet 5000 8 .empty).stored = some (8, a) ∧
      Delivers 5000 .empty (luisTamalloc oneAddress Env.quiet 5000 8 .empty).mappings a := by
  have hne : pageAlign 5000 ≠ 0 := by decide
  have haddr : (mapping oneAddress 5000 .empty).1 = 4194304 := by
    rw [mapping, oneAddress_of_free ⟨hne, fun _ _ => rfl⟩]
  refine (luisTamalloc_delivers oneAddress oneAddress_behaves Env.quiet 5000 8 .empty).1 ?_
  rw [luisTamalloc_of_copyToUser (by rw [haddr]; decide) rfl]

end Tamalloc

end LuisKernel
