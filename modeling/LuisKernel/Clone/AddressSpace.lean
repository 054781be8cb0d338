import LuisKernel.Clone
import LuisKernel.Keyed
import LuisKernel.Machine

/-!
# The copy of an address space

Without `CLONE_VM`, a new task gets a copy of the address space of its maker (`dup_mm`). The tree of
the old one is duplicated as a whole, and `dup_mmap` then goes through it and replaces the VMAs by
their copies, one by one. If this fails half-way, the rest of the tree still has the VMAs of the old
address space; so the place is marked, and `exit_mmap` stops there. What `mm/` does is taken as an
answer, and `exit_mmap` is taken to give back what the VMAs up to the mark hold.

* What was taken for the copy is exactly what it holds, however far it came; if it failed, all is
  given back. The copy has the VMAs of the old address space, but for those that are not to be
  copied (`dupMm_exact`).
* In every run of `dup_mm`, `mmget` and `mmput`, what is held is what the address spaces hold
  (`spaces_exact`).
* In every run, their counts of VMAs and of pages are right, and their VMAs are their own
  (`spaces_ok`).
-/

namespace LuisKernel

namespace AddressSpace

open Keyed Ledger Machine
open Clone (EINTR)

/-- What `mm_init` makes for an address space. -/
inductive Piece
  | mm
  | pgd
  | context
  | cid
  | counters
  | userNs
  deriving DecidableEq, Repr

/-- What an address space holds. -/
inductive Holding
  | piece (p : Piece) (addr : Nat)
  /-- The `vm_area_struct` of an address space, for what begins at `start`. -/
  | vma (addr start : Nat)
  /-- Pages that are accounted for (`vm_unacct_memory`). -/
  | pages (n : Nat)
  | policy
  | anonVma
  | file (f : Nat)
  /-- By `mapping_allow_writable`. -/
  | writable (f : Nat)
  /-- An entry of `i_mmap`. -/
  | mapped (f : Nat)
  /-- By `deny_write_access`. -/
  | denied (f : Nat)
  /-- The module of a binary format. -/
  | module (m : Nat)
  deriving DecidableEq, Repr

structure Vma where
  /-- `vm_mm`. -/
  mm : Nat
  start : Nat
  pages : Nat
  dontcopy : Bool
  account : Bool
  wipeonfork : Bool
  /-- One of `VM_LOCKED_MASK`. -/
  locked : Bool
  /-- It has a memory policy. -/
  policy : Bool
  anonVma : Bool
  file : Option Nat
  /-- `vma_is_shared_maywrite`. -/
  sharedMaywrite : Bool
  deriving DecidableEq, Repr

inductive Entry
  | vma (v : Vma)
  /-- `XA_ZERO_ENTRY`. -/
  | zero
  deriving DecidableEq, Repr

/-- The VMAs up to the mark. -/
def vmasOf : List Entry → List Vma
  | [] => []
  | .zero :: _ => []
  | .vma v :: es => v :: vmasOf es

structure Mm where
  addr : Nat
  /-- `mm_users`. -/
  users : Nat
  /-- `mm_mt`, in the order of the addresses. -/
  tree : List Entry
  mapCount : Nat
  totalVm : Int
  exeFile : Option Nat
  /-- The module of the binary format. -/
  binfmt : Option Nat
  deriving DecidableEq, Repr

def Mm.vmas (mm : Mm) : List Vma := vmasOf mm.tree

/-- What the rest of the kernel answers. -/
structure Answers where
  allocateMm : Bool
  mmAllocPgd : Bool
  initNewContext : Bool
  mmAllocCid : Bool
  percpuCounterInitMany : Bool
  mmapWriteLockKillable : Int
  ksmFork : Int
  /-- `__mt_dup`, which leaves nothing behind if it fails. -/
  mtDup : Int
  vmaIterClear : Vma → Int
  fatalSignalPending : Vma → Bool
  securityVmEnoughMemory : Vma → Int
  vmAreaDup : Vma → Bool
  vmaDupPolicy : Vma → Int
  dupUserfaultfd : Vma → Int
  anonVmaFork : Vma → Int
  copyPageRange : Vma → Int
  archDupMmap : Int
  tryModuleGet : Bool

/-! ## The functions -/

/-- The label `fail_nomem` of `dup_mmap`. -/
def failNomem (charge : Nat) : Traced Holding (Int × Option Vma) := do
  releaseIf (charge != 0) (.pages charge)
  return (-ENOMEM, none)

def failNomemPolicy (addr : Nat) (mpnt : Vma) (charge : Nat) :
    Traced Holding (Int × Option Vma) := do
  release (.vma addr mpnt.start)
  failNomem charge

def failNomemAnonVmaFork (addr : Nat) (mpnt : Vma) (charge : Nat) :
    Traced Holding (Int × Option Vma) := do
  releaseIf mpnt.policy .policy
  failNomemPolicy addr mpnt charge

/-- The copy of a VMA, for another address space. -/
def Vma.copied (addr : Nat) (mpnt : Vma) : Vma :=
  { mpnt with mm := addr, locked := false, anonVma := mpnt.anonVma && !mpnt.wipeonfork }

/-- The part of `dup_mmap` about the file of a VMA. -/
def linkFile (v : Vma) : Traced Holding Unit :=
  match v.file with
  | none => pure ()
  | some f => do
    acquire (.file f)
    acquireIf v.sharedMaywrite (.writable f)
    acquire (.mapped f)

/-- The body of the loop of `dup_mmap`, for a VMA that is to be copied: the return value so far, and
    the copy, if there is one in the tree. -/
def dupVma (a : Answers) (addr : Nat) (mpnt : Vma) : Traced Holding (Int × Option Vma) :=
  let charge := if mpnt.account then mpnt.pages else 0
  if a.fatalSignalPending mpnt then pure (-EINTR, none)
  else if mpnt.account ∧ a.securityVmEnoughMemory mpnt ≠ 0 then failNomem 0
  else do
    acquireIf (charge != 0) (.pages charge)
    if a.vmAreaDup mpnt = false then failNomem charge
    else do
      acquire (.vma addr mpnt.start)
      if a.vmaDupPolicy mpnt ≠ 0 then failNomemPolicy addr mpnt charge
      else do
        acquireIf mpnt.policy .policy
        if a.dupUserfaultfd mpnt ≠ 0 then failNomemAnonVmaFork addr mpnt charge
        else if mpnt.wipeonfork = false ∧ a.anonVmaFork mpnt ≠ 0 then
          failNomemAnonVmaFork addr mpnt charge
        else do
          acquireIf (mpnt.anonVma && !mpnt.wipeonfork) .anonVma
          linkFile mpnt
          return (if mpnt.wipeonfork then 0 else a.copyPageRange mpnt, some (mpnt.copied addr))

/-- The copy is put in the place of the VMA. -/
def Mm.link (mm : Mm) (tmp : Vma) : Mm :=
  { mm with tree := mm.tree ++ [.vma tmp], mapCount := mm.mapCount + 1 }

/-- The place is marked; what comes after it is as in the old tree. -/
def Mm.mark (mm : Mm) : List Vma → Mm
  | [] => mm
  | _ :: rest => { mm with tree := mm.tree ++ .zero :: rest.map .vma }

/-- The loop of `dup_mmap`; `mm.tree` is the part of the tree that it has passed. -/
def dupVmas (a : Answers) (mm : Mm) : List Vma → Traced Holding (Int × Mm)
  | [] => pure (a.archDupMmap, mm)
  | mpnt :: rest =>
    if mpnt.dontcopy then
      if a.vmaIterClear mpnt ≠ 0 then pure (a.vmaIterClear mpnt, mm.mark (mpnt :: rest))
      else dupVmas a { mm with totalVm := mm.totalVm - mpnt.pages } rest
    else do
      let r ← dupVma a mm.addr mpnt
      match r.2 with
      | none => pure (r.1, mm.mark (mpnt :: rest))
      | some tmp =>
        -- the copy is complete enough to be given back with the others
        if r.1 ≠ 0 then pure (r.1, (mm.link tmp).mark rest) else dupVmas a (mm.link tmp) rest

/-- `dup_mm_exe_file`; as the old address space denies writes to the file, it can be done again. -/
def dupMmExeFile (exeFile : Option Nat) : Traced Holding Unit :=
  match exeFile with
  | none => pure ()
  | some f => do
    acquire (.file f)
    acquire (.denied f)

def dupMmap (a : Answers) (mm oldmm : Mm) : Traced Holding (Int × Mm) :=
  if a.mmapWriteLockKillable ≠ 0 then pure (-EINTR, mm)
  else do
    dupMmExeFile oldmm.exeFile
    let mm := { mm with exeFile := oldmm.exeFile, totalVm := oldmm.totalVm }
    if a.ksmFork ≠ 0 then pure (a.ksmFork, mm)
    else if a.mtDup ≠ 0 then pure (a.mtDup, mm)
    else dupVmas a mm oldmm.vmas

/-- The labels of `mm_init`, from the one that comes last. -/
def failNopgd (addr : Nat) : Traced Holding Bool := do
  release (.piece .mm addr)
  return false

def failNocontext (addr : Nat) : Traced Holding Bool := do
  release (.piece .pgd addr)
  failNopgd addr

def failCid (addr : Nat) : Traced Holding Bool := do
  release (.piece .context addr)
  failNocontext addr

def failPcpu (addr : Nat) : Traced Holding Bool := do
  release (.piece .cid addr)
  failCid addr

/-- `mm_init`: whether it has succeeded. -/
def mmInit (a : Answers) (addr : Nat) : Traced Holding Bool :=
  if a.mmAllocPgd = false then failNopgd addr
  else do
    acquire (.piece .pgd addr)
    if a.initNewContext = false then failNocontext addr
    else do
      acquire (.piece .context addr)
      if a.mmAllocCid = false then failCid addr
      else do
        acquire (.piece .cid addr)
        if a.percpuCounterInitMany = false then failPcpu addr
        else do
          acquire (.piece .counters addr)
          acquire (.piece .userNs addr)
          return true

/-- What is taken for a VMA. -/
def Vma.holds (v : Vma) : List Holding :=
  (v.file.elim [] fun f => .mapped f :: (only v.sharedMaywrite (.writable f) ++ [.file f])) ++
    (only v.anonVma .anonVma ++ (only v.policy .policy ++ (.vma v.mm v.start ::
      only (v.account && v.pages != 0) (.pages v.pages))))

def exeHolds (exeFile : Option Nat) : List Holding :=
  exeFile.elim [] fun f => [.denied f, .file f]

def binfmtHolds (binfmt : Option Nat) : List Holding := binfmt.elim [] fun m => [.module m]

/-- In the order of `__mmdrop`. -/
def pieces (addr : Nat) : List Holding :=
  [Piece.pgd, .context, .userNs, .cid, .counters, .mm].map (.piece · addr)

/-- `exit_mmap`, which stops at a mark. -/
def exitMmap (mm : Mm) : Traced Holding Unit := releaseAll (mm.vmas.flatMap Vma.holds)

/-- `__mmput`. -/
def mmputFinal (mm : Mm) : Traced Holding Unit := do
  exitMmap mm
  releaseAll (exeHolds mm.exeFile)
  releaseAll (binfmtHolds mm.binfmt)
  releaseAll (pieces mm.addr)

/-- `mmput`: what is left of the address space. -/
def mmput (mm : Mm) : Traced Holding (Option Mm) :=
  if mm.users = 1 then do
    mmputFinal mm
    return none
  else pure (some { mm with users := mm.users - 1 })

/-- The label `free_pt` of `dup_mm`. -/
def freePt (mm : Mm) : Traced Holding (Option Mm) := do
  let _ ← mmput { mm with binfmt := none }
  return none

def tryModuleGet (binfmt : Option Nat) : Traced Holding Unit :=
  match binfmt with
  | none => pure ()
  | some m => acquire (.module m)

/-- The old `mm_struct`, as `mm_init` changes it. -/
def Mm.init (addr : Nat) (oldmm : Mm) : Mm :=
  { oldmm with addr := addr, users := 1, tree := [], mapCount := 0, exeFile := none }

def dupMm (a : Answers) (addr : Nat) (oldmm : Mm) : Traced Holding (Option Mm) :=
  if a.allocateMm = false then pure none
  else do
    acquire (.piece .mm addr)
    let ok ← mmInit a addr
    if ok = false then pure none
    else do
      let r ← dupMmap a (oldmm.init addr) oldmm
      if r.1 ≠ 0 then freePt r.2
      else if r.2.binfmt.isSome ∧ a.tryModuleGet = false then freePt r.2
      else do
        tryModuleGet r.2.binfmt
        return some r.2

/-! ## What is held -/

/-- What an address space holds, in the order of `__mmput`. -/
def Mm.holds (mm : Mm) : List Holding :=
  mm.vmas.flatMap Vma.holds ++ (exeHolds mm.exeFile ++ (binfmtHolds mm.binfmt ++ pieces mm.addr))

section

variable {a : Answers} {mm oldmm : Mm} {mpnt tmp : Vma} {vs l : List Vma} {addr charge : Nat}
  {h : Multiset Holding}

theorem triple_failNomem :
    Triple (onTop (only (charge != 0) (.pages charge)) h) (failNomem charge) fun r =>
      onTop (r.2.elim [] Vma.holds) h :=
  (triple_releaseIf _ _ _).bind (triple_pure rfl)

theorem triple_failNomemPolicy :
    Triple (.vma addr mpnt.start ::ₘ onTop (only (charge != 0) (.pages charge)) h)
      (failNomemPolicy addr mpnt charge) fun r => onTop (r.2.elim [] Vma.holds) h :=
  (triple_release _ _).bind triple_failNomem

theorem triple_failNomemAnonVmaFork :
    Triple (onTop (only mpnt.policy .policy)
        (.vma addr mpnt.start ::ₘ onTop (only (charge != 0) (.pages charge)) h))
      (failNomemAnonVmaFork addr mpnt charge) fun r => onTop (r.2.elim [] Vma.holds) h :=
  (triple_releaseIf _ _ _).bind triple_failNomemPolicy

theorem triple_linkFile :
    Triple h (linkFile mpnt) fun _ => onTop (mpnt.file.elim [] fun f =>
      .mapped f :: (only mpnt.sharedMaywrite (.writable f) ++ [.file f])) h := by
  rw [linkFile]
  rcases mpnt.file with _ | f
  · exact triple_pure rfl
  · refine (triple_acquire _ _).bind ((triple_acquireIf _ _ _).bind ?_)
    rw [Option.elim_some]
    have htop : onTop (.mapped f :: (only mpnt.sharedMaywrite (.writable f) ++ [.file f])) h =
        .mapped f ::ₘ onTop (only mpnt.sharedMaywrite (.writable f)) (.file f ::ₘ h) :=
      congrArg (Holding.mapped f ::ₘ ·) (onTop_append _ _ _)
    rw [htop]
    exact triple_acquire _ _

/-- What is taken for the copy of a VMA, in the order in which it is taken. -/
theorem onTop_holds_copied :
    onTop (mpnt.copied addr).holds h =
      onTop (mpnt.file.elim [] fun f =>
          .mapped f :: (only mpnt.sharedMaywrite (.writable f) ++ [.file f]))
        (onTop (only (mpnt.anonVma && !mpnt.wipeonfork) .anonVma) (onTop (only mpnt.policy .policy)
          (.vma addr mpnt.start ::ₘ onTop (only ((if mpnt.account then mpnt.pages else 0) != 0)
            (.pages (if mpnt.account then mpnt.pages else 0))) h))) := by
  have hpages : only (mpnt.account && mpnt.pages != 0) (Holding.pages mpnt.pages) =
      only ((if mpnt.account then mpnt.pages else 0) != 0)
        (.pages (if mpnt.account then mpnt.pages else 0)) := by
    rcases mpnt.account with _ | _ <;> rfl
  rw [← hpages, Vma.holds, onTop_append, onTop_append, onTop_append]
  rfl

/-- Something is held for a VMA exactly if its copy is in the tree. -/
theorem triple_dupVma :
    Triple h (dupVma a addr mpnt) fun r => onTop (r.2.elim [] Vma.holds) h := by
  rw [dupVma]
  refine triple_ite (fun _ => triple_pure rfl) fun _ => triple_ite (fun _ => ?_) fun _ =>
    (triple_acquireIf _ _ _).bind ?_
  · exact triple_failNomem
  refine triple_ite (fun _ => triple_failNomem) fun _ => (triple_acquire _ _).bind ?_
  refine triple_ite (fun _ => triple_failNomemPolicy) fun _ => (triple_acquireIf _ _ _).bind ?_
  refine triple_ite (fun _ => triple_failNomemAnonVmaFork) fun _ => triple_ite
    (fun _ => triple_failNomemAnonVmaFork) fun _ => (triple_acquireIf _ _ _).bind ?_
  exact triple_linkFile.bind (triple_pure onTop_holds_copied)

theorem dupVma_value (a : Answers) (addr : Nat) (mpnt : Vma) :
    ((dupVma a addr mpnt).value.1 ≠ 0 ∧ (dupVma a addr mpnt).value.2 = none) ∨
      (dupVma a addr mpnt).value.2 = some (mpnt.copied addr) := by
  have heintr : -EINTR ≠ 0 := by decide
  have henomem : -ENOMEM ≠ 0 := by decide
  rw [dupVma]
  simp only [value_ite, value_bind]
  split_ifs <;> first | exact .inl ⟨heintr, rfl⟩ | exact .inl ⟨henomem, rfl⟩ | exact .inr rfl

/-- No answer about the VMA is an error. -/
def Answers.grants (a : Answers) (v : Vma) : Bool :=
  if v.dontcopy then a.vmaIterClear v == 0
  else !a.fatalSignalPending v && (!v.account || a.securityVmEnoughMemory v == 0) &&
    a.vmAreaDup v && a.vmaDupPolicy v == 0 && a.dupUserfaultfd v == 0 &&
    (v.wipeonfork || a.anonVmaFork v == 0 && a.copyPageRange v == 0)

theorem dupVma_ok_iff (a : Answers) (addr : Nat) (hv : mpnt.dontcopy = false) :
    (dupVma a addr mpnt).value.1 = 0 ↔ a.grants mpnt = true := by
  have heintr : -EINTR ≠ 0 := by decide
  have henomem : -ENOMEM ≠ 0 := by decide
  rw [dupVma]
  simp only [value_ite, value_bind, Answers.grants, hv, failNomem, failNomemPolicy,
    failNomemAnonVmaFork, value_pure]
  rcases haccount : mpnt.account with _ | _ <;> split_ifs <;> simp_all

/-! ## The loop -/

/-- The copies of some VMAs. -/
def copies (addr : Nat) (l : List Vma) : List Vma :=
  (l.filter fun v => !v.dontcopy).map (Vma.copied addr)

/-- The pages of some VMAs. -/
def pagesOf (l : List Vma) : Int := (l.map fun v => (v.pages : Int)).sum

theorem vmasOf_append (vs : List Vma) (es : List Entry) :
    vmasOf (vs.map .vma ++ es) = vs ++ vmasOf es := by
  induction vs with
  | nil => rfl
  | cons v vs ih => exact congrArg (v :: ·) ih

theorem vmas_of_tree (hmm : mm.tree = vs.map .vma) : mm.vmas = vs := by
  rw [Mm.vmas, hmm, ← List.append_nil (vs.map _), vmasOf_append]
  exact List.append_nil vs

/-- What is behind the mark does not count. -/
theorem vmas_mark (hmm : mm.tree = vs.map .vma) (l : List Vma) : (mm.mark l).vmas = vs := by
  cases l with
  | nil => exact vmas_of_tree hmm
  | cons v l =>
    rw [Mm.vmas, Mm.mark, hmm, vmasOf_append]
    exact List.append_nil vs

theorem tree_link (hmm : mm.tree = vs.map .vma) (tmp : Vma) :
    (mm.link tmp).tree = (vs ++ [tmp]).map .vma := by
  rw [Mm.link, hmm, List.map_append]
  rfl

theorem onTop_holds_link (vs : List Vma) (tmp : Vma) (h : Multiset Holding) :
    onTop ((vs ++ [tmp]).flatMap Vma.holds) h =
      onTop tmp.holds (onTop (vs.flatMap Vma.holds) h) := by
  rw [List.flatMap_append, List.flatMap_singleton, onTop_append, onTop_comm]

theorem copies_cons_of_dontcopy (hv : mpnt.dontcopy = true) :
    copies addr (mpnt :: l) = copies addr l := by
  rw [copies, List.filter_cons_of_neg (by simp [hv])]
  rfl

theorem copies_cons (hv : mpnt.dontcopy = false) :
    copies addr (mpnt :: l) = mpnt.copied addr :: copies addr l := by
  rw [copies, List.filter_cons_of_pos (by simp [hv])]
  rfl

/-- After the loop, what is held for VMAs is what is held for those up to the mark. -/
theorem triple_dupVmas (hmm : mm.tree = vs.map .vma) :
    Triple (onTop (vs.flatMap Vma.holds) h) (dupVmas a mm l) fun r =>
      onTop (r.2.vmas.flatMap Vma.holds) h := by
  induction l generalizing mm vs with
  | nil =>
    refine triple_pure ?_
    rw [vmas_of_tree hmm]
  | cons mpnt rest ih =>
    rw [dupVmas]
    refine triple_ite (fun _ => triple_ite (fun _ => triple_pure ?_) fun _ => ih hmm) fun _ => ?_
    · rw [vmas_mark hmm]
    refine triple_dupVma.bind ?_
    rcases hvalue : (dupVma a mm.addr mpnt).value.2 with _ | tmp
    · refine triple_pure ?_
      rw [vmas_mark hmm]
      rfl
    · refine triple_of_eq (onTop_holds_link vs tmp h).symm ?_
      refine triple_ite (fun _ => triple_pure ?_) fun _ => ?_
      · rw [vmas_mark (tree_link hmm tmp)]
      · exact ih (tree_link hmm tmp)

/-- The loop leaves alone what is not about VMAs. -/
theorem dupVmas_same :
    (dupVmas a mm l).value.2.addr = mm.addr ∧ (dupVmas a mm l).value.2.users = mm.users ∧
      (dupVmas a mm l).value.2.exeFile = mm.exeFile := by
  have hmark : ∀ (mm : Mm) l, (mm.mark l).addr = mm.addr ∧ (mm.mark l).users = mm.users ∧
      (mm.mark l).exeFile = mm.exeFile := by
    intro mm l
    cases l <;> exact ⟨rfl, rfl, rfl⟩
  induction l generalizing mm with
  | nil => exact ⟨rfl, rfl, rfl⟩
  | cons mpnt rest ih =>
    rw [dupVmas]
    split_ifs
    · exact hmark mm _
    · exact ih
    · rw [value_bind]
      rcases (dupVma a mm.addr mpnt).value.2 with _ | tmp
      · exact hmark mm _
      · dsimp only
        split_ifs
        · exact hmark (mm.link tmp) rest
        · exact ih

/-- If the loop succeeds, all copies are in the tree, and nothing else. -/
theorem dupVmas_ok (hok : (dupVmas a mm l).value.1 = 0) :
    (dupVmas a mm l).value.2 =
      { mm with
        tree := mm.tree ++ (copies mm.addr l).map .vma
        mapCount := mm.mapCount + (copies mm.addr l).length
        totalVm := mm.totalVm - pagesOf (l.filter Vma.dontcopy) } := by
  induction l generalizing mm with
  | nil => simp [dupVmas, copies, pagesOf]
  | cons mpnt rest ih =>
    rw [dupVmas] at hok ⊢
    by_cases hdont : mpnt.dontcopy = true
    · rw [if_pos hdont] at hok ⊢
      by_cases hclear : a.vmaIterClear mpnt ≠ 0
      · rw [if_pos hclear] at hok
        exact absurd hok hclear
      · rw [if_neg hclear] at hok ⊢
        have hpages : pagesOf ((mpnt :: rest).filter Vma.dontcopy) =
            mpnt.pages + pagesOf (rest.filter Vma.dontcopy) := by
          rw [List.filter_cons_of_pos hdont]
          rfl
        rw [ih hok, copies_cons_of_dontcopy hdont, hpages, Int.sub_sub]
    · rw [if_neg hdont] at hok ⊢
      rw [value_bind] at hok ⊢
      rcases dupVma_value a mm.addr mpnt with ⟨hne, hnone⟩ | hcopy
      · rw [hnone] at hok
        exact absurd hok hne
      · rw [hcopy] at hok ⊢
        dsimp only at hok ⊢
        split_ifs at hok ⊢ with hpages
        · exact absurd hok hpages
        · rw [ih hok, copies_cons (Bool.eq_false_of_not_eq_true hdont),
            List.filter_cons_of_neg hdont]
          simp [Mm.link, Nat.add_assoc, Nat.add_comm 1]

theorem dupVmas_ok_iff :
    (dupVmas a mm l).value.1 = 0 ↔ (l.all a.grants && a.archDupMmap == 0) = true := by
  induction l generalizing mm with
  | nil => simp [dupVmas]
  | cons mpnt rest ih =>
    rw [dupVmas, List.all_cons]
    by_cases hdont : mpnt.dontcopy = true
    · rw [if_pos hdont, Answers.grants, if_pos hdont]
      split_ifs with hclear
      · simp [hclear]
      · rw [ih]
        simp [not_ne_iff.1 hclear]
    · rw [if_neg hdont, value_bind]
      have hok := dupVma_ok_iff a mm.addr (Bool.eq_false_of_not_eq_true hdont)
      rcases dupVma_value a mm.addr mpnt with ⟨hne, hnone⟩ | hcopy
      · rw [hnone]
        have hgrants : a.grants mpnt = false := Bool.eq_false_iff.2 fun h => hne (hok.2 h)
        simp [hgrants, hne]
      · rw [hcopy]
        dsimp only
        split_ifs with hpages
        · have hgrants : a.grants mpnt = false := Bool.eq_false_iff.2 fun h => hpages (hok.2 h)
          simp [hgrants, hpages]
        · rw [ih, hok.1 (not_ne_iff.1 hpages), Bool.true_and]

/-! ## The whole copy -/

theorem triple_dupMmExeFile {exeFile : Option Nat} :
    Triple h (dupMmExeFile exeFile) fun _ => onTop (exeHolds exeFile) h := by
  rcases exeFile with _ | f
  · exact triple_pure rfl
  · exact (triple_acquire _ _).bind (triple_acquire _ _)

theorem triple_tryModuleGet {binfmt : Option Nat} :
    Triple h (tryModuleGet binfmt) fun _ => onTop (binfmtHolds binfmt) h := by
  rcases binfmt with _ | m
  · exact triple_pure rfl
  · exact triple_acquire _ _

theorem triple_mmInit :
    Triple (.piece .mm addr ::ₘ h) (mmInit a addr) fun ok =>
      if ok then onTop (pieces addr) h else h := by
  have hnopgd : ∀ h, Triple (.piece .mm addr ::ₘ h) (failNopgd addr) fun ok =>
      if ok then onTop (pieces addr) h else h :=
    fun h => (triple_release _ _).bind (triple_pure rfl)
  have hnocontext : ∀ h, Triple (.piece .pgd addr ::ₘ .piece .mm addr ::ₘ h) (failNocontext addr)
      fun ok => if ok then onTop (pieces addr) h else h :=
    fun h => (triple_release _ _).bind (hnopgd h)
  have hcid : ∀ h, Triple (.piece .context addr ::ₘ .piece .pgd addr ::ₘ .piece .mm addr ::ₘ h)
      (failCid addr) fun ok => if ok then onTop (pieces addr) h else h :=
    fun h => (triple_release _ _).bind (hnocontext h)
  have hpieces : onTop (pieces addr) h =
      onTop ([Piece.userNs, .counters, .cid, .context, .pgd, .mm].map (.piece · addr)) h :=
    onTop_perm (List.Perm.map _ (by decide)) h
  rw [mmInit]
  refine triple_ite (fun _ => hnopgd h) fun _ => (triple_acquire _ _).bind ?_
  refine triple_ite (fun _ => hnocontext h) fun _ => (triple_acquire _ _).bind ?_
  refine triple_ite (fun _ => hcid h) fun _ => (triple_acquire _ _).bind ?_
  refine triple_ite (fun _ => (triple_release _ _).bind (hcid h)) fun _ => ?_
  refine (triple_acquire _ _).bind ((triple_acquire _ _).bind (triple_pure ?_))
  rw [if_pos rfl, hpieces]
  rfl

theorem mmInit_value (a : Answers) (addr : Nat) :
    (mmInit a addr).value = (a.mmAllocPgd && a.initNewContext && a.mmAllocCid &&
      a.percpuCounterInitMany) := by
  rw [mmInit]
  simp only [value_ite, value_bind, value_pure, failNopgd, failNocontext, failCid, failPcpu]
  split_ifs <;> simp_all

theorem dupMmap_same (a : Answers) (mm oldmm : Mm) :
    (dupMmap a mm oldmm).value.2.addr = mm.addr ∧
      (dupMmap a mm oldmm).value.2.users = mm.users := by
  rw [dupMmap]
  simp only [value_ite, value_bind]
  split_ifs
  · exact ⟨rfl, rfl⟩
  · exact ⟨rfl, rfl⟩
  · exact ⟨rfl, rfl⟩
  · exact ⟨dupVmas_same.1, dupVmas_same.2.1⟩

theorem triple_dupMmap (htree : mm.tree = []) (hexe : mm.exeFile = none) :
    Triple h (dupMmap a mm oldmm) fun r =>
      onTop (r.2.vmas.flatMap Vma.holds) (onTop (exeHolds r.2.exeFile) h) := by
  have hvmas : mm.vmas = [] := by rw [Mm.vmas, htree]; rfl
  have hnil : ∀ exeFile totalVm,
      ({ mm with exeFile := exeFile, totalVm := totalVm } : Mm).vmas = [] := fun _ _ => hvmas
  rw [dupMmap]
  refine triple_ite (fun _ => triple_pure ?_) fun _ => triple_dupMmExeFile.bind ?_
  · rw [hvmas, hexe]
    rfl
  refine triple_ite (fun _ => triple_pure ?_) fun _ =>
    triple_ite (fun _ => triple_pure ?_) fun _ => ?_
  · rw [hnil]
    rfl
  · rw [hnil]
    rfl
  · have htree' : ({ mm with exeFile := oldmm.exeFile, totalVm := oldmm.totalVm } : Mm).tree =
        ([] : List Vma).map .vma := htree
    refine (triple_dupVmas htree').post_eq ?_
    rw [dupVmas_same.2.2]
    rfl

theorem dupMmap_ok (hok : (dupMmap a mm oldmm).value.1 = 0) :
    (dupMmap a mm oldmm).value.2 =
      { mm with
        tree := mm.tree ++ (copies mm.addr oldmm.vmas).map .vma
        mapCount := mm.mapCount + (copies mm.addr oldmm.vmas).length
        totalVm := oldmm.totalVm - pagesOf (oldmm.vmas.filter Vma.dontcopy)
        exeFile := oldmm.exeFile } := by
  have heintr : -EINTR ≠ 0 := by decide
  rw [dupMmap] at hok ⊢
  simp only [value_ite, value_bind] at hok ⊢
  split_ifs at hok ⊢ with hlock hksm hdup
  · exact absurd hok heintr
  · exact absurd hok hksm
  · exact absurd hok hdup
  · rw [dupVmas_ok hok]

/-- No answer about the address space is an error. -/
def Answers.grantsMmap (a : Answers) (oldmm : Mm) : Bool :=
  a.mmapWriteLockKillable == 0 && a.ksmFork == 0 && a.mtDup == 0 && oldmm.vmas.all a.grants &&
    a.archDupMmap == 0

theorem dupMmap_ok_iff : (dupMmap a mm oldmm).value.1 = 0 ↔ a.grantsMmap oldmm = true := by
  have heintr : -EINTR ≠ 0 := by decide
  rw [dupMmap, Answers.grantsMmap]
  simp only [value_ite, value_bind]
  split_ifs with hlock hksm hdup
  · simp [hlock, heintr]
  · simp [hksm]
  · simp [hdup]
  · rw [dupVmas_ok_iff]
    simp [not_ne_iff.1 hlock, not_ne_iff.1 hksm, not_ne_iff.1 hdup]

theorem triple_mmputFinal : Triple (onTop mm.holds h) (mmputFinal mm) fun _ => h := by
  rw [Mm.holds, onTop_append, onTop_append, onTop_append, mmputFinal, exitMmap]
  refine (triple_releaseAll _ _).bind ((triple_releaseAll _ _).bind ?_)
  exact (triple_releaseAll _ _).bind (triple_releaseAll _ _)

theorem triple_mmput :
    Triple (onTop mm.holds h) (mmput mm) fun r => onTop (r.elim [] Mm.holds) h :=
  triple_ite (fun _ => triple_mmputFinal.bind (triple_pure rfl)) fun _ => triple_pure rfl

/-- An address space that has not got its module gives back all it has. -/
theorem triple_freePt (husers : mm.users = 1) :
    Triple (onTop (mm.vmas.flatMap Vma.holds)
        (onTop (exeHolds mm.exeFile) (onTop (pieces mm.addr) h)))
      (freePt mm) fun r => onTop (r.elim [] Mm.holds) h := by
  have hholds : onTop ({ mm with binfmt := none } : Mm).holds h =
      onTop (mm.vmas.flatMap Vma.holds)
        (onTop (exeHolds mm.exeFile) (onTop (pieces mm.addr) h)) := by
    rw [Mm.holds, onTop_append, onTop_append]
    rfl
  have hput : (mmput { mm with binfmt := none }).value = none := by rw [mmput, if_pos husers]; rfl
  rw [← hholds]
  refine triple_mmput.bind (triple_pure ?_)
  rw [hput]

/-- What a fork is to make of an address space. -/
def Mm.copied (addr : Nat) (oldmm : Mm) : Mm :=
  { oldmm with
    addr := addr
    users := 1
    tree := (copies addr oldmm.vmas).map .vma
    mapCount := (copies addr oldmm.vmas).length
    totalVm := oldmm.totalVm - pagesOf (oldmm.vmas.filter Vma.dontcopy) }

/-- No answer at all is an error. -/
def Answers.grantsMm (a : Answers) (oldmm : Mm) : Bool :=
  a.allocateMm && (a.mmAllocPgd && a.initNewContext && a.mmAllocCid && a.percpuCounterInitMany) &&
    a.grantsMmap oldmm && (oldmm.binfmt.isNone || a.tryModuleGet)

theorem triple_dupMm :
    Triple h (dupMm a addr oldmm) fun r => onTop (r.elim [] Mm.holds) h := by
  rw [dupMm]
  refine triple_ite (fun _ => triple_pure rfl) fun _ =>
    (triple_acquire _ _).bind (triple_mmInit.bind ?_)
  rcases (mmInit a addr).value with _ | _
  · exact triple_pure rfl
  rw [if_pos rfl, if_neg (by decide)]
  refine (triple_dupMmap rfl rfl).bind ?_
  obtain ⟨haddr, husers⟩ := dupMmap_same a (oldmm.init addr) oldmm
  generalize (dupMmap a (oldmm.init addr) oldmm).value = r at haddr husers ⊢
  have hpieces : pieces addr = pieces r.2.addr := congrArg pieces haddr.symm
  rw [hpieces]
  refine triple_ite (fun _ => triple_freePt husers) fun _ =>
    triple_ite (fun _ => triple_freePt husers) fun _ => ?_
  refine triple_tryModuleGet.bind (triple_pure ?_)
  rw [Option.elim_some, Mm.holds, onTop_append, onTop_append, onTop_append,
    onTop_comm (binfmtHolds _) (List.flatMap _ _), onTop_comm (binfmtHolds _) (exeHolds _)]

theorem dupMm_value :
    (dupMm a addr oldmm).value =
      if a.grantsMm oldmm then some (oldmm.copied addr) else none := by
  rw [dupMm, Answers.grantsMm, ← mmInit_value a addr]
  simp only [value_ite, value_bind, value_pure]
  by_cases halloc : a.allocateMm = false
  · simp [halloc]
  rw [if_neg halloc, Bool.eq_true_of_not_eq_false halloc]
  rcases (mmInit a addr).value with _ | _
  · simp
  rw [if_neg (by decide)]
  by_cases hok : (dupMmap a (oldmm.init addr) oldmm).value.1 = 0
  · rw [dupMmap_ok hok, dupMmap_ok_iff.1 hok, if_neg (not_not.2 hok)]
    rcases hbin : oldmm.binfmt with _ | m <;> rcases a.tryModuleGet with _ | _ <;>
      simp [Mm.copied, Mm.init, freePt, hbin]
  · have hnot : a.grantsMmap oldmm = false := Bool.eq_false_iff.2 fun h => hok (dupMmap_ok_iff.2 h)
    rw [if_pos hok, hnot]
    rfl

end

/-! ## All runs -/

/-- The address spaces, and what is held, unless something was given back that was not. -/
structure World where
  mms : List Mm
  held : Option (Multiset Holding)
  /-- The next address. -/
  next : Nat

inductive Event
  /-- A fork of a task with the address space. -/
  | fork (addr : Nat) (a : Answers)
  /-- `mmget`, for a task that shares the address space. -/
  | get (addr : Nat)
  /-- `mmput`. -/
  | put (addr : Nat)

/-- What address spaces hold. -/
def holdings (mms : List Mm) : List Holding := mms.flatMap Mm.holds

/-- Some address spaces, with what they hold. -/
def start (mms : List Mm) (next : Nat) : World where
  mms := mms
  held := some (onTop (holdings mms) 0)
  next := next

def step (w : World) : Event → World
  | .fork addr a =>
    match find Mm.addr addr w.mms with
    | none => w
    | some oldmm =>
      { mms := (dupMm a w.next oldmm).value.toList ++ w.mms
        held := w.held.bind (exec (dupMm a w.next oldmm).ops)
        next := w.next + 1 }
  | .get addr =>
    match find Mm.addr addr w.mms with
    | none => w
    | some mm => { w with mms := { mm with users := mm.users + 1 } :: erase Mm.addr addr w.mms }
  | .put addr =>
    match find Mm.addr addr w.mms with
    | none => w
    | some mm =>
      { mms := (mmput mm).value.toList ++ erase Mm.addr addr w.mms
        held := w.held.bind (exec (mmput mm).ops)
        next := w.next }

/-- What is held is what the address spaces hold. -/
def Accounted (w : World) : Prop := w.held = some (onTop (holdings w.mms) 0)

/-- An address space whose tree has no mark, whose counts are right, and whose VMAs are its own. -/
structure Mm.Ok (mm : Mm) : Prop where
  users : 0 < mm.users
  whole : mm.tree = mm.vmas.map .vma
  mapCount : mm.mapCount = mm.vmas.length
  totalVm : mm.totalVm = pagesOf mm.vmas
  own : ∀ v ∈ mm.vmas, v.mm = mm.addr

/-- An address space that was made by a fork has nothing that is not copied, and nothing locked. -/
def Mm.Forked (mm : Mm) : Prop := ∀ v ∈ mm.vmas, v.dontcopy = false ∧ v.locked = false

section

variable {w : World} {e : Event} {mm oldmm : Mm} {addr : Nat}

theorem onTop_holdings_cons (mm : Mm) (mms : List Mm) (h : Multiset Holding) :
    onTop (holdings (mm :: mms)) h = onTop mm.holds (onTop (holdings mms) h) := by
  rw [holdings, List.flatMap_cons]
  exact onTop_append _ _ _

theorem onTop_holdings_erase (hfind : find Mm.addr addr w.mms = some mm) (h : Multiset Holding) :
    onTop (holdings w.mms) h = onTop mm.holds (onTop (holdings (erase Mm.addr addr w.mms)) h) :=
  (onTop_perm ((perm_erase hfind).flatMap_right Mm.holds) h).trans (onTop_holdings_cons ..)

theorem onTop_holdings_append (r : Option Mm) (mms : List Mm) (h : Multiset Holding) :
    onTop (holdings (r.toList ++ mms)) h = onTop (r.elim [] Mm.holds) (onTop (holdings mms) h) := by
  cases r with
  | none => rfl
  | some mm => exact onTop_holdings_cons mm mms h

theorem Accounted.step (h : Accounted w) : Accounted (step w e) := by
  rw [Accounted] at h
  cases e with
  | fork addr a =>
    rw [AddressSpace.step]
    rcases find Mm.addr addr w.mms with _ | oldmm
    · exact h
    · rw [Accounted, onTop_holdings_append]
      dsimp only
      rw [h, Option.bind_some]
      exact triple_dupMm
  | get addr =>
    rw [AddressSpace.step]
    rcases hfind : find Mm.addr addr w.mms with _ | mm
    · exact h
    · -- the number of users is not part of what is held
      rw [Accounted, onTop_holdings_cons]
      exact h.trans (congrArg some (onTop_holdings_erase hfind 0))
  | put addr =>
    rw [AddressSpace.step]
    rcases hfind : find Mm.addr addr w.mms with _ | mm
    · exact h
    · rw [Accounted, onTop_holdings_append]
      dsimp only
      rw [h, onTop_holdings_erase hfind, Option.bind_some]
      exact triple_mmput

theorem vmas_copied (addr : Nat) (oldmm : Mm) :
    (oldmm.copied addr).vmas = copies addr oldmm.vmas := vmas_of_tree rfl

theorem mem_copies {v : Vma} {l : List Vma} (hv : v ∈ copies addr l) :
    ∃ mpnt : Vma, mpnt.dontcopy = false ∧ v = mpnt.copied addr := by
  obtain ⟨mpnt, hmpnt, rfl⟩ := List.mem_map.1 hv
  have hcopy : (!mpnt.dontcopy) = true := (List.mem_filter.1 hmpnt).2
  exact ⟨mpnt, by simpa using hcopy, rfl⟩

/-- The pages that are copied, and those that are not. -/
theorem pagesOf_copies (addr : Nat) (l : List Vma) :
    pagesOf (copies addr l) = pagesOf l - pagesOf (l.filter Vma.dontcopy) := by
  induction l with
  | nil => rfl
  | cons v l ih =>
    have hcons : ∀ l, pagesOf (v :: l) = v.pages + pagesOf l := fun _ => rfl
    by_cases hv : v.dontcopy = true
    · rw [copies_cons_of_dontcopy hv, List.filter_cons_of_pos hv, hcons, hcons, ih]
      omega
    · have hcopied : pagesOf (v.copied addr :: copies addr l) = v.pages + pagesOf (copies addr l) :=
        rfl
      rw [copies_cons (Bool.eq_false_of_not_eq_true hv), List.filter_cons_of_neg hv, hcons, hcopied,
        ih]
      omega

theorem Mm.Ok.copied (h : oldmm.Ok) : (oldmm.copied addr).Ok where
  users := Nat.one_pos
  whole := by
    rw [vmas_copied]
    rfl
  mapCount := by
    rw [vmas_copied]
    rfl
  totalVm := by
    rw [vmas_copied, pagesOf_copies, ← h.totalVm]
    rfl
  own v hv := by
    rw [vmas_copied] at hv
    obtain ⟨mpnt, -, rfl⟩ := mem_copies hv
    rfl

theorem forked_copied (addr : Nat) (oldmm : Mm) : (oldmm.copied addr).Forked := by
  intro v hv
  rw [vmas_copied] at hv
  obtain ⟨mpnt, hcopy, rfl⟩ := mem_copies hv
  exact ⟨hcopy, rfl⟩

theorem Mm.Ok.setUsers {n : Nat} (h : mm.Ok) (hn : 0 < n) : ({ mm with users := n } : Mm).Ok :=
  ⟨hn, h.whole, h.mapCount, h.totalVm, h.own⟩

/-- The address spaces after a step are those before it, with more or fewer users, or copies. -/
theorem mem_step (hmm : mm ∈ (step w e).mms) :
    (∃ oldmm ∈ w.mms, ∃ n, (0 < oldmm.users → 0 < n) ∧ mm = { oldmm with users := n }) ∨
      ∃ oldmm ∈ w.mms, ∃ addr, mm = oldmm.copied addr := by
  have hsame : ∀ mm ∈ w.mms,
      ∃ oldmm ∈ w.mms, ∃ n, (0 < oldmm.users → 0 < n) ∧ mm = { oldmm with users := n } :=
    fun mm hmm => ⟨mm, hmm, mm.users, id, rfl⟩
  cases e with
  | fork addr a =>
    rw [step] at hmm
    rcases hfind : find Mm.addr addr w.mms with _ | oldmm
    · rw [hfind] at hmm
      exact .inl (hsame mm hmm)
    · rw [hfind] at hmm
      dsimp only at hmm
      rw [dupMm_value] at hmm
      rcases List.mem_append.1 hmm with hnew | hold
      · split_ifs at hnew
        · exact .inr ⟨oldmm, (find_some hfind).1, w.next, List.mem_singleton.1 hnew⟩
        · cases hnew
      · exact .inl (hsame mm hold)
  | get addr =>
    rw [step] at hmm
    rcases hfind : find Mm.addr addr w.mms with _ | old
    · rw [hfind] at hmm
      exact .inl (hsame mm hmm)
    · rw [hfind] at hmm
      rcases List.mem_cons.1 hmm with rfl | hold
      · exact .inl ⟨old, (find_some hfind).1, old.users + 1, fun _ => Nat.succ_pos _, rfl⟩
      · exact .inl (hsame mm (erase_sublist.subset hold))
  | put addr =>
    rw [step] at hmm
    rcases hfind : find Mm.addr addr w.mms with _ | old
    · rw [hfind] at hmm
      exact .inl (hsame mm hmm)
    · rw [hfind] at hmm
      rcases List.mem_append.1 hmm with hleft | hold
      · rw [mmput] at hleft
        split_ifs at hleft with husers
        · cases hleft
        · refine .inl ⟨old, (find_some hfind).1, old.users - 1, fun hpos => ?_,
            List.mem_singleton.1 hleft⟩
          omega
      · exact .inl (hsame mm (erase_sublist.subset hold))

/-- In every run, address spaces remain in order; and those that were not there at first have
    nothing that is not copied. -/
theorem spaces_ok (mms : List Mm) (next : Nat) (es : List Event) (hok : ∀ mm ∈ mms, mm.Ok) :
    Always step (fun w => ∀ mm ∈ w.mms, mm.Ok ∧ ((∃ first ∈ mms, first.addr = mm.addr) ∨ mm.Forked))
      (start mms next) es := by
  refine always_of_step (R := fun _ => True) (fun mm hmm => ⟨hok mm hmm, .inl ⟨mm, hmm, rfl⟩⟩)
    (fun _ _ => trivial) fun w e _ h mm hmm => ?_
  rcases mem_step hmm with ⟨oldmm, hold, n, hn, rfl⟩ | ⟨oldmm, hold, addr, rfl⟩
  · obtain ⟨hoks, hfirst⟩ := h oldmm hold
    exact ⟨hoks.setUsers (hn hoks.users), hfirst⟩
  · exact ⟨(h oldmm hold).1.copied, .inr (forked_copied addr oldmm)⟩

/-- An address space with a program and with a device that is not copied. -/
def shell : Mm where
  addr := 0
  users := 1
  tree := [.vma ⟨0, 0, 4, false, true, false, true, false, true, some 7, false⟩,
    .vma ⟨0, 9, 2, true, false, false, false, false, false, some 8, true⟩]
  mapCount := 2
  totalVm := 6
  exeFile := some 7
  binfmt := none

/-- Nothing fails. -/
def granting : Answers where
  allocateMm := true
  mmAllocPgd := true
  initNewContext := true
  mmAllocCid := true
  percpuCounterInitMany := true
  mmapWriteLockKillable := 0
  ksmFork := 0
  mtDup := 0
  vmaIterClear _ := 0
  fatalSignalPending _ := false
  securityVmEnoughMemory _ := 0
  vmAreaDup _ := true
  vmaDupPolicy _ := 0
  dupUserfaultfd _ := 0
  anonVmaFork _ := 0
  copyPageRange _ := 0
  archDupMmap := 0
  tryModuleGet := true

theorem spaces_ok_shell :
    (run step (start [shell] 1) [.fork 0 granting]).mms = [shell.copied 1, shell] ∧
      Always step (fun w => ∀ mm ∈ w.mms,
          mm.Ok ∧ ((∃ first ∈ [shell], first.addr = mm.addr) ∨ mm.Forked))
        (start [shell] 1) [.fork 0 granting, .get 0, .put 0, .put 0, .fork 1 granting] := by
  refine ⟨by decide, spaces_ok [shell] 1 _ fun mm hmm => ?_⟩
  rw [List.mem_singleton.1 hmm]
  exact ⟨by decide, by decide, by decide, by decide, by decide⟩

end

end AddressSpace

end LuisKernel
