import LuisKernel.Clone

/-!
# Unsharing

`ksys_unshare` of `kernel/fork.c`: the caller stops sharing what it shares with other tasks, or
gets new namespaces. Some flags ask for more than they say (`impliedFlags`), and the address
space, the signal handlers and the thread group are never really unshared: the call only succeeds
if they are not shared.

What the call reads of the reference counts is in its `View`. As in `copy_process`, what it took
is given back on every failure, but for one: if `set_cred_ucounts` fails, the new namespaces that
`unshare_nsproxy_namespaces` made are forgotten (`triple_unshareWith`).
-/

namespace LuisKernel

namespace Clone

open Ledger Bits

/-- What the rest of the kernel answers to `ksys_unshare`. -/
structure UnshareAnswers where
  currentIsSingleThreaded : Bool
  copyFsStruct : Bool
  dupFd : Int
  unshareUserns : Int
  /-- `unshare_nsproxy_namespaces`, when it is asked for a namespace. -/
  unshareNsproxyNamespaces : Int
  setCredUcounts : Int

/-- What the call sees of the sharing: the reference counts of the caller's structures, and
    whether its thread group is empty but for itself. -/
structure View where
  fsUsers : Nat
  filesCount : Nat
  sighandCount : Nat
  threadGroupEmpty : Bool

/-- The flags of the namespaces of `nsproxy`. -/
def nsproxyFlags : UInt64 :=
  CLONE_NEWNS ||| CLONE_NEWUTS ||| CLONE_NEWIPC ||| CLONE_NEWNET ||| CLONE_NEWPID |||
    CLONE_NEWCGROUP ||| CLONE_NEWTIME

/-- The flags that `check_unshare_flags` knows. -/
def unshareableFlags : UInt64 :=
  CLONE_THREAD ||| CLONE_FS ||| CLONE_NEWNS ||| CLONE_SIGHAND ||| CLONE_VM ||| CLONE_FILES |||
    CLONE_SYSVSEM ||| CLONE_NEWUTS ||| CLONE_NEWIPC ||| CLONE_NEWNET ||| CLONE_NEWUSER |||
    CLONE_NEWPID ||| CLONE_NEWCGROUP ||| CLONE_NEWTIME

/-- The flags, with those that they imply. -/
def impliedFlags (flags : UInt64) : UInt64 :=
  let flags := addIf (sets flags CLONE_NEWUSER) flags (CLONE_THREAD ||| CLONE_FS)
  let flags := addIf (sets flags CLONE_VM) flags CLONE_SIGHAND
  let flags := addIf (sets flags CLONE_SIGHAND) flags CLONE_THREAD
  addIf (sets flags CLONE_NEWNS) flags CLONE_FS

/-- `check_unshare_flags`. -/
def checkUnshareFlags (a : UnshareAnswers) (v : View) (flags : UInt64) : Int :=
  if sets flags (~~~unshareableFlags) then -EINVAL
  else if sets flags (CLONE_THREAD ||| CLONE_SIGHAND ||| CLONE_VM) ∧ v.threadGroupEmpty = false then
    -EINVAL
  else if sets flags (CLONE_SIGHAND ||| CLONE_VM) ∧ v.sighandCount > 1 then -EINVAL
  else if sets flags CLONE_VM ∧ a.currentIsSingleThreaded = false then -EINVAL
  else 0

/-- One thing to unshare: there is nothing to do, or `r` is made, which can fail. The error number,
    and whether there is something new. -/
def unshareOne (wanted : Bool) (error : Int) (r : Holding) : Traced Holding (Int × Bool) :=
  if wanted = false then pure (0, false)
  else if error ≠ 0 then pure (error, false)
  else do
    acquire r
    return (0, true)

section

variable (a : UnshareAnswers) (v : View) (flags : UInt64) (current : Task) (addr : Nat)

/-- `unshare_fs`: a new `fs_struct` at `addr`, unless the caller is the only user of its own. -/
def unshareFs : Traced Holding (Int × Bool) :=
  unshareOne (sets flags CLONE_FS && v.fsUsers != 1) (if a.copyFsStruct then 0 else -ENOMEM)
    (.fs addr)

/-- `unshare_fd`: a new table of files at `addr`. -/
def unshareFd : Traced Holding (Int × Bool) :=
  unshareOne (sets flags CLONE_FILES && (current.files.isSome && v.filesCount > 1)) a.dupFd
    (.files addr)

/-- `unshare_userns`: new credentials. -/
def unshareUserns : Traced Holding (Int × Bool) :=
  unshareOne (sets flags CLONE_NEWUSER) a.unshareUserns .newCred

/-- `unshare_nsproxy_namespaces`: a new `nsproxy`. -/
def unshareNsproxyNamespaces : Traced Holding (Int × Bool) :=
  unshareOne (sets flags nsproxyFlags) a.unshareNsproxyNamespaces .newNsproxy

/-- The end of `ksys_unshare`, when nothing failed: the caller `current` gets what is new. The old
    files are put by the code of the labels, which control falls into. -/
def unshareInstall (newFs newFd newCred newNsproxy : Bool) : Traced Holding (Int × Task) := do
  releaseIf newNsproxy .newNsproxy
  releaseIf newFs (.fs current.fs)
  releaseIf newCred .newCred
  releaseAll (if newFd then current.filesHeld else [])
  return (0, { current with
    fs := if newFs then addr else current.fs
    files := if newFd then some addr else current.files
    ns := { current.ns with
      mnt := if newNsproxy ∧ sets flags CLONE_NEWNS then addr else current.ns.mnt
      user := if newCred then addr else current.ns.user
      pidForChildren :=
        if newNsproxy ∧ sets flags CLONE_NEWPID then addr else current.ns.pidForChildren } })

/-- The labels `bad_unshare_cleanup_fs`, `bad_unshare_cleanup_fd` and `bad_unshare_cleanup_cred`;
    each falls through to the one before. -/
def cleanupFs (newFs : Bool) (err : Int) : Traced Holding (Int × Task) := do
  releaseIf newFs (.fs addr)
  return (err, current)

def cleanupFd (newFs newFd : Bool) (err : Int) : Traced Holding (Int × Task) := do
  releaseIf newFd (.files addr)
  cleanupFs current addr newFs err

def cleanupCred (newFs newFd newCred : Bool) (err : Int) : Traced Holding (Int × Task) := do
  releaseIf newCred .newCred
  cleanupFd current addr newFs newFd err

/-- `ksys_unshare`, with the flags already completed: the error number, and the caller after it. -/
def unshareWith : Traced Holding (Int × Task) :=
  if checkUnshareFlags a v flags ≠ 0 then pure (checkUnshareFlags a v flags, current)
  else do
    let fs ← unshareFs a v flags addr
    if fs.1 ≠ 0 then return (fs.1, current)
    else do
      let fd ← unshareFd a v flags current addr
      if fd.1 ≠ 0 then cleanupFs current addr fs.2 fd.1
      else do
        let cred ← unshareUserns a flags
        if cred.1 ≠ 0 then cleanupFd current addr fs.2 fd.2 cred.1
        else do
          let nsproxy ← unshareNsproxyNamespaces a flags
          if nsproxy.1 ≠ 0 then cleanupCred current addr fs.2 fd.2 cred.2 nsproxy.1
          -- The same label: it does not put the new `nsproxy`.
          else if cred.2 ∧ a.setCredUcounts ≠ 0 then
            cleanupCred current addr fs.2 fd.2 cred.2 a.setCredUcounts
          else unshareInstall flags current addr fs.2 fd.2 cred.2 nsproxy.2

/-- `ksys_unshare`. -/
def ksysUnshare : Traced Holding (Int × Task) := unshareWith a v (impliedFlags flags) current addr

/-- The call that loses a set of namespaces: they were made, and then the new credentials could
    not be charged. -/
def Loses : Prop :=
  checkUnshareFlags a v flags = 0 ∧ (unshareFs a v flags addr).value.1 = 0 ∧
    (unshareFd a v flags current addr).value.1 = 0 ∧ (unshareUserns a flags).value = (0, true) ∧
      (unshareNsproxyNamespaces a flags).value = (0, true) ∧ a.setCredUcounts ≠ 0
  deriving Decidable

end

/-! ## What is held -/

section

variable {a : UnshareAnswers} {v : View} {flags : UInt64} {current : Task} {addr : Nat}
  {h : Multiset Holding}

theorem triple_unshareOne (wanted : Bool) (error : Int) (r : Holding) :
    Triple h (unshareOne wanted error r) fun q => onTop (only q.2 r) h := by
  rw [unshareOne]
  refine triple_ite (fun _ => triple_pure rfl) fun _ => triple_ite (fun _ => triple_pure rfl)
    fun _ => ?_
  exact (triple_acquire _ _).bind (triple_pure rfl)

/-- A step that fails makes nothing, and one that succeeds makes what was wanted. -/
theorem unshareOne_value (wanted : Bool) (error : Int) (r : Holding) :
    (unshareOne wanted error r).value.1 ≠ 0 ∧ (unshareOne wanted error r).value.2 = false ∨
      (unshareOne wanted error r).value = (0, wanted) := by
  rw [unshareOne]
  split_ifs with hwanted herror
  · exact .inr (congrArg (Prod.mk 0) hwanted.symm)
  · exact .inl ⟨herror, rfl⟩
  · exact .inr (congrArg (Prod.mk 0) (Bool.eq_true_of_not_eq_false hwanted).symm)

theorem unshareOne_failed {wanted : Bool} {error : Int} {r : Holding}
    (hret : (unshareOne wanted error r).value.1 ≠ 0) :
    (unshareOne wanted error r).value.2 = false := by
  rcases unshareOne_value wanted error r with ⟨_, hnone⟩ | hvalue
  · exact hnone
  · exact absurd (congrArg Prod.fst hvalue) hret

theorem unshareOne_ok {wanted : Bool} {error : Int} {r : Holding}
    (hret : (unshareOne wanted error r).value.1 = 0) :
    (unshareOne wanted error r).value.2 = wanted := by
  rcases unshareOne_value wanted error r with ⟨herror, _⟩ | hvalue
  · exact absurd hret herror
  · exact congrArg Prod.snd hvalue

/-- What a task holds besides its `fs_struct` and its files. -/
def others (p : Task) : List Holding := .piece .cookie p.addr :: (p.late ++
  .signal p.signal :: .sighand p.sighand :: .piece .semundo p.addr :: .piece .security p.addr ::
    .piece .audit p.addr :: .piece .perf p.addr :: .piece .mempolicy p.addr ::
      .piece .delayacct p.addr :: .piece .nproc p.addr :: .piece .creds p.addr ::
        .piece .stack p.addr ::
          (only (p.kthread && p.workerPrivate) (.piece .kthread p.addr) ++ [.piece .task p.addr]))

theorem onTop_holds (p : Task) (h : Multiset Holding) :
    onTop p.holds h = .fs p.fs ::ₘ onTop p.filesHeld (onTop (others p) h) := by
  rw [Task.holds, Task.early, others]
  simp only [onTop_eq_add, ← Multiset.coe_add, ← Multiset.cons_coe, ← Multiset.singleton_add]
  abel

theorem triple_unshareInstall (newFs newFd newCred newNsproxy : Bool) :
    Triple
      (onTop (only newNsproxy .newNsproxy) (onTop (only newCred .newCred)
        (onTop (only newFd (.files addr)) (onTop (only newFs (.fs addr))
          (onTop current.holds h)))))
      (unshareInstall flags current addr newFs newFd newCred newNsproxy)
      fun r => onTop r.2.holds h := by
  have hswap : onTop (only newCred .newCred) (onTop (only newFd (.files addr))
      (onTop (only newFs (.fs addr)) (.fs current.fs ::ₘ
        onTop current.filesHeld (onTop (others current) h)))) =
      onTop (only newFs (.fs current.fs)) (onTop (only newCred .newCred)
        (onTop (if newFd then current.filesHeld else [])
          (.fs (if newFs then addr else current.fs) ::ₘ
            onTop (if newFd then [.files addr] else current.filesHeld)
              (onTop (others current) h)))) := by
    have hone (r : Holding) : (([r] : List Holding) : Multiset Holding) = {r} := rfl
    simp only [onTop_eq_add, ← Multiset.singleton_add, only]
    rcases newFs with _ | _ <;> rcases newFd with _ | _ <;>
      simp only [Bool.false_eq_true, if_false, if_true, hone, Multiset.coe_nil] <;> abel
  rw [unshareInstall, onTop_holds current]
  refine (triple_releaseIf _ _ _).bind (triple_of_eq hswap ((triple_releaseIf _ _ _).bind
    ((triple_releaseIf _ _ _).bind ((triple_releaseAll _ _).bind (triple_pure ?_)))))
  rw [onTop_holds]
  rcases newFd with _ | _ <;> rfl

section

variable (newFs newFd newCred : Bool) (err : Int)

theorem triple_cleanupFs :
    Triple (onTop (only newFs (.fs addr)) h) (cleanupFs current addr newFs err) fun _ => h :=
  (triple_releaseIf _ _ _).bind (triple_pure rfl)

theorem triple_cleanupFd :
    Triple (onTop (only newFd (.files addr)) (onTop (only newFs (.fs addr)) h))
      (cleanupFd current addr newFs newFd err) fun _ => h :=
  (triple_releaseIf _ _ _).bind (triple_cleanupFs _ _)

theorem triple_cleanupCred :
    Triple (onTop (only newCred .newCred)
        (onTop (only newFd (.files addr)) (onTop (only newFs (.fs addr)) h)))
      (cleanupCred current addr newFs newFd newCred err) fun _ => h :=
  (triple_releaseIf _ _ _).bind (triple_cleanupFd _ _ _)

end

/-- `ksys_unshare` gives back what it took and did not give to the caller, but for the namespaces
    of a call that `Loses` them. -/
theorem triple_unshareWith :
    Triple (onTop current.holds h) (unshareWith a v flags current addr) fun r =>
      onTop (only (Loses a v flags current addr) .newNsproxy) (onTop r.2.holds h) := by
  have hnot {p : Prop} [Decidable p] (hp : ¬p) : only (decide p) Holding.newNsproxy = [] := by
    rw [decide_eq_false hp]
    rfl
  rw [unshareWith]
  refine triple_ite (fun hcheck => ?_) fun hcheck => ?_
  · rw [hnot fun hl => hcheck hl.1]
    exact triple_pure rfl
  refine (triple_unshareOne _ _ _).bind (triple_ite (fun hfs => ?_) fun hfs => ?_)
  · rw [hnot fun hl => hfs hl.2.1, unshareOne_failed hfs]
    exact triple_pure rfl
  refine (triple_unshareOne _ _ _).bind (triple_ite (fun hfd => ?_) fun hfd => ?_)
  · rw [hnot fun hl => hfd hl.2.2.1, unshareOne_failed hfd]
    exact triple_of_eq rfl (triple_cleanupFs _ _)
  refine (triple_unshareOne _ _ _).bind (triple_ite (fun hcred => ?_) fun hcred => ?_)
  · rw [hnot fun hl => hcred (congrArg Prod.fst hl.2.2.2.1), unshareOne_failed hcred]
    exact triple_of_eq rfl (triple_cleanupFd _ _ _)
  refine (triple_unshareOne _ _ _).bind (triple_ite (fun hns => ?_) fun hns => ?_)
  · rw [hnot fun hl => hns (congrArg Prod.fst hl.2.2.2.2.1), unshareOne_failed hns]
    exact triple_of_eq rfl (triple_cleanupCred _ _ _ _)
  refine triple_ite (fun hset => ?_) fun hset => ?_
  · -- The new namespaces, if there are any, stay at the bottom.
    have hlost : decide (Loses a v flags current addr) =
        (unshareNsproxyNamespaces a flags).value.2 := by
      rw [Bool.eq_iff_iff, decide_eq_true_iff]
      refine ⟨fun hl => congrArg Prod.snd hl.2.2.2.2.1, fun hl => ?_⟩
      exact ⟨not_not.1 hcheck, not_not.1 hfs, not_not.1 hfd, Prod.ext (not_not.1 hcred) hset.1,
        Prod.ext (not_not.1 hns) hl, hset.2⟩
    rw [hlost]
    refine triple_of_eq ?_ (triple_cleanupCred _ _ _ _)
    rw [onTop_comm, onTop_comm (only _ Holding.newNsproxy), onTop_comm (only _ Holding.newNsproxy)]
    rfl
  · have hkept : ¬Loses a v flags current addr := fun hl =>
      hset ⟨congrArg Prod.snd hl.2.2.2.1, hl.2.2.2.2.2⟩
    rw [hnot hkept]
    exact triple_unshareInstall _ _ _ _

/-! ## The caller after it -/

/-- The caller after a call that succeeds. -/
def unshared (v : View) (flags : UInt64) (current : Task) (addr : Nat) : Task :=
  { current with
    fs := if sets flags CLONE_FS && v.fsUsers != 1 then addr else current.fs
    files := if sets flags CLONE_FILES && (current.files.isSome && v.filesCount > 1) then some addr
      else current.files
    ns := { current.ns with
      mnt := if sets flags CLONE_NEWNS then addr else current.ns.mnt
      user := if sets flags CLONE_NEWUSER then addr else current.ns.user
      pidForChildren := if sets flags CLONE_NEWPID then addr else current.ns.pidForChildren } }

/-- The flag of a namespace of `nsproxy` is one of `nsproxyFlags`. -/
theorem sets_nsproxyFlags {m : UInt64} (hm : nsproxyFlags ||| m = nsproxyFlags) :
    (sets flags nsproxyFlags ∧ sets flags m) = (sets flags m = true) := by
  have hor : sets flags nsproxyFlags = (sets flags nsproxyFlags || sets flags m) := by
    rw [← sets_or, hm]
  refine propext ⟨And.right, fun h => ⟨?_, h⟩⟩
  rw [hor, h, Bool.or_true]

variable (a v flags current addr) in
/-- A call that fails leaves the caller as it was. -/
theorem unshareWith_value :
    (unshareWith a v flags current addr).value.1 ≠ 0 ∧
        (unshareWith a v flags current addr).value.2 = current ∨
      (unshareWith a v flags current addr).value = (0, unshared v flags current addr) ∧
        checkUnshareFlags a v flags = 0 := by
  rw [unshareWith]
  split_ifs with hcheck
  · exact .inl ⟨hcheck, rfl⟩
  simp only [value_bind, value_ite]
  split_ifs with hfs hfd hcred hns hset
  · exact .inl ⟨hfs, rfl⟩
  · exact .inl ⟨hfd, rfl⟩
  · exact .inl ⟨hcred, rfl⟩
  · exact .inl ⟨hns, rfl⟩
  · exact .inl ⟨hset.2, rfl⟩
  · refine .inr ⟨?_, not_not.1 hcheck⟩
    have hnewFs : (unshareFs a v flags addr).value.2 = _ := unshareOne_ok (not_not.1 hfs)
    have hnewFd : (unshareFd a v flags current addr).value.2 = _ := unshareOne_ok (not_not.1 hfd)
    have hnewCred : (unshareUserns a flags).value.2 = _ := unshareOne_ok (not_not.1 hcred)
    have hnew : (unshareNsproxyNamespaces a flags).value.2 = _ := unshareOne_ok (not_not.1 hns)
    rw [hnewFs, hnewFd, hnewCred, hnew, unshareInstall, unshared]
    simp only [value_bind, value_pure, sets_nsproxyFlags (m := CLONE_NEWNS) rfl,
      sets_nsproxyFlags (m := CLONE_NEWPID) rfl]

/-! ## The flags -/

theorem sets_impliedFlags (m : UInt64) : sets (impliedFlags flags) m =
    (sets flags m || (sets flags CLONE_NEWUSER && sets (CLONE_THREAD ||| CLONE_FS) m) ||
      (sets flags CLONE_VM && sets CLONE_SIGHAND m) ||
      ((sets flags CLONE_SIGHAND || sets flags CLONE_VM) && sets CLONE_THREAD m) ||
      (sets flags CLONE_NEWNS && sets CLONE_FS m)) := by
  -- The flags that are added do not ask for others, but for the signal handlers.
  have hvm : sets (CLONE_THREAD ||| CLONE_FS) CLONE_VM = false := by decide
  have hsighand : sets (CLONE_THREAD ||| CLONE_FS) CLONE_SIGHAND = false := by decide
  have hns : sets (CLONE_THREAD ||| CLONE_FS) CLONE_NEWNS = false := by decide
  have hsighand' : sets CLONE_SIGHAND CLONE_SIGHAND = true := by decide
  have hns' : sets CLONE_SIGHAND CLONE_NEWNS = false := by decide
  have hns'' : sets CLONE_THREAD CLONE_NEWNS = false := by decide
  simp only [impliedFlags, addIf_sets, hvm, hsighand, hns, hsighand', hns', hns'', Bool.and_false,
    Bool.and_true, Bool.or_false]

/-- What the flags imply. -/
theorem impliedFlags_thread (hflag : sets (impliedFlags flags) CLONE_NEWUSER = true ∨
    sets (impliedFlags flags) CLONE_SIGHAND = true) :
    sets (impliedFlags flags) CLONE_THREAD = true := by
  simp +decide [sets_impliedFlags] at hflag ⊢
  tauto

theorem impliedFlags_fs (hflag : sets (impliedFlags flags) CLONE_NEWUSER = true ∨
    sets (impliedFlags flags) CLONE_NEWNS = true) :
    sets (impliedFlags flags) CLONE_FS = true := by
  simp +decide [sets_impliedFlags] at hflag ⊢
  tauto

/-- What the check says of the sharing, if it succeeds. -/
theorem checkUnshareFlags_eq_zero (hcheck : checkUnshareFlags a v flags = 0) :
    (sets flags CLONE_THREAD = true → v.threadGroupEmpty = true) ∧
      (sets flags CLONE_SIGHAND = true → v.sighandCount ≤ 1) := by
  rw [checkUnshareFlags] at hcheck
  split_ifs at hcheck with _ hthread hsighand
  · cases hcheck
  · cases hcheck
  · cases hcheck
  · cases hcheck
  · simp only [sets_or] at hthread hsighand
    refine ⟨fun hflag => ?_, fun hflag => ?_⟩
    · simpa [hflag] using hthread
    · simpa [hflag] using hsighand

end

end Clone

end LuisKernel
