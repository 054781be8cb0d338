import LuisKernel.Basic
import LuisKernel.Machine

/-!
# User and group numbers

The calls of `kernel/sys.c` by which a process changes its user and group numbers: `setreuid`,
`setuid`, `setresuid`, `setfsuid`, and the same for groups. A process has four numbers of each
kind, and what a call may do depends on them and on one capability.

The calls for users and for groups are the same, but that those for users also count the
processes of a user (`set_user`, `set_cred_ucounts`), which can fail. What the rest of the kernel
answers, the capability included, is in the `Answers` of a call.

* Without the capability, a process can give itself as real, effective and saved numbers exactly
  those that it has as one of these, by whatever calls; the number for files is then one of the
  new ones (`reachable_iff`).
* After `setuid` with the capability, and after `setreuid` or `setresuid` to one number only, a
  process without the capability never gets another number (`drop_permanent`).
* `setresuid` returns at once if nothing is to be changed. As long as no `setfsuid` was called,
  that is what the rest of the function would do (`shortcut_agrees`).
-/

namespace LuisKernel

namespace Credentials

open Machine

def EAGAIN : Int := 11

/-- `(uid_t) -1`, which is also `INVALID_UID`. -/
def INVALID : UInt32 := 0xffffffff

/-- `make_kuid` or `make_kgid`, which gives `INVALID` for a number without a mapping, and
    `from_kuid_munged` or `from_kgid_munged`. -/
structure IdMap where
  make : UInt32 → UInt32
  munged : UInt32 → UInt32

structure UserNs where
  uidMap : IdMap
  gidMap : IdMap

/-- The four numbers of one kind. -/
structure Ids where
  real : UInt32
  effective : UInt32
  saved : UInt32
  fs : UInt32
  deriving DecidableEq, Repr

/-- `struct cred`. -/
structure Cred where
  uid : Ids
  gid : Ids
  deriving DecidableEq, Repr

/-- What the rest of the kernel answers to a call. -/
structure Answers where
  /-- `prepare_creds` finds memory. -/
  prepareCreds : Bool
  /-- `ns_capable_setid`. -/
  capable : Bool
  /-- `alloc_uid` finds memory. -/
  allocUid : Bool
  /-- `security_task_fix_setuid` or `security_task_fix_setgid`. -/
  security : Int
  setCredUcounts : Int

/-! ## The calls -/

section

variable (ns : IdMap) (a : Answers) (old : Ids)

def setUser : Int := if a.allocUid then 0 else -EAGAIN

/-- The end of a call that has prepared `new`. -/
def commit (new : Ids) : Int × Ids :=
  if a.security < 0 then (a.security, old)
  else if a.setCredUcounts < 0 then (a.setCredUcounts, old)
  else (0, new)

/-- The new real number belongs to another user, whose processes are counted. -/
def changeUser (new : Ids) : Int × Ids :=
  if new.real ≠ old.real ∧ setUser a < 0 then (setUser a, old) else commit a old new

/-- What `__sys_setreuid` prepares: the saved number is set if the real one is, or if the effective
    one is set to another than the real one. -/
def preparedRe (ruid euid : UInt32) : Ids :=
  let effective := if euid ≠ INVALID then ns.make euid else old.effective
  { real := if ruid ≠ INVALID then ns.make ruid else old.real
    effective := effective
    saved := if ruid ≠ INVALID ∨ (euid ≠ INVALID ∧ ns.make euid ≠ old.real) then effective
      else old.saved
    fs := effective }

/-- `__sys_setreuid` and `__sys_setregid`. -/
def setre (ruid euid : UInt32) : Int × Ids :=
  let kruid := ns.make ruid
  let keuid := ns.make euid
  if ruid ≠ INVALID ∧ kruid = INVALID then (-EINVAL, old)
  else if euid ≠ INVALID ∧ keuid = INVALID then (-EINVAL, old)
  else if a.prepareCreds = false then (-ENOMEM, old)
  else if ruid ≠ INVALID ∧ ¬(old.real = kruid ∨ old.effective = kruid ∨ a.capable) then
    (-EPERM, old)
  else if euid ≠ INVALID ∧
      ¬(old.real = keuid ∨ old.effective = keuid ∨ old.saved = keuid ∨ a.capable) then
    (-EPERM, old)
  else changeUser a old (preparedRe ns old ruid euid)

/-- `__sys_setuid` and `__sys_setgid`. -/
def setid (uid : UInt32) : Int × Ids :=
  let kuid := ns.make uid
  if kuid = INVALID then (-EINVAL, old)
  else if a.prepareCreds = false then (-ENOMEM, old)
  else if a.capable then changeUser a old ⟨kuid, kuid, kuid, kuid⟩
  else if kuid ≠ old.real ∧ kuid ≠ old.saved then (-EPERM, old)
  else commit a old { old with effective := kuid, fs := kuid }

/-- `ruid_new`, `euid_new` or `suid_new`: the number is not one that the process has. -/
def isNew (id : UInt32) : Bool :=
  id != INVALID && ns.make id != old.real && ns.make id != old.effective && ns.make id != old.saved

/-- What `__sys_setresuid` prepares. -/
def preparedRes (ruid euid suid : UInt32) : Ids :=
  let effective := if euid ≠ INVALID then ns.make euid else old.effective
  { real := if ruid ≠ INVALID then ns.make ruid else old.real
    effective := effective
    saved := if suid ≠ INVALID then ns.make suid else old.saved
    fs := effective }

/-- `__sys_setresuid` and `__sys_setresgid` after the check for a call that changes nothing. -/
def setresRest (ruid euid suid : UInt32) : Int × Ids :=
  if (isNew ns old ruid || isNew ns old euid || isNew ns old suid) ∧ a.capable = false then
    (-EPERM, old)
  else if a.prepareCreds = false then (-ENOMEM, old)
  else changeUser a old (preparedRes ns old ruid euid suid)

/-- The check for a call that changes nothing. -/
def noop (ruid euid suid : UInt32) : Bool :=
  (ruid == INVALID || ns.make ruid == old.real) &&
    (euid == INVALID || (ns.make euid == old.effective && ns.make euid == old.fs)) &&
    (suid == INVALID || ns.make suid == old.saved)

/-- `__sys_setresuid` and `__sys_setresgid`. -/
def setres (ruid euid suid : UInt32) : Int × Ids :=
  if ruid ≠ INVALID ∧ ns.make ruid = INVALID then (-EINVAL, old)
  else if euid ≠ INVALID ∧ ns.make euid = INVALID then (-EINVAL, old)
  else if suid ≠ INVALID ∧ ns.make suid = INVALID then (-EINVAL, old)
  else if noop ns old ruid euid suid then (0, old)
  else setresRest ns a old ruid euid suid

/-- `__sys_setfsuid` and `__sys_setfsgid`, which return the old number in any case. -/
def setfs (uid : UInt32) : Int × Ids :=
  let kuid := ns.make uid
  let oldFs := (ns.munged old.fs).toNat
  if kuid = INVALID then (oldFs, old)
  else if a.prepareCreds = false then (oldFs, old)
  else if (kuid = old.real ∨ kuid = old.effective ∨ kuid = old.saved ∨ kuid = old.fs ∨ a.capable) ∧
      kuid ≠ old.fs ∧ a.security = 0 then
    (oldFs, { old with fs := kuid })
  else (oldFs, old)

end

/-- For groups, no user and no count can fail. -/
def Answers.forGroup (a : Answers) : Answers := { a with allocUid := true, setCredUcounts := 0 }

/-- A call that changes the numbers of the user, or those of the group. -/
def onUser (f : Ids → Int × Ids) (c : Cred) : Int × Cred :=
  ((f c.uid).1, { c with uid := (f c.uid).2 })

def onGroup (f : Ids → Int × Ids) (c : Cred) : Int × Cred :=
  ((f c.gid).1, { c with gid := (f c.gid).2 })

section

variable (ns : UserNs) (a : Answers)

def setreuid (ruid euid : UInt32) : Cred → Int × Cred :=
  onUser fun old => setre ns.uidMap a old ruid euid

def setregid (rgid egid : UInt32) : Cred → Int × Cred :=
  onGroup fun old => setre ns.gidMap a.forGroup old rgid egid

def setuid (uid : UInt32) : Cred → Int × Cred :=
  onUser fun old => setid ns.uidMap a old uid

def setgid (gid : UInt32) : Cred → Int × Cred :=
  onGroup fun old => setid ns.gidMap a.forGroup old gid

def setresuid (ruid euid suid : UInt32) : Cred → Int × Cred :=
  onUser fun old => setres ns.uidMap a old ruid euid suid

def setresgid (rgid egid sgid : UInt32) : Cred → Int × Cred :=
  onGroup fun old => setres ns.gidMap a.forGroup old rgid egid sgid

def setfsuid (uid : UInt32) : Cred → Int × Cred :=
  onUser fun old => setfs ns.uidMap a old uid

def setfsgid (gid : UInt32) : Cred → Int × Cred :=
  onGroup fun old => setfs ns.gidMap a.forGroup old gid

end

/-- A call, with the answers it gets. -/
inductive Call
  | setreuid (a : Answers) (ruid euid : UInt32)
  | setregid (a : Answers) (rgid egid : UInt32)
  | setuid (a : Answers) (uid : UInt32)
  | setgid (a : Answers) (gid : UInt32)
  | setresuid (a : Answers) (ruid euid suid : UInt32)
  | setresgid (a : Answers) (rgid egid sgid : UInt32)
  | setfsuid (a : Answers) (uid : UInt32)
  | setfsgid (a : Answers) (gid : UInt32)

def Call.answers : Call → Answers
  | setreuid a _ _ => a
  | setregid a _ _ => a
  | setuid a _ => a
  | setgid a _ => a
  | setresuid a _ _ _ => a
  | setresgid a _ _ _ => a
  | setfsuid a _ => a
  | setfsgid a _ => a

/-- The credentials after a call. -/
def step (ns : UserNs) (c : Cred) : Call → Cred
  | .setreuid a ruid euid => (setreuid ns a ruid euid c).2
  | .setregid a rgid egid => (setregid ns a rgid egid c).2
  | .setuid a uid => (setuid ns a uid c).2
  | .setgid a gid => (setgid ns a gid c).2
  | .setresuid a ruid euid suid => (setresuid ns a ruid euid suid c).2
  | .setresgid a rgid egid sgid => (setresgid ns a rgid egid sgid c).2
  | .setfsuid a uid => (setfsuid ns a uid c).2
  | .setfsgid a gid => (setfsgid ns a gid c).2

/-! ## Without the capability -/

/-- The number is the real, the effective or the saved one. -/
def Ids.Has (ids : Ids) (id : UInt32) : Prop :=
  id = ids.real ∨ id = ids.effective ∨ id = ids.saved

/-- The numbers `new` are among those of `old`. A number for files that is none of the others is
    kept only as long as nothing is changed. -/
structure Within (old new : Ids) : Prop where
  real : old.Has new.real
  effective : old.Has new.effective
  saved : old.Has new.saved
  fs : new.Has new.fs ∨ new = old

/-- One number in all four places. -/
def Ids.only (id : UInt32) : Ids := ⟨id, id, id, id⟩

section

variable {ns : IdMap} {a : Answers} {old new ids ids' ids'' : Ids} {id r e s : UInt32}

theorem Within.refl (ids : Ids) : Within ids ids :=
  ⟨.inl rfl, .inr (.inl rfl), .inr (.inr rfl), .inr rfl⟩

theorem Within.has (h : Within old new) (hid : new.Has id) : old.Has id := by
  rcases hid with rfl | rfl | rfl
  · exact h.real
  · exact h.effective
  · exact h.saved

theorem Within.trans (h : Within ids ids') (h' : Within ids' ids'') : Within ids ids'' := by
  refine ⟨h.has h'.real, h.has h'.effective, h.has h'.saved, ?_⟩
  rcases h'.fs with hfs | rfl
  · exact .inl hfs
  · exact h.fs

theorem Ids.eq_iff : ids = ids' ↔ ids.real = ids'.real ∧ ids.effective = ids'.effective ∧
    ids.saved = ids'.saved ∧ ids.fs = ids'.fs := by
  cases ids
  cases ids'
  exact Iff.of_eq (Ids.mk.injEq ..)

theorem has_only (h : (Ids.only id).Has e) : e = id := by
  rcases h with h | h | h <;> exact h

/-- From one number, there is no way to another. -/
theorem Within.eq_only (h : Within (.only id) new) : new = .only id := by
  rcases h.fs with hfs | hsame
  · exact Ids.eq_iff.2 ⟨has_only h.real, has_only h.effective, has_only h.saved,
      has_only (h.has hfs)⟩
  · exact hsame

/-- A number that is replaced by one the process has, or kept. -/
theorem Ids.Has.ite {c : Prop} [Decidable c] {kept : UInt32} (hnew : c → ids.Has id)
    (hkept : ids.Has kept) : ids.Has (if c then id else kept) := by
  split_ifs with hc
  · exact hnew hc
  · exact hkept

variable (a old new) in
/-- What a call commits or throws away. -/
theorem commit_cases : commit a old new = (0, new) ∨
    (commit a old new).1 < 0 ∧ (commit a old new).2 = old := by
  rw [commit]
  split_ifs with hs hu
  · exact .inr ⟨hs, rfl⟩
  · exact .inr ⟨hu, rfl⟩
  · exact .inl rfl

variable (a old new) in
theorem changeUser_cases : changeUser a old new = (0, new) ∨
    (changeUser a old new).1 < 0 ∧ (changeUser a old new).2 = old := by
  rw [changeUser]
  split_ifs with h
  · exact .inr ⟨h.2, rfl⟩
  · exact commit_cases a old new

theorem changeUser_of_eq_zero (h : (changeUser a old new).1 = 0) :
    (changeUser a old new).2 = new := by
  rcases changeUser_cases a old new with hc | hc
  · rw [hc]
  · exact absurd h (Int.ne_of_lt hc.1)

/-- What holds of the old numbers and of the prepared ones holds after the call. -/
theorem commit_of_both {P : Ids → Prop} (hold : P old) (hnew : P new) :
    P (commit a old new).2 := by
  rcases commit_cases a old new with hc | hc
  · rw [hc]
    exact hnew
  · rw [hc.2]
    exact hold

theorem changeUser_of_both {P : Ids → Prop} (hold : P old) (hnew : P new) :
    P (changeUser a old new).2 := by
  rcases changeUser_cases a old new with hc | hc
  · rw [hc]
    exact hnew
  · rw [hc.2]
    exact hold

theorem within_preparedRe (hr : r ≠ INVALID → old.Has (ns.make r))
    (he : e ≠ INVALID → old.Has (ns.make e)) : Within old (preparedRe ns old r e) := by
  have heff : old.Has (if e ≠ INVALID then ns.make e else old.effective) :=
    .ite he (Within.refl old).effective
  exact ⟨.ite hr (Within.refl old).real, heff, .ite (fun _ => heff) (Within.refl old).saved,
    .inl (.inr (.inl rfl))⟩

theorem within_preparedRes (hr : r ≠ INVALID → old.Has (ns.make r))
    (he : e ≠ INVALID → old.Has (ns.make e)) (hs : s ≠ INVALID → old.Has (ns.make s)) :
    Within old (preparedRes ns old r e s) := by
  have heff : old.Has (if e ≠ INVALID then ns.make e else old.effective) :=
    .ite he (Within.refl old).effective
  exact ⟨.ite hr (Within.refl old).real, heff, .ite hs (Within.refl old).saved,
    .inl (.inr (.inl rfl))⟩

theorem within_setre (ha : a.capable = false) : Within old (setre ns a old r e).2 := by
  simp only [setre, ha, Bool.false_eq_true, or_false]
  split_ifs with h1 h2 h3 h4 h5
  iterate 5 exact .refl old
  refine changeUser_of_both (.refl old) (within_preparedRe (fun hr => ?_) fun he => ?_)
  · rcases not_and_not_right.1 h4 hr with h | h
    · exact .inl h.symm
    · exact .inr (.inl h.symm)
  · rcases not_and_not_right.1 h5 he with h | h | h
    · exact .inl h.symm
    · exact .inr (.inl h.symm)
    · exact .inr (.inr h.symm)

theorem within_setid (ha : a.capable = false) : Within old (setid ns a old id).2 := by
  have hrefl : Within old old := .refl old
  simp only [setid, ha, Bool.false_eq_true, if_false]
  split_ifs with h1 h2 h3
  iterate 3 exact hrefl
  have hid : old.Has (ns.make id) := by
    rcases not_and_or.1 h3 with h | h
    · exact .inl (not_ne_iff.1 h)
    · exact .inr (.inr (not_ne_iff.1 h))
  exact commit_of_both hrefl ⟨hrefl.real, hid, hrefl.saved, .inl (.inr (.inl rfl))⟩

/-- A number that is not new is one the process has. -/
theorem isNew_eq_false_iff : isNew ns old id = false ↔ (id ≠ INVALID → old.Has (ns.make id)) := by
  simp only [isNew, Ids.Has, Bool.and_eq_false_iff, bne_eq_false_iff_eq]
  tauto

theorem within_setresRest (ha : a.capable = false) : Within old (setresRest ns a old r e s).2 := by
  rw [setresRest]
  split_ifs with h1 h2
  iterate 2 exact .refl old
  have hold : (isNew ns old r || isNew ns old e || isNew ns old s) = false :=
    Bool.eq_false_iff.2 fun hnew => h1 ⟨hnew, ha⟩
  rw [Bool.or_eq_false_iff, Bool.or_eq_false_iff] at hold
  obtain ⟨⟨hr, he⟩, hs⟩ := hold
  exact changeUser_of_both (.refl old) (within_preparedRes (isNew_eq_false_iff.1 hr)
    (isNew_eq_false_iff.1 he) (isNew_eq_false_iff.1 hs))

theorem within_setres (ha : a.capable = false) : Within old (setres ns a old r e s).2 := by
  rw [setres]
  split_ifs
  iterate 4 exact .refl old
  exact within_setresRest ha

theorem within_setfs (ha : a.capable = false) : Within old (setfs ns a old id).2 := by
  have hrefl : Within old old := .refl old
  simp only [setfs, ha, Bool.false_eq_true, or_false]
  split_ifs with h1 h2 h3
  · exact hrefl
  · exact hrefl
  · refine ⟨hrefl.real, hrefl.effective, hrefl.saved, ?_⟩
    rcases h3.1 with h | h | h | h
    · exact .inl (.inl h)
    · exact .inl (.inr (.inl h))
    · exact .inl (.inr (.inr h))
    · exact absurd h h3.2.1
  · exact hrefl

end

/-- The calls are made without the capability. -/
def Unprivileged (calls : List Call) : Prop := ∀ call ∈ calls, call.answers.capable = false

section

variable {ns : UserNs} {a : Answers} {c : Cred} {calls : List Call}

variable (ns c) in
theorem within_step {call : Call} (h : call.answers.capable = false) :
    Within c.uid (step ns c call).uid ∧ Within c.gid (step ns c call).gid := by
  cases call with
  | setreuid a ruid euid => exact ⟨within_setre h, .refl _⟩
  | setregid a rgid egid => exact ⟨.refl _, within_setre h⟩
  | setuid a uid => exact ⟨within_setid h, .refl _⟩
  | setgid a gid => exact ⟨.refl _, within_setid h⟩
  | setresuid a ruid euid suid => exact ⟨within_setres h, .refl _⟩
  | setresgid a rgid egid sgid => exact ⟨.refl _, within_setres h⟩
  | setfsuid a uid => exact ⟨within_setfs h, .refl _⟩
  | setfsgid a gid => exact ⟨.refl _, within_setfs h⟩

variable (ns c) in
theorem within_run (h : Unprivileged calls) : Within c.uid (run (step ns) c calls).uid ∧
    Within c.gid (run (step ns) c calls).gid := by
  refine (always_of_step (I := fun c' : Cred => Within c.uid c'.uid ∧ Within c.gid c'.gid)
    ⟨.refl _, .refl _⟩ h fun c' call hcall hc' => ?_).run
  obtain ⟨huid, hgid⟩ := within_step ns c' hcall
  exact ⟨hc'.1.trans huid, hc'.2.trans hgid⟩

/-- The namespace has a number of its own for `u`. -/
def IdMap.Maps (map : IdMap) (u : UInt32) : Prop := u ≠ INVALID ∧ map.make u ≠ INVALID

/-- Nothing fails, but there is no capability. -/
def unprivileged : Answers := ⟨true, false, true, 0, 0⟩

/-- The namespace has numbers of its own for all of `ids`. -/
def IdMap.Names (map : IdMap) (ids : Ids) : Prop :=
  ∃ r e s f, (∀ u ∈ [r, e, s, f], map.Maps u) ∧
    ids = ⟨map.make r, map.make e, map.make s, map.make f⟩

section

variable {map : IdMap} {old : Ids} {r e s f : UInt32}

/-- `setresuid` can put any number of the process in any place. -/
theorem setres_unprivileged (hr : map.Maps r) (he : map.Maps e) (hs : map.Maps s)
    (hreal : old.Has (map.make r)) (heff : old.Has (map.make e)) (hsaved : old.Has (map.make s)) :
    (setres map unprivileged old r e s).2 =
      ⟨map.make r, map.make e, map.make s, map.make e⟩ := by
  have hnew : ∀ {u}, old.Has (map.make u) → isNew map old u = false := fun h =>
    isNew_eq_false_iff.2 fun _ => h
  rw [setres, if_neg (not_and_of_not_right _ hr.2), if_neg (not_and_of_not_right _ he.2),
    if_neg (not_and_of_not_right _ hs.2)]
  split_ifs with hnoop
  · -- the numbers are there already, the one of `setfsuid` too
    simp only [noop, Bool.and_eq_true, Bool.or_eq_true, beq_iff_eq, hr.1, he.1, hs.1,
      false_or] at hnoop
    obtain ⟨⟨hreal, heff, hfs⟩, hsaved⟩ := hnoop
    exact Ids.eq_iff.2 ⟨hreal.symm, heff.symm, hsaved.symm, hfs.symm⟩
  · simp only [setresRest, hnew hreal, hnew heff, hnew hsaved, preparedRes, changeUser, commit,
      setUser, unprivileged]
    simp [hr.1, he.1, hs.1]

/-- `setfsuid` can make any number of the process the one for files. -/
theorem setfs_unprivileged (hf : map.Maps f) (hhas : old.Has (map.make f)) :
    (setfs map unprivileged old f).2 = { old with fs := map.make f } := by
  have hmay : map.make f = old.real ∨ map.make f = old.effective ∨ map.make f = old.saved ∨
      map.make f = old.fs := by
    rcases hhas with h | h | h
    · exact .inl h
    · exact .inr (.inl h)
    · exact .inr (.inr (.inl h))
  simp only [setfs, if_neg hf.2, unprivileged, Bool.false_eq_true, or_false, hmay, true_and,
    and_true, Bool.true_eq_false, if_false]
  split_ifs with hfs
  · rfl
  · rw [not_ne_iff.1 hfs]

/-- The two calls after each other can do all that is possible. -/
theorem setfs_setres_unprivileged {new : Ids} (hmap : ∀ u ∈ [r, e, s, f], map.Maps u)
    (hnew : new = ⟨map.make r, map.make e, map.make s, map.make f⟩) (h : Within old new)
    (hfs : new.Has new.fs) :
    (setfs map unprivileged (setres map unprivileged old r e s).2 f).2 = new := by
  simp only [List.forall_mem_cons, List.not_mem_nil, false_implies, implies_true, and_true]
    at hmap
  obtain ⟨hr, he, hs, hf⟩ := hmap
  subst hnew
  rw [setres_unprivileged hr he hs h.real h.effective h.saved]
  exact setfs_unprivileged hf hfs

end

/-- All numbers of one kind that are possible are reached by two calls, or by none. The rest of the
    credentials, which these calls leave alone, is in `cred`. -/
theorem exists_run {map : IdMap} {old new : Ids} (ns : UserNs) (cred : Ids → Cred)
    (res : UInt32 → UInt32 → UInt32 → Call) (fs : UInt32 → Call)
    (hres : ∀ ids r e s, step ns (cred ids) (res r e s) =
      cred (setres map unprivileged ids r e s).2)
    (hfs : ∀ ids f, step ns (cred ids) (fs f) = cred (setfs map unprivileged ids f).2)
    (hcapable : ∀ r e s f, Unprivileged [res r e s, fs f]) (hnames : map.Names new)
    (h : Within old new) :
    ∃ calls, Unprivileged calls ∧ run (step ns) (cred old) calls = cred new := by
  obtain ⟨r, e, s, f, hmap, hnew⟩ := hnames
  rcases h.fs with hhas | rfl
  · refine ⟨[res r e s, fs f], hcapable r e s f, ?_⟩
    rw [run_cons, run_cons, run_nil, hres, hfs, setfs_setres_unprivileged hmap hnew h hhas]
  · exact ⟨[], fun call hcall => absurd hcall List.not_mem_nil, rfl⟩

theorem unprivileged_pair {first second : Call} (hfirst : first.answers = unprivileged)
    (hsecond : second.answers = unprivileged) : Unprivileged [first, second] := by
  intro call hcall
  rcases List.mem_pair.1 hcall with rfl | rfl
  · rw [hfirst]
    rfl
  · rw [hsecond]
    rfl

/-- Without the capability, a process never gets other numbers than those that it has as real,
    effective or saved ones; and those of them that its namespace can name, it can put in any
    place. -/
theorem reachable_iff (ns : UserNs) (c : Cred) :
    (∀ calls, Unprivileged calls → Within c.uid (run (step ns) c calls).uid ∧
      Within c.gid (run (step ns) c calls).gid) ∧
    ∀ new : Cred, ns.uidMap.Names new.uid → ns.gidMap.Names new.gid →
      ((∃ calls, Unprivileged calls ∧ run (step ns) c calls = new) ↔
        Within c.uid new.uid ∧ Within c.gid new.gid) := by
  refine ⟨fun calls => within_run ns c, fun new huser hgroup => ⟨?_, ?_⟩⟩
  · rintro ⟨calls, hcalls, rfl⟩
    exact within_run ns c hcalls
  · rintro ⟨huid, hgid⟩
    obtain ⟨first, hfirst, hrun⟩ := exists_run ns (fun ids => ⟨ids, c.gid⟩)
      (.setresuid unprivileged) (.setfsuid unprivileged) (fun _ _ _ _ => rfl) (fun _ _ => rfl)
      (fun _ _ _ _ => unprivileged_pair rfl rfl) huser huid
    obtain ⟨second, hsecond, hrun'⟩ := exists_run ns (fun ids => ⟨new.uid, ids⟩)
      (.setresgid unprivileged) (.setfsgid unprivileged) (fun _ _ _ _ => rfl) (fun _ _ => rfl)
      (fun _ _ _ _ => unprivileged_pair rfl rfl) hgroup hgid
    refine ⟨first ++ second, fun call hcall => ?_, ?_⟩
    · exact (List.mem_append.1 hcall).elim (hfirst call) (hsecond call)
    · rw [run_append, hrun, hrun']

/-- `init_user_ns`. -/
def UserNs.init : UserNs := ⟨⟨id, id⟩, ⟨id, id⟩⟩

/-- A set-user program of `root` gives up the number 0 for a time. -/
theorem reachable_iff_setuid_root :
    ∃ calls, Unprivileged calls ∧
      run (step .init) ⟨⟨1000, 0, 0, 0⟩, ⟨100, 100, 100, 100⟩⟩ calls =
        ⟨⟨1000, 1000, 0, 1000⟩, ⟨100, 100, 100, 100⟩⟩ := by
  have huser : UserNs.init.uidMap.Names ⟨1000, 1000, 0, 1000⟩ :=
    ⟨1000, 1000, 0, 1000, by simp [IdMap.Maps, UserNs.init, INVALID], rfl⟩
  have hgroup : UserNs.init.gidMap.Names ⟨100, 100, 100, 100⟩ :=
    ⟨100, 100, 100, 100, by simp [IdMap.Maps, UserNs.init, INVALID], rfl⟩
  refine ((reachable_iff .init _).2 _ huser hgroup).2 ⟨?_, .refl _⟩
  exact ⟨.inl rfl, .inl rfl, .inr (.inl rfl), .inl (.inl rfl)⟩

/-- A process with one number keeps it. -/
theorem run_only {id : UInt32} (hc : c.uid = .only id) (h : Unprivileged calls) :
    (run (step ns) c calls).uid = .only id := by
  have hwithin := (within_run ns c h).1
  rw [hc] at hwithin
  exact hwithin.eq_only

section

variable {map : IdMap} {old : Ids} {u : UInt32}

/-! Success to one number. -/

theorem setid_only (ha : a.capable = true) (h : (setid map a old u).1 = 0) :
    (setid map a old u).2 = .only (map.make u) := by
  simp only [setid, ha, if_true] at h ⊢
  split_ifs at h ⊢
  · cases h
  · cases h
  · exact changeUser_of_eq_zero h

theorem setre_only (hu : u ≠ INVALID) (h : (setre map a old u u).1 = 0) :
    (setre map a old u u).2 = .only (map.make u) := by
  rw [setre] at h ⊢
  split_ifs at h ⊢
  · cases h
  · cases h
  iterate 2 cases h
  · rw [changeUser_of_eq_zero h, preparedRe]
    simp [hu, Ids.only]

theorem setres_only (hu : u ≠ INVALID) (h : (setres map a old u u u).1 = 0) :
    (setres map a old u u u).2 = .only (map.make u) := by
  rw [setres] at h ⊢
  split_ifs at h ⊢ with h1 hnoop
  · cases h
  · simp only [noop, Bool.and_eq_true, Bool.or_eq_true, beq_iff_eq, hu, false_or] at hnoop
    obtain ⟨⟨hreal, heff, hfs⟩, hsaved⟩ := hnoop
    exact Ids.eq_iff.2 ⟨hreal.symm, heff.symm, hsaved.symm, hfs.symm⟩
  · rw [setresRest] at h ⊢
    split_ifs at h ⊢
    · cases h
    · cases h
    · rw [changeUser_of_eq_zero h, preparedRes]
      simp [hu, Ids.only]

end

/-- The ways for a process to give up its other numbers for good. -/
theorem drop_permanent {u : UInt32} (h : Unprivileged calls) :
    (a.capable = true → (setuid ns a u c).1 = 0 →
      (run (step ns) (setuid ns a u c).2 calls).uid = .only (ns.uidMap.make u)) ∧
    (u ≠ INVALID → (setreuid ns a u u c).1 = 0 →
      (run (step ns) (setreuid ns a u u c).2 calls).uid = .only (ns.uidMap.make u)) ∧
    (u ≠ INVALID → (setresuid ns a u u u c).1 = 0 →
      (run (step ns) (setresuid ns a u u u c).2 calls).uid = .only (ns.uidMap.make u)) := by
  refine ⟨fun ha hset => ?_, fun hu hset => ?_, fun hu hset => ?_⟩
  · exact run_only (setid_only ha hset) h
  · exact run_only (setre_only hu hset) h
  · exact run_only (setres_only hu hset) h

/-- A process of `root` becomes user 1000, and then tries to be `root` again. -/
theorem drop_permanent_root :
    (run (step .init)
      (setuid .init { unprivileged with capable := true } 1000 ⟨.only 0, .only 0⟩).2
      [.setuid unprivileged 0, .setreuid unprivileged 0 0]).uid = .only 1000 := by
  have hcalls : Unprivileged [.setuid unprivileged 0, .setreuid unprivileged 0 0] :=
    unprivileged_pair rfl rfl
  exact (drop_permanent hcalls).1 rfl (by decide)

/-! ## The call that changes nothing -/

/-- `setresuid` without the check for a call that changes nothing. -/
def setresPlain (map : IdMap) (a : Answers) (old : Ids) (ruid euid suid : UInt32) : Int × Ids :=
  if ruid ≠ INVALID ∧ map.make ruid = INVALID then (-EINVAL, old)
  else if euid ≠ INVALID ∧ map.make euid = INVALID then (-EINVAL, old)
  else if suid ≠ INVALID ∧ map.make suid = INVALID then (-EINVAL, old)
  else setresRest map a old ruid euid suid

/-- No part of the kernel refuses. -/
structure Answers.Granting (a : Answers) : Prop where
  prepareCreds : a.prepareCreds = true
  security : 0 ≤ a.security
  setCredUcounts : 0 ≤ a.setCredUcounts

section

variable {map : IdMap} {old : Ids} {r e s : UInt32}

/-- The rest of the function only resets the number for file systems. -/
theorem setresRest_of_noop (ha : a.Granting) (h : noop map old r e s = true) :
    setresRest map a old r e s = (0, { old with fs := old.effective }) := by
  simp only [noop, Bool.and_eq_true, Bool.or_eq_true, beq_iff_eq] at h
  obtain ⟨⟨hr, he⟩, hs⟩ := h
  have hprepared : preparedRes map old r e s = { old with fs := old.effective } := by
    have hreal : (if r ≠ INVALID then map.make r else old.real) = old.real := by grind
    have heff : (if e ≠ INVALID then map.make e else old.effective) = old.effective := by grind
    have hsaved : (if s ≠ INVALID then map.make s else old.saved) = old.saved := by grind
    rw [preparedRes, hreal, heff, hsaved]
  have hr : isNew map old r = false := isNew_eq_false_iff.2 fun hr' => .inl (hr.resolve_left hr')
  have he : isNew map old e = false :=
    isNew_eq_false_iff.2 fun he' => .inr (.inl (he.resolve_left he').1)
  have hs : isNew map old s = false :=
    isNew_eq_false_iff.2 fun hs' => .inr (.inr (hs.resolve_left hs'))
  rw [setresRest, hr, he, hs, hprepared]
  simp [ha.prepareCreds, changeUser, commit, Int.not_lt.2 ha.security,
    Int.not_lt.2 ha.setCredUcounts]

theorem setres_eq_plain (ha : a.Granting) (h : old.fs = old.effective) :
    setres map a old r e s = setresPlain map a old r e s := by
  rw [setres, setresPlain]
  split_ifs with h1 h2 h3 hnoop
  iterate 3 rfl
  · rw [setresRest_of_noop ha hnoop, Prod.mk.injEq, Ids.eq_iff]
    exact ⟨rfl, rfl, rfl, rfl, h⟩
  · rfl

theorem fs_setre (h : old.fs = old.effective) :
    (setre map a old r e).2.fs = (setre map a old r e).2.effective := by
  rw [setre]
  split_ifs
  iterate 5 exact h
  exact changeUser_of_both (P := fun ids => ids.fs = ids.effective) h rfl

theorem fs_setid (h : old.fs = old.effective) :
    (setid map a old r).2.fs = (setid map a old r).2.effective := by
  rw [setid]
  split_ifs
  iterate 2 exact h
  · exact changeUser_of_both (P := fun ids => ids.fs = ids.effective) h rfl
  · exact h
  · exact commit_of_both (P := fun ids => ids.fs = ids.effective) h rfl

theorem fs_setres (h : old.fs = old.effective) :
    (setres map a old r e s).2.fs = (setres map a old r e s).2.effective := by
  rw [setres, setresRest]
  split_ifs
  iterate 6 exact h
  exact changeUser_of_both (P := fun ids => ids.fs = ids.effective) h rfl

end

def Call.isSetfsuid : Call → Bool
  | setfsuid _ _ => true
  | _ => false

/-- The calls but `setfsuid` leave the number for file systems equal to the effective one. -/
theorem fs_step {call : Call} (h : call.isSetfsuid = false) (hc : c.uid.fs = c.uid.effective) :
    (step ns c call).uid.fs = (step ns c call).uid.effective := by
  cases call with
  | setreuid a ruid euid => exact fs_setre hc
  | setuid a uid => exact fs_setid hc
  | setresuid a ruid euid suid => exact fs_setres hc
  | setfsuid a uid => cases h
  | setregid a rgid egid => exact hc
  | setgid a gid => exact hc
  | setresgid a rgid egid sgid => exact hc
  | setfsgid a gid => exact hc

/-- As long as no `setfsuid` was called, `setresuid` gives what it would give without its check
    for a call that changes nothing. -/
theorem shortcut_agrees {r e s : UInt32} (hc : c.uid.fs = c.uid.effective)
    (hcalls : ∀ call ∈ calls, call.isSetfsuid = false) (ha : a.Granting) :
    setresuid ns a r e s (run (step ns) c calls) =
      onUser (fun old => setresPlain ns.uidMap a old r e s) (run (step ns) c calls) := by
  have hfs : (run (step ns) c calls).uid.fs = (run (step ns) c calls).uid.effective :=
    (always_of_step (I := fun c : Cred => c.uid.fs = c.uid.effective) hc hcalls
      fun _ _ => fs_step).run
  rw [setresuid, onUser, onUser, setres_eq_plain ha hfs]

theorem shortcut_agrees_root :
    setresuid .init unprivileged INVALID INVALID INVALID
        (run (step .init) ⟨.only 0, .only 0⟩ [.setuid unprivileged 0]) =
      onUser (fun old => setresPlain UserNs.init.uidMap unprivileged old INVALID INVALID INVALID)
        (run (step .init) ⟨.only 0, .only 0⟩ [.setuid unprivileged 0]) :=
  shortcut_agrees rfl (List.forall_mem_singleton.2 rfl) ⟨rfl, by decide, by decide⟩

-- after `setfsuid`, the two differ: the check leaves the number, the rest resets it
example : setres UserNs.init.uidMap unprivileged ⟨0, 0, 0, 1000⟩ INVALID INVALID INVALID =
    (0, ⟨0, 0, 0, 1000⟩) := by decide

example : setresPlain UserNs.init.uidMap unprivileged ⟨0, 0, 0, 1000⟩ INVALID INVALID INVALID =
    (0, ⟨0, 0, 0, 0⟩) := by decide

end

end Credentials

end LuisKernel
