import LuisKernel.Clone.Unshare
import LuisKernel.Keyed
import LuisKernel.Machine

/-!
# What tasks share

Tasks come and go: a task is made by `kernel_clone`, changes what it shares by `ksys_unshare`, and
exits. A `World` has the tasks, and what is held; addresses are never used twice, and a new pid is
the number of no task or thread group. The events are any calls of any tasks, with any flags and
any answers of the rest of the kernel, in any order.

The end of a task is the work of `kernel/exit.c`, which is not part of this project: the results
hold for all code that gives back what the task holds (`ExitCode`).

* Nothing is given back that is not held, and the count of references to a shared structure is
  always the number of tasks that point to it (`World.counts_exact`).
* A call of `ksys_unshare` may lose a set of namespaces; nothing else is lost (`World.lost_exact`).
* Threads of a group share their signals, their signal handlers, their address space, and their
  user and pid namespaces; tasks that share their `fs_struct` share their mount and user
  namespaces (`World.sharing_coherent`).
* After `ksys_unshare` has succeeded, the caller shares nothing of what its flags name with any
  other task (`World.unshare_exclusive`).
-/

namespace LuisKernel

namespace Clone

open Ledger Bits Keyed Machine

/-- `kernel_clone`, up to the return of `copy_process`. -/
def kernelClone (a : Answers) (args : KernelCloneArgs) (current : Task) (addr nrThreads : Nat) :
    Traced Holding (Except Int Task) :=
  if sets args.flags CLONE_PIDFD ∧ sets args.flags CLONE_PARENT_SETTID ∧
      args.pidfd = args.parentTid then
    pure (.error (-EINVAL))
  else copyProcess a args current addr nrThreads

/-- What is assumed of `kernel/exit.c`. -/
structure ExitCode where
  /-- All that is given back from `do_exit` of a task to its last `put_task_struct`. -/
  doExit : Task → Traced Holding Unit
  /-- That is what the task holds, each thing once. -/
  doExit_gives_back : ∀ (t : Task) (h : Multiset Holding),
    Triple (onTop t.holds h) (doExit t) fun _ => h

/-- The tasks of the system, and what is held, unless something was given back that was not. -/
structure World where
  tasks : List Task
  held : Option (Multiset Holding)
  /-- The next address. -/
  next : Nat

inductive Event
  | clone (pid : Nat) (a : Answers) (args : KernelCloneArgs)
  | unshare (pid : Nat) (a : UnshareAnswers) (flags : UInt64)
  | exit (pid : Nat)

namespace World

/-- The number of references to `r`. -/
def refs (w : World) (r : Holding) : Nat := (w.held.getD 0).count r

/-- No task and no thread group has the number. -/
def pidFree (w : World) (pid : Nat) : Bool := w.tasks.all fun t => t.pid != pid && t.tgid != pid

/-- What a task sees of the sharing; `thread_group_empty` is that it is the leader, and the only
    thread. -/
def view (w : World) (current : Task) : View where
  fsUsers := w.refs (.fs current.fs)
  filesCount := current.files.elim 0 fun i => w.refs (.files i)
  sighandCount := w.refs (.sighand current.sighand)
  threadGroupEmpty := current.pid == current.tgid &&
    w.tasks.all fun t => t.signal != current.signal || t.pid == current.pid

/-- What `ksys_unshare` does in the world, called by `current`. -/
def unshareOf (w : World) (a : UnshareAnswers) (flags : UInt64) (current : Task) :
    Traced Holding (Int × Task) :=
  ksysUnshare a (w.view current) flags current w.next

/-- The system after an event. -/
def step (x : ExitCode) (w : World) : Event → World
  | .clone pid a args =>
    match find Task.pid pid w.tasks with
    | none => w
    | some current =>
      if w.pidFree a.pid = false then w
      else
        let made := kernelClone a args current w.next w.tasks.length
        { tasks := made.value.toOption.toList ++ w.tasks
          held := w.held.bind (exec made.ops)
          next := w.next + 1 }
  | .unshare pid a flags =>
    match find Task.pid pid w.tasks with
    | none => w
    | some current =>
      let called := w.unshareOf a flags current
      { tasks := write Task.pid pid (fun _ => called.value.2) w.tasks
        held := w.held.bind (exec called.ops)
        next := w.next + 1 }
  | .exit pid =>
    match find Task.pid pid w.tasks with
    | none => w
    | some current =>
      { tasks := erase Task.pid pid w.tasks
        held := w.held.bind (exec (x.doExit current).ops)
        next := w.next }

/-- The first task. -/
def init : Task where
  addr := 0
  pid := 1
  tgid := 1
  mm := some 0
  files := some 0
  fs := 0
  sighand := 0
  signal := 0
  kthread := false
  workerPrivate := false
  ioContext := false
  ns := ⟨0, 0, 0, 0⟩

def boot : World where
  tasks := [init]
  held := some (onTop init.holds 0)
  next := 1

/-! ## What is held -/

/-- What all tasks hold. -/
def holdings (ts : List Task) : List Holding := ts.flatMap Task.holds

/-- What is held is what the tasks hold, and `lost` sets of namespaces. -/
def Accounted (w : World) (lost : Nat) : Prop :=
  w.held = some (onTop (holdings w.tasks) (Multiset.replicate lost .newNsproxy))

/-- The number of sets of namespaces that an event loses. -/
def lostBy (w : World) : Event → Nat
  | .unshare pid a flags =>
    match find Task.pid pid w.tasks with
    | none => 0
    | some current =>
      if Loses a (w.view current) (impliedFlags flags) current w.next then 1 else 0
  | _ => 0

theorem onTop_holdings_perm {ts ts' : List Task} (hperm : ts.Perm ts') (h : Multiset Holding) :
    onTop (holdings ts) h = onTop (holdings ts') h :=
  onTop_perm (hperm.flatMap_right Task.holds) h

theorem onTop_holdings_cons (t : Task) (ts : List Task) (h : Multiset Holding) :
    onTop (holdings (t :: ts)) h = onTop t.holds (onTop (holdings ts) h) := by
  rw [holdings, List.flatMap_cons]
  exact onTop_append _ _ _

/-- One more of the same. -/
theorem onTop_replicate (c : Prop) [Decidable c] (r : Holding) (n : Nat) :
    onTop (only c r) (Multiset.replicate n r) = Multiset.replicate (n + if c then 1 else 0) r := by
  by_cases hc : c
  · rw [if_pos hc, only, decide_eq_true hc]
    exact (Multiset.replicate_succ r n).symm
  · rw [if_neg hc, only, decide_eq_false hc]
    rfl

/-- A task holds everything once. -/
theorem nodup_holds (t : Task) : t.holds.Nodup := by
  rw [Task.holds, Task.late, Task.early, Task.mmHeld, Task.filesHeld]
  rcases t.mm with _ | _ <;> rcases t.files with _ | _ <;> rcases t.ioContext with _ | _ <;>
    rcases t.kthread && t.workerPrivate with _ | _ <;> simp [only]

/-- The references of a task are its pointers. -/
theorem mem_holds (t : Task) (i : Nat) :
    (.mm i ∈ t.holds ↔ t.mm = some i) ∧ (.files i ∈ t.holds ↔ t.files = some i) ∧
      (.fs i ∈ t.holds ↔ t.fs = i) ∧ (.sighand i ∈ t.holds ↔ t.sighand = i) ∧
      (.signal i ∈ t.holds ↔ t.signal = i) ∧ .newNsproxy ∉ t.holds := by
  rw [Task.holds, Task.late, Task.early, Task.mmHeld, Task.filesHeld]
  rcases t.ioContext with _ | _ <;> rcases t.kthread && t.workerPrivate with _ | _ <;>
    simp [only, eq_comm]

theorem count_holdings {r : Holding} (hr : r ≠ .newNsproxy) (ts : List Task) (lost : Nat) :
    (onTop (holdings ts) (Multiset.replicate lost .newNsproxy)).count r =
      ts.countP fun t => r ∈ t.holds := by
  induction ts with
  | nil =>
    have hcount : (Multiset.replicate lost Holding.newNsproxy).count r = 0 := by
      rw [Multiset.count_replicate, if_neg hr.symm]
    exact hcount
  | cons t ts ih =>
    rw [onTop_holdings_cons, onTop_eq_add, Multiset.count_add, ih, Multiset.coe_count,
      (nodup_holds t).count, List.countP_cons, add_comm]
    simp only [decide_eq_true_eq]

section

variable {x : ExitCode} {w : World} {e : Event} {current : Task} {pid lost : Nat}
  {ts : List Task} {r : Holding}

theorem Accounted.refs_eq (h : w.Accounted lost) (hr : r ≠ .newNsproxy) :
    w.refs r = w.tasks.countP fun t => r ∈ t.holds := by
  rw [Accounted] at h
  rw [refs, h, Option.getD_some, count_holdings hr]

theorem Accounted.refs_eq_countP (h : w.Accounted lost) (hr : r ≠ .newNsproxy)
    {p : Task → Prop} [DecidablePred p] (hp : ∀ t : Task, r ∈ t.holds ↔ p t) :
    w.refs r = w.tasks.countP (p ·) := by
  rw [h.refs_eq hr]
  exact List.countP_congr fun t _ => by simp [hp]

/-- What only one reference points to, no other task has. -/
theorem Accounted.not_mem_of_refs_le (h : w.Accounted lost) (hr : r ≠ .newNsproxy)
    (hperm : w.tasks.Perm (current :: ts)) (hmem : r ∈ current.holds) (hone : w.refs r ≤ 1) :
    ∀ t ∈ ts, r ∉ t.holds := by
  rw [h.refs_eq hr, hperm.countP_eq, List.countP_cons_of_pos (by simpa using hmem)] at hone
  have hzero : ts.countP (fun t => decide (r ∈ t.holds)) = 0 := by omega
  simpa using List.countP_eq_zero.1 hzero

/-! ## What a step does -/

theorem kernelClone_ok {a : Answers} {args : KernelCloneArgs} {addr nrThreads : Nat} {p : Task}
    (h : (kernelClone a args current addr nrThreads).value = .ok p) :
    p = child a args current addr ∧ checkFlags a args.flags current = 0 := by
  rw [kernelClone] at h
  split_ifs at h
  exact copyProcess_ok h

theorem triple_kernelClone (a : Answers) (args : KernelCloneArgs) (addr nrThreads : Nat)
    (h : Multiset Holding) :
    Triple h (kernelClone a args current addr nrThreads) (outcome h) :=
  triple_ite (fun _ => triple_pure rfl) fun _ => triple_copyProcess a args current addr _ h

/-- Tasks go, or one is made, or one has unshared something. -/
theorem step_cases (x : ExitCode) (w : World) (e : Event) :
    ((w.step x e).tasks.Sublist w.tasks ∧ w.next ≤ (w.step x e).next) ∨
      (∃ a args current, current ∈ w.tasks ∧ w.pidFree a.pid = true ∧
        checkFlags a args.flags current = 0 ∧
          (w.step x e).tasks = child a args current w.next :: w.tasks ∧
            (w.step x e).next = w.next + 1) ∨
      ∃ pid a flags current, find Task.pid pid w.tasks = some current ∧
        checkUnshareFlags a (w.view current) (impliedFlags flags) = 0 ∧
          (w.step x e).tasks = write Task.pid pid
            (fun _ => unshared (w.view current) (impliedFlags flags) current w.next) w.tasks ∧
            (w.step x e).next = w.next + 1 := by
  rcases e with ⟨pid, a, args⟩ | ⟨pid, a, flags⟩ | pid
  · rw [step]
    rcases hfind : find Task.pid pid w.tasks with _ | current
    · exact .inl ⟨.refl _, le_refl _⟩
    dsimp only
    split_ifs with hfree
    · exact .inl ⟨.refl _, le_refl _⟩
    rcases hvalue : (kernelClone a args current w.next w.tasks.length).value with _ | p
    · exact .inl ⟨.refl _, Nat.le_succ _⟩
    · obtain ⟨rfl, hcheck⟩ := kernelClone_ok hvalue
      exact .inr (.inl ⟨a, args, current, (find_some hfind).1,
        Bool.eq_true_of_not_eq_false hfree, hcheck, rfl, rfl⟩)
  · rw [step]
    rcases hfind : find Task.pid pid w.tasks with _ | current
    · exact .inl ⟨.refl _, le_refl _⟩
    dsimp only
    rcases unshareWith_value a (w.view current) (impliedFlags flags) current w.next with
      ⟨_, hvalue⟩ | ⟨hvalue, hcheck⟩
    · refine .inl ⟨?_, Nat.le_succ _⟩
      rw [unshareOf, ksysUnshare, hvalue, write_self hfind]
    · refine .inr (.inr ⟨pid, a, flags, current, hfind, hcheck, ?_, rfl⟩)
      rw [unshareOf, ksysUnshare, hvalue]
  · rw [step]
    rcases find Task.pid pid w.tasks with _ | current
    · exact .inl ⟨.refl _, le_refl _⟩
    · exact .inl ⟨erase_sublist, le_refl _⟩

/-- Nothing is given back that is not held, and nothing is forgotten but namespaces. -/
theorem Accounted.step (h : w.Accounted lost) (x : ExitCode) (e : Event) :
    (w.step x e).Accounted (lost + w.lostBy e) := by
  rw [Accounted] at h
  rcases e with ⟨pid, a, args⟩ | ⟨pid, a, flags⟩ | pid
  · rw [World.step]
    rcases find Task.pid pid w.tasks with _ | current
    · exact h
    dsimp only
    split_ifs with hfree
    · exact h
    rw [Accounted, h, Option.bind_some]
    refine (triple_kernelClone a args _ _ _).trans (congrArg some ?_)
    rcases (kernelClone a args current w.next w.tasks.length).value with _ | p
    · rfl
    · exact (onTop_holdings_cons _ _ _).symm
  · rw [World.step, lostBy]
    rcases hfind : find Task.pid pid w.tasks with _ | current
    · exact h
    dsimp only
    rw [Accounted, h, Option.bind_some, onTop_holdings_perm (perm_erase hfind),
      onTop_holdings_cons]
    refine triple_unshareWith.trans (congrArg some ?_)
    rw [onTop_holdings_perm (perm_write hfind), onTop_holdings_cons, ← onTop_replicate]
    exact (onTop_comm _ _ _).trans (congrArg (onTop _) (onTop_comm _ _ _))
  · rw [World.step]
    rcases hfind : find Task.pid pid w.tasks with _ | current
    · exact h
    dsimp only
    rw [Accounted, h, Option.bind_some, onTop_holdings_perm (perm_erase hfind),
      onTop_holdings_cons]
    exact x.doExit_gives_back _ _

/-! ## Who shares what -/

/-- Sharing one thing means sharing another. -/
structure Coherent (ts : List Task) : Prop where
  tgid_signal : Determines Task.tgid Task.signal ts
  signal_tgid : Determines Task.signal Task.tgid ts
  signal_sighand : Determines Task.signal Task.sighand ts
  sighand_mm : Determines Task.sighand Task.mm ts
  signal_user : Determines Task.signal (·.ns.user) ts
  signal_pid : Determines Task.signal (·.ns.pid) ts
  fs_mnt : Determines Task.fs (·.ns.mnt) ts
  fs_user : Determines Task.fs (·.ns.user) ts

/-- The addresses a task points to have been used. -/
structure Below (next : Nat) (t : Task) : Prop where
  files : ∀ i, t.files = some i → i < next
  fs : t.fs < next
  sighand : t.sighand < next
  signal : t.signal < next

/-- What holds in every state of the system. -/
structure Inv (w : World) : Prop where
  distinct : Distinct Task.pid w.tasks
  accounted : ∃ lost, w.Accounted lost
  below : ∀ t ∈ w.tasks, Below w.next t
  coherent : Coherent w.tasks

theorem Coherent.of_subset {ts' : List Task} (h : Coherent ts) (hsub : ts' ⊆ ts) :
    Coherent ts' where
  tgid_signal := h.tgid_signal.of_subset hsub
  signal_tgid := h.signal_tgid.of_subset hsub
  signal_sighand := h.signal_sighand.of_subset hsub
  sighand_mm := h.sighand_mm.of_subset hsub
  signal_user := h.signal_user.of_subset hsub
  signal_pid := h.signal_pid.of_subset hsub
  fs_mnt := h.fs_mnt.of_subset hsub
  fs_user := h.fs_user.of_subset hsub

theorem Below.mono {n n' : Nat} {t : Task} (h : Below n t) (hn : n ≤ n') : Below n' t where
  files i hi := (h.files i hi).trans_le hn
  fs := h.fs.trans_le hn
  sighand := h.sighand.trans_le hn
  signal := h.signal.trans_le hn

/-- What `copy_process` requires of its flags, as far as sharing is concerned. -/
theorem checkFlags_eq_zero {a : Answers} {flags : UInt64}
    (h : checkFlags a flags current = 0) :
    (sets flags CLONE_FS = true →
        sets flags CLONE_NEWNS = false ∧ sets flags CLONE_NEWUSER = false) ∧
      (sets flags CLONE_THREAD = true → sets flags CLONE_SIGHAND = true ∧
        sets flags CLONE_NEWUSER = false ∧ sets flags CLONE_NEWPID = false ∧
          current.ns.pid = current.ns.pidForChildren) ∧
      (sets flags CLONE_SIGHAND = true → sets flags CLONE_VM = true) := by
  have hns : IsBit CLONE_NEWNS := ⟨17, by decide, by decide⟩
  have huser : IsBit CLONE_NEWUSER := ⟨28, by decide, by decide⟩
  have hfs : IsBit CLONE_FS := ⟨9, by decide, by decide⟩
  rw [checkFlags] at h
  simp only [hns.and_or_eq_iff hfs, huser.and_or_eq_iff hfs, sets_or] at h
  split_ifs at h with h₁ h₂ h₃ h₄ h₅ h₆
  · cases h
  · cases h
  · cases h
  · cases h
  · cases h
  · cases h
  · cases h
  · refine ⟨fun hflag => ?_, fun hflag => ?_, fun hflag => ?_⟩
    · simpa [hflag] using And.intro h₁ h₂
    · simpa [hflag, and_assoc] using And.intro h₃ h₆
    · simpa [hflag] using h₄

/-- A new task shares two things with its creator, or one of them is new. -/
theorem determines_child {γ δ : Type} {part : Task → γ} {other : Task → δ} {p : Task}
    {flags flag : UInt64} (h : Determines part other w.tasks) (hmem : current ∈ w.tasks)
    (hshared : sets flags flag = true → part p = part current ∧ other p = other current)
    (hnew : sets flags flag = false → ∀ c ∈ w.tasks, part p ≠ part c) :
    Determines part other (p :: w.tasks) := by
  have hsub : current :: w.tasks ⊆ w.tasks := List.cons_subset.2 ⟨hmem, List.Subset.refl _⟩
  refine (h.of_subset hsub).replace ?_
  rcases hflag : sets flags flag with _ | _
  · exact .inr (hnew hflag)
  · exact .inl (hshared hflag)

theorem Coherent.clone {a : Answers} {args : KernelCloneArgs} (h : Inv w)
    (hmem : current ∈ w.tasks) (hfree : w.pidFree a.pid = true)
    (hcheck : checkFlags a args.flags current = 0) :
    Coherent (child a args current w.next :: w.tasks) := by
  obtain ⟨hfs, hthread, hsighand⟩ := checkFlags_eq_zero hcheck
  -- Without the flags, the keys are new.
  have htgid (hflag : sets args.flags CLONE_THREAD = false) (c : Task) (hc : c ∈ w.tasks) :
      (child a args current w.next).tgid ≠ c.tgid := by
    have hne := List.all_eq_true.1 hfree c hc
    rw [Bool.and_eq_true, bne_iff_ne, bne_iff_ne] at hne
    rw [child, hflag]
    exact hne.2.symm
  have hsignal (hflag : sets args.flags CLONE_THREAD = false) (c : Task) (hc : c ∈ w.tasks) :
      (child a args current w.next).signal ≠ c.signal := by
    rw [child, hflag]
    exact (h.below c hc).signal.ne'
  have hhandlers (hflag : sets args.flags CLONE_SIGHAND = false) (c : Task) (hc : c ∈ w.tasks) :
      (child a args current w.next).sighand ≠ c.sighand := by
    rw [child, hflag]
    exact (h.below c hc).sighand.ne'
  have hroot (hflag : sets args.flags CLONE_FS = false) (c : Task) (hc : c ∈ w.tasks) :
      (child a args current w.next).fs ≠ c.fs := by
    rw [child, hflag]
    exact (h.below c hc).fs.ne'
  refine ⟨determines_child h.coherent.tgid_signal hmem (fun hflag => ?_) htgid,
    determines_child h.coherent.signal_tgid hmem (fun hflag => ?_) hsignal,
    determines_child h.coherent.signal_sighand hmem (fun hflag => ?_) hsignal,
    determines_child h.coherent.sighand_mm hmem (fun hflag => ?_) hhandlers,
    determines_child h.coherent.signal_user hmem (fun hflag => ?_) hsignal,
    determines_child h.coherent.signal_pid hmem (fun hflag => ?_) hsignal,
    determines_child h.coherent.fs_mnt hmem (fun hflag => ?_) hroot,
    determines_child h.coherent.fs_user hmem (fun hflag => ?_) hroot⟩
  · exact ⟨if_pos hflag, if_pos hflag⟩
  · exact ⟨if_pos hflag, if_pos hflag⟩
  · exact ⟨if_pos hflag, if_pos (hthread hflag).1⟩
  · exact ⟨if_pos hflag, if_pos (hsighand hflag)⟩
  · rw [child, newNs, (hthread hflag).2.1]
    exact ⟨if_pos hflag, rfl⟩
  · rw [child, newNs, (hthread hflag).2.2.1]
    exact ⟨if_pos hflag, (hthread hflag).2.2.2.symm⟩
  · rw [child, newNs, (hfs hflag).1]
    exact ⟨if_pos hflag, rfl⟩
  · rw [child, newNs, (hfs hflag).2]
    exact ⟨if_pos hflag, rfl⟩

theorem below_child {a : Answers} {args : KernelCloneArgs} (h : Below w.next current) :
    Below (w.next + 1) (child a args current w.next) := by
  have hbelow := h.mono (Nat.le_succ w.next)
  have hite {c : Bool} {i : Nat} (hi : i < w.next + 1) :
      (if c then i else w.next) < w.next + 1 := by
    split_ifs
    exacts [hi, Nat.lt_succ_self _]
  refine ⟨fun i hi => ?_, hite hbelow.fs, hite hbelow.sighand, hite hbelow.signal⟩
  rw [child] at hi
  dsimp only at hi
  split_ifs at hi
  · exact hbelow.files i hi
  · exact hbelow.files i hi
  · cases hi
    exact Nat.lt_succ_self _

theorem Inv.clone {a : Answers} (h : Inv w) (args : KernelCloneArgs) (hmem : current ∈ w.tasks)
    (hfree : w.pidFree a.pid = true) :
    Distinct Task.pid (child a args current w.next :: w.tasks) ∧
      ∀ t ∈ child a args current w.next :: w.tasks, Below (w.next + 1) t := by
  refine ⟨distinct_cons.2 ⟨fun b hb => ?_, h.distinct⟩, List.forall_mem_cons.2 ⟨?_, fun t ht => ?_⟩⟩
  · have hne := List.all_eq_true.1 hfree b hb
    rw [Bool.and_eq_true, bne_iff_ne] at hne
    exact hne.1
  · exact below_child (h.below current hmem)
  · exact (h.below t ht).mono (Nat.le_succ _)

/-! ## Alone -/

/-- The task `t` shares nothing of what the flags name with `others`. -/
structure Alone (flags : UInt64) (t : Task) (others : List Task) : Prop where
  fs : sets flags CLONE_FS = true → ∀ c ∈ others, t.fs ≠ c.fs
  files : sets flags CLONE_FILES = true → ∀ i, t.files = some i → ∀ c ∈ others, c.files ≠ some i
  sighand : sets flags CLONE_SIGHAND = true → ∀ c ∈ others, t.sighand ≠ c.sighand
  signal : sets flags CLONE_THREAD = true → ∀ c ∈ others, t.signal ≠ c.signal

/-- A call that succeeds leaves the caller alone with what is not really unshared, with what is
    new, and with what it had for itself before. -/
theorem alone_unshared {a : UnshareAnswers} {flags : UInt64} (h : Inv w)
    (hfind : find Task.pid pid w.tasks = some current)
    (hcheck : checkUnshareFlags a (w.view current) flags = 0) :
    Alone flags (unshared (w.view current) flags current w.next) (erase Task.pid pid w.tasks) := by
  obtain ⟨hmem, hpid⟩ := find_some hfind
  obtain ⟨hthread, hsighand⟩ := checkUnshareFlags_eq_zero hcheck
  have hperm := perm_erase hfind
  obtain ⟨lost, haccounted⟩ := h.accounted
  constructor
  · intro hflag c hc
    rw [unshared]
    dsimp only
    split_ifs with husers
    · exact (h.below c (erase_sublist.subset hc)).fs.ne'
    · -- The caller was the only user.
      have hone : w.refs (.fs current.fs) = 1 := by simpa [hflag, view] using husers
      have hnot := haccounted.not_mem_of_refs_le (by simp) hperm
        ((mem_holds current _).2.2.1.2 rfl) hone.le c hc
      exact fun heq => hnot ((mem_holds c _).2.2.1.2 heq.symm)
  · intro hflag i hi c hc
    rw [unshared] at hi
    dsimp only at hi
    split_ifs at hi with hcount
    · cases hi
      exact fun hsome => absurd ((h.below c (erase_sublist.subset hc)).files _ hsome) (lt_irrefl _)
    · have hone : w.refs (.files i) ≤ 1 := by simpa [hflag, view, hi] using hcount
      have hnot := haccounted.not_mem_of_refs_le (by simp) hperm
        ((mem_holds current _).2.1.2 hi) hone c hc
      exact fun heq => hnot ((mem_holds c _).2.1.2 heq)
  · intro hflag c hc
    have hnot := haccounted.not_mem_of_refs_le (by simp) hperm
      ((mem_holds current _).2.2.2.1.2 rfl) (hsighand hflag) c hc
    exact fun heq => hnot ((mem_holds c _).2.2.2.1.2 heq.symm)
  · intro hflag c hc
    have hempty := hthread hflag
    rw [view, Bool.and_eq_true, List.all_eq_true] at hempty
    have hother := hempty.2 c (erase_sublist.subset hc)
    have hne : c.pid ≠ current.pid := hpid ▸ (h.distinct.mem_erase_iff.1 hc).2
    rw [Bool.or_eq_true, bne_iff_ne, beq_iff_eq] at hother
    exact (hother.resolve_right hne).symm

/-- Who has new namespaces has an `fs_struct` and a thread group for itself. -/
theorem Coherent.unshare {a : UnshareAnswers} {flags : UInt64} (h : Inv w)
    (hfind : find Task.pid pid w.tasks = some current)
    (hcheck : checkUnshareFlags a (w.view current) (impliedFlags flags) = 0) :
    Coherent (unshared (w.view current) (impliedFlags flags) current w.next ::
      erase Task.pid pid w.tasks) := by
  have halone := alone_unshared h hfind hcheck
  have hc := h.coherent.of_subset (perm_erase hfind).symm.subset
  refine ⟨hc.tgid_signal.replace (.inl ⟨rfl, rfl⟩), hc.signal_tgid.replace (.inl ⟨rfl, rfl⟩),
    hc.signal_sighand.replace (.inl ⟨rfl, rfl⟩), hc.sighand_mm.replace (.inl ⟨rfl, rfl⟩),
    hc.signal_user.replace ?_, hc.signal_pid.replace (.inl ⟨rfl, rfl⟩),
    hc.fs_mnt.replace ?_, hc.fs_user.replace ?_⟩
  · rcases huser : sets (impliedFlags flags) CLONE_NEWUSER with _ | _
    · rw [unshared, huser]
      exact .inl ⟨rfl, rfl⟩
    · exact .inr (halone.signal (impliedFlags_thread (.inl huser)))
  · rcases hfs : sets (impliedFlags flags) CLONE_FS with _ | _
    · have hns : sets (impliedFlags flags) CLONE_NEWNS = false :=
        Bool.eq_false_of_not_eq_true fun hns => by simp [impliedFlags_fs (.inr hns)] at hfs
      rw [unshared, hfs, hns]
      exact .inl ⟨rfl, rfl⟩
    · exact .inr (halone.fs hfs)
  · rcases hfs : sets (impliedFlags flags) CLONE_FS with _ | _
    · have huser : sets (impliedFlags flags) CLONE_NEWUSER = false :=
        Bool.eq_false_of_not_eq_true fun huser => by simp [impliedFlags_fs (.inl huser)] at hfs
      rw [unshared, hfs, huser]
      exact .inl ⟨rfl, rfl⟩
    · exact .inr (halone.fs hfs)

theorem below_unshared {flags : UInt64} {v : View} (h : Below w.next current) :
    Below (w.next + 1) (unshared v flags current w.next) := by
  have hbelow := h.mono (Nat.le_succ w.next)
  refine ⟨fun i hi => ?_, ?_, hbelow.sighand, hbelow.signal⟩
  · rw [unshared] at hi
    dsimp only at hi
    split_ifs at hi
    · cases hi
      exact Nat.lt_succ_self _
    · exact hbelow.files i hi
  · rw [unshared]
    dsimp only
    split_ifs
    · exact Nat.lt_succ_self _
    · exact hbelow.fs

/-! ## Runs -/

theorem accounted_boot : boot.Accounted 0 := congrArg some (onTop_holdings_cons init [] 0).symm

theorem inv_boot : Inv boot where
  distinct := distinct_cons.2 ⟨fun _ hb => absurd hb List.not_mem_nil, distinct_nil⟩
  accounted := ⟨0, accounted_boot⟩
  below := by
    intro t ht
    rw [List.mem_singleton.1 ht]
    exact ⟨fun i hi => by cases hi; exact Nat.zero_lt_one, Nat.zero_lt_one, Nat.zero_lt_one,
      Nat.zero_lt_one⟩
  coherent := by
    constructor <;>
    · refine determines_cons.2 ⟨fun _ hb => absurd hb List.not_mem_nil, ?_⟩
      exact fun _ ha => absurd ha List.not_mem_nil

theorem Inv.step (h : Inv w) (x : ExitCode) (e : Event) : Inv (w.step x e) := by
  have haccounted : ∃ lost, (w.step x e).Accounted lost :=
    h.accounted.elim fun _ haccounted => ⟨_, haccounted.step x e⟩
  obtain ⟨hsub, hnext⟩ | ⟨a, args, current, hmem, hfree, hcheck, htasks, hnext⟩ |
    ⟨pid, a, flags, current, hfind, hcheck, htasks, hnext⟩ := step_cases x w e
  · exact ⟨h.distinct.sublist (hsub.map _), haccounted,
      fun t ht => (h.below t (hsub.subset ht)).mono hnext, h.coherent.of_subset hsub.subset⟩
  · obtain ⟨hdistinct, hbelow⟩ := h.clone args hmem hfree
    refine ⟨?_, haccounted, ?_, ?_⟩
    · rwa [htasks]
    · rwa [htasks, hnext]
    · rw [htasks]
      exact Coherent.clone h hmem hfree hcheck
  · obtain ⟨hmem, hpid⟩ := find_some hfind
    have hperm : (w.step x e).tasks.Perm (unshared (w.view current) (impliedFlags flags) current
        w.next :: erase Task.pid pid w.tasks) := htasks ▸ perm_write hfind
    refine ⟨?_, haccounted, fun t ht => ?_, ?_⟩
    · rw [Distinct, (hperm.map _).nodup_iff]
      exact ((perm_erase hfind).map Task.pid).nodup_iff.1 h.distinct
    · rw [hnext]
      rcases List.mem_cons.1 (hperm.subset ht) with rfl | hold
      · exact below_unshared (h.below current hmem)
      · exact (h.below t (erase_sublist.subset hold)).mono (Nat.le_succ _)
    · exact (Coherent.unshare h hfind hcheck).of_subset hperm.subset

theorem inv_run (x : ExitCode) (es : List Event) : Inv (run (step x) boot es) :=
  (always_of_step (R := fun _ => True) inv_boot (fun _ _ => trivial)
    fun _ e _ h => h.step x e).run

/-- In every run, nothing is given back that is not held, and every count of references is the
    number of tasks that point to the structure. -/
theorem counts_exact (x : ExitCode) (es : List Event) (i : Nat) :
    (run (step x) boot es).held.isSome ∧
      (run (step x) boot es).refs (.mm i) = (run (step x) boot es).tasks.countP (·.mm = some i) ∧
      (run (step x) boot es).refs (.files i) =
        (run (step x) boot es).tasks.countP (·.files = some i) ∧
      (run (step x) boot es).refs (.fs i) = (run (step x) boot es).tasks.countP (·.fs = i) ∧
      (run (step x) boot es).refs (.sighand i) =
        (run (step x) boot es).tasks.countP (·.sighand = i) ∧
      (run (step x) boot es).refs (.signal i) =
        (run (step x) boot es).tasks.countP (·.signal = i) := by
  obtain ⟨lost, haccounted⟩ := (inv_run x es).accounted
  refine ⟨?_, haccounted.refs_eq_countP (by simp) fun t => (mem_holds t i).1,
    haccounted.refs_eq_countP (by simp) fun t => (mem_holds t i).2.1,
    haccounted.refs_eq_countP (by simp) fun t => (mem_holds t i).2.2.1,
    haccounted.refs_eq_countP (by simp) fun t => (mem_holds t i).2.2.2.1,
    haccounted.refs_eq_countP (by simp) fun t => (mem_holds t i).2.2.2.2.1⟩
  rw [Accounted] at haccounted
  rw [haccounted]
  rfl

/-- In every run, the sets of namespaces that no task will ever put are those that failing calls of
    `ksys_unshare` have lost, one each. -/
theorem lost_exact (x : ExitCode) (es : List Event) :
    (run (step x) boot es).refs .newNsproxy = total (step x) lostBy boot es := by
  have haccounted : (run (step x) boot es).Accounted (0 + total (step x) lostBy boot es) :=
    run_total (fun _ _ e h => Accounted.step h x e) accounted_boot
  have hnone : (holdings (run (step x) boot es).tasks).count .newNsproxy = 0 := by
    rw [List.count_eq_zero, holdings, List.mem_flatMap]
    rintro ⟨t, _, ht⟩
    exact (mem_holds t 0).2.2.2.2.2 ht
  rw [Accounted] at haccounted
  rw [refs, haccounted, Option.getD_some, onTop_eq_add, Multiset.count_add, Multiset.coe_count,
    hnone, Multiset.count_replicate_self, zero_add, zero_add]

/-- In every run, threads and tasks with a common `fs_struct` share what they should. -/
theorem sharing_coherent (x : ExitCode) (es : List Event) : Coherent (run (step x) boot es).tasks :=
  (inv_run x es).coherent

/-- In every run, a task that has unshared something has it for itself. -/
theorem unshare_exclusive (x : ExitCode) (es : List Event) (pid : Nat) (a : UnshareAnswers)
    (flags : UInt64) (current : Task)
    (hfind : find Task.pid pid (run (step x) boot es).tasks = some current)
    (hret : ((run (step x) boot es).unshareOf a flags current).value.1 = 0) :
    ∃ after others,
      (run (step x) boot (es ++ [.unshare pid a flags])).tasks.Perm (after :: others) ∧
      after.pid = pid ∧ Alone (impliedFlags flags) after others := by
  obtain ⟨hmem, hpid⟩ := find_some hfind
  rcases unshareWith_value a ((run (step x) boot es).view current) (impliedFlags flags) current
      (run (step x) boot es).next with ⟨herror, _⟩ | ⟨hvalue, hcheck⟩
  · exact absurd hret herror
  · refine ⟨unshared ((run (step x) boot es).view current) (impliedFlags flags) current
      (run (step x) boot es).next, _, ?_, hpid, alone_unshared (inv_run x es) hfind hcheck⟩
    rw [run_concat, step, hfind]
    dsimp only
    rw [unshareOf, ksysUnshare, hvalue]
    exact perm_write hfind

/-- A system in which every call goes well; the new pid is `pid`. -/
def quiet (pid : Nat) : Answers where
  unkillable := false
  taskSigpending := false
  dupTaskStruct := true
  copyCreds := 0
  isRlimitOverlimit := false
  initUser := true
  capable := true
  maxThreads := 100
  setKthreadStruct := true
  mpolDup := 0
  schedFork := 0
  perfEventInitTask := 0
  auditAlloc := 0
  securityTaskAlloc := 0
  copySemundo := 0
  dupFd := 0
  inExec := false
  copyFsStruct := true
  allocSighand := true
  allocSignal := true
  dupMm := true
  copyNamespaces := 0
  copyIo := 0
  ioContext := false
  copyThread := 0
  allocPid := 0
  pid := pid
  pidfdPrepare := 0
  putUser := 0
  cgroupCanFork := 0
  pidnsAdding := true
  fatalSignalPending := false

/-- The first task makes another one that shares its files and its `fs_struct`. -/
def shared : List Event := [.clone 1 (quiet 2) ⟨CLONE_FS ||| CLONE_FILES, 0, 0, false, false⟩]

/-- All is given back in one go. -/
def givesBack : ExitCode where
  doExit t := releaseAll t.holds
  doExit_gives_back t h := triple_releaseAll t.holds h

theorem unshare_exclusive_shared :
    ∃ after others, (run (step givesBack) boot (shared ++ [.unshare 2 ⟨true, true, 0, 0, 0, 0⟩
          (CLONE_FS ||| CLONE_FILES)])).tasks.Perm (after :: others) ∧
      after.pid = 2 ∧ Alone (impliedFlags (CLONE_FS ||| CLONE_FILES)) after others :=
  unshare_exclusive givesBack shared 2 ⟨true, true, 0, 0, 0, 0⟩ (CLONE_FS ||| CLONE_FILES)
    (child (quiet 2) ⟨CLONE_FS ||| CLONE_FILES, 0, 0, false, false⟩ init 1) (by decide)
    (by decide)

end

end World

end Clone

end LuisKernel
