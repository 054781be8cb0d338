import Mathlib.Tactic.Abel
import LuisKernel.Basic
import LuisKernel.Bits
import LuisKernel.Ledger

/-!
# The creation of a task

`copy_process` of `kernel/fork.c`, with all its failures. It takes one thing after another for
the new task, from its own memory to the pid; when a step fails, it jumps to the label that
gives back what was taken before, from the last thing to the first (`bad_fork_cancel_cgroup` to
`fork_out`). The code of a label looks at the pointers of the half-built task, and falls through
to the next label (`Label.gives`, `Label.goto`).

A thing that tasks can share is a reference, told apart by the address of the object:
`CLONE_FILES`, for instance, takes one more reference to the files of the caller, and without it
a new table is made, whose address is that of the new task. What the rest of the kernel answers
is in the `Answers` of the call; no assumption is made about them.

* A creation that fails has given back all it took, and one that succeeds holds what the new
  task holds, and nothing else (`copyProcess_gives_back`).

The kernel is configured with NUMA policies. The idle tasks of the boot, which bring their own
pid, are left out.
-/

namespace LuisKernel

namespace Clone

open Ledger Bits

def EAGAIN : Int := 11
def ERESTARTNOINTR : Int := 513
def EINTR : Int := 4

/-! ## Flags -/

def CLONE_NEWTIME : UInt64 := 0x80
def CLONE_VM : UInt64 := 0x100
def CLONE_FS : UInt64 := 0x200
def CLONE_FILES : UInt64 := 0x400
def CLONE_SIGHAND : UInt64 := 0x800
def CLONE_PIDFD : UInt64 := 0x1000
def CLONE_PARENT : UInt64 := 0x8000
def CLONE_THREAD : UInt64 := 0x10000
def CLONE_NEWNS : UInt64 := 0x20000
def CLONE_SYSVSEM : UInt64 := 0x40000
def CLONE_PARENT_SETTID : UInt64 := 0x100000
def CLONE_DETACHED : UInt64 := 0x400000
def CLONE_NEWCGROUP : UInt64 := 0x2000000
def CLONE_NEWUTS : UInt64 := 0x4000000
def CLONE_NEWIPC : UInt64 := 0x8000000
def CLONE_NEWUSER : UInt64 := 0x10000000
def CLONE_NEWPID : UInt64 := 0x20000000
def CLONE_NEWNET : UInt64 := 0x40000000

/-! ## Tasks -/

/-- The namespaces of a task. -/
structure Namespaces where
  /-- The mount namespace of `nsproxy`. -/
  mnt : Nat
  /-- The user namespace of the credentials. -/
  user : Nat
  /-- `task_active_pid_ns`. -/
  pid : Nat
  /-- `pid_ns_for_children` of `nsproxy`. -/
  pidForChildren : Nat
  deriving DecidableEq, Repr

/-- `struct task_struct`: the task, and what it points to. -/
structure Task where
  /-- The address of the structure. -/
  addr : Nat
  pid : Nat
  tgid : Nat
  mm : Option Nat
  files : Option Nat
  fs : Nat
  sighand : Nat
  signal : Nat
  /-- `PF_KTHREAD`. -/
  kthread : Bool
  /-- Whether `worker_private` points to a `struct kthread`. -/
  workerPrivate : Bool
  /-- Whether `io_context` is set. -/
  ioContext : Bool
  ns : Namespaces
  deriving DecidableEq, Repr

/-- What a task has for itself, and what its creation needs for a while. -/
inductive Piece
  | task
  | stack
  | kthread
  | creds
  /-- The task counted against the limit of its user. -/
  | nproc
  | delayacct
  | mempolicy
  | perf
  | audit
  | security
  | semundo
  | namespaces
  | io
  | thread
  | pid
  /-- The node of the list `multiprocess` in which signals are collected. -/
  | delayed
  /-- The file and the descriptor of `CLONE_PIDFD`. -/
  | pidfile
  | pidfd
  /-- What `cgroup_can_fork` pins. -/
  | cgroup
  | tasklistLock
  /-- The reference to the cookie of core scheduling. -/
  | cookie
  | siglock
  deriving DecidableEq

/-- What is taken and given back: references to what tasks share, and the pieces of a task. -/
inductive Holding
  | mm (addr : Nat)
  | files (addr : Nat)
  | fs (addr : Nat)
  | sighand (addr : Nat)
  | signal (addr : Nat)
  | piece (what : Piece) (task : Nat)
  /-- Credentials, or a set of namespaces, that no task has yet. -/
  | newCred
  | newNsproxy
  deriving DecidableEq

/-- The references to an `mm` and to files, of a task that has them. -/
def Task.mmHeld (p : Task) : List Holding := p.mm.toList.map .mm

def Task.filesHeld (p : Task) : List Holding := p.files.toList.map .files

/-- `struct kernel_clone_args`, as far as it decides what is taken. -/
structure KernelCloneArgs where
  flags : UInt64
  pidfd : UInt64
  parentTid : UInt64
  kthread : Bool
  noFiles : Bool
  deriving DecidableEq, Repr

/-- What the rest of the kernel answers to `copy_process`; an `Int` is a return value, zero for
    success. -/
structure Answers where
  /-- `SIGNAL_UNKILLABLE` in the flags of `current->signal`. -/
  unkillable : Bool
  taskSigpending : Bool
  /-- Whether `dup_task_struct` finds memory. -/
  dupTaskStruct : Bool
  copyCreds : Int
  /-- `is_rlimit_overlimit`, for `RLIMIT_NPROC`. -/
  isRlimitOverlimit : Bool
  /-- The user of the new task is `INIT_USER`. -/
  initUser : Bool
  capable : Bool
  maxThreads : Nat
  setKthreadStruct : Bool
  mpolDup : Int
  schedFork : Int
  perfEventInitTask : Int
  auditAlloc : Int
  securityTaskAlloc : Int
  copySemundo : Int
  dupFd : Int
  /-- `fs->in_exec`. -/
  inExec : Bool
  copyFsStruct : Bool
  allocSighand : Bool
  allocSignal : Bool
  dupMm : Bool
  copyNamespaces : Int
  copyIo : Int
  /-- Whether `copy_io` gives the task an `io_context`. -/
  ioContext : Bool
  copyThread : Int
  allocPid : Int
  /-- The number of the new pid. -/
  pid : Nat
  pidfdPrepare : Int
  putUser : Int
  cgroupCanFork : Int
  /-- `PIDNS_ADDING` is still set in the pid namespace. -/
  pidnsAdding : Bool
  fatalSignalPending : Bool

/-! ## The checks before anything is taken -/

/-- The combinations of flags that `copy_process` refuses. -/
def checkFlags (a : Answers) (flags : UInt64) (current : Task) : Int :=
  if flags &&& (CLONE_NEWNS ||| CLONE_FS) = CLONE_NEWNS ||| CLONE_FS then -EINVAL
  else if flags &&& (CLONE_NEWUSER ||| CLONE_FS) = CLONE_NEWUSER ||| CLONE_FS then -EINVAL
  else if sets flags CLONE_THREAD ∧ ¬sets flags CLONE_SIGHAND then -EINVAL
  else if sets flags CLONE_SIGHAND ∧ ¬sets flags CLONE_VM then -EINVAL
  else if sets flags CLONE_PARENT ∧ a.unkillable then -EINVAL
  else if sets flags CLONE_THREAD ∧ (sets flags (CLONE_NEWUSER ||| CLONE_NEWPID) ∨
      current.ns.pid ≠ current.ns.pidForChildren) then -EINVAL
  else if sets flags CLONE_PIDFD ∧ sets flags (CLONE_DETACHED ||| CLONE_THREAD) then -EINVAL
  else 0

/-! ## What is shared or copied

Each function returns its error number and the new task `tsk`, which started as a copy of
`current`. -/

/-- `copy_files`. -/
def copyFiles (a : Answers) (args : KernelCloneArgs) (current tsk : Task) :
    Traced Holding (Int × Task) :=
  match current.files with
  | none => pure (0, tsk)
  | some oldf =>
    if args.noFiles then pure (0, { tsk with files := none })
    else if sets args.flags CLONE_FILES then do
      acquire (.files oldf)
      return (0, tsk)
    else if a.dupFd ≠ 0 then pure (a.dupFd, tsk)
    else do
      acquire (.files tsk.addr)
      return (0, { tsk with files := some tsk.addr })

/-- `copy_fs`. -/
def copyFs (a : Answers) (flags : UInt64) (current tsk : Task) : Traced Holding (Int × Task) :=
  if sets flags CLONE_FS then
    if a.inExec then pure (-EAGAIN, tsk)
    else do
      acquire (.fs current.fs)
      return (0, tsk)
  else if a.copyFsStruct = false then pure (-ENOMEM, tsk)
  else do
    acquire (.fs tsk.addr)
    return (0, { tsk with fs := tsk.addr })

/-- `copy_sighand`. -/
def copySighand (a : Answers) (flags : UInt64) (current tsk : Task) :
    Traced Holding (Int × Task) :=
  if sets flags CLONE_SIGHAND then do
    acquire (.sighand current.sighand)
    return (0, tsk)
  else if a.allocSighand = false then pure (-ENOMEM, tsk)
  else do
    acquire (.sighand tsk.addr)
    return (0, { tsk with sighand := tsk.addr })

/-- `copy_signal`: a thread is counted only when it joins its group. -/
def copySignal (a : Answers) (flags : UInt64) (tsk : Task) : Traced Holding (Int × Task) :=
  if sets flags CLONE_THREAD then pure (0, tsk)
  else if a.allocSignal = false then pure (-ENOMEM, tsk)
  else do
    acquire (.signal tsk.addr)
    return (0, { tsk with signal := tsk.addr })

/-- `copy_mm`: a kernel thread has no `mm`. -/
def copyMm (a : Answers) (flags : UInt64) (current tsk : Task) : Traced Holding (Int × Task) :=
  match current.mm with
  | none => pure (0, { tsk with mm := none })
  | some oldmm =>
    if sets flags CLONE_VM then do
      acquire (.mm oldmm)
      return (0, { tsk with mm := some oldmm })
    else if a.dupMm = false then pure (-ENOMEM, { tsk with mm := none })
    else do
      acquire (.mm tsk.addr)
      return (0, { tsk with mm := some tsk.addr })

/-! ## The labels -/

/-- The labels at the end of `copy_process`, named by what their code gives back. -/
inductive Label
  | cancelCgroup
  | putPidfd
  | freePid
  | cleanupThread
  | cleanupIo
  | cleanupNamespaces
  | cleanupMm
  | cleanupSignal
  | cleanupSighand
  | cleanupFs
  | cleanupFiles
  | cleanupSemundo
  | cleanupSecurity
  | cleanupAudit
  | cleanupPerf
  | cleanupPolicy
  | cleanupDelayacct
  | cleanupCount
  | free
  | out
  deriving DecidableEq

/-- The labels in the order of the source. -/
def Label.all : List Label :=
  [.cancelCgroup, .putPidfd, .freePid, .cleanupThread, .cleanupIo, .cleanupNamespaces,
    .cleanupMm, .cleanupSignal, .cleanupSighand, .cleanupFs, .cleanupFiles, .cleanupSemundo,
    .cleanupSecurity, .cleanupAudit, .cleanupPerf, .cleanupPolicy, .cleanupDelayacct,
    .cleanupCount, .free, .out]

/-- What the code of a label gives back, looking at the flags and the half-built task. -/
def Label.gives (flags : UInt64) (p : Task) : Label → List Holding
  | cancelCgroup =>
    [.piece .cookie p.addr, .piece .siglock p.addr, .piece .tasklistLock p.addr,
      .piece .cgroup p.addr]
  | putPidfd =>
    only (sets flags CLONE_PIDFD) (.piece .pidfile p.addr) ++
      only (sets flags CLONE_PIDFD) (.piece .pidfd p.addr)
  | freePid => [.piece .pid p.addr]
  | cleanupThread => [.piece .thread p.addr]
  | cleanupIo => only p.ioContext (.piece .io p.addr)
  | cleanupNamespaces => [.piece .namespaces p.addr]
  | cleanupMm => p.mmHeld
  | cleanupSignal => only (!sets flags CLONE_THREAD) (.signal p.signal)
  | cleanupSighand => [.sighand p.sighand]
  | cleanupFs => [.fs p.fs]
  | cleanupFiles => p.filesHeld
  | cleanupSemundo => [.piece .semundo p.addr]
  | cleanupSecurity => [.piece .security p.addr]
  | cleanupAudit => [.piece .audit p.addr]
  | cleanupPerf => [.piece .perf p.addr]
  | cleanupPolicy => [.piece .mempolicy p.addr]
  | cleanupDelayacct => [.piece .delayacct p.addr]
  | cleanupCount => [.piece .nproc p.addr, .piece .creds p.addr]
  -- `free_task` frees the `struct kthread` of a kernel thread, if there is one.
  | free =>
    .piece .stack p.addr ::
      (only (p.kthread && p.workerPrivate) (.piece .kthread p.addr) ++ [.piece .task p.addr])
  | out => only (!sets flags CLONE_THREAD) (.piece .delayed p.addr)

/-- The labels from `label` on: each falls through to the next. -/
def Label.onwards (label : Label) : List Label := Label.all.dropWhile (· != label)

/-- A jump to `label`: all that is given back from there on. -/
def Label.unwinds (label : Label) (flags : UInt64) (p : Task) : List Holding :=
  label.onwards.flatMap (Label.gives flags p)

/-- `goto`, and the return of the error number. -/
def Label.goto (label : Label) (flags : UInt64) (p : Task) (retval : Int) :
    Traced Holding (Except Int Task) := do
  releaseAll (label.unwinds flags p)
  return .error retval

/-- `retval = step; if (retval) goto label;`, and then the next step. -/
def orGoto (step : Traced Holding (Int × Task)) (label : Label) (flags : UInt64)
    (next : Task → Traced Holding (Except Int Task)) : Traced Holding (Except Int Task) := do
  let r ← step
  if r.1 ≠ 0 then label.goto flags r.2 r.1 else next r.2

/-! ## The steps

The body of `copy_process`, cut where the label changes; the first step is the last definition. -/

section

variable (a : Answers) (args : KernelCloneArgs) (current p : Task)

/-- The end: no step can fail any more. A thread takes its reference to the `signal_struct` of
    the group here; the descriptor goes to the table of the caller. -/
def forkPublish : Traced Holding (Except Int Task) := do
  acquireIf (sets args.flags CLONE_THREAD) (.signal current.signal)
  releaseIf (!sets args.flags CLONE_THREAD) (.piece .delayed p.addr)
  release (.piece .siglock p.addr)
  release (.piece .tasklistLock p.addr)
  releaseIf (sets args.flags CLONE_PIDFD) (.piece .pidfile p.addr)
  releaseIf (sets args.flags CLONE_PIDFD) (.piece .pidfd p.addr)
  release (.piece .cgroup p.addr)
  return .ok p

/-- From `cgroup_can_fork` to the last checks under the locks. -/
def forkLock : Traced Holding (Except Int Task) :=
  if a.cgroupCanFork ≠ 0 then Label.goto .putPidfd args.flags p a.cgroupCanFork
  else do
    acquire (.piece .cgroup p.addr)
    acquire (.piece .tasklistLock p.addr)
    acquire (.piece .cookie p.addr)
    acquire (.piece .siglock p.addr)
    if a.pidnsAdding = false then Label.goto .cancelCgroup args.flags p (-ENOMEM)
    else if a.fatalSignalPending then Label.goto .cancelCgroup args.flags p (-EINTR)
    else forkPublish args current p

/-- The descriptor of `CLONE_PIDFD`, then the numbers of the task. -/
def forkPidfd : Traced Holding (Except Int Task) :=
  let numbered := { p with
    pid := a.pid
    tgid := if sets args.flags CLONE_THREAD then current.tgid else a.pid }
  if sets args.flags CLONE_PIDFD then
    if a.pidfdPrepare < 0 then Label.goto .freePid args.flags p a.pidfdPrepare
    else do
      acquire (.piece .pidfd p.addr)
      acquire (.piece .pidfile p.addr)
      if a.putUser ≠ 0 then Label.goto .putPidfd args.flags p a.putUser
      else forkLock a args current numbered
  else forkLock a args current numbered

/-- `copy_io`, `copy_thread` and `alloc_pid`, in the pid namespace for the children of the
    caller. -/
def forkPid : Traced Holding (Except Int Task) :=
  if a.copyIo ≠ 0 then Label.goto .cleanupNamespaces args.flags p a.copyIo
  else do
    acquireIf a.ioContext (.piece .io p.addr)
    let p := { p with ioContext := a.ioContext }
    if a.copyThread ≠ 0 then Label.goto .cleanupIo args.flags p a.copyThread
    else do
      acquire (.piece .thread p.addr)
      if a.allocPid ≠ 0 then Label.goto .cleanupThread args.flags p a.allocPid
      else do
        acquire (.piece .pid p.addr)
        forkPidfd a args current { p with ns := { p.ns with pid := p.ns.pidForChildren } }

/-- `copy_namespaces`. -/
def forkNamespaces : Traced Holding (Except Int Task) :=
  if a.copyNamespaces ≠ 0 then Label.goto .cleanupMm args.flags p a.copyNamespaces
  else do
    acquire (.piece .namespaces p.addr)
    forkPid a args current { p with ns := { p.ns with
      mnt := if sets args.flags CLONE_NEWNS then p.addr else p.ns.mnt
      pidForChildren := if sets args.flags CLONE_NEWPID then p.addr else p.ns.pidForChildren } }

/-- From `copy_files` to `copy_mm`. -/
def forkShared : Traced Holding (Except Int Task) :=
  orGoto (copyFiles a args current p) .cleanupSemundo args.flags fun p =>
  orGoto (copyFs a args.flags current p) .cleanupFiles args.flags fun p =>
  orGoto (copySighand a args.flags current p) .cleanupFs args.flags fun p =>
  orGoto (copySignal a args.flags p) .cleanupSighand args.flags fun p =>
  orGoto (copyMm a args.flags current p) .cleanupSignal args.flags fun p =>
  forkNamespaces a args current p

/-- From `sched_fork` to `copy_semundo`. -/
def forkAccounts : Traced Holding (Except Int Task) :=
  if a.schedFork ≠ 0 then Label.goto .cleanupPolicy args.flags p a.schedFork
  else if a.perfEventInitTask ≠ 0 then Label.goto .cleanupPolicy args.flags p a.perfEventInitTask
  else do
    acquire (.piece .perf p.addr)
    if a.auditAlloc ≠ 0 then Label.goto .cleanupPerf args.flags p a.auditAlloc
    else do
      acquire (.piece .audit p.addr)
      if a.securityTaskAlloc ≠ 0 then Label.goto .cleanupAudit args.flags p a.securityTaskAlloc
      else do
        acquire (.piece .security p.addr)
        if a.copySemundo ≠ 0 then Label.goto .cleanupSecurity args.flags p a.copySemundo
        else do
          acquire (.piece .semundo p.addr)
          forkShared a args current p

/-- `mpol_dup`. -/
def forkPolicy : Traced Holding (Except Int Task) :=
  if a.mpolDup ≠ 0 then Label.goto .cleanupDelayacct args.flags p a.mpolDup
  else do
    acquire (.piece .mempolicy p.addr)
    forkAccounts a args current p

/-- The limits on the number of tasks, and the `struct kthread` of a kernel thread. -/
def forkLimits (nrThreads : Nat) : Traced Holding (Except Int Task) :=
  if a.isRlimitOverlimit ∧ a.initUser = false ∧ a.capable = false then
    Label.goto .cleanupCount args.flags p (-EAGAIN)
  else if nrThreads ≥ a.maxThreads then Label.goto .cleanupCount args.flags p (-EAGAIN)
  else do
    acquire (.piece .delayacct p.addr)
    if args.kthread then
      if a.setKthreadStruct = false then Label.goto .cleanupDelayacct args.flags p (-EAGAIN)
      else do
        acquire (.piece .kthread p.addr)
        forkPolicy a args current { p with workerPrivate := true }
    else forkPolicy a args current p

/-- `copy_process`, for a task at the address `addr`: the error number, or the new task. -/
def copyProcess (addr nrThreads : Nat) : Traced Holding (Except Int Task) :=
  if checkFlags a args.flags current ≠ 0 then pure (.error (checkFlags a args.flags current))
  else do
    acquireIf (!sets args.flags CLONE_THREAD) (.piece .delayed addr)
    -- The new task starts as a copy, without the `struct kthread` of a kernel thread.
    let p := { current with
      addr := addr, kthread := args.kthread, workerPrivate := false, ioContext := false }
    if a.taskSigpending then Label.goto .out args.flags p (-ERESTARTNOINTR)
    else if a.dupTaskStruct = false then Label.goto .out args.flags p (-ENOMEM)
    else do
      acquire (.piece .task addr)
      acquire (.piece .stack addr)
      if a.copyCreds < 0 then Label.goto .free args.flags p a.copyCreds
      else do
        acquire (.piece .creds addr)
        acquire (.piece .nproc addr)
        forkLimits a args current { p with ns := { p.ns with
          user := if sets args.flags CLONE_NEWUSER then addr else p.ns.user } } nrThreads

end

/-! ## The new task

What the steps make of the task, when they succeed. -/

section

variable {a : Answers} {args : KernelCloneArgs} {flags : UInt64} {current p q : Task}

theorem copyFiles_ok (h : (copyFiles a args current p).value.1 = 0) :
    (copyFiles a args current p).value.2 = { p with
      files := if current.files = none then p.files else if args.noFiles then none
        else if sets args.flags CLONE_FILES then p.files else some p.addr } := by
  rw [copyFiles] at h ⊢
  rcases hfiles : current.files with _ | oldf
  · rfl
  · rw [hfiles] at h
    dsimp only at h ⊢
    rw [if_neg (Option.some_ne_none oldf)]
    split_ifs at h ⊢ with _ _ hdup
    · rfl
    · rfl
    · exact absurd h hdup
    · rfl

theorem copyFs_ok (h : (copyFs a flags current p).value.1 = 0) :
    (copyFs a flags current p).value.2 =
      { p with fs := if sets flags CLONE_FS then p.fs else p.addr } := by
  rw [copyFs] at h ⊢
  split_ifs at h ⊢
  · cases h
  · rfl
  · cases h
  · rfl

theorem copySighand_ok (h : (copySighand a flags current p).value.1 = 0) :
    (copySighand a flags current p).value.2 =
      { p with sighand := if sets flags CLONE_SIGHAND then p.sighand else p.addr } := by
  rw [copySighand] at h ⊢
  split_ifs at h ⊢
  · rfl
  · cases h
  · rfl

theorem copySignal_ok (h : (copySignal a flags p).value.1 = 0) :
    (copySignal a flags p).value.2 =
      { p with signal := if sets flags CLONE_THREAD then p.signal else p.addr } := by
  rw [copySignal] at h ⊢
  split_ifs at h ⊢
  · rfl
  · cases h
  · rfl

theorem copyMm_ok (h : (copyMm a flags current p).value.1 = 0) :
    (copyMm a flags current p).value.2 = { p with
      mm := if sets flags CLONE_VM then current.mm else current.mm.map fun _ => p.addr } := by
  rw [copyMm] at h ⊢
  rcases hmm : current.mm with _ | oldmm
  · rcases sets flags CLONE_VM with _ | _
    · rfl
    · rfl
  · rw [hmm] at h
    dsimp only at h ⊢
    split_ifs at h ⊢
    · rfl
    · cases h
    · rfl

/-- A step that can jump did not, if there is a task. -/
theorem ok_of_ite_goto {c : Prop} [Decidable c] {label : Label} {retval : Int}
    {t : Traced Holding (Except Int Task)}
    (h : (if c then label.goto flags p retval else t).value = .ok q) : t.value = .ok q := by
  rw [value_ite] at h
  split_ifs at h
  · cases h
  · exact h

theorem ok_of_orGoto {step : Traced Holding (Int × Task)} {label : Label}
    {next : Task → Traced Holding (Except Int Task)}
    (h : (orGoto step label flags next).value = .ok q) :
    step.value.1 = 0 ∧ (next step.value.2).value = .ok q := by
  rw [orGoto, value_bind, value_ite] at h
  split_ifs at h with hret
  · cases h
  · exact ⟨not_not.1 hret, h⟩

theorem forkLock_ok (h : (forkLock a args current p).value = .ok q) : q = p := by
  rw [forkLock] at h
  have hlock := ok_of_ite_goto h
  simp only [value_bind] at hlock
  exact (Except.ok.inj (ok_of_ite_goto (ok_of_ite_goto hlock))).symm

theorem forkPidfd_ok (h : (forkPidfd a args current p).value = .ok q) :
    q = { p with
      pid := a.pid, tgid := if sets args.flags CLONE_THREAD then current.tgid else a.pid } := by
  rw [forkPidfd] at h
  by_cases hpidfd : sets args.flags CLONE_PIDFD = true
  · rw [if_pos hpidfd] at h
    have hput := ok_of_ite_goto h
    simp only [value_bind] at hput
    exact forkLock_ok (ok_of_ite_goto hput)
  · rw [if_neg hpidfd] at h
    exact forkLock_ok h

theorem forkPid_ok (h : (forkPid a args current p).value = .ok q) :
    q = { p with
      pid := a.pid, tgid := if sets args.flags CLONE_THREAD then current.tgid else a.pid
      ioContext := a.ioContext, ns := { p.ns with pid := p.ns.pidForChildren } } := by
  rw [forkPid] at h
  have hio := ok_of_ite_goto h
  simp only [value_bind] at hio
  have hthread := ok_of_ite_goto hio
  simp only [value_bind] at hthread
  have hpid := ok_of_ite_goto hthread
  simp only [value_bind] at hpid
  exact forkPidfd_ok hpid

/-- The namespaces of a new task: its own where the flags ask for it. -/
def newNs (flags : UInt64) (addr : Nat) (ns : Namespaces) : Namespaces :=
  let forChildren := if sets flags CLONE_NEWPID then addr else ns.pidForChildren
  { mnt := if sets flags CLONE_NEWNS then addr else ns.mnt
    user := if sets flags CLONE_NEWUSER then addr else ns.user
    pid := forChildren
    pidForChildren := forChildren }

/-- The task that `copy_process` makes. -/
def child (a : Answers) (args : KernelCloneArgs) (current : Task) (addr : Nat) : Task where
  addr := addr
  pid := a.pid
  tgid := if sets args.flags CLONE_THREAD then current.tgid else a.pid
  mm := if sets args.flags CLONE_VM then current.mm else current.mm.map fun _ => addr
  files := if current.files = none then current.files else if args.noFiles then none
    else if sets args.flags CLONE_FILES then current.files else some addr
  fs := if sets args.flags CLONE_FS then current.fs else addr
  sighand := if sets args.flags CLONE_SIGHAND then current.sighand else addr
  signal := if sets args.flags CLONE_THREAD then current.signal else addr
  kthread := args.kthread
  workerPrivate := args.kthread
  ioContext := a.ioContext
  ns := newNs args.flags addr current.ns

/-- From `copy_files` on, the task is made of its beginnings `p` and of `current`. -/
theorem forkShared_ok (h : (forkShared a args current p).value = .ok q) :
    q = { child a args { p with mm := current.mm } p.addr with
      tgid := if sets args.flags CLONE_THREAD then current.tgid else a.pid
      files := if current.files = none then p.files else if args.noFiles then none
        else if sets args.flags CLONE_FILES then p.files else some p.addr
      kthread := p.kthread
      workerPrivate := p.workerPrivate
      ns := { newNs args.flags p.addr p.ns with user := p.ns.user } } := by
  rw [forkShared] at h
  obtain ⟨hfiles, h⟩ := ok_of_orGoto h
  rw [copyFiles_ok hfiles] at h
  obtain ⟨hfs, h⟩ := ok_of_orGoto h
  rw [copyFs_ok hfs] at h
  obtain ⟨hsighand, h⟩ := ok_of_orGoto h
  rw [copySighand_ok hsighand] at h
  obtain ⟨hsignal, h⟩ := ok_of_orGoto h
  rw [copySignal_ok hsignal] at h
  obtain ⟨hmm, h⟩ := ok_of_orGoto h
  rw [copyMm_ok hmm, forkNamespaces] at h
  have hns := ok_of_ite_goto h
  simp only [value_bind] at hns
  exact forkPid_ok hns

theorem forkPolicy_ok (h : (forkPolicy a args current p).value = .ok q) :
    (forkShared a args current p).value = .ok q := by
  rw [forkPolicy] at h
  have hpolicy := ok_of_ite_goto h
  simp only [value_bind, forkAccounts] at hpolicy
  have hperf := ok_of_ite_goto (ok_of_ite_goto hpolicy)
  simp only [value_bind] at hperf
  have haudit := ok_of_ite_goto hperf
  simp only [value_bind] at haudit
  have hsecurity := ok_of_ite_goto haudit
  simp only [value_bind] at hsecurity
  have hshared := ok_of_ite_goto hsecurity
  rwa [value_bind] at hshared

theorem copyProcess_ok {addr nrThreads : Nat}
    (h : (copyProcess a args current addr nrThreads).value = .ok q) :
    q = child a args current addr ∧ checkFlags a args.flags current = 0 := by
  rw [copyProcess] at h
  by_cases hcheck : checkFlags a args.flags current ≠ 0
  · rw [if_pos hcheck] at h
    cases h
  rw [if_neg hcheck] at h
  refine ⟨?_, not_not.1 hcheck⟩
  simp only [value_bind] at h
  have hcreds := ok_of_ite_goto (ok_of_ite_goto h)
  simp only [value_bind] at hcreds
  have hlimits := ok_of_ite_goto hcreds
  simp only [value_bind, forkLimits] at hlimits
  have hkthread := ok_of_ite_goto (ok_of_ite_goto hlimits)
  simp only [value_bind] at hkthread
  -- Only a kernel thread gets a `struct kthread`.
  by_cases hk : args.kthread = true
  · rw [if_pos hk] at hkthread
    have hset := ok_of_ite_goto hkthread
    rw [value_bind] at hset
    rw [forkShared_ok (forkPolicy_ok hset), child, child, hk]
    rfl
  · rw [if_neg hk] at hkthread
    rw [forkShared_ok (forkPolicy_ok hkthread), child, child, Bool.eq_false_of_not_eq_true hk]
    rfl

end

/-! ## What is held

Before a step, what has been taken so far is what the label of the step gives back. -/

/-- What has been taken when the next failure jumps to `label`, and what was held before. -/
def Label.held (label : Label) (flags : UInt64) (p : Task) (h : Multiset Holding) :
    Multiset Holding :=
  onTop (label.unwinds flags p) h

/-- What a task has got before and after its `signal_struct`. -/
def Task.early (p : Task) : List Holding :=
  .sighand p.sighand :: .fs p.fs :: (p.filesHeld ++ .piece .semundo p.addr ::
    .piece .security p.addr :: .piece .audit p.addr :: .piece .perf p.addr ::
    .piece .mempolicy p.addr :: .piece .delayacct p.addr :: .piece .nproc p.addr ::
    .piece .creds p.addr :: .piece .stack p.addr ::
      (only (p.kthread && p.workerPrivate) (.piece .kthread p.addr) ++ [.piece .task p.addr]))

def Task.late (p : Task) : List Holding :=
  .piece .pid p.addr :: .piece .thread p.addr ::
    (only p.ioContext (.piece .io p.addr) ++ .piece .namespaces p.addr :: p.mmHeld)

/-- What a task holds. -/
def Task.holds (p : Task) : List Holding :=
  .piece .cookie p.addr :: (p.late ++ .signal p.signal :: p.early)

/-- What should be held after a creation: what was held before it, and the new task. -/
def outcome (h : Multiset Holding) : Except Int Task → Multiset Holding
  | .error _ => h
  | .ok p => onTop p.holds h

section

variable {a : Answers} {args : KernelCloneArgs} {flags : UInt64} {current p : Task}
  {h : Multiset Holding} {retval : Int}

theorem triple_goto (label : Label) (flags : UInt64) (p : Task) (retval : Int)
    (h : Multiset Holding) :
    Triple (label.held flags p h) (label.goto flags p retval) (outcome h) :=
  (triple_releaseAll _ h).bind (triple_pure rfl)

theorem triple_orGoto {label above : Label} {H : Multiset Holding}
    {step : Traced Holding (Int × Task)} {next : Task → Traced Holding (Except Int Task)}
    (hstep : Triple H step fun r =>
      if r.1 = 0 then above.held flags r.2 h else label.held flags r.2 h)
    (hnext : step.value.1 = 0 →
      Triple (above.held flags step.value.2 h) (next step.value.2) (outcome h)) :
    Triple H (orGoto step label flags next) (outcome h) := by
  refine hstep.bind (triple_ite (fun hret => ?_) fun hret => ?_)
  · rw [if_neg hret]
    exact triple_goto _ _ _ _ _
  · rw [if_pos (not_not.1 hret)]
    exact hnext (not_not.1 hret)

/-! ### What each label has on top of the next -/

/-- The numbers and the namespaces of a task do not matter to what is given back. -/
theorem held_numbered (label : Label) (pid tgid : Nat) :
    label.held flags { p with pid := pid, tgid := tgid } h = label.held flags p h := by
  have hgives : Label.gives flags { p with pid := pid, tgid := tgid } = Label.gives flags p := by
    funext label
    cases label <;> rfl
  rw [Label.held, Label.unwinds, hgives]
  rfl

theorem held_ns (label : Label) (ns : Namespaces) :
    label.held flags { p with ns := ns } h = label.held flags p h := by
  have hgives : Label.gives flags { p with ns := ns } = Label.gives flags p := by
    funext label
    cases label <;> rfl
  rw [Label.held, Label.unwinds, hgives]
  rfl

theorem held_out : Label.held .out flags p h =
    onTop (only (!sets flags CLONE_THREAD) (.piece .delayed p.addr)) h :=
  onTop_append _ [] _

theorem held_cleanupFiles : Label.held .cleanupFiles flags p h =
    onTop p.filesHeld (Label.held .cleanupSemundo flags p h) :=
  onTop_append _ _ _

theorem held_cleanupSignal : Label.held .cleanupSignal flags p h =
    onTop (only (!sets flags CLONE_THREAD) (.signal p.signal))
      (Label.held .cleanupSighand flags p h) :=
  onTop_append _ _ _

theorem held_cleanupMm : Label.held .cleanupMm flags p h =
    onTop p.mmHeld (Label.held .cleanupSignal flags p h) :=
  onTop_append _ _ _

theorem held_cleanupIo : Label.held .cleanupIo flags p h =
    onTop (only p.ioContext (.piece .io p.addr)) (Label.held .cleanupNamespaces flags p h) :=
  onTop_append _ _ _

theorem held_putPidfd : Label.held .putPidfd flags p h =
    onTop (only (sets flags CLONE_PIDFD) (.piece .pidfile p.addr))
      (onTop (only (sets flags CLONE_PIDFD) (.piece .pidfd p.addr))
        (Label.held .freePid flags p h)) :=
  (onTop_append (only _ _ ++ only _ _) _ _).trans (onTop_append _ _ _)

theorem held_free (hw : p.workerPrivate = false) : Label.held .free flags p h =
    .piece .stack p.addr ::ₘ .piece .task p.addr ::ₘ Label.held .out flags p h := by
  have honly : only (p.kthread && p.workerPrivate) (Holding.piece .kthread p.addr) = [] := by
    rw [hw, Bool.and_false]
    rfl
  refine (onTop_append (_ :: (only (p.kthread && p.workerPrivate) _ ++ [_])) _ h).trans ?_
  rw [honly]
  rfl

theorem held_cleanupDelayacct : Label.held .cleanupDelayacct flags p h =
    onTop [.piece .delayacct p.addr, .piece .nproc p.addr, .piece .creds p.addr,
        .piece .stack p.addr]
      (onTop (only (p.kthread && p.workerPrivate) (.piece .kthread p.addr))
        (.piece .task p.addr ::ₘ Label.held .out flags p h)) := by
  refine (onTop_append [_, _, _, _] _ _).trans (congrArg (onTop _) ?_)
  exact (onTop_append (only _ _ ++ [_]) _ _).trans (onTop_append (only _ _) [_] _)

/-- The `struct kthread` is taken late, and given back with the task. -/
theorem held_workerPrivate (hk : p.kthread = true) (hw : p.workerPrivate = false) :
    Label.held .cleanupDelayacct flags { p with workerPrivate := true } h =
      .piece .kthread p.addr ::ₘ Label.held .cleanupDelayacct flags p h := by
  rw [held_cleanupDelayacct, held_cleanupDelayacct, hk, hw]
  exact onTop_cons _ _ _

/-! ### The five shared things

A step that fails has taken nothing. -/

theorem triple_copyFiles (hp : p.files = current.files) :
    Triple (Label.held .cleanupSemundo args.flags p h) (copyFiles a args current p) fun r =>
      if r.1 = 0 then Label.held .cleanupFiles args.flags r.2 h
      else Label.held .cleanupSemundo args.flags r.2 h := by
  rw [copyFiles]
  rcases hfiles : current.files with _ | oldf
  · refine triple_pure ?_
    rw [if_pos rfl, held_cleanupFiles, Task.filesHeld, hp, hfiles]
    rfl
  refine triple_ite (fun _ => triple_pure ?_) fun _ => triple_ite (fun _ => ?_) fun _ =>
    triple_ite (fun hdup => triple_pure (if_neg hdup)) fun _ => ?_
  · rw [if_pos rfl, held_cleanupFiles]
    rfl
  · refine (triple_acquire _ _).bind (triple_pure ?_)
    rw [if_pos rfl, held_cleanupFiles, Task.filesHeld, hp, hfiles]
    rfl
  · refine (triple_acquire _ _).bind (triple_pure ?_)
    rw [if_pos rfl, held_cleanupFiles]
    rfl

theorem triple_copyFs (hp : p.fs = current.fs) :
    Triple (Label.held .cleanupFiles flags p h) (copyFs a flags current p) fun r =>
      if r.1 = 0 then Label.held .cleanupFs flags r.2 h
      else Label.held .cleanupFiles flags r.2 h := by
  rw [copyFs]
  refine triple_ite (fun _ => triple_ite (fun _ => triple_pure rfl) fun _ => ?_) fun _ =>
    triple_ite (fun _ => triple_pure rfl) fun _ => ?_
  · refine (triple_acquire _ _).bind (triple_pure ?_)
    rw [if_pos rfl, ← hp]
    rfl
  · exact (triple_acquire _ _).bind (triple_pure rfl)

theorem triple_copySighand (hp : p.sighand = current.sighand) :
    Triple (Label.held .cleanupFs flags p h) (copySighand a flags current p) fun r =>
      if r.1 = 0 then Label.held .cleanupSighand flags r.2 h
      else Label.held .cleanupFs flags r.2 h := by
  rw [copySighand]
  refine triple_ite (fun _ => ?_) fun _ => triple_ite (fun _ => triple_pure rfl) fun _ => ?_
  · refine (triple_acquire _ _).bind (triple_pure ?_)
    rw [if_pos rfl, ← hp]
    rfl
  · exact (triple_acquire _ _).bind (triple_pure rfl)

theorem triple_copySignal :
    Triple (Label.held .cleanupSighand flags p h) (copySignal a flags p) fun r =>
      if r.1 = 0 then Label.held .cleanupSignal flags r.2 h
      else Label.held .cleanupSighand flags r.2 h := by
  rw [copySignal]
  refine triple_ite (fun hthread => triple_pure ?_) fun hthread =>
    triple_ite (fun _ => triple_pure rfl) fun _ => ?_
  · rw [if_pos rfl, held_cleanupSignal, hthread]
    rfl
  · refine (triple_acquire _ _).bind (triple_pure ?_)
    rw [if_pos rfl, held_cleanupSignal, Bool.eq_false_of_not_eq_true hthread]
    rfl

theorem triple_copyMm :
    Triple (Label.held .cleanupSignal flags p h) (copyMm a flags current p) fun r =>
      if r.1 = 0 then Label.held .cleanupMm flags r.2 h
      else Label.held .cleanupSignal flags r.2 h := by
  rw [copyMm]
  rcases current.mm with _ | oldmm
  · refine triple_pure ?_
    rw [if_pos rfl, held_cleanupMm]
    rfl
  refine triple_ite (fun _ => ?_) fun _ => triple_ite (fun _ => triple_pure rfl) fun _ => ?_
  · refine (triple_acquire _ _).bind (triple_pure ?_)
    rw [if_pos rfl, held_cleanupMm]
    rfl
  · refine (triple_acquire _ _).bind (triple_pure ?_)
    rw [if_pos rfl, held_cleanupMm]
    rfl

/-! ### The steps -/

/-- Up to the pid, what has been taken is what the task holds, but for three things: there is no
    cookie, a thread has not got its reference to the group, and another task still collects
    signals. -/
theorem held_freePid : .piece .cookie p.addr ::ₘ
      onTop (only (sets flags CLONE_THREAD) (.signal p.signal)) (Label.held .freePid flags p h) =
    onTop (only (!sets flags CLONE_THREAD) (.piece .delayed p.addr)) (onTop p.holds h) := by
  have honwards : Label.onwards .freePid = Label.all.drop 2 := rfl
  have hunwinds : Label.unwinds .freePid flags p =
      p.late ++ (only (!sets flags CLONE_THREAD) (.signal p.signal) ++
        (p.early ++ only (!sets flags CLONE_THREAD) (.piece .delayed p.addr))) := by
    simp [Label.unwinds, honwards, Label.all, Label.gives, Task.late, Task.early]
  have hholds : onTop p.holds h = .piece .cookie p.addr ::ₘ
      onTop p.late (onTop (.signal p.signal :: p.early) h) :=
    congrArg _ (onTop_append _ _ _)
  rw [Label.held, hunwinds, hholds, onTop_append, onTop_append, onTop_append, onTop_cons]
  congr 1
  rcases sets flags CLONE_THREAD with _ | _
  · -- The node for the signals is at the bottom.
    have hearly : onTop p.early (.piece .delayed p.addr ::ₘ h) =
        .piece .delayed p.addr ::ₘ onTop p.early h := onTop_cons _ _ _
    have hlate : onTop p.late (.piece .delayed p.addr ::ₘ .signal p.signal ::ₘ onTop p.early h) =
        .piece .delayed p.addr ::ₘ onTop p.late (.signal p.signal ::ₘ onTop p.early h) :=
      onTop_cons _ _ _
    refine (congrArg (fun s => onTop p.late (.signal p.signal ::ₘ s)) hearly).trans ?_
    rw [Multiset.cons_swap, hlate]
    rfl
  · exact (onTop_cons _ _ _).symm

/-- The last things to be given back can be given back in any order. -/
theorem held_cancelCgroup :
    onTop (only (sets flags CLONE_THREAD) (.signal p.signal))
      (Label.held .cancelCgroup flags p h) =
    onTop (only (!sets flags CLONE_THREAD) (.piece .delayed p.addr))
      (.piece .siglock p.addr ::ₘ .piece .tasklistLock p.addr ::ₘ
        onTop (only (sets flags CLONE_PIDFD) (.piece .pidfile p.addr))
          (onTop (only (sets flags CLONE_PIDFD) (.piece .pidfd p.addr))
            (.piece .cgroup p.addr ::ₘ onTop p.holds h))) := by
  have hheld : Label.held .cancelCgroup flags p h = .piece .cookie p.addr ::ₘ
      .piece .siglock p.addr ::ₘ .piece .tasklistLock p.addr ::ₘ .piece .cgroup p.addr ::ₘ
        Label.held .putPidfd flags p h := rfl
  have hpid := @held_freePid flags p h
  rw [hheld, held_putPidfd]
  simp only [onTop_eq_add, ← Multiset.singleton_add] at hpid ⊢
  rw [← add_assoc _ _ h] at hpid
  have hcomm : ∀ a b c d e f g k : Multiset Holding, a + (k + (b + (c + (d + (e + (f + g)))))) =
      b + (c + (d + (e + (f + (k + (a + g)))))) := fun a b c d e f g k => by abel
  rw [hcomm, hpid]
  abel

theorem triple_forkPublish
    (hp : sets args.flags CLONE_THREAD = true → p.signal = current.signal) :
    Triple (Label.held .cancelCgroup args.flags p h) (forkPublish args current p) (outcome h) := by
  have hsignal : only (sets args.flags CLONE_THREAD) (Holding.signal current.signal) =
      only (sets args.flags CLONE_THREAD) (.signal p.signal) := by
    rcases hthread : sets args.flags CLONE_THREAD with _ | _
    · rfl
    · rw [hp hthread]
  rw [forkPublish]
  refine (triple_acquireIf _ _ _).bind (triple_of_eq ?_ ((triple_releaseIf _ _ _).bind
    ((triple_release _ _).bind ((triple_release _ _).bind ((triple_releaseIf _ _ _).bind
      ((triple_releaseIf _ _ _).bind ((triple_release _ _).bind (triple_pure rfl))))))))
  rw [hsignal]
  exact held_cancelCgroup

theorem triple_forkLock
    (hp : sets args.flags CLONE_THREAD = true → p.signal = current.signal) :
    Triple (Label.held .putPidfd args.flags p h) (forkLock a args current p) (outcome h) := by
  rw [forkLock]
  refine triple_ite (fun _ => triple_goto _ _ _ _ _) fun _ => ?_
  refine (triple_acquire _ _).bind ((triple_acquire _ _).bind ((triple_acquire _ _).bind
    ((triple_acquire _ _).bind (triple_of_eq (Multiset.cons_swap _ _ _) ?_))))
  refine triple_ite (fun _ => triple_goto .cancelCgroup _ _ _ _) fun _ => ?_
  exact triple_ite (fun _ => triple_goto .cancelCgroup _ _ _ _) fun _ => triple_forkPublish hp

theorem triple_forkPidfd
    (hp : sets args.flags CLONE_THREAD = true → p.signal = current.signal) :
    Triple (Label.held .freePid args.flags p h) (forkPidfd a args current p) (outcome h) := by
  have hlock : Triple (Label.held .putPidfd args.flags p h) (forkLock a args current { p with
      pid := a.pid, tgid := if sets args.flags CLONE_THREAD then current.tgid else a.pid })
      (outcome h) :=
    triple_of_eq (held_numbered _ _ _).symm (triple_forkLock hp)
  rw [held_putPidfd] at hlock
  rw [forkPidfd]
  refine triple_ite (fun hpidfd => ?_) fun hpidfd => ?_
  · rw [hpidfd] at hlock
    refine triple_ite (fun _ => triple_goto _ _ _ _ _) fun _ => ?_
    refine (triple_acquire _ _).bind ((triple_acquire _ _).bind ?_)
    refine triple_ite (fun _ => ?_) fun _ => hlock
    refine triple_of_eq ?_ (triple_goto .putPidfd _ _ _ _)
    rw [held_putPidfd, hpidfd]
    rfl
  · rw [Bool.eq_false_of_not_eq_true hpidfd] at hlock
    exact hlock

theorem triple_forkPid
    (hp : sets args.flags CLONE_THREAD = true → p.signal = current.signal) :
    Triple (Label.held .cleanupNamespaces args.flags p h) (forkPid a args current p)
      (outcome h) := by
  have hio : onTop (only a.ioContext (.piece .io p.addr))
      (Label.held .cleanupNamespaces args.flags p h) =
        Label.held .cleanupIo args.flags { p with ioContext := a.ioContext } h := by
    rw [held_cleanupIo]
    rfl
  rw [forkPid]
  refine triple_ite (fun _ => triple_goto _ _ _ _ _) fun _ => ?_
  refine (triple_acquireIf _ _ _).bind (triple_of_eq hio ?_)
  refine triple_ite (fun _ => triple_goto .cleanupIo _ _ _ _) fun _ => ?_
  refine (triple_acquire _ _).bind ?_
  refine triple_ite (fun _ => triple_goto .cleanupThread _ _ _ _) fun _ => ?_
  refine (triple_acquire _ _).bind (triple_of_eq ?_ (triple_forkPidfd hp))
  exact (held_ns .freePid _).symm

theorem triple_forkNamespaces
    (hp : sets args.flags CLONE_THREAD = true → p.signal = current.signal) :
    Triple (Label.held .cleanupMm args.flags p h) (forkNamespaces a args current p)
      (outcome h) := by
  rw [forkNamespaces]
  refine triple_ite (fun _ => triple_goto _ _ _ _ _) fun _ => ?_
  refine (triple_acquire _ _).bind (triple_of_eq ?_ (triple_forkPid hp))
  exact (held_ns .cleanupNamespaces _).symm

theorem triple_forkShared (hfiles : p.files = current.files) (hfs : p.fs = current.fs)
    (hsighand : p.sighand = current.sighand) (hsignal : p.signal = current.signal) :
    Triple (Label.held .cleanupSemundo args.flags p h) (forkShared a args current p)
      (outcome h) := by
  rw [forkShared]
  refine triple_orGoto (triple_copyFiles hfiles) fun hret => ?_
  rw [copyFiles_ok hret]
  refine triple_orGoto (triple_copyFs hfs) fun hret => ?_
  rw [copyFs_ok hret]
  refine triple_orGoto (triple_copySighand hsighand) fun hret => ?_
  rw [copySighand_ok hret]
  refine triple_orGoto triple_copySignal fun hret => ?_
  rw [copySignal_ok hret]
  refine triple_orGoto triple_copyMm fun hret => ?_
  rw [copyMm_ok hret]
  refine triple_forkNamespaces fun hthread => ?_
  exact (if_pos hthread).trans hsignal

theorem triple_forkAccounts (hfiles : p.files = current.files) (hfs : p.fs = current.fs)
    (hsighand : p.sighand = current.sighand) (hsignal : p.signal = current.signal) :
    Triple (Label.held .cleanupPolicy args.flags p h) (forkAccounts a args current p)
      (outcome h) := by
  rw [forkAccounts]
  refine triple_ite (fun _ => triple_goto _ _ _ _ _) fun _ => ?_
  refine triple_ite (fun _ => triple_goto _ _ _ _ _) fun _ => (triple_acquire _ _).bind ?_
  refine triple_ite (fun _ => triple_goto .cleanupPerf _ _ _ _) fun _ =>
    (triple_acquire _ _).bind ?_
  refine triple_ite (fun _ => triple_goto .cleanupAudit _ _ _ _) fun _ =>
    (triple_acquire _ _).bind ?_
  refine triple_ite (fun _ => triple_goto .cleanupSecurity _ _ _ _) fun _ =>
    (triple_acquire _ _).bind ?_
  exact triple_forkShared hfiles hfs hsighand hsignal

theorem triple_forkPolicy (hfiles : p.files = current.files) (hfs : p.fs = current.fs)
    (hsighand : p.sighand = current.sighand) (hsignal : p.signal = current.signal) :
    Triple (Label.held .cleanupDelayacct args.flags p h) (forkPolicy a args current p)
      (outcome h) := by
  rw [forkPolicy]
  refine triple_ite (fun _ => triple_goto _ _ _ _ _) fun _ => (triple_acquire _ _).bind ?_
  exact triple_forkAccounts hfiles hfs hsighand hsignal

theorem triple_forkLimits (nrThreads : Nat) (hkthread : p.kthread = args.kthread)
    (hworker : p.workerPrivate = false) (hfiles : p.files = current.files)
    (hfs : p.fs = current.fs) (hsighand : p.sighand = current.sighand)
    (hsignal : p.signal = current.signal) :
    Triple (Label.held .cleanupCount args.flags p h) (forkLimits a args current p nrThreads)
      (outcome h) := by
  rw [forkLimits]
  refine triple_ite (fun _ => triple_goto _ _ _ _ _) fun _ => ?_
  refine triple_ite (fun _ => triple_goto _ _ _ _ _) fun _ => (triple_acquire _ _).bind ?_
  refine triple_ite (fun hk => ?_) fun _ => triple_forkPolicy hfiles hfs hsighand hsignal
  refine triple_ite (fun _ => triple_goto .cleanupDelayacct _ _ _ _) fun _ =>
    (triple_acquire _ _).bind ?_
  exact triple_of_eq (held_workerPrivate (hkthread.trans hk) hworker).symm
    (triple_forkPolicy hfiles hfs hsighand hsignal)

theorem triple_copyProcess (a : Answers) (args : KernelCloneArgs) (current : Task)
    (addr nrThreads : Nat) (h : Multiset Holding) :
    Triple h (copyProcess a args current addr nrThreads) (outcome h) := by
  rw [copyProcess]
  refine triple_ite (fun _ => triple_pure rfl) fun _ => (triple_acquireIf _ _ _).bind ?_
  set p : Task := { current with
    addr := addr, kthread := args.kthread, workerPrivate := false, ioContext := false }
  refine triple_of_eq (held_out (p := p)).symm ?_
  refine triple_ite (fun _ => triple_goto _ _ _ _ _) fun _ => ?_
  refine triple_ite (fun _ => triple_goto _ _ _ _ _) fun _ => ?_
  refine (triple_acquire _ _).bind ((triple_acquire _ _).bind ?_)
  refine triple_of_eq (held_free (p := p) rfl).symm ?_
  refine triple_ite (fun _ => triple_goto .free _ _ _ _) fun _ => ?_
  refine (triple_acquire _ _).bind ((triple_acquire _ _).bind ?_)
  refine triple_of_eq ?_ (triple_forkLimits nrThreads rfl rfl rfl rfl rfl rfl)
  exact (held_ns (p := p) .cleanupCount _).symm

/-- `copy_process`, whatever fails on the way: if it returns an error, all it took has been given
    back, each thing once; and if it returns a task, it is the one the flags ask for, and what it
    holds is all that was taken and not given back. -/
theorem copyProcess_gives_back (a : Answers) (args : KernelCloneArgs) (current : Task)
    (addr nrThreads : Nat) (h : Multiset Holding) :
    match (copyProcess a args current addr nrThreads).value with
    | .error _ => exec (copyProcess a args current addr nrThreads).ops h = some h
    | .ok p => p = child a args current addr ∧
        exec (copyProcess a args current addr nrThreads).ops h = some (onTop p.holds h) := by
  have htriple := triple_copyProcess a args current addr nrThreads h
  rw [Triple] at htriple
  rcases hvalue : (copyProcess a args current addr nrThreads).value with err | p
  · rw [htriple, hvalue]
    rfl
  · rw [htriple, hvalue]
    exact ⟨(copyProcess_ok hvalue).1, rfl⟩

end

end Clone

end LuisKernel
