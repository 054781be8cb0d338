import LuisKernel.Machine
import LuisKernel.Records

/-!
# The counters of system calls

The kernel counts the calls that open a file, read, write and create a process,
and `luis_track_syscall_usage` tells the numbers. A counter is bumped where the
author of the kernel found the place for it:

* that of the reads and that of the writes in the system calls themselves;
* that of the opens in `do_sys_open`, which `open`, `openat` and `creat` share.
  But `openat2` calls `do_sys_openat2`, the function behind it;
* that of the forks in `clone`. But `fork`, `vfork` and `clone3` call
  `kernel_clone`, the function behind it, as `clone` does.

So the counters tell the numbers of calls in exactly those runs where none of
these four occurs, as long as the counters do not overflow (`counts_iff`).
-/

namespace LuisKernel

/-! ## The system calls -/

/-- The counters, global variables of `fs/open.c`, `fs/read_write.c` and
    `kernel/fork.c`. -/
@[ext]
structure CallCounters where
  openCallCounter : Int64
  readCallCounter : Int64
  writeCallCounter : Int64
  forkCallCounter : Int64
  deriving DecidableEq, Repr

/-- The counters when the kernel is started. -/
def CallCounters.boot : CallCounters := ⟨0, 0, 0, 0⟩

/-- What the functions behind the system calls return during a call. -/
structure Answers where
  ksysRead : Int64
  ksysWrite : Int64
  doSysOpenat2 : Int64
  kernelClone : Int64
  copyStructFromUser : Int64
  copyCloneArgsFromUser : Int64
  clone3ArgsValid : Bool
  /-- What any other system call returns. -/
  other : Int64
  deriving DecidableEq, Repr

variable (a : Answers) (c : CallCounters)

def sysRead : Int64 × CallCounters :=
  (a.ksysRead, { c with readCallCounter := c.readCallCounter + 1 })

def sysWrite : Int64 × CallCounters :=
  (a.ksysWrite, { c with writeCallCounter := c.writeCallCounter + 1 })

def doSysOpen : Int64 × CallCounters :=
  (a.doSysOpenat2, { c with openCallCounter := c.openCallCounter + 1 })

def sysOpen : Int64 × CallCounters := doSysOpen a c

def sysOpenat : Int64 × CallCounters := doSysOpen a c

def sysCreat : Int64 × CallCounters := doSysOpen a c

def OPEN_HOW_SIZE_VER0 : UInt64 := 24

def sysOpenat2 (usize : UInt64) : Int64 × CallCounters :=
  if usize < OPEN_HOW_SIZE_VER0 then (-22, c)
  else if a.copyStructFromUser ≠ 0 then (a.copyStructFromUser, c)
  else (a.doSysOpenat2, c)

def sysFork : Int64 × CallCounters := (a.kernelClone, c)

def sysVfork : Int64 × CallCounters := (a.kernelClone, c)

def sysClone : Int64 × CallCounters :=
  (a.kernelClone, { c with forkCallCounter := c.forkCallCounter + 1 })

def sysClone3 : Int64 × CallCounters :=
  if a.copyCloneArgsFromUser ≠ 0 then (a.copyCloneArgsFromUser, c)
  else if a.clone3ArgsValid = false then (-22, c)
  else (a.kernelClone, c)

/-- `luis_track_syscall_usage`: the return value, and the structure copied to
    `trackers`. -/
def luisTrackSyscallUsage (env : Env) : Int × Option TrackCounters :=
  if env.copyToUser = false then (-EFAULT, none)
  else (0, some
    { counterOpen := c.openCallCounter
      counterRead := c.readCallCounter
      counterWrite := c.writeCallCounter
      counterFork := c.forkCallCounter })

/-! ## The table -/

/-- The system calls that open files, read, write or create processes; no other
    one touches the counters. -/
inductive Syscall
  | read
  | write
  | opens
  | openat
  | openat2
  | creat
  | fork
  | vfork
  | clone
  | clone3
  | other
  deriving DecidableEq, Repr

/-- The table `syscall_64.tbl`. -/
def syscall64 (nr : Nat) : Syscall :=
  match nr with
  | 0 => .read
  | 1 => .write
  | 2 => .opens
  | 56 => .clone
  | 57 => .fork
  | 58 => .vfork
  | 85 => .creat
  | 257 => .openat
  | 435 => .clone3
  | 437 => .openat2
  | _ => .other

/-- A system call: its number, the argument `usize` that `openat2` looks at, and
    what happens behind it. -/
structure Invocation where
  nr : Nat
  usize : UInt64
  answers : Answers
  deriving DecidableEq, Repr

/-- The return value of a system call, and the counters after it. -/
def dispatch (x : Invocation) : Int64 × CallCounters :=
  match syscall64 x.nr with
  | .read => sysRead x.answers c
  | .write => sysWrite x.answers c
  | .opens => sysOpen x.answers c
  | .openat => sysOpenat x.answers c
  | .openat2 => sysOpenat2 x.answers c x.usize
  | .creat => sysCreat x.answers c
  | .fork => sysFork x.answers c
  | .vfork => sysVfork x.answers c
  | .clone => sysClone x.answers c
  | .clone3 => sysClone3 x.answers c
  | .other => (x.answers.other, c)

/-- The counters after a system call. -/
def tick (x : Invocation) : CallCounters := (dispatch c x).2

/-! ## The numbers of calls -/

namespace Syscall

/-- The calls that open a file. -/
def opensFile (e : Syscall) : Bool := e = opens ∨ e = openat ∨ e = openat2 ∨ e = creat

/-- The calls that create a process. -/
def createsProcess (e : Syscall) : Bool := e = fork ∨ e = vfork ∨ e = clone ∨ e = clone3

/-- The calls of the two families that are not counted. -/
def missed (e : Syscall) : Bool := e = openat2 ∨ e = fork ∨ e = vfork ∨ e = clone3

/-- Whether the counter of the opens is bumped by the call. -/
def bumpsOpen (e : Syscall) : Bool := e = opens ∨ e = openat ∨ e = creat

end Syscall

/-- How many of the calls are of a kind. -/
def numberOf (p : Syscall → Bool) (xs : List Invocation) : Nat :=
  xs.countP fun x => p (syscall64 x.nr)

/-- The counters tell how many calls of each kind there were. -/
structure Counts (t : TrackCounters) (xs : List Invocation) : Prop where
  reads : t.counterRead.toInt = numberOf (· = .read) xs
  writes : t.counterWrite.toInt = numberOf (· = .write) xs
  opens : t.counterOpen.toInt = numberOf Syscall.opensFile xs
  forks : t.counterFork.toInt = numberOf Syscall.createsProcess xs

/-! ## What a call does to the counters -/

namespace Syscall

/-- The counters after a call, whatever its arguments and its outcome. -/
def bump : Syscall → CallCounters → CallCounters
  | read, c => { c with readCallCounter := c.readCallCounter + 1 }
  | write, c => { c with writeCallCounter := c.writeCallCounter + 1 }
  | opens, c => { c with openCallCounter := c.openCallCounter + 1 }
  | openat, c => { c with openCallCounter := c.openCallCounter + 1 }
  | creat, c => { c with openCallCounter := c.openCallCounter + 1 }
  | clone, c => { c with forkCallCounter := c.forkCallCounter + 1 }
  | _, c => c

end Syscall

variable {a c} {x : Invocation} {xs : List Invocation} {p q : Syscall → Bool}

theorem tick_eq : tick c x = (syscall64 x.nr).bump c := by
  rw [tick, dispatch]
  cases syscall64 x.nr with
  | openat2 =>
    rw [sysOpenat2]
    split_ifs <;> rfl
  | clone3 =>
    rw [sysClone3]
    split_ifs <;> rfl
  | _ => rfl

/-- A counter that the calls of one kind bump, and no others, tells how many of
    them there were, as a `long`. -/
theorem counter_run (counter : CallCounters → Int64) (p : Syscall → Bool)
    (h : ∀ e c, counter (Syscall.bump e c) = counter c + if p e then 1 else 0)
    (c : CallCounters) (xs : List Invocation) :
    counter (Machine.run tick c xs) = counter c + Int64.ofNat (numberOf p xs) := by
  induction xs generalizing c with
  | nil => simp [numberOf]
  | cons x xs ih =>
    rw [Machine.run_cons, ih, tick_eq, h, numberOf, numberOf, List.countP_cons]
    split_ifs with hp
    · rw [Int64.ofNat_add, Int64.add_assoc, Int64.add_comm 1]
      rfl
    · rw [Int64.add_zero, Nat.add_zero]

/-- The counters after a run from the start of the kernel. -/
theorem run_boot (xs : List Invocation) :
    Machine.run tick .boot xs =
      { openCallCounter := Int64.ofNat (numberOf Syscall.bumpsOpen xs)
        readCallCounter := Int64.ofNat (numberOf (· = .read) xs)
        writeCallCounter := Int64.ofNat (numberOf (· = .write) xs)
        forkCallCounter := Int64.ofNat (numberOf (· = .clone) xs) } := by
  ext1
  · rw [counter_run CallCounters.openCallCounter Syscall.bumpsOpen fun e c => ?_]
    · exact Int64.zero_add _
    · cases e <;> simp [Syscall.bump, Syscall.bumpsOpen]
  · rw [counter_run CallCounters.readCallCounter (· = .read) fun e c => ?_]
    · exact Int64.zero_add _
    · cases e <;> simp [Syscall.bump]
  · rw [counter_run CallCounters.writeCallCounter (· = .write) fun e c => ?_]
    · exact Int64.zero_add _
    · cases e <;> simp [Syscall.bump]
  · rw [counter_run CallCounters.forkCallCounter (· = .clone) fun e c => ?_]
    · exact Int64.zero_add _
    · cases e <;> simp [Syscall.bump]

/-- A `long` that counts up to `n` is right, when there are `m ≥ n` calls, only if
    all of them are counted and it does not overflow. -/
theorem toInt_ofNat_eq_iff {n m : Nat} (h : n ≤ m) :
    (Int64.ofNat n).toInt = m ↔ n = m ∧ m < 2 ^ 63 := by
  have hmod : (Int64.ofNat n).toInt = Int.bmod n (2 ^ 64) := Int64.toInt_ofNat'
  rw [hmod, Int.bmod_def]
  omega

/-- Some of the calls of a kind are as many as all of them only if there are no
    others. -/
theorem numberOf_le_and_eq_iff (h : ∀ e, q e = true → p e = true) (xs : List Invocation) :
    numberOf q xs ≤ numberOf p xs ∧
      (numberOf q xs = numberOf p xs ↔
        ∀ x ∈ xs, p (syscall64 x.nr) = true → q (syscall64 x.nr) = true) := by
  induction xs with
  | nil => simp [numberOf]
  | cons x xs ih =>
    obtain ⟨hle, hiff⟩ := ih
    have hcons : ∀ r : Syscall → Bool,
        numberOf r (x :: xs) = numberOf r xs + if r (syscall64 x.nr) = true then 1 else 0 :=
      fun r => List.countP_cons
    rw [hcons, hcons, List.forall_mem_cons, ← hiff]
    by_cases hq : q (syscall64 x.nr) = true
    · simp [hq, h _ hq, hle]
    · by_cases hp : p (syscall64 x.nr) = true
      · -- The call is one of the others.
        rw [if_neg hq, if_pos hp]
        refine ⟨by omega, by omega, fun hall => absurd (hall.1 hp) hq⟩
      · rw [if_neg hq, if_neg hp]
        exact ⟨hle, fun heq => ⟨fun h => absurd h hp, heq⟩, fun hall => hall.2⟩

/-- A call of the two families that is not missed is counted. -/
theorem missed_eq_false_iff (e : Syscall) :
    e.missed = false ↔
      (e.opensFile = true → e.bumpsOpen = true) ∧
        (e.createsProcess = true → decide (e = .clone) = true) := by
  cases e <;> decide

/-- The numbers copied out are those of the calls if and only if none of the
    calls was missed, and there were fewer than `2 ^ 63` of each kind. -/
theorem counts_iff (env : Env) (xs : List Invocation) (t : TrackCounters)
    (h : luisTrackSyscallUsage (Machine.run tick .boot xs) env = (0, some t)) :
    Counts t xs ↔
      (∀ x ∈ xs, (syscall64 x.nr).missed = false) ∧
      numberOf (· = .read) xs < 2 ^ 63 ∧ numberOf (· = .write) xs < 2 ^ 63 ∧
      numberOf Syscall.opensFile xs < 2 ^ 63 ∧ numberOf Syscall.createsProcess xs < 2 ^ 63 := by
  rw [luisTrackSyscallUsage, run_boot] at h
  split_ifs at h with hcopy
  · cases h
  · cases h
    obtain ⟨hopen, hopens⟩ := numberOf_le_and_eq_iff (q := Syscall.bumpsOpen)
      (p := Syscall.opensFile) (fun e => by cases e <;> decide) xs
    obtain ⟨hfork, hforks⟩ := numberOf_le_and_eq_iff (q := (· = .clone))
      (p := Syscall.createsProcess) (fun e => by cases e <;> decide) xs
    simp only [missed_eq_false_iff, forall_and, ← hopens, ← hforks]
    constructor
    · rintro ⟨hr, hw, ho, hf⟩
      have hr' := (toInt_ofNat_eq_iff le_rfl).1 hr
      have hw' := (toInt_ofNat_eq_iff le_rfl).1 hw
      have ho' := (toInt_ofNat_eq_iff hopen).1 ho
      have hf' := (toInt_ofNat_eq_iff hfork).1 hf
      exact ⟨⟨ho'.1, hf'.1⟩, hr'.2, hw'.2, ho'.2, hf'.2⟩
    · rintro ⟨⟨ho, hf⟩, hr, hw, ho', hf'⟩
      exact ⟨(toInt_ofNat_eq_iff le_rfl).2 ⟨rfl, hr⟩, (toInt_ofNat_eq_iff le_rfl).2 ⟨rfl, hw⟩,
        (toInt_ofNat_eq_iff hopen).2 ⟨ho, ho'⟩, (toInt_ofNat_eq_iff hfork).2 ⟨hf, hf'⟩⟩

/-- Calls that all succeed. -/
def Answers.fine : Answers := ⟨10, 10, 3, 100, 0, 0, true, 0⟩

/-- An open, a read and a clone are counted. -/
theorem counts_iff_three :
    Counts ⟨1, 1, 0, 1⟩ [⟨2, 0, .fine⟩, ⟨0, 0, .fine⟩, ⟨56, 0, .fine⟩] := by
  refine (counts_iff Env.quiet [⟨2, 0, .fine⟩, ⟨0, 0, .fine⟩, ⟨56, 0, .fine⟩] ⟨1, 1, 0, 1⟩ rfl).2 ?_
  decide

/-- A fork and an `openat2` are not. -/
theorem counts_missed :
    luisTrackSyscallUsage
        (Machine.run tick .boot [⟨57, 0, .fine⟩, ⟨437, 24, .fine⟩]) Env.quiet =
      (0, some ⟨0, 0, 0, 0⟩) ∧
    ¬Counts ⟨0, 0, 0, 0⟩ [⟨57, 0, .fine⟩, ⟨437, 24, .fine⟩] := by
  refine ⟨rfl, fun h => ?_⟩
  exact absurd h.forks (by decide)

end LuisKernel
