import Mathlib.Logic.Function.Basic

/-!
# The kernel around the registry

The data of the kernel that the system calls of the project read and write, and
what the rest of the kernel answers to them.

* A task (`TaskStruct`) points to the `signal_struct` it shares with the other
  threads of its group; the resource limits are an array of this structure, so
  all threads of a group have the same ones.
* The state (`State`) is the list of memory limitations and the resource limits
  of every `signal_struct`.
* Everything else a call depends on is the answer of code outside the project:
  the capabilities of the caller, the table of process ids, the memory of a
  task, the security hooks, the allocator, and the copies from and to user
  memory. The answers given during one call are an `Env`; no assumption is made
  about them.

System calls return an `int`, `0` or a negative error number, modelled by an
`Int`.
-/

namespace LuisKernel

/-- `pid_t`. -/
abbrev PidT := Int32

/-- `size_t`, and the `unsigned long` of a resource limit. -/
abbrev SizeT := UInt64

/-! ## Error numbers -/

def EPERM : Int := 1
def ESRCH : Int := 3
def ENOMEM : Int := 12
def EFAULT : Int := 14
def EINVAL : Int := 22

/-! ## Resource limits -/

/-- `struct rlimit`. -/
structure Rlimit where
  rlimCur : SizeT
  rlimMax : SizeT
  deriving DecidableEq, Repr

/-- The number of resources, the bound of the array `rlim`. -/
def RLIM_NLIMITS : Nat := 16

/-- A resource that passed the bounds check. -/
abbrev Resource := Fin RLIM_NLIMITS

def RLIMIT_NOFILE : UInt32 := 7
def RLIMIT_AS : UInt32 := 9

/-- The index of `RLIMIT_AS` in the array `rlim`. -/
def addressSpace : Resource := ⟨9, by decide⟩

/-! ## Tasks -/

/-- `struct task_struct`: the task, told apart from all others by `id`, and the
    `signal_struct` of its thread group. -/
structure TaskStruct where
  id : Nat
  signal : Nat
  deriving DecidableEq, Repr

/-- The user and group ids of `struct cred`. -/
structure Cred where
  uid : Nat
  euid : Nat
  suid : Nat
  gid : Nat
  egid : Nat
  sgid : Nat
  deriving DecidableEq, Repr

/-- The capabilities the calls ask for. -/
inductive Capability
  | sysAdmin
  | sysResource
  deriving DecidableEq, Repr

/-! ## The registry and the limits -/

/-- `struct memory_limitation`. -/
structure MemoryLimitation where
  pid : PidT
  memoryLimit : SizeT
  deriving DecidableEq, Repr

/-- The state: `memory_limitation_head`, from its first node on, and the array
    `rlim` of every `signal_struct`. -/
structure State where
  head : List MemoryLimitation
  rlim : Nat → Resource → Rlimit

namespace State

variable (s : State)

/-- The limit on the address space of a thread group. -/
def limitAs (signal : Nat) : Rlimit := s.rlim signal addressSpace

/-- Storing a limit in the array of a thread group. -/
def setRlim (signal : Nat) (resource : Resource) (r : Rlimit) : State :=
  { s with rlim := Function.update s.rlim signal (Function.update (s.rlim signal) resource r) }

variable {s} {signal signal' : Nat} {resource : Resource} {r : Rlimit}

theorem rlim_setRlim : (s.setRlim signal resource r).rlim =
    Function.update s.rlim signal (Function.update (s.rlim signal) resource r) := rfl

theorem rlim_setRlim_self : (s.setRlim signal resource r).rlim signal resource = r := by
  rw [rlim_setRlim, Function.update_self, Function.update_self]

theorem rlim_setRlim_of_ne (h : signal' ≠ signal) :
    (s.setRlim signal resource r).rlim signal' = s.rlim signal' := by
  rw [rlim_setRlim, Function.update_of_ne h]

theorem limitAs_setRlim_self : (s.setRlim signal addressSpace r).limitAs signal = r :=
  rlim_setRlim_self

theorem limitAs_setRlim_of_ne (h : signal' ≠ signal) :
    (s.setRlim signal resource r).limitAs signal' = s.limitAs signal' := by
  rw [limitAs, rlim_setRlim_of_ne h, limitAs]

/-- The other resources do not matter to the address space. -/
theorem limitAs_setRlim_of_resource_ne (h : resource ≠ addressSpace) :
    (s.setRlim signal resource r).limitAs signal' = s.limitAs signal' := by
  by_cases hs : signal' = signal
  · rw [hs, limitAs, rlim_setRlim, Function.update_self, Function.update_of_ne h.symm, limitAs]
  · exact limitAs_setRlim_of_ne hs

end State

/-! ## The environment of a call -/

/-- What the rest of the kernel answers during one system call. -/
structure Env where
  /-- `capable`, for the caller. -/
  capable : Capability → Bool
  /-- `current`. -/
  current : TaskStruct
  /-- `find_task_by_vpid`. -/
  findTaskByVpid : PidT → Option TaskStruct
  /-- The `total_vm`, in pages, of the `mm` that `get_task_mm` returns, if any. -/
  totalVm : TaskStruct → Option SizeT
  /-- `security_task_setrlimit`. -/
  securityTaskSetrlimit : TaskStruct → Resource → Rlimit → Int
  /-- `security_task_prlimit`, as asked by `check_prlimit_permission`. -/
  securityTaskPrlimit : TaskStruct → Int
  /-- `__task_cred`, also for `current`. -/
  taskCred : TaskStruct → Cred
  /-- `ns_capable` for `CAP_SYS_RESOURCE`, in the user namespace of a task. -/
  nsCapable : TaskStruct → Bool
  /-- `sysctl_nr_open`. -/
  sysctlNrOpen : SizeT
  /-- Whether `kmalloc` finds memory. -/
  kmalloc : Bool
  /-- Whether `kmalloc_array` finds memory for so many objects of a size. -/
  kmallocArray : SizeT → SizeT → Bool
  /-- `access_ok`, for an address and a length. -/
  accessOk : UInt64 → SizeT → Bool
  /-- Whether `copy_from_user` copies everything. -/
  copyFromUser : Bool
  /-- Whether `copy_to_user` copies everything. -/
  copyToUser : Bool
  /-- Whether `put_user` succeeds. -/
  putUser : Bool

namespace Env

/-- The same answers, with another table of process ids. -/
def withTasks (env : Env) (tasks : PidT → Option TaskStruct) : Env :=
  { env with findTaskByVpid := tasks }

/-- A caller with all capabilities, in a kernel without processes where nothing
    fails. -/
def quiet : Env where
  capable _ := true
  current := ⟨0, 0⟩
  findTaskByVpid _ := none
  totalVm _ := none
  securityTaskSetrlimit _ _ _ := 0
  securityTaskPrlimit _ := 0
  taskCred _ := ⟨0, 0, 0, 0, 0, 0⟩
  nsCapable _ := true
  sysctlNrOpen := 1048576
  kmalloc := true
  kmallocArray _ _ := true
  accessOk _ _ := true
  copyFromUser := true
  copyToUser := true
  putUser := true

end Env

/-- The table of the one process `7`. -/
def oneProcess (p : PidT) : Option TaskStruct := if p = 7 then some ⟨7, 1⟩ else none

end LuisKernel
