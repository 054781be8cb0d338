import LuisKernel.Keyed
import LuisKernel.Rlimit

/-!
# The registry of memory limits

The system calls of `kernel/fase3/syscall3.c`. They keep a list of processes,
each with the limit imposed on its address space, and impose it through
`do_prlimit`:

* `luis_add_memory_limit` limits a process not yet listed and lists it;
* `luis_update_memory_limit` changes the limit of a listed process;
* `luis_remove_memory_limit` gives a listed process the fixed limit of 110 MiB
  and takes it off the list;
* `luis_get_memory_limits` copies the front of the list to user memory.

The block that checks the arguments of `luis_add_memory_limit` is closed right
after its `return`, as in the listing of the function in
`Documentacion_fase3/README.md`; the source file lacks this brace.

A node is found by its process id, so the list is searched and changed through
the operations of `Keyed`, under the key `MemoryLimitation.pid`.
-/

namespace LuisKernel

/-! ## The helpers -/

/-- `set_process_memory_limit`. -/
def setProcessMemoryLimit (env : Env) (task : TaskStruct) (memoryLimit : SizeT) (s : State) :
    Int × State :=
  match doPrlimit env task RLIMIT_AS (some ⟨memoryLimit, memoryLimit⟩) s with
  | (ret, _, s') => (ret, s')

/-- `find_node_by_pid`. -/
def findNodeByPid (pid : PidT) (head : List MemoryLimitation) : Option MemoryLimitation :=
  Keyed.find MemoryLimitation.pid pid head

def PAGE_SHIFT : UInt64 := 12

/-- `get_process_memory_usage`: a task without an `mm` uses nothing. -/
def getProcessMemoryUsage (env : Env) (task : TaskStruct) : SizeT :=
  match env.totalVm task with
  | none => 0
  | some totalVm => totalVm <<< PAGE_SHIFT

/-- `add_memory_limitation_node`. -/
def addMemoryLimitationNode (env : Env) (pid : PidT) (memoryLimit : SizeT) (s : State) :
    Int × State :=
  -- The caller has made this search already.
  if (findNodeByPid pid s.head).isSome then (-101, s)
  else if env.kmalloc = false then (-ENOMEM, s)
  else (0, { s with head := ⟨pid, memoryLimit⟩ :: s.head })

/-- The assignment `node->node.memory_limit = memory_limit`. -/
def MemoryLimitation.setLimit (memoryLimit : SizeT) (node : MemoryLimitation) : MemoryLimitation :=
  { node with memoryLimit := memoryLimit }

/-- The limit that `luis_remove_memory_limit` imposes. -/
def removedLimit : SizeT := 110 * 1024 * 1024

/-! ## The system calls -/

/-- `luis_add_memory_limit`. -/
def luisAddMemoryLimit (env : Env) (processPid : PidT) (memoryLimit : SizeT) (s : State) :
    Int × State :=
  if env.capable .sysAdmin = false then (-EPERM, s)
  else if processPid ≤ 0 ∨ memoryLimit ≤ 0 then (-EINVAL, s)
  else
    -- The block of the last `if` is closed here.
    match env.findTaskByVpid processPid with
    | none => (-ESRCH, s)
    | some task =>
      if (findNodeByPid processPid s.head).isSome then (-101, s)
      else if getProcessMemoryUsage env task > memoryLimit then (-100, s)
      else
        match setProcessMemoryLimit env task memoryLimit s with
        | (ret, s') =>
          -- The limit is set by now, whether or not the node can be added.
          if ret ≠ 0 then (ret, s') else addMemoryLimitationNode env processPid memoryLimit s'

/-- `luis_update_memory_limit`. -/
def luisUpdateMemoryLimit (env : Env) (processPid : PidT) (memoryLimit : SizeT) (s : State) :
    Int × State :=
  if env.capable .sysAdmin = false then (-EPERM, s)
  else if processPid ≤ 0 ∨ memoryLimit ≤ 0 then (-EINVAL, s)
  else
    match env.findTaskByVpid processPid with
    | none => (-ESRCH, s)
    | some task =>
      if (findNodeByPid processPid s.head).isNone then (-102, s)
      else if getProcessMemoryUsage env task > memoryLimit then (-100, s)
      else
        match setProcessMemoryLimit env task memoryLimit s with
        | (ret, s') =>
          if ret ≠ 0 then (ret, s')
          else
            -- The write goes to the node found above, the first of this process id.
            let head := Keyed.write MemoryLimitation.pid processPid (.setLimit memoryLimit) s'.head
            (0, { s' with head := head })

/-- `luis_remove_memory_limit`. -/
def luisRemoveMemoryLimit (env : Env) (processPid : PidT) (s : State) : Int × State :=
  if env.capable .sysAdmin = false then (-EPERM, s)
  else if processPid ≤ 0 then (-EINVAL, s)
  else
    match env.findTaskByVpid processPid with
    | none => (-ESRCH, s)
    | some task =>
      if (findNodeByPid processPid s.head).isNone then (-102, s)
      else
        -- Unlike the other two calls, no look at the memory in use.
        match setProcessMemoryLimit env task removedLimit s with
        | (ret, s') =>
          if ret ≠ 0 then (ret, s')
          else (0, { s' with head := Keyed.erase MemoryLimitation.pid processPid s'.head })

/-- The buffer of `luis_get_memory_limits` while it is filled: the number of
    entries in it, and the entries stored, each with its index. -/
structure Fill where
  count : Int32
  stores : List (Int32 × MemoryLimitation)
  deriving DecidableEq, Repr

/-- The loop of `luis_get_memory_limits` over the list. In the comparison with
    `max_entries`, `count` is converted to `size_t`. -/
def fillBuffer (maxEntries : SizeT) : List MemoryLimitation → Fill → Fill
  | [], f => f
  | entry :: rest, f =>
    if f.count.toInt64.toUInt64 ≥ maxEntries then f
    else fillBuffer maxEntries rest ⟨f.count + 1, f.stores ++ [(f.count, entry)]⟩

/-- `sizeof(struct memory_limitation)` and `sizeof(int)`. -/
def sizeofMemoryLimitation : SizeT := 16
def sizeofInt : SizeT := 4

/-- `luis_get_memory_limits`: the return value, what was copied to
    `u_processes_buffer` and what was stored through `processes_buffer_size`.
    What a copy that fails halfway leaves in user memory is not modelled. -/
def luisGetMemoryLimits (env : Env) (uProcessesBuffer : UInt64) (maxEntries : SizeT)
    (processesBufferSize : UInt64) (s : State) : Int × Option Fill × Option Int32 :=
  if maxEntries ≤ 0 then (-EINVAL, none, none)
  else if env.accessOk uProcessesBuffer (maxEntries * sizeofMemoryLimitation) = false ∨
      env.accessOk processesBufferSize sizeofInt = false then (-EINVAL, none, none)
  else if env.kmallocArray maxEntries sizeofMemoryLimitation = false then (-ENOMEM, none, none)
  else
    let buffer := fillBuffer maxEntries s.head ⟨0, []⟩
    -- The entries are copied before the count, and stay copied if that fails.
    if env.copyToUser = false then (-EFAULT, none, none)
    else if env.putUser = false then (-EFAULT, some buffer, none)
    else (0, some buffer, some buffer.count)

/-! ## The calls that change the registry -/

/-- A call of one of the three system calls that change the registry. -/
inductive Call
  | add (processPid : PidT) (memoryLimit : SizeT)
  | update (processPid : PidT) (memoryLimit : SizeT)
  | remove (processPid : PidT)
  deriving DecidableEq, Repr

namespace Call

/-- The return value of the call, and the state after it. -/
def exec (env : Env) : Call → State → Int × State
  | add processPid memoryLimit => luisAddMemoryLimit env processPid memoryLimit
  | update processPid memoryLimit => luisUpdateMemoryLimit env processPid memoryLimit
  | remove processPid => luisRemoveMemoryLimit env processPid

/-- The process id the call is about. -/
def pid : Call → PidT
  | add p _ => p
  | update p _ => p
  | remove p => p

/-- The limit the call passes to `do_prlimit`. -/
def limit : Call → SizeT
  | add _ v => v
  | update _ v => v
  | remove _ => removedLimit

/-- Whether the call is an add, the one call that wants its process not listed
    yet, and that allocates a node. -/
def isAdd : Call → Bool
  | add _ _ => true
  | _ => false

/-- Whether the call is a remove, the one call that does not look at the memory
    the process uses. -/
def isRemove : Call → Bool
  | remove _ => true
  | _ => false

/-- The error of a call that does not find its process in the list as it wants. -/
def mismatch (c : Call) : Int := if c.isAdd then -101 else -102

/-- The checks a call makes before it changes anything: an error, or the task
    whose limit it sets. -/
def checks (env : Env) (c : Call) (head : List MemoryLimitation) : Except Int TaskStruct :=
  if env.capable .sysAdmin = false then .error (-EPERM)
  else if c.pid ≤ 0 ∨ c.limit ≤ 0 then .error (-EINVAL)
  else
    match env.findTaskByVpid c.pid with
    | none => .error (-ESRCH)
    | some task =>
      if (findNodeByPid c.pid head).isSome = c.isAdd then .error c.mismatch
      else if c.isRemove = false ∧ getProcessMemoryUsage env task > c.limit then .error (-100)
      else .ok task

/-- What a successful call does to the list. -/
def apply : Call → List MemoryLimitation → List MemoryLimitation
  | add p v, head => ⟨p, v⟩ :: head
  | update p v, head => Keyed.write MemoryLimitation.pid p (.setLimit v) head
  | remove p, head => Keyed.erase MemoryLimitation.pid p head

end Call

end LuisKernel
