import LuisKernel.Machine
import LuisKernel.Ledger
import LuisKernel.CpuStats
import LuisKernel.Registry.Outcome

/-!
# What the calls hold

The calls once more, with what they take from the rest of the kernel and give back:
the buffer of `luis_get_memory_limits`, the reference to the `mm` of a process, the
nodes of the registry, the file `/proc/stat`, and the reference to a path that
`/proc/disk_stats` takes. The computations are those of the other modules
(`value_perform`, `value_luisGetMemoryLimits`).

Between the calls, only the nodes of the registry should be held, one for each entry
of the list. All calls keep to this on all paths but one: `proc_show` of `disk_stats`
never puts the path that `kern_path` gave it. So a run keeps to it exactly if no
reading of the file finds its path (`clean_iff`).
-/

namespace LuisKernel

namespace Resources

open Ledger

/-- What the calls take and give back. -/
inductive Holding
  /-- `k_processes_buffer`. -/
  | buffer
  /-- A reference to the `mm` of a task. -/
  | mm (task : TaskStruct)
  /-- The node of a process in the registry. -/
  | node (pid : PidT)
  /-- The file `/proc/stat`. -/
  | file
  /-- A reference to the path `/`. -/
  | path
  deriving DecidableEq

/-! ## The registry -/

/-- `get_process_memory_usage`: the reference of `get_task_mm` is dropped by `mmput`. -/
def getProcessMemoryUsage (env : Env) (task : TaskStruct) : Traced Holding SizeT :=
  match env.totalVm task with
  | none => pure 0
  | some totalVm => do
    acquire (.mm task)
    release (.mm task)
    return totalVm <<< PAGE_SHIFT

/-- `add_memory_limitation_node`: the node stays in the list. -/
def addMemoryLimitationNode (env : Env) (pid : PidT) (memoryLimit : SizeT) (s : State) :
    Traced Holding (Int × State) :=
  if (findNodeByPid pid s.head).isSome then pure (-101, s)
  else if env.kmalloc = false then pure (-ENOMEM, s)
  else do
    acquire (.node pid)
    return (0, { s with head := ⟨pid, memoryLimit⟩ :: s.head })

/-- `luis_add_memory_limit`. -/
def luisAddMemoryLimit (env : Env) (processPid : PidT) (memoryLimit : SizeT) (s : State) :
    Traced Holding (Int × State) :=
  if env.capable .sysAdmin = false then pure (-EPERM, s)
  else if processPid ≤ 0 ∨ memoryLimit ≤ 0 then pure (-EINVAL, s)
  else
    match env.findTaskByVpid processPid with
    | none => pure (-ESRCH, s)
    | some task =>
      if (findNodeByPid processPid s.head).isSome then pure (-101, s)
      else do
        let currentMemoryUsage ← getProcessMemoryUsage env task
        if currentMemoryUsage > memoryLimit then pure (-100, s)
        else
          match setProcessMemoryLimit env task memoryLimit s with
          | (ret, s') =>
            if ret ≠ 0 then pure (ret, s')
            else addMemoryLimitationNode env processPid memoryLimit s'

/-- `luis_update_memory_limit`. -/
def luisUpdateMemoryLimit (env : Env) (processPid : PidT) (memoryLimit : SizeT) (s : State) :
    Traced Holding (Int × State) :=
  if env.capable .sysAdmin = false then pure (-EPERM, s)
  else if processPid ≤ 0 ∨ memoryLimit ≤ 0 then pure (-EINVAL, s)
  else
    match env.findTaskByVpid processPid with
    | none => pure (-ESRCH, s)
    | some task =>
      if (findNodeByPid processPid s.head).isNone then pure (-102, s)
      else do
        let memoryUsage ← getProcessMemoryUsage env task
        if memoryUsage > memoryLimit then pure (-100, s)
        else
          match setProcessMemoryLimit env task memoryLimit s with
          | (ret, s') =>
            if ret ≠ 0 then pure (ret, s')
            else
              let head :=
                Keyed.write MemoryLimitation.pid processPid (.setLimit memoryLimit) s'.head
              pure (0, { s' with head := head })

/-- `luis_remove_memory_limit`: the node is freed. -/
def luisRemoveMemoryLimit (env : Env) (processPid : PidT) (s : State) :
    Traced Holding (Int × State) :=
  if env.capable .sysAdmin = false then pure (-EPERM, s)
  else if processPid ≤ 0 then pure (-EINVAL, s)
  else
    match env.findTaskByVpid processPid with
    | none => pure (-ESRCH, s)
    | some task =>
      if (findNodeByPid processPid s.head).isNone then pure (-102, s)
      else
        match setProcessMemoryLimit env task removedLimit s with
        | (ret, s') =>
          if ret ≠ 0 then pure (ret, s')
          else do
            release (.node processPid)
            return (0, { s' with head := Keyed.erase MemoryLimitation.pid processPid s'.head })

/-- A call of one of the three. -/
def exec (env : Env) : Call → State → Traced Holding (Int × State)
  | .add processPid memoryLimit => luisAddMemoryLimit env processPid memoryLimit
  | .update processPid memoryLimit => luisUpdateMemoryLimit env processPid memoryLimit
  | .remove processPid => luisRemoveMemoryLimit env processPid

/-- `luis_get_memory_limits`: the buffer is freed on both paths. -/
def luisGetMemoryLimits (env : Env) (uProcessesBuffer : UInt64) (maxEntries : SizeT)
    (processesBufferSize : UInt64) (s : State) :
    Traced Holding (Int × Option Fill × Option Int32) :=
  if maxEntries ≤ 0 then pure (-EINVAL, none, none)
  else if env.accessOk uProcessesBuffer (maxEntries * sizeofMemoryLimitation) = false ∨
      env.accessOk processesBufferSize sizeofInt = false then pure (-EINVAL, none, none)
  else if env.kmallocArray maxEntries sizeofMemoryLimitation = false then
    pure (-ENOMEM, none, none)
  else do
    acquire .buffer
    let buffer := fillBuffer maxEntries s.head ⟨0, []⟩
    if env.copyToUser = false then do
      release .buffer
      return (-EFAULT, none, none)
    else do
      release .buffer
      if env.putUser = false then pure (-EFAULT, some buffer, none)
      else pure (0, some buffer, some buffer.count)

/-! ## The CPU -/

/-- A function that reads `/proc/stat`: it closes the file before it looks at what it read. -/
def reading (time : CpuStats.Reading (List Char) → UInt64) (r : CpuStats.Reading (List Char)) :
    Traced Holding UInt64 :=
  match r with
  | .openFails => pure (time .openFails)
  | r => do
    acquire .file
    release .file
    return time r

def getCpuIdleTime : CpuStats.Reading (List Char) → Traced Holding UInt64 :=
  reading CpuStats.getCpuIdleTime

def getCpuTotalTime : CpuStats.Reading (List Char) → Traced Holding UInt64 :=
  reading CpuStats.getCpuTotalTime

/-- `calculate_cpu_usage`. -/
def calculateCpuUsage (s : CpuStats.Prev) (r : CpuStats.Readings) :
    Traced Holding (Option Int32 × CpuStats.Prev) := do
  let idleTime ← getCpuIdleTime r.1
  let totalTime ← getCpuTotalTime r.2
  if idleTime = -1 ∨ totalTime = -1 then pure (some (-1), s)
  else
    pure (CpuStats.cpuUsage (idleTime - s.prevIdleTime) (totalTime - s.prevTotalTime),
      ⟨idleTime, totalTime⟩)

/-- `show_cpu_stats`. -/
def showCpuStats (s : CpuStats.Prev) (r : CpuStats.Readings) :
    Traced Holding (Option String × CpuStats.Prev) := do
  let usage ← calculateCpuUsage s r
  return (usage.1.map CpuStats.usageLine, usage.2)

/-! ## The disk -/

/-- What is read of a `struct kstatfs`. -/
structure Kstatfs where
  fBsize : Int64
  fBlocks : UInt64
  fBfree : UInt64
  deriving DecidableEq, Repr

/-- What `kern_path` and `vfs_statfs` return to a reading of `/proc/disk_stats`, and the
    statistics. -/
structure Disk where
  kernPath : Int32
  vfsStatfs : Int32
  stat : Kstatfs
  deriving DecidableEq, Repr

def mountPoint : String := "/"

/-- `proc_show` of `disk_stats`. -/
def procShow (d : Disk) : Traced Holding (Int32 × String) :=
  if d.kernPath ≠ 0 then
    pure (d.kernPath,
      "Error al obtener el path de " ++ mountPoint ++ ": " ++ toString d.kernPath.toInt ++ "\n")
  else do
    -- The reference is taken here, and never put.
    acquire .path
    if d.vfsStatfs ≠ 0 then
      pure (d.vfsStatfs,
        "Error al obtener estadísticas de " ++ mountPoint ++ ": " ++ toString d.vfsStatfs.toInt ++
          "\n")
    else
      let freeSpace := d.stat.fBsize.toUInt64 * d.stat.fBfree
      let totalSpace := d.stat.fBsize.toUInt64 * d.stat.fBlocks
      pure (0, "Punto de montaje: " ++ mountPoint ++ "\n" ++
        "Espacio total: " ++ toString totalSpace ++ " bytes\n" ++
        "Espacio libre: " ++ toString freeSpace ++ " bytes\n")

/-! ## The values are those of the model -/

section

variable (env : Env) (s : State)

theorem value_getProcessMemoryUsage (task : TaskStruct) :
    (getProcessMemoryUsage env task).value = LuisKernel.getProcessMemoryUsage env task := by
  rw [getProcessMemoryUsage, LuisKernel.getProcessMemoryUsage]
  rcases env.totalVm task with _ | totalVm
  · rfl
  · rfl

theorem value_addMemoryLimitationNode (pid : PidT) (memoryLimit : SizeT) :
    (addMemoryLimitationNode env pid memoryLimit s).value =
      LuisKernel.addMemoryLimitationNode env pid memoryLimit s := by
  simp [addMemoryLimitationNode, LuisKernel.addMemoryLimitationNode]

theorem value_exec (c : Call) : (exec env c s).value = c.exec env s := by
  cases c with
  | add processPid memoryLimit =>
    rw [exec, luisAddMemoryLimit, Call.exec, LuisKernel.luisAddMemoryLimit]
    rcases env.findTaskByVpid processPid with _ | task
    · simp
    · simp [value_getProcessMemoryUsage, value_addMemoryLimitationNode]
  | update processPid memoryLimit =>
    rw [exec, luisUpdateMemoryLimit, Call.exec, LuisKernel.luisUpdateMemoryLimit]
    rcases env.findTaskByVpid processPid with _ | task
    · simp
    · simp [value_getProcessMemoryUsage]
  | remove processPid =>
    rw [exec, luisRemoveMemoryLimit, Call.exec, LuisKernel.luisRemoveMemoryLimit]
    rcases env.findTaskByVpid processPid with _ | task
    · simp
    · simp

theorem value_luisGetMemoryLimits (uProcessesBuffer : UInt64) (maxEntries : SizeT)
    (processesBufferSize : UInt64) :
    (luisGetMemoryLimits env uProcessesBuffer maxEntries processesBufferSize s).value =
      LuisKernel.luisGetMemoryLimits env uProcessesBuffer maxEntries processesBufferSize s := by
  simp [luisGetMemoryLimits, LuisKernel.luisGetMemoryLimits]

end

theorem value_reading (time : CpuStats.Reading (List Char) → UInt64)
    (r : CpuStats.Reading (List Char)) :
    (reading time r).value = time r := by
  cases r with
  | openFails => rfl
  | readFails => rfl
  | reads text => rfl

theorem value_showCpuStats (s : CpuStats.Prev) (r : CpuStats.Readings) :
    (showCpuStats s r).value = CpuStats.showCpuStats s r := by
  have husage : (calculateCpuUsage s r).value = CpuStats.calculateCpuUsage s r := by
    simp [calculateCpuUsage, CpuStats.calculateCpuUsage, getCpuIdleTime, getCpuTotalTime,
      value_reading]
  simp [showCpuStats, CpuStats.showCpuStats, husage]

/-! ## What is held after a call -/

/-- The nodes of the registry, one for each entry of the list. -/
def nodes (head : List MemoryLimitation) : Multiset Holding :=
  ((head.map MemoryLimitation.pid).map Holding.node : List Holding)

section

variable {env : Env} {s : State} {task : TaskStruct} {pid : PidT} {memoryLimit : SizeT}

theorem nodes_cons (n : MemoryLimitation) (head : List MemoryLimitation) :
    nodes (n :: head) = .node n.pid ::ₘ nodes head := rfl

/-- Changing the limits of nodes leaves the nodes. -/
theorem nodes_write (head : List MemoryLimitation) :
    nodes (Keyed.write MemoryLimitation.pid pid (.setLimit memoryLimit) head) = nodes head := by
  have hpid : ∀ n, (MemoryLimitation.setLimit memoryLimit n).pid = n.pid := fun _ => rfl
  rw [nodes, Keyed.map_key_write hpid, nodes]

/-- The node that is taken off the list was one of them. -/
theorem nodes_erase {head : List MemoryLimitation} (h : (findNodeByPid pid head).isSome) :
    nodes head = .node pid ::ₘ nodes (Keyed.erase MemoryLimitation.pid pid head) := by
  obtain ⟨n, hn, hpid⟩ := Keyed.isSome_find_iff.1 h
  have hmem : pid ∈ head.map MemoryLimitation.pid := hpid ▸ List.mem_map_of_mem hn
  rw [nodes, nodes, Keyed.map_key_erase, Multiset.cons_coe]
  exact Multiset.coe_eq_coe.2 ((List.perm_cons_erase hmem).map Holding.node)

theorem balanced_getProcessMemoryUsage (env : Env) (task : TaskStruct) :
    Balanced (getProcessMemoryUsage env task) := by
  rw [getProcessMemoryUsage]
  rcases env.totalVm task with _ | totalVm
  · exact balanced_pure _
  · exact balanced_acquire_release _ (balanced_pure _)

/-- Setting the limit leaves the list. -/
theorem exists_setProcessMemoryLimit (env : Env) (task : TaskStruct) (v : SizeT) (s : State) :
    ∃ ret s', setProcessMemoryLimit env task v s = (ret, s') ∧ s'.head = s.head := by
  rw [setProcessMemoryLimit_eq]
  split_ifs
  · exact ⟨_, _, rfl, rfl⟩
  · exact ⟨_, _, rfl, rfl⟩

theorem triple_addMemoryLimitationNode :
    Triple (nodes s.head) (addMemoryLimitationNode env pid memoryLimit s)
      fun r => nodes r.2.head := by
  rw [addMemoryLimitationNode]
  refine triple_ite (fun _ => triple_pure rfl) fun _ => ?_
  refine triple_ite (fun _ => triple_pure rfl) fun _ => ?_
  exact (triple_acquire _ _).bind (triple_pure (nodes_cons _ _))

theorem triple_luisAddMemoryLimit :
    Triple (nodes s.head) (luisAddMemoryLimit env pid memoryLimit s) fun r => nodes r.2.head := by
  rw [luisAddMemoryLimit]
  refine triple_ite (fun _ => triple_pure rfl) fun _ => ?_
  refine triple_ite (fun _ => triple_pure rfl) fun _ => ?_
  rcases env.findTaskByVpid pid with _ | task
  · exact triple_pure rfl
  refine triple_ite (fun _ => triple_pure rfl) fun _ => ?_
  refine (balanced_getProcessMemoryUsage env task).bind_triple ?_
  refine triple_ite (fun _ => triple_pure rfl) fun _ => ?_
  obtain ⟨ret, s', hset, hhead⟩ := exists_setProcessMemoryLimit env task memoryLimit s
  rw [hset, ← hhead]
  exact triple_ite (fun _ => triple_pure rfl) fun _ => triple_addMemoryLimitationNode

theorem triple_luisUpdateMemoryLimit :
    Triple (nodes s.head) (luisUpdateMemoryLimit env pid memoryLimit s)
      fun r => nodes r.2.head := by
  rw [luisUpdateMemoryLimit]
  refine triple_ite (fun _ => triple_pure rfl) fun _ => ?_
  refine triple_ite (fun _ => triple_pure rfl) fun _ => ?_
  rcases env.findTaskByVpid pid with _ | task
  · exact triple_pure rfl
  refine triple_ite (fun _ => triple_pure rfl) fun _ => ?_
  refine (balanced_getProcessMemoryUsage env task).bind_triple ?_
  refine triple_ite (fun _ => triple_pure rfl) fun _ => ?_
  obtain ⟨ret, s', hset, hhead⟩ := exists_setProcessMemoryLimit env task memoryLimit s
  rw [hset, ← hhead]
  exact triple_ite (fun _ => triple_pure rfl) fun _ => triple_pure (nodes_write _)

theorem triple_luisRemoveMemoryLimit :
    Triple (nodes s.head) (luisRemoveMemoryLimit env pid s) fun r => nodes r.2.head := by
  rw [luisRemoveMemoryLimit]
  refine triple_ite (fun _ => triple_pure rfl) fun _ => ?_
  refine triple_ite (fun _ => triple_pure rfl) fun _ => ?_
  rcases env.findTaskByVpid pid with _ | task
  · exact triple_pure rfl
  refine triple_ite (fun _ => triple_pure rfl) fun hlisted => ?_
  obtain ⟨ret, s', hset, hhead⟩ := exists_setProcessMemoryLimit env task removedLimit s
  have hsome : (findNodeByPid pid s'.head).isSome = true := by
    rw [hhead, Option.isSome_iff_ne_none]
    simpa using hlisted
  rw [hset, ← hhead]
  refine triple_ite (fun _ => triple_pure rfl) fun _ => ?_
  rw [nodes_erase hsome]
  exact (triple_release _ _).bind (triple_pure rfl)

/-- The three calls take and give back nodes only, as they change the list. -/
theorem triple_exec (env : Env) (c : Call) (s : State) :
    Triple (nodes s.head) (exec env c s) fun r => nodes r.2.head := by
  cases c with
  | add processPid memoryLimit => exact triple_luisAddMemoryLimit
  | update processPid memoryLimit => exact triple_luisUpdateMemoryLimit
  | remove processPid => exact triple_luisRemoveMemoryLimit

theorem balanced_luisGetMemoryLimits (uProcessesBuffer : UInt64) (maxEntries : SizeT)
    (processesBufferSize : UInt64) :
    Balanced (luisGetMemoryLimits env uProcessesBuffer maxEntries processesBufferSize s) := by
  rw [luisGetMemoryLimits]
  refine balanced_ite (balanced_pure _) (balanced_ite (balanced_pure _)
    (balanced_ite (balanced_pure _) ?_))
  by_cases hcopy : env.copyToUser = false
  · rw [if_pos hcopy]
    exact balanced_acquire_release _ (balanced_pure _)
  · rw [if_neg hcopy]
    exact balanced_acquire_release _ (balanced_ite (balanced_pure _) (balanced_pure _))

end

theorem balanced_reading (time : CpuStats.Reading (List Char) → UInt64)
    (r : CpuStats.Reading (List Char)) :
    Balanced (reading time r) := by
  cases r with
  | openFails => exact balanced_pure _
  | readFails => exact balanced_acquire_release _ (balanced_pure _)
  | reads text => exact balanced_acquire_release _ (balanced_pure _)

theorem balanced_showCpuStats (s : CpuStats.Prev) (r : CpuStats.Readings) :
    Balanced (showCpuStats s r) := by
  have husage : Balanced (calculateCpuUsage s r) := by
    refine (balanced_reading _ r.1).bind ((balanced_reading _ r.2).bind ?_)
    exact balanced_ite (balanced_pure _) (balanced_pure _)
  exact husage.bind (balanced_pure _)

theorem balanced_procShow {d : Disk} (h : d.kernPath ≠ 0) : Balanced (procShow d) := by
  rw [procShow, if_pos h]
  exact balanced_pure _

/-- Once `kern_path` has succeeded, the path is held, whatever follows. -/
theorem triple_procShow {d : Disk} (h : d.kernPath = 0) (held : Multiset Holding) :
    Triple held (procShow d) fun _ => .path ::ₘ held := by
  rw [procShow, if_neg (not_not.2 h)]
  refine (triple_acquire _ _).bind ?_
  exact triple_ite (fun _ => triple_pure rfl) fun _ => triple_pure rfl

/-! ## Runs -/

/-- The registry, the variables of `cpu_stats`, and what is held, unless something was given back
    that was not. -/
structure World where
  registry : State
  prev : CpuStats.Prev
  held : Option (Multiset Holding)

/-- The calls, each with what the rest of the kernel does during it. -/
inductive Event
  | call (env : Env) (c : Call)
  | get (env : Env) (uProcessesBuffer : UInt64) (maxEntries : SizeT) (processesBufferSize : UInt64)
  | cpuStats (r : CpuStats.Readings)
  | diskStats (d : Disk)

/-- What a call does to the registry and the variables. -/
def perform (w : World) : Event → Traced Holding (State × CpuStats.Prev)
  | .call env c => do
    let r ← exec env c w.registry
    return (r.2, w.prev)
  | .get env uProcessesBuffer maxEntries processesBufferSize => do
    let _ ← luisGetMemoryLimits env uProcessesBuffer maxEntries processesBufferSize w.registry
    return (w.registry, w.prev)
  | .cpuStats r => do
    let shown ← showCpuStats w.prev r
    return (w.registry, shown.2)
  | .diskStats d => do
    let _ ← procShow d
    return (w.registry, w.prev)

/-- What a call does, as the modules of the registry and of `cpu_stats` have it. -/
theorem value_perform (w : World) (e : Event) :
    (perform w e).value = match e with
      | .call env c => ((c.exec env w.registry).2, w.prev)
      | .cpuStats r => (w.registry, CpuStats.step w.prev r)
      | _ => (w.registry, w.prev) := by
  cases e with
  | call env c =>
    rw [perform, value_bind, value_exec]
    rfl
  | get env buffer maxEntries size => rfl
  | cpuStats r =>
    rw [perform, value_bind, value_showCpuStats]
    rfl
  | diskStats d => rfl

def step (w : World) (e : Event) : World :=
  ⟨(perform w e).value.1, (perform w e).value.2, w.held.bind (Ledger.exec (perform w e).ops)⟩

/-- Nothing is held but the nodes of the registry, and nothing was given back twice. -/
def Clean (w : World) : Prop := w.held = some (nodes w.registry.head)

/-- The event is a reading of `/proc/disk_stats` whose `kern_path` succeeds. -/
def Event.TakesPath : Event → Prop
  | .diskStats d => d.kernPath = 0
  | _ => False

/-- The world with the nodes of a list. -/
def World.start (s : State) (prev : CpuStats.Prev) : World := ⟨s, prev, some (nodes s.head)⟩

theorem clean_start (s : State) (prev : CpuStats.Prev) : Clean (.start s prev) := rfl

variable {w : World} {e : Event}

/-- All events but one give back what they take, the nodes apart. -/
theorem triple_perform (w : World) (h : ¬e.TakesPath) :
    Triple (nodes w.registry.head) (perform w e) fun x => nodes x.1.head := by
  rcases e with ⟨env, c⟩ | ⟨env, buffer, maxEntries, size⟩ | r | d
  · rw [perform]
    exact (triple_exec env c w.registry).bind (triple_pure rfl)
  · rw [perform]
    exact (balanced_luisGetMemoryLimits buffer maxEntries size).bind_triple (triple_pure rfl)
  · rw [perform]
    exact (balanced_showCpuStats w.prev r).bind_triple (triple_pure rfl)
  · rw [perform]
    exact (balanced_procShow h).bind_triple (triple_pure rfl)

/-- A reading of `/proc/disk_stats` that finds the path holds it after it returns. -/
theorem triple_perform_diskStats (w : World) {d : Disk} (h : d.kernPath = 0) :
    Triple (nodes w.registry.head) (perform w (.diskStats d))
      fun x => .path ::ₘ nodes x.1.head := by
  rw [perform]
  exact (triple_procShow h _).bind (triple_pure rfl)

/-- A call leaves nothing behind, unless it is a reading of `/proc/disk_stats` that finds the
    path. -/
theorem clean_step_iff (hw : Clean w) : Clean (step w e) ↔ ¬e.TakesPath := by
  have hheld : (step w e).held = Ledger.exec (perform w e).ops (nodes w.registry.head) := by
    rw [step, hw]
    rfl
  by_cases hpath : e.TakesPath
  · refine iff_of_false (fun hclean => ?_) (not_not.2 hpath)
    rcases e with ⟨env, c⟩ | ⟨env, buffer, maxEntries, size⟩ | r | d
    · exact hpath
    · exact hpath
    · exact hpath
    · have heq := (triple_perform_diskStats w hpath).symm.trans (hheld.symm.trans hclean)
      exact (Multiset.lt_cons_self _ _).ne' (Option.some.inj heq)
  · exact iff_of_true (hheld.trans (triple_perform w hpath)) hpath

/-- In a run, nothing is ever held between the calls but the nodes of the registry if and only if
    no reading of `/proc/disk_stats` finds its path. -/
theorem clean_iff (s : State) (prev : CpuStats.Prev) (es : List Event) :
    Machine.Always step Clean (.start s prev) es ↔ ∀ e ∈ es, ¬e.TakesPath := by
  have heach : Machine.Always step Clean (.start s prev) es ↔
      Machine.Each step (fun _ e => ¬e.TakesPath) (.start s prev) es :=
    Machine.always_iff_each (I := fun _ => True) (R := fun _ => True) trivial (clean_start s prev)
      (fun _ _ => trivial) (fun _ _ _ _ => trivial) fun w e _ _ hw => clean_step_iff hw
  exact heach.trans Machine.each_iff_forall

/-- One reading is enough: it shows the space of the disk, and the path stays. -/
theorem not_clean_diskStats :
    (step (.start ⟨[], fun _ _ => ⟨0, 0⟩⟩ .init) (.diskStats ⟨0, 0, ⟨4096, 1000, 400⟩⟩)).held =
        some {.path} ∧
      ¬Clean (step (.start ⟨[], fun _ _ => ⟨0, 0⟩⟩ .init)
        (.diskStats ⟨0, 0, ⟨4096, 1000, 400⟩⟩)) := by
  refine ⟨rfl, fun hclean => ?_⟩
  have hpath := (clean_step_iff (clean_start _ _)).1 hclean
  exact hpath rfl

end Resources

end LuisKernel
