import LuisKernel.Registry.Frame
import LuisKernel.Serial

/-!
# Concurrent calls

The registry takes no lock, so the calls of several processes may run in any
order of their steps. A call makes these steps, each of which is atomic:

* its checks, with the first search of the list;
* `do_prlimit`, which takes the lock of the task;
* an add searches the list again, allocates its node (`kmalloc` may sleep), and
  links it;
* an update writes to the node it found, a remove unlinks and frees it, if the
  node is still there by then.

A node is known by its address. Using a node that another call has removed in
the meantime is a *fault*.

`Serialised` says what one expects of concurrent calls once all have returned:
no fault, no process id in two nodes, and the results, the list and all limits
are those of the calls made one after the other, in some order.
-/

namespace LuisKernel

/-- The address of a node: the nodes that were there at first are numbered, the
    others are named after the call `i` that allocated them. -/
inductive Address (ι : Type)
  | initial (k : Nat)
  | made (i : ι)
  deriving DecidableEq, Repr

/-- `struct memory_limitation_list`, at its address. -/
structure Entry (ι : Type) where
  addr : Address ι
  node : MemoryLimitation
  deriving DecidableEq, Repr

/-- What the calls share. -/
structure Shared (ι : Type) where
  /-- `memory_limitation_head`. -/
  head : List (Entry ι)
  rlim : Nat → Resource → Rlimit
  /-- Whether a node was used that is not in the list. -/
  fault : Bool

/-- Where a call is, with the variables it still needs. -/
inductive Pc (ι : Type)
  | start
  | prlimit (task : TaskStruct) (node : Option (Address ι))
  | find
  | alloc
  | link
  | change (node : Option (Address ι))
  | returned (ret : Int)
  deriving DecidableEq, Repr

/-- A state of the concurrent kernel: what is shared, and where the calls are. -/
structure Config (ι : Type) where
  shared : Shared ι
  pc : ι → Pc ι

variable {ι : Type} [DecidableEq ι]

namespace Entry

/-- The process id in a node. -/
def pid (e : Entry ι) : PidT := e.node.pid

/-- The assignment `node->node.memory_limit = memory_limit`. -/
def setLimit (memoryLimit : SizeT) (e : Entry ι) : Entry ι :=
  { e with node := e.node.setLimit memoryLimit }

end Entry

/-! ## The steps of a call -/

/-- The registry and the limits, without the addresses. -/
def Shared.state (sh : Shared ι) : State := ⟨sh.head.map Entry.node, sh.rlim⟩

/-- What an update or a remove does to the node at the address `a`. -/
def Call.changeAt (a : Address ι) : Call → List (Entry ι) → List (Entry ι)
  | .add _ _, head => head
  | .update _ v, head => Keyed.write Entry.addr a (.setLimit v) head
  | .remove _, head => Keyed.erase Entry.addr a head

/-- The last step of an update or a remove, through the pointer `node`. -/
def Shared.change (c : Call) (node : Option (Address ι)) (sh : Shared ι) : Shared ι :=
  match node with
  | none => { sh with fault := true }
  | some a =>
    -- The node may have been removed since the call found it.
    if (Keyed.find Entry.addr a sh.head).isSome then { sh with head := c.changeAt a sh.head }
    else { sh with fault := true }

/-- A step of the call `i`. -/
def advance (env : Env) (c : Call) (i : ι) : Pc ι → Shared ι → Pc ι × Shared ι
  | .start, sh =>
    match c.checks env sh.state.head with
    | .error e => (.returned e, sh)
    | .ok task => (.prlimit task ((Keyed.find Entry.pid c.pid sh.head).map Entry.addr), sh)
  | .prlimit task node, sh =>
    match setProcessMemoryLimit env task c.limit sh.state with
    | (ret, s) =>
      if ret ≠ 0 then (.returned ret, sh)
      else (if c.isAdd then .find else .change node, { sh with rlim := s.rlim })
  | .find, sh =>
    if (findNodeByPid c.pid sh.state.head).isSome then (.returned (-101), sh) else (.alloc, sh)
  | .alloc, sh => if env.kmalloc = false then (.returned (-ENOMEM), sh) else (.link, sh)
  | .link, sh => (.returned 0, { sh with head := ⟨.made i, c.pid, c.limit⟩ :: sh.head })
  | .change node, sh => (.returned 0, sh.change c node)
  | .returned ret, sh => (.returned ret, sh)

/-! ## The machine -/

namespace Pc

/-- What a call has returned. -/
def result : Pc ι → Option Int
  | returned ret => some ret
  | _ => none

/-- Whether the call has passed its checks, and not returned. -/
def inFlight : Pc ι → Bool
  | start => false
  | returned _ => false
  | _ => true

/-- Whether the call has set its limit, and not returned. -/
def pending : Pc ι → Bool
  | start => false
  | prlimit _ _ => false
  | returned _ => false
  | _ => true

end Pc

namespace Config

/-- What the calls have returned. -/
def result (x : Config ι) (i : ι) : Option Int := (x.pc i).result

/-- The state `s` before any of the calls. -/
def start (s : State) : Config ι where
  shared := ⟨s.head.zipIdx.map fun r => ⟨.initial r.2, r.1⟩, s.rlim, false⟩
  pc _ := .start

/-- The call `i` gets to `pc`, which leaves `sh`. -/
def moveTo (x : Config ι) (i : ι) (pc : Pc ι) (sh : Shared ι) : Config ι :=
  ⟨sh, Function.update x.pc i pc⟩

/-- A step of the call `i`. -/
def step (calls : ι → Env × Call) (x : Config ι) (i : ι) : Config ι :=
  match advance (calls i).1 (calls i).2 i (x.pc i) x.shared with
  | (pc, sh) => x.moveTo i pc sh

variable {x : Config ι} {i j : ι} {pc : Pc ι} {sh : Shared ι}

theorem pc_moveTo : (x.moveTo i pc sh).pc = Function.update x.pc i pc := rfl

@[simp] theorem pc_moveTo_self : (x.moveTo i pc sh).pc i = pc := by
  rw [pc_moveTo, Function.update_self]

theorem pc_moveTo_of_ne (h : j ≠ i) : (x.moveTo i pc sh).pc j = x.pc j := by
  rw [pc_moveTo, Function.update_of_ne h]

theorem result_moveTo : (x.moveTo i pc sh).result = Function.update x.result i pc.result := by
  funext j
  by_cases hj : j = i
  · rw [hj, Function.update_self, result, pc_moveTo_self]
  · rw [Function.update_of_ne hj, result, pc_moveTo_of_ne hj, result]

end Config

/-! ## What one expects -/

/-- The calls as they run alone. -/
def execAll (calls : ι → Env × Call) (i : ι) : State → Int × State :=
  (calls i).2.exec (calls i).1

/-- The calls, all of which have returned in `x`, did what they do one after the
    other, in some order, from the state `s`. -/
structure Serialised (calls : ι → Env × Call) (s : State) (x : Config ι) : Prop where
  fault : x.shared.fault = false
  distinct : Keyed.Distinct Entry.pid x.shared.head
  serial : ∃ order : List ι, (∀ i, i ∈ order) ∧
    Serial.Explains (execAll calls) s order x.shared.state x.result

/-- If the call `i` passes its checks in the step it makes, then it is for
    another process than the calls in flight, of another thread group. -/
def Undisturbed (calls : ι → Env × Call) (x : Config ι) (i : ι) : Prop :=
  x.pc i = .start → (∃ t, (calls i).2.Admitted (calls i).1 x.shared.state.head t) →
    ∀ j, j ≠ i → (x.pc j).inFlight = true →
      Call.Independent (calls i).1 (calls i).2 (calls j).1 (calls j).2

/-- Two adds for one process, side by side. -/
def twoAdds (_ : Bool) : Env × Call := (Env.quiet.withTasks oneProcess, .add 7 4096)

/-- Both adds succeed, and the process is listed twice. -/
theorem not_always_serialised :
    ¬Machine.Always (Config.step twoAdds)
      (fun x => (∀ i, x.result i ≠ none) → Serialised twoAdds unlimited x) (.start unlimited)
      [true, false, true, false, true, false, true, false, true, false] := by
  intro h
  have hdistinct := (h.run (by decide)).distinct
  rw [Keyed.Distinct] at hdistinct
  exact absurd hdistinct (by decide)

end LuisKernel
