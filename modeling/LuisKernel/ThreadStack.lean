import LuisKernel.Custody
import LuisKernel.Machine

/-!
# Kernel stacks

Every task has a stack in the kernel, which is an area of virtual memory. As areas are slow to make,
each CPU keeps two that are not in use (`cached_stacks`), in slots that are read and written by
atomic exchanges. A stack that is given back and finds no slot is freed after a grace period of
RCU, when it is offered to the cache once more.

The functions are modelled step by step. Between two steps anything else may happen, and a loop over
the slots may find itself on another CPU. The task that is made, its references, and its end are
modelled as far as its stack is concerned.

To free an area that has been freed, or to write on it, is a fault of the state.

* In every run, there is no fault, and every area is in exactly one place: a slot, a task, or a
  release that is under way (`stacks_exact`). So no two tasks use one stack, and none is lost, freed
  twice or freed while it is used.
* A task never gets a stack with something of a former task on it (`stacks_clean`).
* The pages of a stack are charged once, while a task uses it, and not otherwise
  (`charges_exact`).
-/

namespace LuisKernel

namespace ThreadStack

open Machine Custody

def NR_CACHED_STACKS : Nat := 2

/-- `THREAD_SIZE / PAGE_SIZE`. -/
def PAGES : Nat := 4

/-! ## The functions -/

/-- A task, as far as its stack is concerned. -/
inductive Task
  | none
  /-- In the loop of `alloc_thread_stack_node`, before it looks at a slot. -/
  | allocating (i : Nat)
  /-- It has an area, which is to be charged. -/
  | charging (vm : Nat)
  /-- In `dup_task_struct`, after `alloc_thread_stack_node`. -/
  | prepared (vm : Nat)
  /-- With its `stack_refcount`. -/
  | running (vm refs : Nat) (dead : Bool)
  deriving DecidableEq, Repr

def Task.area : Task → Option Nat
  | charging vm | prepared vm | running vm _ _ => some vm
  | _ => Option.none

/-- A stack that is given back. -/
inductive Release
  /-- In the loop of `try_release_thread_stack_to_cache`, called by `free_thread_stack`. -/
  | free (vm i : Nat)
  /-- It waits for `thread_stack_free_rcu`. -/
  | delayed (vm : Nat)
  /-- In the same loop, called by `thread_stack_free_rcu`. -/
  | callback (vm i : Nat)
  deriving DecidableEq, Repr

def Release.area : Release → Nat
  | free vm _ | delayed vm | callback vm _ => vm

structure State where
  /-- `cached_stacks[i]` of a CPU. -/
  slots : Nat → Nat → Option Nat
  tasks : Nat → Task
  releases : Nat → Option Release
  /-- The areas that have been made, and not been freed. -/
  live : Nat → Bool
  /-- Something was written on the stack. -/
  dirty : Nat → Bool
  /-- How often a page of an area is charged. It is negative if a charge is given back twice. -/
  charges : Nat → Nat → Int
  /-- An area was freed, or written on, that was not live. -/
  fault : Bool

/-- Nothing has been made. -/
def boot : State where
  slots _ _ := none
  tasks _ := .none
  releases _ := none
  live _ := false
  dirty _ := false
  charges _ _ := 0
  fault := false

/-- The first loop of `memcg_charge_kernel_stack`, with so many pages left: the return value and the
    number of pages that were charged. -/
def chargePages : Nat → Nat → List Int → (Nat → Int) → Int × Nat × (Nat → Int)
  | 0, i, _, charges => (0, i, charges)
  | n + 1, i, answers, charges =>
    if answers.headD 0 ≠ 0 then (answers.headD 0, i, charges)
    else chargePages n (i + 1) answers.tail (Function.update charges i (charges i + 1))

/-- The loop that gives back the charge of the first pages. -/
def unchargePages : Nat → (Nat → Int) → (Nat → Int)
  | 0, charges => charges
  | n + 1, charges =>
    let charges := unchargePages n charges
    Function.update charges n (charges n - 1)

/-- The return value and the charges. -/
def memcgChargeKernelStack (answers : List Int) (charges : Nat → Int) : Int × (Nat → Int) :=
  match chargePages PAGES 0 answers charges with
  | (ret, nrCharged, charges) =>
    if ret ≠ 0 then (ret, unchargePages nrCharged charges) else (0, charges)

section

variable (s : State)

def State.setTask (tsk : Nat) (t : Task) : State :=
  { s with tasks := Function.update s.tasks tsk t }

def State.setSlot (cpu i : Nat) (vm : Option Nat) : State :=
  { s with slots := Function.update s.slots cpu (Function.update (s.slots cpu) i vm) }

def State.setRelease (c : Nat) (r : Option Release) : State :=
  { s with releases := Function.update s.releases c r }

/-- The stack is written on, or cleared. -/
def State.setDirty (vm : Nat) (dirty : Bool) : State :=
  { s with dirty := Function.update s.dirty vm dirty, fault := s.fault || !s.live vm }

def State.setCharges (vm : Nat) (charges : Nat → Int) : State :=
  { s with charges := Function.update s.charges vm charges }

/-- The area is made. -/
def State.setLive (vm : Nat) : State :=
  { s with live := Function.update s.live vm true }

def State.vfree (vm : Nat) : State :=
  { s with live := Function.update s.live vm false, fault := s.fault || !s.live vm }

/-- An iteration of the loop of `alloc_thread_stack_node`: a stack of the cache is cleared. -/
def allocCached (tsk cpu i : Nat) : State :=
  match s.slots cpu i with
  | none => s.setTask tsk (.allocating (i + 1))
  | some vm => ((s.setSlot cpu i none).setDirty vm false).setTask tsk (.charging vm)

/-- `__vmalloc_node_range`, which gives an area that is clear. -/
def allocNew (tsk : Nat) : Option Nat → State
  | none => s.setTask tsk .none
  | some vm =>
    if s.live vm then s else ((s.setLive vm).setDirty vm false).setTask tsk (.charging vm)

/-- The end of `alloc_thread_stack_node`. -/
def chargeStack (tsk vm : Nat) (answers : List Int) : State :=
  match memcgChargeKernelStack answers (s.charges vm) with
  | (ret, charges) =>
    if ret ≠ 0 then ((s.setCharges vm charges).vfree vm).setTask tsk .none
    else (s.setCharges vm charges).setTask tsk (.prepared vm)

/-- `exit_task_stack_account`. -/
def exitTaskStackAccount (vm : Nat) : State :=
  s.setCharges vm (unchargePages PAGES (s.charges vm))

/-- The beginning of `free_thread_stack`; the task does not look at its stack again. -/
def freeThreadStack (tsk c vm : Nat) : State :=
  (s.setTask tsk .none).setRelease c (some (.free vm 0))

/-- `put_task_stack`, with `release_task_stack`: the stack of a task that is not dead is rather
    lost. -/
def putTaskStack (tsk c vm refs : Nat) (dead : Bool) : State :=
  if refs ≠ 0 then s.setTask tsk (.running vm refs dead)
  else if dead then freeThreadStack s tsk c vm
  else s.setTask tsk (.running vm 0 dead)

/-- An iteration of `try_release_thread_stack_to_cache`; it goes on with `next`. -/
def tryRelease (c cpu i vm : Nat) (next : Release) : State :=
  if s.slots cpu i = none then (s.setSlot cpu i (some vm)).setRelease c none
  else s.setRelease c (some next)

/-- An iteration of `free_vm_stack_cache`. -/
def freeSlot (cpu i : Nat) : State :=
  match s.slots cpu i with
  | none => s
  | some vm => (s.vfree vm).setSlot cpu i none

def freeVmStackCache (cpu : Nat) : State :=
  (List.range NR_CACHED_STACKS).foldl (fun s i => freeSlot s cpu i) s

end

/-- The steps. A release is named by the event that begins it. -/
inductive Event
  /-- `dup_task_struct`. -/
  | dup (tsk : Nat)
  | xchg (tsk cpu : Nat)
  | vmalloc (tsk : Nat) (answer : Option Nat)
  | charge (tsk : Nat) (answers : List Int)
  /-- The rest of `dup_task_struct`, with the answer of `scs_prepare`. -/
  | scsPrepare (tsk c : Nat) (ok : Bool)
  /-- The task uses its stack. -/
  | run (tsk : Nat)
  /-- `try_get_task_stack`. -/
  | tryGet (tsk : Nat)
  /-- The end of the task, with `exit_task_stack_account`. -/
  | exit (tsk : Nat)
  | put (tsk c : Nat)
  | cmpxchg (c cpu : Nat)
  /-- All slots have been tried. -/
  | full (c : Nat)
  /-- The grace period is over. -/
  | grace (c : Nat)
  /-- `free_vm_stack_cache`, for a CPU that is down. -/
  | offline (cpu : Nat)

def step (s : State) : Event → State
  | .dup tsk => if s.tasks tsk = .none then s.setTask tsk (.allocating 0) else s
  | .xchg tsk cpu =>
    match s.tasks tsk with
    | .allocating i => if i < NR_CACHED_STACKS then allocCached s tsk cpu i else s
    | _ => s
  | .vmalloc tsk answer =>
    match s.tasks tsk with
    | .allocating i => if i < NR_CACHED_STACKS then s else allocNew s tsk answer
    | _ => s
  | .charge tsk answers =>
    match s.tasks tsk with
    | .charging vm => chargeStack s tsk vm answers
    | _ => s
  | .scsPrepare tsk c ok =>
    match s.tasks tsk with
    | .prepared vm =>
      if ok then (s.setDirty vm true).setTask tsk (.running vm 1 false)
      else if s.releases c = none then freeThreadStack (exitTaskStackAccount s vm) tsk c vm
      else s
    | _ => s
  | .run tsk =>
    match s.tasks tsk with
    | .running vm _ _ => s.setDirty vm true
    | _ => s
  | .tryGet tsk =>
    match s.tasks tsk with
    | .running vm (refs + 1) dead => s.setTask tsk (.running vm (refs + 2) dead)
    | _ => s
  | .exit tsk =>
    match s.tasks tsk with
    | .running vm refs false => (exitTaskStackAccount s vm).setTask tsk (.running vm refs true)
    | _ => s
  | .put tsk c =>
    match s.tasks tsk with
    | .running vm (refs + 1) dead =>
      if s.releases c = none then putTaskStack s tsk c vm refs dead else s
    | _ => s
  | .cmpxchg c cpu =>
    match s.releases c with
    | some (.free vm i) =>
      if i < NR_CACHED_STACKS then tryRelease s c cpu i vm (.free vm (i + 1)) else s
    | some (.callback vm i) =>
      if i < NR_CACHED_STACKS then tryRelease s c cpu i vm (.callback vm (i + 1)) else s
    | _ => s
  | .full c =>
    match s.releases c with
    | some (.free vm i) =>
      -- `thread_stack_delayed_free` writes the callback on the stack
      if i < NR_CACHED_STACKS then s else (s.setDirty vm true).setRelease c (some (.delayed vm))
    | some (.callback vm i) =>
      if i < NR_CACHED_STACKS then s else (s.vfree vm).setRelease c none
    | _ => s
  | .grace c =>
    match s.releases c with
    | some (.delayed vm) => s.setRelease c (some (.callback vm 0))
    | _ => s
  | .offline cpu => freeVmStackCache s cpu

/-! ## Where the areas are -/

inductive Place
  | slot (cpu i : Nat)
  | task (tsk : Nat)
  | release (c : Nat)
  deriving DecidableEq, Repr

def held (s : State) : Place → Option Nat
  | .slot cpu i => s.slots cpu i
  | .task tsk => (s.tasks tsk).area
  | .release c => (s.releases c).map Release.area

section

variable {s : State} {tsk cpu i c vm : Nat} {t : Task} {e : Event}

@[simp] theorem held_setTask :
    held (s.setTask tsk t) = Function.update (held s) (.task tsk) t.area := by
  funext p
  cases p with
  | task tsk' =>
    by_cases h : tsk' = tsk
    · rw [h, Function.update_self]
      simp only [held, State.setTask, Function.update_self]
    · rw [Function.update_of_ne fun heq => h (Place.task.inj heq)]
      simp only [held, State.setTask, Function.update_of_ne h]
  | slot cpu i => rfl
  | release c => rfl

@[simp] theorem held_setSlot {v : Option Nat} :
    held (s.setSlot cpu i v) = Function.update (held s) (.slot cpu i) v := by
  funext p
  cases p with
  | slot cpu' i' =>
    by_cases h : cpu' = cpu
    · by_cases hi : i' = i
      · rw [h, hi, Function.update_self]
        simp only [held, State.setSlot, Function.update_self]
      · rw [Function.update_of_ne fun heq => hi (Place.slot.inj heq).2]
        simp only [held, State.setSlot, h, Function.update_self, Function.update_of_ne hi]
    · rw [Function.update_of_ne fun heq => h (Place.slot.inj heq).1]
      simp only [held, State.setSlot, Function.update_of_ne h]
  | task tsk => rfl
  | release c => rfl

@[simp] theorem held_setRelease {r : Option Release} :
    held (s.setRelease c r) = Function.update (held s) (.release c) (r.map Release.area) := by
  funext p
  cases p with
  | release c' =>
    by_cases h : c' = c
    · rw [h, Function.update_self]
      simp only [held, State.setRelease, Function.update_self]
    · rw [Function.update_of_ne fun heq => h (Place.release.inj heq)]
      simp only [held, State.setRelease, Function.update_of_ne h]
  | task tsk => rfl
  | slot cpu i => rfl

@[simp] theorem held_setDirty {d : Bool} : held (s.setDirty vm d) = held s := rfl

/-- The custody of the areas. -/
abbrev Kept (s : State) : Prop := Exact (held s) s.live

/-- A task that goes on with the same area, or still without one. -/
theorem Kept.setTask (h : Kept s) (ht : held s (.task tsk) = t.area) : Kept (s.setTask tsk t) := by
  rw [Kept, held_setTask, ← ht, Function.update_eq_self]
  exact h

/-- A release that goes on. -/
theorem Kept.setRelease {r : Release} (h : Kept s) (hr : held s (.release c) = some r.area) :
    Kept (s.setRelease c (some r)) := by
  rw [Kept, held_setRelease, Option.map_some, ← hr, Function.update_eq_self]
  exact h

theorem Kept.allocCached (h : Kept s) (htsk : held s (.task tsk) = none) :
    Kept (allocCached s tsk cpu i) := by
  rw [ThreadStack.allocCached]
  cases hslot : s.slots cpu i with
  | none => exact h.setTask htsk
  | some vm =>
    have hslot' : held s (.slot cpu i) = some vm := hslot
    rw [Kept, held_setTask, held_setDirty, held_setSlot]
    exact h.move hslot' htsk

theorem Kept.allocNew {answer : Option Nat} (h : Kept s) (htsk : held s (.task tsk) = none) :
    Kept (allocNew s tsk answer) := by
  cases answer with
  | none => exact h.setTask htsk
  | some vm =>
    rw [ThreadStack.allocNew]
    split_ifs with hlive
    · exact h
    · rw [Kept, held_setTask]
      exact h.make htsk (Bool.eq_false_iff.2 hlive)

theorem Kept.chargeStack {answers : List Int} (h : Kept s) (htsk : held s (.task tsk) = some vm) :
    Kept (chargeStack s tsk vm answers) := by
  rw [ThreadStack.chargeStack]
  dsimp only
  split_ifs
  · rw [Kept, held_setTask]
    exact h.destroy htsk
  · exact Kept.setTask (s := s.setCharges vm _) h htsk

theorem Kept.freeThreadStack (h : Kept s) (htsk : held s (.task tsk) = some vm)
    (hc : held s (.release c) = none) : Kept (freeThreadStack s tsk c vm) := by
  rw [Kept, ThreadStack.freeThreadStack, held_setRelease, held_setTask]
  exact h.move htsk hc

theorem Kept.tryRelease {next : Release} (h : Kept s) (hc : held s (.release c) = some vm)
    (hnext : next.area = vm) : Kept (tryRelease s c cpu i vm next) := by
  rw [ThreadStack.tryRelease]
  split_ifs with hslot
  · have hslot' : held s (.slot cpu i) = none := hslot
    have hne : Place.slot cpu i ≠ .release c := fun heq => by cases heq
    rw [Kept, held_setRelease, held_setSlot, Function.update_comm hne]
    exact h.move hc hslot'
  · exact h.setRelease (hnext.symm ▸ hc)

theorem Kept.freeSlot (h : Kept s) : Kept (freeSlot s cpu i) := by
  rw [ThreadStack.freeSlot]
  cases hslot : s.slots cpu i with
  | none => exact h
  | some vm =>
    have hslot' : held s (.slot cpu i) = some vm := hslot
    rw [Kept, held_setSlot]
    exact h.destroy hslot'

/-- No two tasks have one stack. -/
theorem Kept.alone {tsk' : Nat} (h : Kept s) (htsk : (s.tasks tsk).area = some vm)
    (htsk' : (s.tasks tsk').area = some vm) : tsk' = tsk := by
  have heq : Place.task tsk' = .task tsk := Exact.alone h htsk' htsk
  exact Place.task.inj heq

end

/-! ## What is on a stack, and who pays for it -/

/-- The stack of a task that has not run. -/
def Task.fresh : Task → Option Nat
  | charging vm | prepared vm => some vm
  | _ => Option.none

/-- The stack for which a task is charged. -/
def Task.charged : Task → Option Nat
  | prepared vm | running vm _ false => some vm
  | _ => Option.none

theorem Task.area_of_fresh {t : Task} {vm : Nat} (h : t.fresh = some vm) : t.area = some vm := by
  cases t with
  | charging vm' => exact h
  | prepared vm' => exact h
  | _ => cases h

theorem Task.area_of_charged {t : Task} {vm : Nat} (h : t.charged = some vm) :
    t.area = some vm := by
  cases t with
  | prepared vm' => exact h
  | running vm' refs dead =>
    cases dead with
    | false => exact h
    | true => cases h
  | _ => cases h

/-- There is nothing on the stack of a task that has not run. -/
def Clean (tasks : Nat → Task) (dirty : Nat → Bool) : Prop :=
  ∀ tsk vm, (tasks tsk).fresh = some vm → dirty vm = false

/-- Every page is charged once. -/
def oncePerPage (i : Nat) : Int := if i < PAGES then 1 else 0

/-- What is charged are the pages of the tasks that are charged, once each. -/
structure Accounts (tasks : Nat → Task) (charges : Nat → Nat → Int) : Prop where
  charged : ∀ tsk vm, (tasks tsk).charged = some vm → charges vm = oncePerPage
  others : ∀ vm, (∀ tsk, (tasks tsk).charged ≠ some vm) → charges vm = fun _ => 0

section

variable {tasks : Nat → Task} {dirty : Nat → Bool} {charges : Nat → Nat → Int} {tsk vm : Nat}
  {t : Task}

theorem Clean.update (h : Clean tasks dirty) (ht : ∀ vm, t.fresh = some vm → dirty vm = false) :
    Clean (Function.update tasks tsk t) dirty := by
  intro tsk' vm hfresh
  by_cases heq : tsk' = tsk
  · rw [heq, Function.update_self] at hfresh
    exact ht vm hfresh
  · rw [Function.update_of_ne heq] at hfresh
    exact h tsk' vm hfresh

theorem Clean.update_of_none (h : Clean tasks dirty) (ht : t.fresh = none) :
    Clean (Function.update tasks tsk t) dirty :=
  h.update fun vm hfresh => by rw [ht] at hfresh; cases hfresh

/-- A task gets a stack that has been cleared. -/
theorem Clean.clear (h : Clean tasks dirty) (ht : t.fresh = some vm) :
    Clean (Function.update tasks tsk t) (Function.update dirty vm false) := by
  have hdirty : Clean tasks (Function.update dirty vm false) := by
    intro tsk' vm' hfresh
    by_cases heq : vm' = vm
    · rw [heq, Function.update_self]
    · rw [Function.update_of_ne heq]
      exact h tsk' vm' hfresh
  refine hdirty.update fun vm' hfresh => ?_
  rw [← Option.some.inj (ht.symm.trans hfresh), Function.update_self]

/-- Something is written on a stack that is not the one of a new task. -/
theorem Clean.write (h : Clean tasks dirty) (hvm : ∀ tsk, (tasks tsk).fresh ≠ some vm) :
    Clean tasks (Function.update dirty vm true) := by
  intro tsk' vm' hfresh
  have hne : vm' ≠ vm := fun heq => hvm tsk' (hfresh.trans (congrArg some heq))
  rw [Function.update_of_ne hne]
  exact h tsk' vm' hfresh

/-- A task begins to use its stack. -/
theorem Clean.start (h : Clean tasks dirty)
    (halone : ∀ tsk', (tasks tsk').fresh = some vm → tsk' = tsk) (ht : t.fresh = none) :
    Clean (Function.update tasks tsk t) (Function.update dirty vm true) := by
  refine (h.update_of_none ht).write fun tsk' hfresh => ?_
  by_cases heq : tsk' = tsk
  · rw [heq, Function.update_self, ht] at hfresh
    cases hfresh
  · rw [Function.update_of_ne heq] at hfresh
    exact heq (halone tsk' hfresh)

theorem Accounts.update (h : Accounts tasks charges) (ht : t.charged = (tasks tsk).charged) :
    Accounts (Function.update tasks tsk t) charges := by
  have hsame : ∀ tsk', (Function.update tasks tsk t tsk').charged = (tasks tsk').charged := by
    intro tsk'
    by_cases heq : tsk' = tsk
    · rw [heq, Function.update_self, ht]
    · rw [Function.update_of_ne heq]
  refine ⟨fun tsk' vm' hcharged => ?_, fun vm' hnone => ?_⟩
  · exact h.charged tsk' vm' ((hsame tsk').symm.trans hcharged)
  · exact h.others vm' fun tsk' => hsame tsk' ▸ hnone tsk'

/-- A task is charged for a stack for which no one was. -/
theorem Accounts.charge (h : Accounts tasks charges) (htsk : (tasks tsk).charged = none)
    (hvm : ∀ tsk, (tasks tsk).charged ≠ some vm) (ht : t.charged = some vm) :
    Accounts (Function.update tasks tsk t) (Function.update charges vm oncePerPage) := by
  refine ⟨fun tsk' vm' hcharged => ?_, fun vm' hnone => ?_⟩
  · by_cases heq : tsk' = tsk
    · rw [heq, Function.update_self, ht] at hcharged
      rw [← Option.some.inj hcharged, Function.update_self]
    · rw [Function.update_of_ne heq] at hcharged
      have hne : vm' ≠ vm := fun heq => hvm tsk' (hcharged.trans (congrArg some heq))
      rw [Function.update_of_ne hne]
      exact h.charged tsk' vm' hcharged
  · have hne : vm' ≠ vm := fun heq => hnone tsk (by rw [Function.update_self, ht, heq])
    rw [Function.update_of_ne hne]
    refine h.others vm' fun tsk' hcharged => ?_
    by_cases heq : tsk' = tsk
    · rw [heq, htsk] at hcharged
      cases hcharged
    · exact hnone tsk' (by rwa [Function.update_of_ne heq])

/-- A task is no longer charged for its stack. -/
theorem Accounts.uncharge (h : Accounts tasks charges) (htsk : (tasks tsk).charged = some vm)
    (halone : ∀ tsk', (tasks tsk').charged = some vm → tsk' = tsk) (ht : t.charged = none) :
    Accounts (Function.update tasks tsk t) (Function.update charges vm fun _ => 0) := by
  refine ⟨fun tsk' vm' hcharged => ?_, fun vm' hnone => ?_⟩
  · by_cases heq : tsk' = tsk
    · rw [heq, Function.update_self, ht] at hcharged
      cases hcharged
    · rw [Function.update_of_ne heq] at hcharged
      have hne : vm' ≠ vm := fun h => heq (halone tsk' (hcharged.trans (congrArg some h)))
      rw [Function.update_of_ne hne]
      exact h.charged tsk' vm' hcharged
  · by_cases heq : vm' = vm
    · rw [heq, Function.update_self]
    · rw [Function.update_of_ne heq]
      refine h.others vm' fun tsk' hcharged => ?_
      by_cases htsk' : tsk' = tsk
      · rw [htsk', htsk] at hcharged
        exact heq (Option.some.inj hcharged).symm
      · exact hnone tsk' (by rwa [Function.update_of_ne htsk'])

/-- The pages from `i` on are charged, up to the one where it fails. -/
theorem chargePages_spec {n i nr : Nat} {ret : Int} {answers : List Int} {c c' : Nat → Int}
    (h : chargePages n i answers c = (ret, nr, c')) :
    i ≤ nr ∧ (ret = 0 → nr = i + n) ∧
      c' = fun j => if i ≤ j ∧ j < nr then c j + 1 else c j := by
  have hnone : ∀ i (c : Nat → Int), c = fun j => if i ≤ j ∧ j < i then c j + 1 else c j := by
    intro i c
    funext j
    exact (if_neg fun h => Nat.not_lt.2 h.1 h.2).symm
  induction n generalizing i answers c with
  | zero =>
    cases h
    exact ⟨Nat.le_refl _, fun _ => rfl, hnone _ _⟩
  | succ n ih =>
    rw [chargePages] at h
    split_ifs at h with hfail
    · cases h
      exact ⟨Nat.le_refl _, fun h => absurd h hfail, hnone _ _⟩
    · obtain ⟨hle, hall, hcharges⟩ := ih h
      refine ⟨by omega, fun h => (hall h).trans (by omega), ?_⟩
      rw [hcharges]
      funext j
      by_cases hj : j = i
      · rw [hj, Function.update_self, if_neg (by omega), if_pos (by omega)]
      · rw [Function.update_of_ne hj]
        exact if_congr (by omega) rfl rfl

theorem unchargePages_eq {n : Nat} {c : Nat → Int} :
    unchargePages n c = fun j => if j < n then c j - 1 else c j := by
  induction n with
  | zero => rfl
  | succ n ih =>
    rw [unchargePages, ih]
    funext j
    by_cases hj : j = n
    · rw [hj, Function.update_self]
      dsimp only
      rw [if_neg (Nat.lt_irrefl n), if_pos (Nat.lt_succ_self n)]
    · rw [Function.update_of_ne hj]
      exact if_congr (by omega) rfl rfl

/-- If a page cannot be charged, what was charged before is given back. -/
theorem memcgChargeKernelStack_of_ne_zero {answers : List Int} {c : Nat → Int}
    (h : (memcgChargeKernelStack answers c).1 ≠ 0) : (memcgChargeKernelStack answers c).2 = c := by
  obtain ⟨⟨ret, nr, c'⟩, hpages⟩ : ∃ r, chargePages PAGES 0 answers c = r := ⟨_, rfl⟩
  obtain ⟨-, -, rfl⟩ := chargePages_spec hpages
  simp only [memcgChargeKernelStack, hpages] at h ⊢
  split_ifs at h ⊢ with hret
  · rw [unchargePages_eq]
    funext j
    by_cases hj : j < nr
    · simp [hj]
    · simp [hj]
  · exact absurd rfl h

theorem memcgChargeKernelStack_of_eq_zero {answers : List Int}
    (h : (memcgChargeKernelStack answers fun _ => 0).1 = 0) :
    (memcgChargeKernelStack answers fun _ => 0).2 = oncePerPage := by
  obtain ⟨⟨ret, nr, c'⟩, hpages⟩ : ∃ r, chargePages PAGES 0 answers (fun _ => 0) = r := ⟨_, rfl⟩
  obtain ⟨-, hall, rfl⟩ := chargePages_spec hpages
  simp only [memcgChargeKernelStack, hpages] at h ⊢
  split_ifs at h ⊢ with hret
  · exact absurd h hret
  · rw [hall (not_ne_iff.1 hret)]
    funext j
    exact if_congr (by omega) rfl rfl

theorem unchargePages_oncePerPage : unchargePages PAGES oncePerPage = fun _ => 0 := by
  rw [unchargePages_eq]
  funext j
  dsimp only [oncePerPage]
  split_ifs <;> rfl

end

/-! ## All runs -/

structure Inv (s : State) : Prop where
  kept : Kept s
  clean : Clean s.tasks s.dirty
  accounts : Accounts s.tasks s.charges
  faultless : s.fault = false

section

variable {s : State} {tsk cpu i c vm : Nat} {t t' : Task} {e : Event}

theorem held_task (h : s.tasks tsk = t) : held s (.task tsk) = t.area := by rw [held, h]

theorem held_release {r : Option Release} (h : s.releases c = r) :
    held s (.release c) = r.map Release.area := by rw [held, h]

/-- The stack of a task is not the fresh one, or the charged one, of another. -/
theorem Kept.ne_of_area {part : Task → Option Nat} (h : Kept s)
    (hpart : ∀ {t vm}, part t = some vm → t.area = some vm) (htsk : (s.tasks tsk).area = some vm)
    (hnone : part (s.tasks tsk) = none) (tsk' : Nat) : part (s.tasks tsk') ≠ some vm := by
  intro hvm
  rw [h.alone htsk (hpart hvm), hnone] at hvm
  cases hvm

/-- To free what is in a place, or to write on it, is no fault. -/
theorem Inv.faultless_of_held {p : Place} (h : Inv s) (hp : held s p = some vm) :
    (s.fault || !s.live vm) = false := by
  rw [h.faultless, h.kept.live_iff.2 ⟨p, hp⟩]
  rfl

/-- A task goes on with the stack it has. -/
theorem Inv.setTask (h : Inv s) (htsk : s.tasks tsk = t) (harea : t.area = t'.area)
    (hfresh : t'.fresh = none) (hcharged : t'.charged = t.charged) : Inv (s.setTask tsk t') where
  kept := h.kept.setTask ((held_task htsk).trans harea)
  clean := h.clean.update_of_none hfresh
  accounts := h.accounts.update (by rw [htsk, hcharged])
  faultless := h.faultless

theorem Inv.allocCached (h : Inv s) (htsk : s.tasks tsk = .allocating i) :
    Inv (allocCached s tsk cpu i) := by
  have hkept : Kept (ThreadStack.allocCached s tsk cpu i) := h.kept.allocCached (held_task htsk)
  rw [ThreadStack.allocCached] at hkept ⊢
  cases hslot : s.slots cpu i with
  | none => exact h.setTask htsk rfl rfl rfl
  | some vm =>
    rw [hslot] at hkept
    have hfault : (s.fault || !s.live vm) = false := h.faultless_of_held (p := .slot cpu i) hslot
    exact ⟨hkept, h.clean.clear rfl, h.accounts.update (by rw [htsk]; rfl), hfault⟩

theorem Inv.allocNew {answer : Option Nat} (h : Inv s) (htsk : s.tasks tsk = .allocating i) :
    Inv (allocNew s tsk answer) := by
  have hkept : Kept (ThreadStack.allocNew s tsk answer) := h.kept.allocNew (held_task htsk)
  cases answer with
  | none => exact h.setTask htsk rfl rfl rfl
  | some vm =>
    rw [ThreadStack.allocNew] at hkept ⊢
    split_ifs at hkept ⊢ with hlive
    · exact h
    · have hfault : (s.fault || !Function.update s.live vm true vm) = false := by
        rw [h.faultless, Function.update_self]
        rfl
      exact ⟨hkept, h.clean.clear rfl, h.accounts.update (by rw [htsk]; rfl), hfault⟩

theorem Inv.chargeStack {answers : List Int} (h : Inv s) (htsk : s.tasks tsk = .charging vm) :
    Inv (chargeStack s tsk vm answers) := by
  have hkept : Kept (ThreadStack.chargeStack s tsk vm answers) :=
    h.kept.chargeStack (held_task htsk)
  have harea : (s.tasks tsk).area = some vm := by rw [htsk]; rfl
  have hnone : (s.tasks tsk).charged = none := by rw [htsk]; rfl
  have hothers := h.kept.ne_of_area Task.area_of_charged harea hnone
  have hzero : s.charges vm = fun _ => 0 := h.accounts.others vm hothers
  rw [ThreadStack.chargeStack] at hkept ⊢
  dsimp only at hkept ⊢
  split_ifs at hkept ⊢ with hret
  · refine ⟨hkept, h.clean.update_of_none rfl, ?_, h.faultless_of_held (held_task htsk)⟩
    have hsame : Function.update s.charges vm (memcgChargeKernelStack answers (s.charges vm)).2 =
        s.charges := by
      rw [memcgChargeKernelStack_of_ne_zero hret, Function.update_eq_self]
    have haccounts := h.accounts.update (t := .none) hnone.symm
    rwa [← hsame] at haccounts
  · refine ⟨hkept, h.clean.update fun vm' hfresh => ?_, ?_, h.faultless⟩
    · exact h.clean tsk vm' (by rw [htsk]; exact hfresh)
    · have honce : (memcgChargeKernelStack answers (s.charges vm)).2 = oncePerPage := by
        rw [hzero] at hret ⊢
        exact memcgChargeKernelStack_of_eq_zero (not_ne_iff.1 hret)
      have haccounts : Accounts (Function.update s.tasks tsk (.prepared vm))
          (Function.update s.charges vm oncePerPage) :=
        h.accounts.charge hnone hothers rfl
      rwa [← honce] at haccounts

/-- `exit_task_stack_account` gives back what a task is charged for. -/
theorem Inv.uncharged (h : Inv s) (hcharged : (s.tasks tsk).charged = some vm)
    (ht : t.charged = none) :
    Accounts (Function.update s.tasks tsk t) (exitTaskStackAccount s vm).charges := by
  have hpages : unchargePages PAGES (s.charges vm) = fun _ => 0 := by
    rw [h.accounts.charged tsk vm hcharged, unchargePages_oncePerPage]
  have haccounts := h.accounts.uncharge (t := t) hcharged
    (fun tsk' htsk' => h.kept.alone (Task.area_of_charged hcharged) (Task.area_of_charged htsk')) ht
  rwa [← hpages] at haccounts

theorem Inv.putTaskStack {refs : Nat} {dead : Bool} (h : Inv s)
    (htsk : s.tasks tsk = .running vm (refs + 1) dead) (hc : s.releases c = none) :
    Inv (putTaskStack s tsk c vm refs dead) := by
  have hsame : ∀ refs', (Task.running vm refs' dead).charged =
      (Task.running vm (refs + 1) dead).charged := fun refs' => by cases dead <;> rfl
  rw [ThreadStack.putTaskStack]
  split_ifs with hrefs hdead
  · exact h.setTask htsk rfl rfl (hsame refs)
  · rw [hdead] at htsk
    exact ⟨h.kept.freeThreadStack (held_task htsk) (held_release hc), h.clean.update_of_none rfl,
      h.accounts.update (by rw [htsk]; rfl), h.faultless⟩
  · exact h.setTask htsk rfl rfl (hsame 0)

theorem Inv.tryRelease {next : Release} (h : Inv s) (hc : held s (.release c) = some vm)
    (hnext : next.area = vm) : Inv (tryRelease s c cpu i vm next) := by
  have hkept : Kept (ThreadStack.tryRelease s c cpu i vm next) := h.kept.tryRelease hc hnext
  rw [ThreadStack.tryRelease] at hkept ⊢
  split_ifs at hkept ⊢ <;> exact ⟨hkept, h.clean, h.accounts, h.faultless⟩

theorem Inv.freeSlot (h : Inv s) : Inv (freeSlot s cpu i) := by
  have hkept : Kept (ThreadStack.freeSlot s cpu i) := h.kept.freeSlot
  rw [ThreadStack.freeSlot] at hkept ⊢
  cases hslot : s.slots cpu i with
  | none => exact h
  | some vm =>
    rw [hslot] at hkept
    exact ⟨hkept, h.clean, h.accounts, h.faultless_of_held (p := .slot cpu i) hslot⟩

theorem Inv.freeVmStackCache (h : Inv s) : Inv (freeVmStackCache s cpu) := by
  rw [ThreadStack.freeVmStackCache]
  induction List.range NR_CACHED_STACKS generalizing s with
  | nil => exact h
  | cons i is ih => exact ih h.freeSlot

/-- The stack is the task's own, so that to write on it leaves the others clean. -/
theorem Inv.scsPrepared (h : Inv s) (htsk : s.tasks tsk = .prepared vm) :
    Inv ((s.setDirty vm true).setTask tsk (.running vm 1 false)) := by
  have hcharged : (s.tasks tsk).charged = some vm := by rw [htsk]; rfl
  refine ⟨Kept.setTask (s := s.setDirty vm true) h.kept (held_task htsk :),
    h.clean.start (fun tsk' hfresh => ?_) rfl, h.accounts.update hcharged.symm,
    h.faultless_of_held (held_task htsk)⟩
  exact h.kept.alone (Task.area_of_charged hcharged) (Task.area_of_fresh hfresh)

theorem Inv.scsFailed (h : Inv s) (htsk : s.tasks tsk = .prepared vm)
    (hc : s.releases c = none) : Inv (freeThreadStack (exitTaskStackAccount s vm) tsk c vm) := by
  have hcharged : (s.tasks tsk).charged = some vm := by rw [htsk]; rfl
  exact ⟨Kept.freeThreadStack (s := exitTaskStackAccount s vm) h.kept (held_task htsk)
    (held_release hc), h.clean.update_of_none rfl, h.uncharged hcharged rfl, h.faultless⟩

theorem Inv.written {refs : Nat} {dead : Bool} (h : Inv s)
    (htsk : s.tasks tsk = .running vm refs dead) : Inv (s.setDirty vm true) := by
  have harea : (s.tasks tsk).area = some vm := by rw [htsk]; rfl
  have hfresh : (s.tasks tsk).fresh = none := by rw [htsk]; rfl
  exact ⟨h.kept, h.clean.write (h.kept.ne_of_area Task.area_of_fresh harea hfresh), h.accounts,
    h.faultless_of_held (held_task htsk)⟩

theorem Inv.exited {refs : Nat} (h : Inv s) (htsk : s.tasks tsk = .running vm refs false) :
    Inv ((exitTaskStackAccount s vm).setTask tsk (.running vm refs true)) := by
  have hcharged : (s.tasks tsk).charged = some vm := by rw [htsk]; rfl
  exact ⟨Kept.setTask (s := exitTaskStackAccount s vm) h.kept (held_task htsk :),
    h.clean.update_of_none rfl, h.uncharged hcharged rfl, h.faultless⟩

/-- The callback is written on a stack that no task has. -/
theorem Inv.delayed (h : Inv s) (hc : s.releases c = some (.free vm i)) :
    Inv ((s.setDirty vm true).setRelease c (some (.delayed vm))) := by
  refine ⟨Kept.setRelease (s := s.setDirty vm true) h.kept (held_release hc :),
    h.clean.write fun tsk' hfresh => ?_, h.accounts, h.faultless_of_held (held_release hc)⟩
  cases Exact.alone h.kept (p := .task tsk') (Task.area_of_fresh hfresh) (held_release hc :)

theorem Inv.freed (h : Inv s) (hc : s.releases c = some (.callback vm i)) :
    Inv ((s.vfree vm).setRelease c none) := by
  refine ⟨?_, h.clean, h.accounts, h.faultless_of_held (held_release hc)⟩
  rw [Kept, held_setRelease]
  exact h.kept.destroy (held_release hc)

theorem Inv.step (h : Inv s) : Inv (step s e) := by
  cases e with
  | dup tsk =>
    rw [ThreadStack.step]
    split_ifs with htsk
    · exact h.setTask htsk rfl rfl rfl
    · exact h
  | xchg tsk cpu =>
    rw [ThreadStack.step]
    split
    next i htsk =>
      split_ifs
      · exact h.allocCached htsk
      · exact h
    next => exact h
  | vmalloc tsk answer =>
    rw [ThreadStack.step]
    split
    next i htsk =>
      split_ifs
      · exact h
      · exact h.allocNew htsk
    next => exact h
  | charge tsk answers =>
    rw [ThreadStack.step]
    split
    next vm htsk => exact h.chargeStack htsk
    next => exact h
  | scsPrepare tsk c ok =>
    rw [ThreadStack.step]
    split
    next vm htsk =>
      split_ifs with hok hc
      · exact h.scsPrepared htsk
      · exact h.scsFailed htsk hc
      · exact h
    next => exact h
  | run tsk =>
    rw [ThreadStack.step]
    split
    next vm refs dead htsk => exact h.written htsk
    next => exact h
  | tryGet tsk =>
    rw [ThreadStack.step]
    split
    next vm refs dead htsk => exact h.setTask htsk rfl rfl (by cases dead <;> rfl)
    next => exact h
  | exit tsk =>
    rw [ThreadStack.step]
    split
    next vm refs htsk => exact h.exited htsk
    next => exact h
  | put tsk c =>
    rw [ThreadStack.step]
    split
    next vm refs dead htsk =>
      split_ifs with hc
      · exact h.putTaskStack htsk hc
      · exact h
    next => exact h
  | cmpxchg c cpu =>
    rw [ThreadStack.step]
    split
    next vm i hc =>
      split_ifs
      · exact h.tryRelease (held_release hc) rfl
      · exact h
    next vm i hc =>
      split_ifs
      · exact h.tryRelease (held_release hc) rfl
      · exact h
    next => exact h
  | full c =>
    rw [ThreadStack.step]
    split
    next vm i hc =>
      split_ifs
      · exact h
      · exact h.delayed hc
    next vm i hc =>
      split_ifs
      · exact h
      · exact h.freed hc
    next => exact h
  | grace c =>
    rw [ThreadStack.step]
    split
    next vm hc =>
      exact ⟨h.kept.setRelease (held_release hc :), h.clean, h.accounts, h.faultless⟩
    next => exact h
  | offline cpu => exact h.freeVmStackCache

theorem held_boot (p : Place) : held boot p = none := by cases p <;> rfl

theorem inv_boot : Inv boot where
  kept.alone {p q vm} hp _ := by
    rw [held_boot] at hp
    cases hp
  kept.live_iff {vm} := by
    refine ⟨fun h => (by cases h), ?_⟩
    rintro ⟨p, hp⟩
    rw [held_boot] at hp
    cases hp
  clean _ _ h := by cases h
  accounts.charged _ _ h := by cases h
  accounts.others _ _ := rfl
  faultless := rfl

theorem inv_run (es : List Event) : Always step Inv boot es :=
  always_of_step (R := fun _ => True) inv_boot (fun _ _ => trivial) fun _ _ _ => Inv.step

/-- In every run, what is freed or written on has not been freed before. An area that has been made
    and not been freed is in one place and in no other, and what is in a place has not been
    freed. -/
theorem stacks_exact (es : List Event) :
    Always step (fun s => s.fault = false ∧
      (∀ p q vm, held s p = some vm → held s q = some vm → p = q) ∧
      ∀ vm, s.live vm = true ↔ ∃ p, held s p = some vm) boot es :=
  (inv_run es).mono fun _ h =>
    ⟨h.faultless, fun _ _ _ hp hq => Exact.alone h.kept hp hq, fun _ => h.kept.live_iff⟩

/-- The stack of a task that has ended is the one of the next task. -/
example : (run step boot [.dup 1, .xchg 1 0, .xchg 1 0, .vmalloc 1 (some 7), .charge 1 [],
    .scsPrepare 1 0 true, .exit 1, .put 1 0, .cmpxchg 0 0, .dup 2, .xchg 2 0]).tasks 2 =
    .charging 7 := by decide

/-- In every run, there is nothing on a stack that a task is about to get. -/
theorem stacks_clean (es : List Event) :
    Always step (fun s => ∀ tsk vm, s.tasks tsk = .charging vm ∨ s.tasks tsk = .prepared vm →
      s.dirty vm = false) boot es := by
  refine (inv_run es).mono fun s h tsk vm htsk => h.clean tsk vm ?_
  rcases htsk with htsk | htsk
  · rw [htsk]
    rfl
  · rw [htsk]
    rfl

/-- In every run, the pages of a stack are charged once while a task uses it that has not ended, and
    not charged otherwise. -/
theorem charges_exact (es : List Event) :
    Always step (fun s => ∀ vm,
      ((∃ tsk, (s.tasks tsk).charged = some vm) → ∀ i < PAGES, s.charges vm i = 1) ∧
      ((¬∃ tsk, (s.tasks tsk).charged = some vm) → ∀ i, s.charges vm i = 0)) boot es := by
  refine (inv_run es).mono fun s h vm => ⟨?_, fun hnone i => ?_⟩
  · rintro ⟨tsk, hcharged⟩ i hi
    rw [h.accounts.charged tsk vm hcharged]
    exact if_pos hi
  · rw [h.accounts.others vm fun tsk hcharged => hnone ⟨tsk, hcharged⟩]

end

end ThreadStack

end LuisKernel
