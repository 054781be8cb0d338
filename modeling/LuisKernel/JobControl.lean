import LuisKernel.Basic
import LuisKernel.Keyed
import LuisKernel.Machine

/-!
# Process groups and sessions

`setpgid`, `getpgid`, `getsid` and `setsid` of `kernel/sys.c`. Every process belongs to a process
group and to a session, both named by pids; a process that has called `setsid` successfully is the
leader of its session. The number of a process that has exited may still name a group or a
session, and is not given to a new process as long as it does.

The events are these calls, by any process and with any arguments, and what else happens to
processes: they are created, execute programs, get other parents, and exit. All processes are in
one pid namespace.

* In every run, all processes of a group are in one session; a session leader is in its own
  session and its own group; a session or a group with the number of a process is the session
  that it leads, or a group of its session (`sessions_coherent`).
* What `setpgid` and `setsid` do is what `getpgid` and `getsid` read (`calls_read_back`).
* A process that is a session leader, or that has executed a program and does not ask for it
  itself, stays in its group and its session, whatever the other processes do (`settled_run`).
-/

namespace LuisKernel

namespace JobControl

open Keyed Machine

def EACCES : Int := 13

/-- A thread group. -/
structure Proc where
  pid : Int
  /-- The numbers of its other threads. -/
  threads : List Int
  /-- The process of `real_parent`. -/
  parent : Int
  pgrp : Int
  session : Int
  /-- `signal->leader`. -/
  leader : Bool
  /-- `PF_FORKNOEXEC`. -/
  forknoexec : Bool
  deriving DecidableEq, Repr

/-- `find_task_by_vpid`: the process that the task belongs to. -/
def findTask (ps : List Proc) (pid : Int) : Option Proc :=
  (find Proc.pid pid ps).or (ps.find? fun p => pid ∈ p.threads)

/-- `pid_task(find_vpid(pgid), PIDTYPE_PGID)`. -/
def pgrpTask (ps : List Proc) (pgid : Int) : Option Proc := ps.find? fun p => p.pgrp = pgid

/-- The process that a call of `setpgid` is about, and the group it asks for: zero stands for the
    caller, and for the number of the process. -/
def namedPid (me : Proc) (pid : Int) : Int := if pid = 0 then me.pid else pid

def namedPgid (me : Proc) (pid pgid : Int) : Int := if pgid = 0 then namedPid me pid else pgid

/-- `setpgid`, called by the process `me`; `security` is what `security_task_setpgid` returns. -/
def setpgid (ps : List Proc) (me : Proc) (pid pgid security : Int) : Int × List Proc :=
  let pgid := namedPgid me pid pgid
  let pid := namedPid me pid
  if pgid < 0 then (-EINVAL, ps)
  else
    match findTask ps pid with
    | none => (-ESRCH, ps)
    | some p =>
      if p.pid ≠ pid then (-EINVAL, ps)
      else if p.parent = me.pid ∧ p.session ≠ me.session then (-EPERM, ps)
      else if p.parent = me.pid ∧ p.forknoexec = false then (-EACCES, ps)
      else if p.parent ≠ me.pid ∧ p.pid ≠ me.pid then (-ESRCH, ps)
      else if p.leader then (-EPERM, ps)
      else if pgid ≠ pid ∧ (pgrpTask ps pgid).all (·.session ≠ me.session) then (-EPERM, ps)
      else if security ≠ 0 then (security, ps)
      else (0, write Proc.pid pid (fun p => { p with pgrp := pgid }) ps)

/-- `ksys_setsid`, with `set_special_pids`. -/
def ksysSetsid (ps : List Proc) (me : Proc) : Int × List Proc :=
  if me.leader then (-EPERM, ps)
  else if (pgrpTask ps me.pid).isSome then (-EPERM, ps)
  else (me.pid, write Proc.pid me.pid
    (fun p => { p with leader := true, session := me.pid, pgrp := me.pid }) ps)

/-- `do_getpgid`; `security` is what `security_task_getpgid` returns. -/
def doGetpgid (ps : List Proc) (me : Proc) (pid security : Int) : Int :=
  if pid = 0 then me.pgrp
  else
    match findTask ps pid with
    | none => -ESRCH
    | some p => if security ≠ 0 then security else p.pgrp

/-- `getsid`. -/
def getsid (ps : List Proc) (me : Proc) (pid security : Int) : Int :=
  if pid = 0 then me.session
  else
    match findTask ps pid with
    | none => -ESRCH
    | some p => if security ≠ 0 then security else p.session

inductive Event
  | setpgid (current pid pgid security : Int)
  | setsid (current : Int)
  /-- A new process `pid`; with `CLONE_PARENT`, it has the parent of the caller. -/
  | fork (current pid : Int) (cloneParent : Bool)
  | newThread (current tid : Int)
  | exitThread (current tid : Int)
  | exec (current : Int)
  | reparent (pid parent : Int)
  | exit (pid : Int)

/-- The number is not in use. -/
def pidFree (ps : List Proc) (pid : Int) : Bool :=
  0 < pid && ps.all fun p => p.pid != pid && p.pgrp != pid && p.session != pid &&
    !(p.threads.contains pid)

/-- The child of a process: of its group and its session. -/
def forked (me : Proc) (pid : Int) (cloneParent : Bool) : Proc :=
  ⟨pid, [], if cloneParent then me.parent else me.pid, me.pgrp, me.session, false, true⟩

/-- The processes after an event. -/
def step (ps : List Proc) : Event → List Proc
  | .setpgid current pid pgid security =>
    (find Proc.pid current ps).elim ps fun me => (setpgid ps me pid pgid security).2
  | .setsid current => (find Proc.pid current ps).elim ps fun me => (ksysSetsid ps me).2
  | .fork current pid cloneParent =>
    (find Proc.pid current ps).elim ps fun me =>
      if pidFree ps pid then forked me pid cloneParent :: ps else ps
  | .newThread current tid =>
    if pidFree ps tid then
      write Proc.pid current (fun p => { p with threads := tid :: p.threads }) ps
    else ps
  | .exitThread current tid =>
    write Proc.pid current (fun p => { p with threads := p.threads.erase tid }) ps
  | .exec current => write Proc.pid current (fun p => { p with forknoexec := false }) ps
  | .reparent pid parent => write Proc.pid pid (fun p => { p with parent := parent }) ps
  | .exit pid => erase Proc.pid pid ps

/-- The first process, in the group and the session of the boot. -/
def boot : List Proc := [⟨1, [], 0, 0, 0, false, true⟩]

/-! ## What a step does -/

/-- The process `p` may become `p'`: nothing changes in its group and session; or it joins a group
    of its session, possibly one with its own number; or it becomes a leader. -/
def Change (ps : List Proc) (p p' : Proc) : Prop :=
  (p'.pgrp = p.pgrp ∧ p'.session = p.session ∧ p'.leader = p.leader) ∨
    (p.leader = false ∧ p'.leader = false ∧ p'.session = p.session ∧
      (p'.pgrp = p.pid ∨ ∃ g ∈ ps, g.pgrp = p'.pgrp ∧ g.session = p.session)) ∨
    (p.leader = false ∧ (∀ g ∈ ps, g.pgrp ≠ p.pid) ∧ p'.leader = true ∧ p'.pgrp = p.pid ∧
      p'.session = p.pid)

/-- Processes go, or one is made, or one changes. -/
def Outcome (ps ps' : List Proc) : Prop :=
  ps'.Sublist ps ∨
    (∃ me pid cloneParent, me ∈ ps ∧ pidFree ps pid = true ∧
      ps' = forked me pid cloneParent :: ps) ∨
    ∃ p p', find Proc.pid p.pid ps = some p ∧ p'.pid = p.pid ∧ Change ps p p' ∧
      ps' = write Proc.pid p.pid (fun _ => p') ps

section

variable {ps : List Proc} {me p : Proc} {k pid pgid security : Int}

theorem find_of_findTask (h : findTask ps pid = some p) (hpid : p.pid = pid) :
    find Proc.pid pid ps = some p := by
  rw [findTask] at h
  rcases hfind : find Proc.pid pid ps with _ | q
  · rw [hfind, Option.none_or] at h
    exact absurd hpid (find_eq_none_iff.1 hfind p (List.mem_of_find?_eq_some h))
  · rwa [hfind] at h

/-- A change of one process, if there is one of this number. -/
theorem outcome_write {f : Proc → Proc} (hf : ∀ p, (f p).pid = p.pid)
    (hchange : ∀ p, find Proc.pid k ps = some p → Change ps p (f p)) :
    Outcome ps (write Proc.pid k f ps) := by
  rcases hfind : find Proc.pid k ps with _ | p
  · rw [write_of_find_none hfind]
    exact .inl (.refl _)
  · obtain ⟨_, rfl⟩ := find_some hfind
    exact .inr (.inr ⟨p, f p, hfind, hf p, hchange p hfind, write_of_find hfind⟩)

theorem setpgid_outcome (hme : find Proc.pid me.pid ps = some me) :
    Outcome ps (setpgid ps me pid pgid security).2 := by
  have hsame : Outcome ps ps := .inl (.refl _)
  rw [setpgid]
  generalize namedPgid me pid pgid = pgid
  generalize namedPid me pid = pid
  by_cases hneg : pgid < 0
  · rw [if_pos hneg]
    exact hsame
  rw [if_neg hneg]
  rcases htask : findTask ps pid with _ | p
  · exact hsame
  dsimp only
  split_ifs with hpid hsession _ hother hleader hgroup
  any_goals exact hsame
  have hfind := find_of_findTask htask (not_not.1 hpid)
  refine outcome_write (fun _ => rfl) fun q hq => ?_
  obtain rfl : p = q := Option.some.inj (hfind.symm.trans hq)
  -- A child of the caller is in its session, and so is the caller.
  have hsame : p.session = me.session := by
    by_cases hparent : p.parent = me.pid
    · exact not_not.1 fun hne => hsession ⟨hparent, hne⟩
    · have heq : p.pid = me.pid := not_not.1 fun hne => hother ⟨hparent, hne⟩
      rw [not_not.1 hpid] at heq
      rw [heq, hme] at hfind
      rw [Option.some.inj hfind]
  refine .inr (.inl ⟨Bool.eq_false_iff.2 hleader, Bool.eq_false_iff.2 hleader,
    rfl, ?_⟩)
  by_cases heq : pgid = pid
  · exact .inl (heq.trans (not_not.1 hpid).symm)
  · rcases hg : pgrpTask ps pgid with _ | g
    · exact absurd ⟨heq, by rw [hg]; rfl⟩ hgroup
    · have hg' : g.pgrp = pgid := by simpa using List.find?_some hg
      have hgs : g.session = me.session := by
        rw [hg] at hgroup
        simpa [heq] using hgroup
      exact .inr ⟨g, List.mem_of_find?_eq_some hg, hg', hgs.trans hsame.symm⟩

theorem ksysSetsid_outcome (hme : find Proc.pid me.pid ps = some me) :
    Outcome ps (ksysSetsid ps me).2 := by
  rw [ksysSetsid]
  split_ifs with hleader hgroup
  · exact .inl (.refl _)
  · exact .inl (.refl _)
  refine outcome_write (fun _ => rfl) fun q hq => ?_
  obtain rfl : me = q := Option.some.inj (hme.symm.trans hq)
  refine .inr (.inr ⟨Bool.eq_false_iff.2 hleader, fun g hg heq => hgroup ?_, rfl, rfl, rfl⟩)
  rw [pgrpTask, List.find?_isSome]
  exact ⟨g, hg, decide_eq_true heq⟩

theorem step_outcome (ps : List Proc) (e : Event) : Outcome ps (step ps e) := by
  have hsame : Outcome ps ps := .inl (.refl _)
  have hkeeps (f : Proc → Proc) (k : Int) (hpid : ∀ p, (f p).pid = p.pid)
      (hf : ∀ p, (f p).pgrp = p.pgrp ∧ (f p).session = p.session ∧ (f p).leader = p.leader) :
      Outcome ps (write Proc.pid k f ps) := outcome_write hpid fun p _ => .inl (hf p)
  rcases e with ⟨current, pid, pgid, security⟩ | current | ⟨current, pid, cloneParent⟩ |
    ⟨current, tid⟩ | ⟨current, tid⟩ | current | ⟨pid, parent⟩ | pid
  · rw [step]
    rcases hme : find Proc.pid current ps with _ | me
    · exact hsame
    · obtain ⟨_, rfl⟩ := find_some hme
      exact setpgid_outcome hme
  · rw [step]
    rcases hme : find Proc.pid current ps with _ | me
    · exact hsame
    · obtain ⟨_, rfl⟩ := find_some hme
      exact ksysSetsid_outcome hme
  · rw [step]
    rcases hme : find Proc.pid current ps with _ | me
    · exact hsame
    · rw [Option.elim_some]
      split_ifs with hfree
      · exact .inr (.inl ⟨me, pid, cloneParent, (find_some hme).1, hfree, rfl⟩)
      · exact hsame
  · rw [step]
    split_ifs
    · exact hkeeps _ _ (fun _ => rfl) fun _ => ⟨rfl, rfl, rfl⟩
    · exact hsame
  · exact hkeeps _ _ (fun _ => rfl) fun _ => ⟨rfl, rfl, rfl⟩
  · exact hkeeps _ _ (fun _ => rfl) fun _ => ⟨rfl, rfl, rfl⟩
  · exact hkeeps _ _ (fun _ => rfl) fun _ => ⟨rfl, rfl, rfl⟩
  · exact .inl erase_sublist

/-! ## Groups and sessions -/

/-- What groups and sessions should be. -/
structure Coherent (ps : List Proc) : Prop where
  distinct : Distinct Proc.pid ps
  /-- All processes of a group are in one session. -/
  group : Determines Proc.pgrp Proc.session ps
  leader : ∀ p ∈ ps, p.leader = true → p.pgrp = p.pid ∧ p.session = p.pid
  /-- The group with the number of a process is in the session of the process. -/
  named : ∀ p ∈ ps, ∀ q ∈ ps, q.pgrp = p.pid → q.session = p.session
  /-- The session with the number of a process is led by the process. -/
  led : ∀ p ∈ ps, ∀ q ∈ ps, q.session = p.pid → p.leader = true

variable {ps' : List Proc} {p' : Proc}

theorem Coherent.of_subset (h : Coherent ps) (hdistinct : Distinct Proc.pid ps')
    (hsub : ps' ⊆ ps) : Coherent ps' where
  distinct := hdistinct
  group := h.group.of_subset hsub
  leader p hp := h.leader p (hsub hp)
  named p hp q hq := h.named p (hsub hp) q (hsub hq)
  led p hp q hq := h.led p (hsub hp) q (hsub hq)

theorem Coherent.of_perm (h : Coherent ps) (hperm : ps'.Perm ps) : Coherent ps' := by
  refine h.of_subset ?_ hperm.subset
  rw [Distinct, (hperm.map _).nodup_iff]
  exact h.distinct

theorem Coherent.fork (h : Coherent ps) (hme : me ∈ ps) (hfree : pidFree ps pid = true)
    (cloneParent : Bool) : Coherent (forked me pid cloneParent :: ps) := by
  rw [pidFree, Bool.and_eq_true, List.all_eq_true] at hfree
  have hnew (q : Proc) (hq : q ∈ ps) : q.pid ≠ pid ∧ q.pgrp ≠ pid ∧ q.session ≠ pid := by
    have := hfree.2 q hq
    simp only [Bool.and_eq_true, bne_iff_ne] at this
    exact ⟨this.1.1.1, this.1.1.2, this.1.2⟩
  refine ⟨distinct_cons.2 ⟨fun q hq => (hnew q hq).1, h.distinct⟩,
    (h.group.of_subset (List.cons_subset.2 ⟨hme, List.Subset.refl _⟩)).replace (.inl ⟨rfl, rfl⟩),
    fun p hp hleader => ?_, fun p hp q hq heq => ?_, fun p hp q hq heq => ?_⟩
  · rcases List.mem_cons.1 hp with rfl | hp
    · cases hleader
    · exact h.leader p hp hleader
  -- The new number names nothing; the child is where its parent is.
  · rcases List.mem_cons.1 hp with rfl | hp
    · rcases List.mem_cons.1 hq with rfl | hq
      · rfl
      · exact absurd heq (hnew q hq).2.1
    · rcases List.mem_cons.1 hq with rfl | hq
      · exact h.named p hp me hme heq
      · exact h.named p hp q hq heq
  · rcases List.mem_cons.1 hp with rfl | hp
    · rcases List.mem_cons.1 hq with rfl | hq
      · exact absurd heq (hnew me hme).2.2
      · exact absurd heq (hnew q hq).2.2
    · rcases List.mem_cons.1 hq with rfl | hq
      · exact h.led p hp me hme heq
      · exact h.led p hp q hq heq

theorem Coherent.change (h : Coherent (p :: ps)) (hpid : p'.pid = p.pid)
    (hchange : Change (p :: ps) p p') : Coherent (p' :: ps) := by
  have hp : p ∈ p :: ps := List.mem_cons_self
  have hmem {q : Proc} (hq : q ∈ ps) : q ∈ p :: ps := List.mem_cons_of_mem _ hq
  obtain ⟨hne, hdistinct⟩ := distinct_cons.1 h.distinct
  have hdistinct' : Distinct Proc.pid (p' :: ps) := distinct_cons.2 ⟨hpid ▸ hne, hdistinct⟩
  rcases hchange with ⟨hpgrp, hsession, hleader⟩ | ⟨hnot, hleader, hsession, hgroup⟩ |
    ⟨hnot, hnone, hleader, hpgrp, hsession⟩
  · refine ⟨hdistinct', h.group.replace (.inl ⟨hpgrp, hsession⟩), ?_, ?_, ?_⟩
    all_goals simp only [List.forall_mem_cons, hpid, hpgrp, hsession, hleader]
    · simpa only [List.forall_mem_cons] using h.leader
    · simpa only [List.forall_mem_cons] using h.named
    · simpa only [List.forall_mem_cons] using h.led
  · -- The process joins a group of its session.
    have hsame : p'.leader = p.leader := hleader.trans hnot.symm
    refine ⟨hdistinct', determines_cons.2 ⟨fun q hq heq => ?_, (determines_cons.1 h.group).2⟩,
      List.forall_mem_cons.2 ⟨fun hl => ?_, fun q hq => h.leader q (hmem hq)⟩, fun x hx => ?_, ?_⟩
    · rw [hsession]
      rcases hgroup with hown | ⟨g, hg, hgp, hgs⟩
      · exact (h.named p hp q (hmem hq) (heq.symm.trans hown)).symm
      · exact hgs.symm.trans (h.group g hg q (hmem hq) (hgp.trans heq))
    · rw [hleader] at hl
      cases hl
    · refine List.forall_mem_cons.2 ⟨fun heq => ?_, fun q hq heq => ?_⟩
      · rcases List.mem_cons.1 hx with rfl | hx
        · rfl
        rw [hsession]
        rcases hgroup with hown | ⟨g, hg, hgp, hgs⟩
        · exact absurd (heq.symm.trans hown) (hne x hx)
        · exact hgs.symm.trans (h.named x (hmem hx) g hg (hgp.trans heq))
      · rcases List.mem_cons.1 hx with rfl | hx
        · rw [hsession]
          exact h.named p hp q (hmem hq) (heq.trans hpid)
        · exact h.named x (hmem hx) q (hmem hq) heq
    · simp only [List.forall_mem_cons, hpid, hsession, hsame]
      simpa only [List.forall_mem_cons] using h.led
  · -- The process becomes a leader: nothing has its number.
    refine ⟨hdistinct', determines_cons.2 ⟨fun q hq heq => ?_, (determines_cons.1 h.group).2⟩,
      List.forall_mem_cons.2 ⟨fun _ => ?_, fun q hq => h.leader q (hmem hq)⟩,
      fun x hx q hq heq => ?_,
      List.forall_mem_cons.2 ⟨fun _ _ _ => hleader, fun x hx q hq heq => ?_⟩⟩
    · exact absurd (heq.symm.trans hpgrp) (hnone q (hmem hq))
    · rw [hpid]
      exact ⟨hpgrp, hsession⟩
    · rcases List.mem_cons.1 hx with rfl | hx'
      · rcases List.mem_cons.1 hq with rfl | hq
        · rfl
        · exact absurd (heq.trans hpid) (hnone q (hmem hq))
      · rcases List.mem_cons.1 hq with rfl | hq
        · exact absurd (heq.symm.trans hpgrp) (hne x hx')
        · exact h.named x (hmem hx') q (hmem hq) heq
    · rcases List.mem_cons.1 hq with rfl | hq
      · exact absurd (heq.symm.trans hsession) (hne x hx)
      · exact h.led x (hmem hx) q (hmem hq) heq

theorem Change.of_perm (hchange : Change ps p p') (hperm : ps.Perm ps') : Change ps' p p' := by
  rw [Change] at hchange ⊢
  simpa only [hperm.mem_iff] using hchange

theorem Coherent.step (h : Coherent ps) (e : Event) : Coherent (step ps e) := by
  rcases step_outcome ps e with hsub | ⟨me, pid, cloneParent, hme, hfree, heq⟩ |
    ⟨p, p', hfind, hpid, hchange, heq⟩
  · exact h.of_subset (h.distinct.sublist (hsub.map _)) hsub.subset
  · rw [heq]
    exact h.fork hme hfree cloneParent
  · have hperm := perm_erase hfind
    rw [heq]
    exact ((h.of_perm hperm.symm).change hpid (hchange.of_perm hperm)).of_perm (perm_write hfind)

theorem coherent_boot : Coherent boot := by
  refine ⟨List.nodup_singleton _, fun p hp q hq _ => ?_, by decide, by decide, by decide⟩
  rw [List.mem_singleton.1 hp, List.mem_singleton.1 hq]

/-- In every run, groups and sessions are as they should be. -/
theorem sessions_coherent (es : List Event) : Coherent (run step boot es) :=
  (always_of_step (R := fun _ => True) coherent_boot (fun _ _ => trivial)
    fun _ e _ h => h.step e).run

/-! ## Who stays where it is -/

/-- The process that the event is a call of, if it asks for a group or a session. -/
def Event.caller : Event → Option Int
  | .setpgid current _ _ _ => some current
  | .setsid current => some current
  | _ => none

/-- A process with the same group and session; it has not forgotten that it executed a program. -/
structure Stays (p p' : Proc) : Prop where
  pgrp : p'.pgrp = p.pgrp
  session : p'.session = p.session
  leader : p'.leader = p.leader
  exec : p.forknoexec = false → p'.forknoexec = false

theorem stays_write {f : Proc → Proc} (hf : ∀ q, (f q).pid = q.pid) (hstays : ∀ q, Stays q (f q))
    (hfind : find Proc.pid p.pid ps = some p) :
    ∃ p', find Proc.pid p.pid (write Proc.pid k f ps) = some p' ∧ Stays p p' := by
  by_cases hk : p.pid = k
  · rw [← hk, find_write_self hf, hfind]
    exact ⟨f p, rfl, hstays p⟩
  · rw [find_write_of_ne hf hk, hfind]
    exact ⟨p, rfl, rfl, rfl, rfl, id⟩

/-- Who is found and is not a leader, and is the caller or has not executed a program, may
    change. -/
theorem setpgid_settled (hme : find Proc.pid k ps = some me)
    (hfind : find Proc.pid p.pid ps = some p)
    (hsettled : p.leader = true ∨ p.forknoexec = false ∧ some k ≠ some p.pid) :
    ∃ p', find Proc.pid p.pid (setpgid ps me pid pgid security).2 = some p' ∧ Stays p p' := by
  have hsame : ∃ p', find Proc.pid p.pid ps = some p' ∧ Stays p p' :=
    ⟨p, hfind, rfl, rfl, rfl, id⟩
  obtain ⟨_, rfl⟩ := find_some hme
  rw [setpgid]
  generalize namedPgid me pid pgid = pgid
  generalize namedPid me pid = pid
  by_cases hneg : pgid < 0
  · rw [if_pos hneg]
    exact hsame
  rw [if_neg hneg]
  rcases htask : findTask ps pid with _ | q
  · exact hsame
  dsimp only
  split_ifs with hpid _ hexec hother hleader
  any_goals exact hsame
  have hq := find_of_findTask htask (not_not.1 hpid)
  by_cases heq : p.pid = pid
  · -- The process is the one that was found; it is not a leader, and not the caller.
    rw [heq, hq] at hfind
    obtain rfl : q = p := Option.some.inj hfind
    rcases hsettled with hl | ⟨hf, hcaller⟩
    · exact absurd hl hleader
    · have hne : q.pid ≠ me.pid := fun h => hcaller (congrArg some h.symm)
      have hchild : q.parent = me.pid := not_not.1 fun h => hother ⟨h, hne⟩
      exact absurd ⟨hchild, hf⟩ hexec
  · refine ⟨p, (find_write_of_ne ?_ heq).trans hfind, rfl, rfl, rfl, id⟩
    exact fun _ => rfl

theorem ksysSetsid_settled (hme : find Proc.pid k ps = some me)
    (hfind : find Proc.pid p.pid ps = some p)
    (hsettled : p.leader = true ∨ p.forknoexec = false ∧ some k ≠ some p.pid) :
    ∃ p', find Proc.pid p.pid (ksysSetsid ps me).2 = some p' ∧ Stays p p' := by
  have hsame : ∃ p', find Proc.pid p.pid ps = some p' ∧ Stays p p' :=
    ⟨p, hfind, rfl, rfl, rfl, id⟩
  obtain ⟨_, rfl⟩ := find_some hme
  rw [ksysSetsid]
  split_ifs with hleader
  · exact hsame
  · exact hsame
  by_cases heq : p.pid = me.pid
  · rw [heq, hme] at hfind
    obtain rfl : me = p := Option.some.inj hfind
    rcases hsettled with hl | ⟨_, hcaller⟩
    · exact absurd hl hleader
    · exact absurd rfl hcaller
  · refine ⟨p, (find_write_of_ne ?_ heq).trans hfind, rfl, rfl, rfl, id⟩
    exact fun _ => rfl

theorem settled_step {e : Event} (hfind : find Proc.pid p.pid ps = some p)
    (hexit : e ≠ .exit p.pid)
    (hsettled : p.leader = true ∨ p.forknoexec = false ∧ e.caller ≠ some p.pid) :
    ∃ p', find Proc.pid p.pid (step ps e) = some p' ∧ Stays p p' := by
  have hsame : ∃ p', find Proc.pid p.pid ps = some p' ∧ Stays p p' :=
    ⟨p, hfind, rfl, rfl, rfl, id⟩
  have hkeeps (f : Proc → Proc) (k : Int) (hpid : ∀ q, (f q).pid = q.pid)
      (hf : ∀ q, Stays q (f q)) :
      ∃ p', find Proc.pid p.pid (write Proc.pid k f ps) = some p' ∧ Stays p p' :=
    stays_write hpid hf hfind
  rcases e with ⟨current, pid, pgid, security⟩ | current | ⟨current, pid, cloneParent⟩ |
    ⟨current, tid⟩ | ⟨current, tid⟩ | current | ⟨pid, parent⟩ | pid
  · rw [step]
    rcases hme : find Proc.pid current ps with _ | me
    · exact hsame
    · exact setpgid_settled hme hfind hsettled
  · rw [step]
    rcases hme : find Proc.pid current ps with _ | me
    · exact hsame
    · exact ksysSetsid_settled hme hfind hsettled
  · rw [step]
    rcases hme : find Proc.pid current ps with _ | me
    · exact hsame
    rw [Option.elim_some]
    split_ifs with hfree
    · rw [pidFree, Bool.and_eq_true, List.all_eq_true] at hfree
      have hnew := hfree.2 p (find_some hfind).1
      simp only [Bool.and_eq_true, bne_iff_ne] at hnew
      rw [find_cons_of_ne (Ne.symm hnew.1.1.1)]
      exact hsame
    · exact hsame
  · rw [step]
    split_ifs
    · exact hkeeps _ _ (fun _ => rfl) fun _ => ⟨rfl, rfl, rfl, id⟩
    · exact hsame
  · exact hkeeps _ _ (fun _ => rfl) fun _ => ⟨rfl, rfl, rfl, id⟩
  · exact hkeeps _ _ (fun _ => rfl) fun _ => ⟨rfl, rfl, rfl, fun _ => rfl⟩
  · exact hkeeps _ _ (fun _ => rfl) fun _ => ⟨rfl, rfl, rfl, id⟩
  · rw [step, find_erase_of_ne fun heq => hexit (congrArg _ heq.symm)]
    exact hsame

/-- A process stays in its group and its session as long as it exists, whatever all processes do, if
    it is a session leader; and whatever the others do, if it has executed a program. -/
theorem settled_run (ps : List Proc) (p : Proc) (es : List Event)
    (hfind : find Proc.pid p.pid ps = some p) (hexit : ∀ e ∈ es, e ≠ .exit p.pid)
    (hsettled : p.leader = true ∨ p.forknoexec = false ∧ ∀ e ∈ es, e.caller ≠ some p.pid) :
    ∃ p', find Proc.pid p.pid (run step ps es) = some p' ∧ p'.pgrp = p.pgrp ∧
      p'.session = p.session := by
  -- On the events; the process may change, but not its number.
  induction es generalizing ps p with
  | nil => exact ⟨p, hfind, rfl, rfl⟩
  | cons e es ih =>
    obtain ⟨p₁, hfind₁, hstays⟩ := settled_step hfind (hexit e List.mem_cons_self)
      (hsettled.imp_right fun h => ⟨h.1, h.2 e List.mem_cons_self⟩)
    have hpid : p₁.pid = p.pid := (find_some hfind₁).2
    obtain ⟨p', hfind', hpgrp, hsession⟩ := ih (step ps e) p₁ (hpid ▸ hfind₁)
      (fun e' he' => hpid ▸ hexit e' (List.mem_cons_of_mem _ he'))
      (hsettled.imp (fun h => hstays.leader.trans h) fun h =>
        ⟨hstays.exec h.1, fun e' he' => hpid ▸ h.2 e' (List.mem_cons_of_mem _ he')⟩)
    exact ⟨p', hpid ▸ hfind', hpgrp.trans hstays.pgrp, hsession.trans hstays.session⟩

/-- The first process leads a session; a child of it has a group, and has executed a program. -/
def shell : List Proc := [⟨7, [], 1, 7, 1, false, false⟩, ⟨1, [], 0, 1, 1, true, false⟩]

theorem settled_run_shell :
    ∃ p', find Proc.pid 7 (run step shell [.setpgid 1 7 1 0, .reparent 7 9, .setsid 1]) = some p' ∧
      p'.pgrp = 7 ∧ p'.session = 1 :=
  settled_run shell ⟨7, [], 1, 7, 1, false, false⟩ [.setpgid 1 7 1 0, .reparent 7 9, .setsid 1] rfl
    (by simp) (.inr ⟨rfl, by simp [Event.caller]⟩)

/-! ## Reading back -/

/-- A call of `setpgid` that succeeds has found the process. -/
theorem setpgid_ok (hret : (setpgid ps me pid pgid security).1 = 0) :
    (setpgid ps me pid pgid security).2 = write Proc.pid (namedPid me pid)
        (fun p => { p with pgrp := namedPgid me pid pgid }) ps ∧
      (find Proc.pid (namedPid me pid) ps).isSome = true := by
  rw [setpgid] at hret ⊢
  generalize namedPgid me pid pgid = pgid at hret ⊢
  generalize namedPid me pid = pid at hret ⊢
  by_cases hneg : pgid < 0
  · rw [if_pos hneg] at hret
    cases hret
  rw [if_neg hneg] at hret ⊢
  rcases htask : findTask ps pid with _ | p
  · rw [htask] at hret
    cases hret
  rw [htask] at hret
  dsimp only at hret ⊢
  split_ifs at hret ⊢ with hpid _ _ _ _ _ hsecurity
  any_goals cases hret
  · exact absurd rfl hsecurity
  · exact ⟨rfl, Option.isSome_iff_exists.2 ⟨p, find_of_findTask htask (not_not.1 hpid)⟩⟩

theorem ksysSetsid_ok (hret : 0 < (ksysSetsid ps me).1) :
    ksysSetsid ps me = (me.pid, write Proc.pid me.pid
      (fun p => { p with leader := true, session := me.pid, pgrp := me.pid }) ps) := by
  have hnot : ¬0 < -EPERM := by decide
  rw [ksysSetsid] at hret ⊢
  split_ifs at hret ⊢
  · exact absurd hret hnot
  · exact absurd hret hnot
  · rfl

/-- The process that was written is the one that is found. -/
theorem findTask_write {f : Proc → Proc} (hf : ∀ p, (f p).pid = p.pid)
    (h : find Proc.pid k ps = some p) : findTask (write Proc.pid k f ps) k = some (f p) := by
  rw [findTask, find_write_self hf, h]
  rfl

/-- What `setpgid` and `setsid` have done is what `getpgid` and `getsid` say, whoever asks, and they
    have done it to one process only. -/
theorem calls_read_back (ps : List Proc) (me other : Proc) (pid pgid security : Int)
    (hme : find Proc.pid me.pid ps = some me) (hpid : me.pid ≠ 0) :
    ((setpgid ps me pid pgid security).1 = 0 →
      doGetpgid (setpgid ps me pid pgid security).2 other (namedPid me pid) 0 =
          namedPgid me pid pgid ∧
        ∀ k ≠ namedPid me pid,
          find Proc.pid k (setpgid ps me pid pgid security).2 = find Proc.pid k ps) ∧
    (0 < (ksysSetsid ps me).1 →
      doGetpgid (ksysSetsid ps me).2 other me.pid 0 = (ksysSetsid ps me).1 ∧
        getsid (ksysSetsid ps me).2 other me.pid 0 = (ksysSetsid ps me).1 ∧
        ∀ k ≠ me.pid, find Proc.pid k (ksysSetsid ps me).2 = find Proc.pid k ps) := by
  refine ⟨fun hret => ?_, fun hret => ?_⟩
  · obtain ⟨hwrite, hsome⟩ := setpgid_ok hret
    obtain ⟨p, hfind⟩ := Option.isSome_iff_exists.1 hsome
    have hne : namedPid me pid ≠ 0 := by
      rw [namedPid]
      split_ifs with hzero
      exacts [hpid, hzero]
    rw [hwrite]
    refine ⟨?_, fun k hk => find_write_of_ne ?_ hk⟩
    · rw [doGetpgid, if_neg hne, findTask_write ?_ hfind]
      · rfl
      · exact fun _ => rfl
    · exact fun _ => rfl
  · rw [ksysSetsid_ok hret]
    refine ⟨?_, ?_, fun k hk => find_write_of_ne ?_ hk⟩
    · rw [doGetpgid, if_neg hpid, findTask_write ?_ hme]
      · rfl
      · exact fun _ => rfl
    · rw [getsid, if_neg hpid, findTask_write ?_ hme]
      · rfl
      · exact fun _ => rfl
    · exact fun _ => rfl

theorem calls_read_back_shell :
    doGetpgid (setpgid shell ⟨7, [], 1, 7, 1, false, false⟩ 0 1 0).2 ⟨1, [], 0, 1, 1, true, false⟩
      7 0 = 1 :=
  ((calls_read_back shell ⟨7, [], 1, 7, 1, false, false⟩ ⟨1, [], 0, 1, 1, true, false⟩ 0 1 0 rfl
    (by decide)).1 (by decide)).1

end

end JobControl

end LuisKernel
