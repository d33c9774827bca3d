import MesCore.Runs
import Mathlib.Data.List.Basic

namespace MesCore
set_option autoImplicit true

/-- What `execute` raises. -/
inductive ProcessError
  | timeoutError (msg : String)
  | executionError (msg : String)
  | keyboardInterrupt
  deriving DecidableEq

/-- Where `execute` is. -/
inductive ExecPc
  | deadline
  | read
  | poll
  | pause
  | reap
  | returned
  | raised (e : ProcessError)
  deriving DecidableEq

/-- A `LiveProcess` and its child. The pipe holds the text, as text mode delivers it, that the child
has written and nobody has read; `written` is all of it. -/
structure LiveProcess where
  cmd : List String
  pipe : List Char := []
  written : List Char := []
  exitCode : Option Int := none
  chunks : List (List Char) := []
  pc : ExecPc := .deadline
  stdout : List Char := []
  returncode : Option Int := none
  executed : Bool := false

inductive ProcessAct
  | write (text : List Char)
  | exit (code : Int)
  | checkDeadline (late : Bool)
  | read (n : Nat)
  | poll
  | wake
  | reap
  | fail (msg : String)
  | interrupt

namespace LiveProcess
section
variable (s : LiveProcess)

def cmdStr : String := " ".intercalate s.cmd

/-- The `finally` block: a child still alive is killed, and the chunks are joined. -/
def finish (pc : ExecPc) (returncode : Option Int) : LiveProcess :=
  { s with
    pc := pc
    returncode := returncode
    exitCode := some (s.exitCode.getD (-9))
    stdout := s.chunks.flatten
    executed := true }

/-- `execute` has not been left. -/
def running : Bool :=
  match s.pc with
  | .returned | .raised _ => false
  | _ => true

/-- One step of the child or of the loop of `execute`. A read of the non-blocking pipe returns
nothing if nothing is there, else up to sixteen characters. -/
def step : ProcessAct → Option LiveProcess
  | .write text =>
    if s.exitCode.isSome then none
    else some { s with pipe := s.pipe ++ text, written := s.written ++ text }
  | .exit code => if s.exitCode.isSome then none else some { s with exitCode := some code }
  | .checkDeadline late =>
    if s.pc = .deadline then
      if late then
        some (s.finish (.raised (.timeoutError s!"Command timed out: {s.cmdStr}")) (some (-1)))
      else some { s with pc := .read }
    else none
  | .read n =>
    if s.pc = .read then
      if s.pipe = [] then some { s with pc := .poll }
      else if 1 ≤ n ∧ n ≤ 16 then
        some { s with
          pipe := s.pipe.drop n
          chunks := s.chunks ++ [s.pipe.take n]
          pc := .deadline }
      else none
    else none
  | .poll =>
    if s.pc = .poll then some { s with pc := if s.exitCode.isSome then .reap else .pause }
    else none
  | .wake => if s.pc = .pause then some { s with pc := .deadline } else none
  | .reap => if s.pc = .reap then some (s.finish .returned s.exitCode) else none
  | .fail msg =>
    if s.pc = .read then
      some (s.finish (.raised (.executionError s!"Process execution failed: {msg}")) (some (-2)))
    else none
  | .interrupt =>
    if s.running then some (s.finish (.raised .keyboardInterrupt) (some (-1))) else none

/-- The child does not exit between an empty read and the poll that follows it with text of its own
unread. -/
def Guarded (s : LiveProcess) : ProcessAct → Prop
  | .exit _ => s.pc = .poll → s.pipe = []
  | _ => True

/-- Nothing is lost or made up between the child and the chunks. -/
structure Counted (s : LiveProcess) : Prop where
  all : s.chunks.flatten ++ s.pipe = s.written
  joined : s.pc = .returned → s.stdout = s.chunks.flatten

/-- Whoever is about to leave the loop has left nothing in the pipe. -/
structure Drained (s : LiveProcess) : Prop where
  polled : s.pc = .poll → s.exitCode.isSome = true → s.pipe = []
  left : s.pc = .reap ∨ s.pc = .returned → s.exitCode.isSome = true ∧ s.pipe = []

/-- The child is gone, text is left, and the loop does not read again. -/
structure Doomed (s : LiveProcess) : Prop where
  gone : s.exitCode.isSome = true
  unread : s.pipe ≠ []
  leaving : s.pc ∉ [ExecPc.deadline, .read, .pause]

/-- What a step can do, and when. -/
inductive Stepped (s : LiveProcess) : ProcessAct → LiveProcess → Prop
  | write (text : List Char) (hlive : s.exitCode = none) :
    Stepped s (.write text) { s with pipe := s.pipe ++ text, written := s.written ++ text }
  | exit (code : Int) (hlive : s.exitCode = none) :
    Stepped s (.exit code) { s with exitCode := some code }
  | late (hpc : s.pc = .deadline) (e : ProcessError) (code : Option Int) :
    Stepped s (.checkDeadline true) (s.finish (.raised e) code)
  | soon (hpc : s.pc = .deadline) : Stepped s (.checkDeadline false) { s with pc := .read }
  | empty (hpc : s.pc = .read) (hpipe : s.pipe = []) (n : Nat) :
    Stepped s (.read n) { s with pc := .poll }
  | chunk (hpc : s.pc = .read) (n : Nat) : Stepped s (.read n)
    { s with pipe := s.pipe.drop n, chunks := s.chunks ++ [s.pipe.take n], pc := .deadline }
  | gone (hpc : s.pc = .poll) (hexit : s.exitCode.isSome = true) :
    Stepped s .poll { s with pc := .reap }
  | alive (hpc : s.pc = .poll) (hlive : s.exitCode = none) : Stepped s .poll { s with pc := .pause }
  | wake (hpc : s.pc = .pause) : Stepped s .wake { s with pc := .deadline }
  | reap (hpc : s.pc = .reap) : Stepped s .reap (s.finish .returned s.exitCode)
  | fail (hpc : s.pc = .read) (msg : String) (e : ProcessError) (code : Option Int) :
    Stepped s (.fail msg) (s.finish (.raised e) code)
  | interrupt (hrunning : s.running = true) (e : ProcessError) (code : Option Int) :
    Stepped s .interrupt (s.finish (.raised e) code)

end

variable {s s' : LiveProcess} {acts : List ProcessAct} {a : ProcessAct}

theorem stepped (h : s.step a = some s') : Stepped s a s' := by
  cases a with
  | write text =>
    rw [step] at h
    split at h <;> cases h
    exact .write text (Option.not_isSome_iff_eq_none.1 ‹_›)
  | exit code =>
    rw [step] at h
    split at h <;> cases h
    exact .exit code (Option.not_isSome_iff_eq_none.1 ‹_›)
  | checkDeadline late =>
    rw [step] at h
    split at h
    · cases late with
      | true =>
        cases h
        exact .late ‹_› _ _
      | false =>
        cases h
        exact .soon ‹_›
    · cases h
  | read n =>
    rw [step] at h
    split at h
    · split at h
      · cases h
        exact .empty ‹_› ‹_› n
      · split at h <;> cases h
        exact .chunk ‹_› n
    · cases h
  | poll =>
    rw [step] at h
    split at h
    · rename_i hpc
      cases hexit : s.exitCode.isSome with
      | true =>
        rw [hexit] at h
        cases h
        exact .gone hpc hexit
      | false =>
        rw [hexit] at h
        cases h
        exact .alive hpc (Option.isNone_iff_eq_none.1 (Option.isSome_eq_false_iff.1 hexit))
    · cases h
  | wake =>
    rw [step] at h
    split at h <;> cases h
    exact .wake ‹_›
  | reap =>
    rw [step] at h
    split at h <;> cases h
    exact .reap ‹_›
  | fail msg =>
    rw [step] at h
    split at h <;> cases h
    exact .fail ‹_› msg _ _
  | interrupt =>
    rw [step] at h
    split at h <;> cases h
    exact .interrupt ‹_› _ _

theorem Counted.step (h : s.Counted) (hs : Stepped s a s') : s'.Counted := by
  cases hs with
  | write text hlive => exact ⟨by rw [← h.all, List.append_assoc], h.joined⟩
  | exit code hlive => exact ⟨h.all, h.joined⟩
  | late | reap | fail | interrupt => exact ⟨h.all, fun _ => rfl⟩
  | soon | empty | gone | alive | wake => exact ⟨h.all, fun hpc => by cases hpc⟩
  | chunk hpc n =>
    refine ⟨?_, fun hpc => by cases hpc⟩
    rw [List.flatten_append, List.flatten_singleton, List.append_assoc, List.take_append_drop]
    exact h.all

theorem Drained.elsewhere (hpc : s.pc ∉ [ExecPc.poll, .reap, .returned]) : s.Drained := by
  refine ⟨fun h _ => absurd h ?_, fun h => absurd h ?_⟩
  · rintro h
    exact hpc (by simp [h])
  · rintro (h | h)
    · exact hpc (by simp [h])
    · exact hpc (by simp [h])

theorem Drained.step (h : s.Drained) (hg : s.Guarded a) (hs : Stepped s a s') : s'.Drained := by
  cases hs with
  | write text hlive =>
    refine ⟨fun _ hexit => ?_, fun hpc => ?_⟩
    · rw [hlive] at hexit
      cases hexit
    · have hgone := (h.left hpc).1
      rw [hlive] at hgone
      cases hgone
  | exit code hlive =>
    refine ⟨fun hpc _ => hg hpc, fun hpc => ?_⟩
    have hgone := (h.left hpc).1
    rw [hlive] at hgone
    cases hgone
  | empty hpc hpipe n => exact ⟨fun _ _ => hpipe, by rintro (hpc | hpc) <;> cases hpc⟩
  | gone hpc hexit =>
    refine ⟨?_, fun _ => ⟨hexit, h.polled hpc hexit⟩⟩
    intro hpoll
    cases hpoll
  | reap hpc =>
    refine ⟨?_, fun _ => ⟨rfl, (h.left (.inl hpc)).2⟩⟩
    intro hpoll
    cases hpoll
  | late | soon | chunk | alive | wake | fail | interrupt => exact .elsewhere (by simp [finish])

theorem Drained.doomed (hg : ¬ s.Guarded a) (hs : Stepped s a s') : s'.Doomed := by
  cases hs with
  | exit code hlive =>
    rw [Guarded, Classical.not_imp] at hg
    exact ⟨rfl, hg.2, by rw [hg.1]; decide⟩
  | write | late | soon | empty | chunk | gone | alive | wake | reap | fail | interrupt =>
    exact absurd trivial hg

theorem Doomed.step (h : s.Doomed) (hs : Stepped s a s') : s'.Doomed := by
  have hout {pc : ExecPc} (hpc : s.pc = pc) (hin : pc ∈ [ExecPc.deadline, .read, .pause]) : False :=
    h.leaving (hpc ▸ hin)
  have hgone (hlive : s.exitCode = none) : False := by
    have hgone := h.gone
    rw [hlive] at hgone
    cases hgone
  cases hs with
  | write text hlive => exact (hgone hlive).elim
  | exit code hlive => exact (hgone hlive).elim
  | late hpc | soon hpc => exact (hout hpc (by decide)).elim
  | empty hpc | chunk hpc | fail hpc => exact (hout hpc (by decide)).elim
  | gone hpc hexit => exact ⟨h.gone, h.unread, by simp⟩
  | alive hpc hlive => exact (hgone hlive).elim
  | wake hpc => exact (hout hpc (by decide)).elim
  | reap hpc => exact ⟨rfl, h.unread, by simp [finish]⟩
  | interrupt => exact ⟨rfl, h.unread, by simp [finish]⟩

theorem doomed_run (h : Run LiveProcess.step (fun _ _ => True) s acts s') (hs : s.Doomed) :
    s'.Doomed :=
  h.invariant Doomed (fun hd _ hstep => hd.step (stepped hstep)) hs

/-- A run that leaves nothing in the pipe is one whose exits all meet the condition. -/
theorem drained_iff (h : Run LiveProcess.step (fun _ _ => True) s acts s') (hs : s.Drained)
    (hpc : s'.pc = .returned) : s'.pipe = [] ↔ Run LiveProcess.step Guarded s acts s' := by
  induction h with
  | nil s => exact ⟨fun _ => .nil s, fun _ => (hs.left (.inr hpc)).2⟩
  | @cons s a s₁ as s₂ _ hstep hrest ih =>
    by_cases hg : s.Guarded a
    · rw [ih (hs.step hg (stepped hstep)) hpc]
      constructor
      · exact fun hrun => .cons hg hstep hrun
      · intro hrun
        cases hrun with
        | cons _ hstep' hrun =>
          cases Option.some.inj (hstep.symm.trans hstep')
          exact hrun
    · constructor
      · intro hempty
        exact absurd hempty (doomed_run hrest (Drained.doomed hg (stepped hstep))).unread
      · intro hrun
        cases hrun with
        | cons hg' => exact absurd hg' hg

end LiveProcess

/-- What `execute` returns is all the child wrote exactly in the runs in which the child does not
exit between an empty read and the poll that follows it with text unread. -/
theorem execute_complete_iff (cmd : List String) {acts : List ProcessAct} {s : LiveProcess}
    (h : Run LiveProcess.step (fun _ _ => True) { cmd := cmd } acts s) (hpc : s.pc = .returned) :
    s.stdout = s.written ↔ Run LiveProcess.step LiveProcess.Guarded { cmd := cmd } acts s := by
  have hcounted : s.Counted := h.invariant LiveProcess.Counted
    (fun hc _ hstep => hc.step (LiveProcess.stepped hstep)) ⟨rfl, fun hpc => by cases hpc⟩
  have hdrained : LiveProcess.Drained { cmd := cmd } := .elsewhere (by simp)
  rw [← LiveProcess.drained_iff h hdrained hpc, hcounted.joined hpc, ← hcounted.all]
  constructor
  · intro heq
    exact List.append_cancel_left (heq.symm.trans (List.append_nil _).symm)
  · intro hempty
    rw [hempty, List.append_nil]

/-- A child that prints its last line just before it exits, while the loop goes from its empty read
to the poll. -/
def lastLineLost : List ProcessAct :=
  [.checkDeadline false, .read 16, .write "Done\n".toList, .exit 0, .poll, .reap]

/-- `uuu` is seen to exit with 0 and without its success marker. -/
theorem execute_loses : ∃ s,
    Run LiveProcess.step (fun _ _ => True) { cmd := ["uuu"] } lastLineLost s ∧
    s.pc = .returned ∧ s.returncode = some 0 ∧ s.written = "Done\n".toList ∧ s.stdout = [] :=
  ⟨_, Run.of_runFrom rfl fun _ _ _ => trivial, rfl, rfl, rfl, rfl⟩

def lastLineRead : List ProcessAct :=
  [.checkDeadline false, .write "Done\n".toList, .exit 0, .read 16, .checkDeadline false, .read 16,
    .poll, .reap]

theorem execute_complete_read : ∃ s : LiveProcess, s.pc = .returned ∧ s.stdout = s.written ∧
    s.written = "Done\n".toList := by
  have hrun : ∃ s, Run LiveProcess.step (fun _ _ => True) { cmd := ["uuu"] } lastLineRead s ∧
      Run LiveProcess.step LiveProcess.Guarded { cmd := ["uuu"] } lastLineRead s ∧
        s.pc = .returned ∧ s.written = "Done\n".toList := by
    refine ⟨_, Run.of_runFrom rfl fun _ _ _ => trivial, ?_, rfl, rfl⟩
    apply Run.cons trivial rfl
    apply Run.cons trivial rfl
    apply Run.cons (fun hpc => by cases hpc) rfl
    apply Run.cons trivial rfl
    apply Run.cons trivial rfl
    apply Run.cons trivial rfl
    apply Run.cons trivial rfl
    apply Run.cons trivial rfl
    exact .nil _
  obtain ⟨s, hrun, hguarded, hpc, hwritten⟩ := hrun
  exact ⟨s, hpc, (execute_complete_iff ["uuu"] hrun hpc).2 hguarded, hwritten⟩

end MesCore
