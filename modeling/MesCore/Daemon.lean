import MesCore.Runs
import MesCore.Text

namespace MesCore
set_option autoImplicit true

/-- `readline`: through the first newline, or what is left once nobody can write any more. On an
open pipe without a newline it blocks. -/
def readline (closed : Bool) (pipe : List Char) : Option (List Char) :=
  if '\n' ∈ pipe then some (pipe.takeWhile (· ≠ '\n') ++ ['\n'])
  else if closed then some pipe
  else none

/-- The lines of a text of which no more than this may ever be there. -/
def printedLines (closed : Bool) (text : List Char) : List (List Char) :=
  if closed then splitNewline text else (splitNewline text).dropLast

/-- What `_io_consumer` puts into the log for these lines. -/
def logOf (lines : List (List Char)) : List (List Char) :=
  ((lines.map pyStrip).filter (· ≠ [])).map (· ++ ['\n'])

/-- A line with its newline. -/
def Whole (line : List Char) : Prop := ∃ t, '\n' ∉ t ∧ line = t ++ ['\n']

theorem splitNewline_whole {ls : List (List Char)} (h : ∀ l ∈ ls, Whole l) (u : List Char) :
    splitNewline (ls.flatten ++ u) = ls.map List.dropLast ++ splitNewline u := by
  have hline {t : List Char} (ht : '\n' ∉ t) (u : List Char) :
      splitNewline (t ++ '\n' :: u) = t :: splitNewline u := by
    induction t with
    | nil => rfl
    | cons c t ih =>
      have hc : c ≠ '\n' := fun hc => ht (hc ▸ List.mem_cons_self)
      rw [List.cons_append, splitNewline, if_neg hc,
        ih fun hmem => ht (List.mem_cons_of_mem _ hmem)]
  induction ls with
  | nil => rfl
  | cons l ls ih =>
    obtain ⟨t, ht, rfl⟩ := h l List.mem_cons_self
    rw [List.flatten_cons, List.append_assoc, List.append_assoc, List.singleton_append, hline ht,
      ih fun l hl => h l (List.mem_cons_of_mem _ hl), List.map_cons, List.dropLast_concat,
      List.cons_append]

theorem splitNewline_last {t : List Char} (h : '\n' ∉ t) : splitNewline t = [t] := by
  induction t with
  | nil => rfl
  | cons c t ih =>
    have hc : c ≠ '\n' := fun hc => h (hc ▸ List.mem_cons_self)
    rw [splitNewline, if_neg hc, ih fun hmem => h (List.mem_cons_of_mem _ hmem)]

theorem splitNewline_ne_nil (t : List Char) : splitNewline t ≠ [] := by
  rw [splitNewline_eq]
  exact List.splitOn_ne_nil _ _

theorem strip_chomp {ls : List (List Char)} (h : ∀ l ∈ ls, Whole l) :
    (ls.map List.dropLast).map pyStrip = ls.map pyStrip := by
  rw [List.map_map]
  apply List.map_congr_left
  intro l hl
  obtain ⟨t, _, rfl⟩ := h l hl
  rw [Function.comp_apply, List.dropLast_concat, pyStrip_concat_space (by decide)]

theorem logOf_append (ls ls' : List (List Char)) : logOf (ls ++ ls') = logOf ls ++ logOf ls' := by
  rw [logOf, List.map_append, List.filter_append, List.map_append]
  rfl

theorem logOf_blank {line : List Char} (h : pyStrip line = []) : logOf [line] = [] := by
  rw [logOf, List.map_singleton, h]
  rfl

theorem logOf_line {line : List Char} (h : pyStrip line ≠ []) :
    logOf [line] = [pyStrip line ++ ['\n']] := by
  rw [logOf, List.map_singleton, List.filter_singleton, decide_eq_true h]
  rfl

theorem readline_nil {closed : Bool} {pipe : List Char} (h : readline closed pipe = some []) :
    closed = true ∧ pipe = [] := by
  rw [readline] at h
  split at h
  · exact (List.append_ne_nil_of_right_ne_nil _ (List.cons_ne_nil _ _) (Option.some.inj h)).elim
  · split at h
    · exact ⟨‹_›, Option.some.inj h⟩
    · cases h

/-- What `readline` returns is the next line, or the rest of a closed pipe. -/
theorem readline_line {closed : Bool} {pipe line : List Char}
    (h : readline closed pipe = some line) : line ++ pipe.drop line.length = pipe ∧
      (Whole line ∨ closed = true ∧ '\n' ∉ line ∧ pipe.drop line.length = []) := by
  rw [readline] at h
  split at h
  · rename_i hmem
    cases h
    have hstart : pipe.takeWhile (· ≠ '\n') ++ ['\n'] <+: pipe := by
      obtain ⟨u, v, rfl, hu⟩ := List.eq_append_cons_of_mem hmem
      have hall (c : Char) (hc : c ∈ u) : decide (c ≠ '\n') = true :=
        decide_eq_true fun heq => hu (heq ▸ hc)
      rw [List.takeWhile_append_of_pos hall, List.takeWhile_cons_of_neg (by simp)]
      exact ⟨v, by simp⟩
    refine ⟨?_, .inl ⟨_, ?_, rfl⟩⟩
    · rw [← List.prefix_iff_eq_append]
      exact hstart
    · intro hin
      simpa using List.mem_takeWhile_imp hin
  · rename_i hmem
    split at h <;> cases h
    exact ⟨by rw [List.drop_length, List.append_nil], .inr ⟨‹_›, hmem, List.drop_length⟩⟩

/-- What `stop` was called for. -/
inductive StopCause
  | timedOut
  | crashed (code : Int)
  | ctrlC
  | release
  deriving DecidableEq

/-- How the session ended. -/
inductive DaemonOutcome
  | startupError (msg : String)
  | fileNotFound
  | keyboardInterrupt
  | stopped
  deriving DecidableEq

/-- Where the thread is that called `start`. The `body` lasts from the return of `start` to the call
of `stop`: an interrupt in the rest of `__enter__` or `__exit__` counts as one of the body. -/
inductive DaemonPc
  | entering
  | spawned
  | waiting
  | sleeping
  | waking
  | body
  | polling (cause : StopCause)
  | terminating (cause : StopCause)
  | killing (cause : StopCause)
  | joining (cause : StopCause)
  | left (outcome : DaemonOutcome)
  deriving DecidableEq

/-- Where `_io_consumer` is, and with which line. -/
inductive ConsumerPc
  | idle
  | starting
  | reading
  | got (line : List Char)
  | checked (line : List Char)
  | logged (line : List Char)
  | ended (all : Bool)
  deriving DecidableEq

inductive Signal
  | term
  | kill
  deriving DecidableEq

/-- A `DaemonProcess`, its child and its two threads. `written` is all that was printed, with the
newlines that `text=True` makes of it, `pipe` what of it nobody has read, and `lines` what
`readline` has returned. -/
structure DaemonProcess where
  cmd : List String
  readyPhrase : Option (List Char)
  pc : DaemonPc := .entering
  consumer : ConsumerPc := .idle
  proc : Bool := false
  launched : Bool := false
  exitCode : Option Int := none
  signals : List Signal := []
  pipe : List Char := []
  closed : Bool := false
  written : List Char := []
  lines : List (List Char) := []
  stdoutLog : List (List Char) := []
  stopEvent : Bool := false
  readyEvent : Bool := false

inductive DaemonAct
  | write (text : List Char)
  | close
  | exit (code : Int)
  | popen (found : Bool)
  | startThread
  | ready
  | expire
  | wake
  | pollStart
  | leave
  | pollStop
  | reaped
  | refused
  | join
  | begin
  | readline
  | garbled
  | check
  | append
  | search
  | interrupt

namespace DaemonProcess
section
variable (lower : List Char → List Char) (s : DaemonProcess)

/-- `''.join(self.stdout_log[-10:])`. -/
def crashLog : List Char := (s.stdoutLog.drop (s.stdoutLog.length - 10)).flatten

/-- `stop` is called. -/
def stop (cause : StopCause) : DaemonProcess := { s with pc := .polling cause, stopEvent := true }

/-- What follows `stop`. -/
def outcome : StopCause → DaemonOutcome
  | .timedOut => .startupError
      s!"Daemon timed out waiting for ready state. Output:\n{String.ofList s.crashLog}"
  | .crashed code => .startupError s!"Daemon crashed instantly. Code: {code}"
  | .ctrlC => .startupError "Daemon startup interrupted by operator (Ctrl+C)."
  | .release => .stopped

def shows (line : List Char) : Prop :=
  ∃ phrase ∈ s.readyPhrase, phrase <:+: lower (pyStrip line)

instance (line : List Char) : Decidable (s.shows lower line) := by
  unfold shows
  infer_instance

/-- One step of the child, of the thread that has called `start`, or of `_io_consumer`. -/
def step : DaemonAct → Option DaemonProcess
  | .write text =>
    if s.launched ∧ s.closed = false then
      some { s with pipe := s.pipe ++ text, written := s.written ++ text }
    else none
  | .close => if s.launched then some { s with closed := true } else none
  | .exit code =>
    if s.launched ∧ s.exitCode = none then some { s with exitCode := some code } else none
  | .popen found =>
    if s.pc = .entering then
      if found then some { s with pc := .spawned, proc := true, launched := true }
      else some { s with pc := .left .fileNotFound }
    else none
  | .startThread =>
    if s.pc = .spawned then
      some { s with
        pc := if s.readyPhrase.isSome then .waiting else .sleeping
        consumer := .starting }
    else none
  | .ready => if s.pc = .waiting ∧ s.readyEvent then some { s with pc := .body } else none
  | .expire => if s.pc = .waiting then some (s.stop .timedOut) else none
  | .wake => if s.pc = .sleeping then some { s with pc := .waking } else none
  | .pollStart =>
    if s.pc = .waking then
      match s.exitCode with
      | some code => some (s.stop (.crashed code))
      | none => some { s with pc := .body }
    else none
  | .leave => if s.pc = .body then some (s.stop .release) else none
  | .pollStop =>
    match s.pc with
    | .polling cause =>
      if s.exitCode.isSome then some { s with pc := .joining cause }
      else some { s with pc := .terminating cause, signals := s.signals ++ [.term] }
    | _ => none
  | .reaped =>
    match s.pc with
    | .terminating cause | .killing cause =>
      if s.exitCode.isSome then some { s with pc := .joining cause } else none
    | _ => none
  | .refused =>
    match s.pc with
    | .terminating cause => some { s with pc := .killing cause, signals := s.signals ++ [.kill] }
    | _ => none
  | .join =>
    match s.pc with
    | .joining cause => some { s with pc := .left (s.outcome cause), proc := false }
    | _ => none
  | .begin =>
    if s.consumer = .starting then
      some { s with consumer := if s.proc then .reading else .ended false }
    else none
  | .readline =>
    if s.consumer = .reading then
      match MesCore.readline s.closed s.pipe with
      | some [] => some { s with consumer := .ended true }
      | some line =>
        some { s with
          consumer := .got line
          pipe := s.pipe.drop line.length
          lines := s.lines ++ [line] }
      | none => none
    else none
  -- bytes that are no text end the thread with a `UnicodeDecodeError`
  | .garbled => if s.consumer = .reading then some { s with consumer := .ended false } else none
  | .check =>
    match s.consumer with
    | .got line =>
      if s.stopEvent then some { s with consumer := .ended false }
      else if pyStrip line = [] then some { s with consumer := .reading }
      else some { s with consumer := .checked line }
    | _ => none
  | .append =>
    match s.consumer with
    | .checked line =>
      some { s with
        consumer := .logged line
        stdoutLog := s.stdoutLog ++ [pyStrip line ++ ['\n']] }
    | _ => none
  | .search =>
    match s.consumer with
    | .logged line =>
      some { s with
        consumer := .reading
        readyEvent := s.readyEvent || decide (s.shows lower line) }
    | _ => none
  | .interrupt =>
    match s.pc with
    | .sleeping => some (s.stop .ctrlC)
    | .body => some (s.stop .release)
    | .left _ => none
    | _ => some { s with pc := .left .keyboardInterrupt }

/-- What a step can do, and when. -/
inductive Stepped : DaemonAct → DaemonProcess → Prop
  | write (text : List Char) (hopen : s.closed = false) :
    Stepped (.write text) { s with pipe := s.pipe ++ text, written := s.written ++ text }
  | close : Stepped .close { s with closed := true }
  | exit (code : Int) (hlive : s.exitCode = none) :
    Stepped (.exit code) { s with exitCode := some code }
  | popen (hpc : s.pc = .entering) :
    Stepped (.popen true) { s with pc := .spawned, proc := true, launched := true }
  | notFound (hpc : s.pc = .entering) : Stepped (.popen false) { s with pc := .left .fileNotFound }
  | await (hpc : s.pc = .spawned) (hphrase : s.readyPhrase.isSome = true) :
    Stepped .startThread { s with pc := .waiting, consumer := .starting }
  | settle (hpc : s.pc = .spawned) (hphrase : s.readyPhrase = none) :
    Stepped .startThread { s with pc := .sleeping, consumer := .starting }
  | ready (hpc : s.pc = .waiting) (hready : s.readyEvent = true) :
    Stepped .ready { s with pc := .body }
  | expire (hpc : s.pc = .waiting) : Stepped .expire (s.stop .timedOut)
  | wake (hpc : s.pc = .sleeping) : Stepped .wake { s with pc := .waking }
  | crashed (hpc : s.pc = .waking) (hexit : s.exitCode = some code) :
    Stepped .pollStart (s.stop (.crashed code))
  | online (hpc : s.pc = .waking) (hlive : s.exitCode = none) :
    Stepped .pollStart { s with pc := .body }
  | leave (hpc : s.pc = .body) : Stepped .leave (s.stop .release)
  | gone (hpc : s.pc = .polling cause) (hexit : s.exitCode.isSome = true) :
    Stepped .pollStop { s with pc := .joining cause }
  | terminate (hpc : s.pc = .polling cause) (hlive : s.exitCode = none) :
    Stepped .pollStop { s with pc := .terminating cause, signals := s.signals ++ [.term] }
  | obeyed (hpc : s.pc = .terminating cause) (hexit : s.exitCode.isSome = true) :
    Stepped .reaped { s with pc := .joining cause }
  | died (hpc : s.pc = .killing cause) (hexit : s.exitCode.isSome = true) :
    Stepped .reaped { s with pc := .joining cause }
  | refused (hpc : s.pc = .terminating cause) :
    Stepped .refused { s with pc := .killing cause, signals := s.signals ++ [.kill] }
  | join (hpc : s.pc = .joining cause) :
    Stepped .join { s with pc := .left (s.outcome cause), proc := false }
  | begin (hc : s.consumer = .starting) : Stepped .begin { s with consumer := .reading }
  | late (hc : s.consumer = .starting) : Stepped .begin { s with consumer := .ended false }
  | finished (hc : s.consumer = .reading) (hclosed : s.closed = true) (hpipe : s.pipe = []) :
    Stepped .readline { s with consumer := .ended true }
  | got (hc : s.consumer = .reading) (hline : MesCore.readline s.closed s.pipe = some line)
      (hne : line ≠ []) :
    Stepped .readline { s with
      consumer := .got line, pipe := s.pipe.drop line.length, lines := s.lines ++ [line] }
  | garbled (hc : s.consumer = .reading) : Stepped .garbled { s with consumer := .ended false }
  | dropped (hc : s.consumer = .got line) : Stepped .check { s with consumer := .ended false }
  | blank (hc : s.consumer = .got line) (hblank : pyStrip line = []) :
    Stepped .check { s with consumer := .reading }
  | checked (hc : s.consumer = .got line) (hblank : pyStrip line ≠ []) :
    Stepped .check { s with consumer := .checked line }
  | append (hc : s.consumer = .checked line) :
    Stepped .append { s with
      consumer := .logged line, stdoutLog := s.stdoutLog ++ [pyStrip line ++ ['\n']] }
  | search (hc : s.consumer = .logged line) :
    Stepped .search { s with
      consumer := .reading, readyEvent := s.readyEvent || decide (s.shows lower line) }
  | asleep (hpc : s.pc = .sleeping) : Stepped .interrupt (s.stop .ctrlC)
  | inBody (hpc : s.pc = .body) : Stepped .interrupt (s.stop .release)
  | broken (hout : s.pc ∉ [DaemonPc.sleeping, .body]) (hin : ∀ o, s.pc ≠ .left o) :
    Stepped .interrupt { s with pc := .left .keyboardInterrupt }

end

variable {lower : List Char → List Char} {s s' : DaemonProcess} {a : DaemonAct}

theorem stepped (h : s.step lower a = some s') : Stepped lower s a s' := by
  cases a with
  | write text =>
    rw [step] at h
    split at h <;> cases h
    exact .write text (And.right ‹_›)
  | close =>
    rw [step] at h
    split at h <;> cases h
    exact .close
  | exit code =>
    rw [step] at h
    split at h <;> cases h
    exact .exit code (And.right ‹_›)
  | popen found =>
    rw [step] at h
    split at h
    · cases found with
      | true =>
        cases h
        exact .popen ‹_›
      | false =>
        cases h
        exact .notFound ‹_›
    · cases h
  | startThread =>
    rw [step] at h
    split at h
    · rename_i hpc
      cases h
      split
      · exact .await hpc ‹_›
      · exact .settle hpc (Option.not_isSome_iff_eq_none.1 ‹_›)
    · cases h
  | ready =>
    rw [step] at h
    split at h <;> cases h
    exact .ready (And.left ‹_›) (And.right ‹_›)
  | expire =>
    rw [step] at h
    split at h <;> cases h
    exact .expire ‹_›
  | wake =>
    rw [step] at h
    split at h <;> cases h
    exact .wake ‹_›
  | pollStart =>
    rw [step] at h
    split at h
    · split at h <;> cases h
      · exact .crashed ‹_› ‹_›
      · exact .online ‹_› ‹_›
    · cases h
  | leave =>
    rw [step] at h
    split at h <;> cases h
    exact .leave ‹_›
  | pollStop =>
    rw [step] at h
    split at h
    · split at h <;> cases h
      · exact .gone ‹_› ‹_›
      · exact .terminate ‹_› (Option.not_isSome_iff_eq_none.1 ‹_›)
    · cases h
  | reaped =>
    rw [step] at h
    split at h
    · split at h <;> cases h
      exact .obeyed ‹_› ‹_›
    · split at h <;> cases h
      exact .died ‹_› ‹_›
    · cases h
  | refused =>
    rw [step] at h
    split at h <;> cases h
    exact .refused ‹_›
  | join =>
    rw [step] at h
    split at h <;> cases h
    exact .join ‹_›
  | begin =>
    rw [step] at h
    split at h
    · split at h <;> cases h
      · exact .begin ‹_›
      · exact .late ‹_›
    · cases h
  | readline =>
    rw [step] at h
    split at h
    · split at h
      · rename_i hline
        cases h
        exact .finished ‹_› (readline_nil hline).1 (readline_nil hline).2
      · rename_i line hne hline
        cases h
        exact .got ‹_› hline hne
      · cases h
    · cases h
  | garbled =>
    rw [step] at h
    split at h <;> cases h
    exact .garbled ‹_›
  | check =>
    rw [step] at h
    split at h
    · split at h
      · cases h
        exact .dropped ‹_›
      · split at h <;> cases h
        · exact .blank ‹_› ‹_›
        · exact .checked ‹_› ‹_›
    · cases h
  | append =>
    rw [step] at h
    split at h <;> cases h
    exact .append ‹_›
  | search =>
    rw [step] at h
    split at h <;> cases h
    exact .search ‹_›
  | interrupt =>
    rw [step] at h
    split at h
    · cases h
      exact .asleep ‹_›
    · cases h
      exact .inBody ‹_›
    · cases h
    · rename_i hsleep hbody hleft
      cases h
      refine .broken ?_ hleft
      intro hmem
      rcases List.mem_cons.1 hmem with hpc | hmem
      · exact hsleep hpc
      · exact hbody (List.mem_singleton.1 hmem)

/-- Of what is printed nothing is lost or made up between the pipe and `readline`, which hands it
over line by line. -/
structure Read (s : DaemonProcess) : Prop where
  all : s.lines.flatten ++ s.pipe = s.written
  split : (∀ l ∈ s.lines, Whole l) ∨
    s.closed = true ∧ s.pipe = [] ∧
      ∃ init last, s.lines = init ++ [last] ∧ (∀ l ∈ init, Whole l) ∧ '\n' ∉ last

theorem Read.step (h : s.Read) (hs : Stepped lower s a s') : s'.Read := by
  cases hs with
  | write text hopen =>
    refine ⟨?_, ?_⟩
    · rw [← List.append_assoc, h.all]
    · rcases h.split with hwhole | ⟨hclosed, _⟩
      · exact .inl hwhole
      · rw [hopen] at hclosed
        cases hclosed
  | close =>
    refine ⟨h.all, ?_⟩
    rcases h.split with hwhole | ⟨_, hpipe, hlast⟩
    · exact .inl hwhole
    · exact .inr ⟨rfl, hpipe, hlast⟩
  | @got line hc hline hne =>
    obtain ⟨hsplit, hkind⟩ := readline_line hline
    have hwhole : ∀ l ∈ s.lines, Whole l := by
      rcases h.split with hwhole | ⟨_, hpipe, _⟩
      · exact hwhole
      · rw [hpipe] at hsplit
        exact (hne (List.append_eq_nil_iff.1 hsplit).1).elim
    constructor
    · rw [List.flatten_append, List.flatten_singleton, List.append_assoc, hsplit]
      exact h.all
    · rcases hkind with hline | ⟨hclosed, hopen, hpipe⟩
      · left
        intro l hl
        rcases List.mem_append.1 hl with hl | hl
        · exact hwhole l hl
        · cases List.mem_singleton.1 hl
          exact hline
      · exact .inr ⟨hclosed, hpipe, s.lines, line, rfl, hwhole, hopen⟩
  | exit | popen | notFound | await | settle | ready | expire | wake | crashed | online | leave
  | gone | terminate | obeyed | died | refused | join | begin | late | finished | garbled | dropped
  | blank | checked | append | search | asleep | inBody | broken => exact ⟨h.all, h.split⟩

/-- The lines that were read are the first of the printed ones, up to blanks at their ends. -/
theorem Read.printed (h : s.Read) :
    s.lines.map pyStrip <+: (printedLines s.closed s.written).map pyStrip := by
  rw [← h.all]
  rcases h.split with hwhole | ⟨hclosed, hpipe, init, last, hlines, hwhole, hlast⟩
  · have hprefix : s.lines.map List.dropLast <+:
        printedLines s.closed (s.lines.flatten ++ s.pipe) := by
      rw [printedLines, splitNewline_whole hwhole]
      split
      · exact List.prefix_append _ _
      · rw [List.dropLast_append_of_ne_nil (splitNewline_ne_nil _)]
        exact List.prefix_append _ _
    rw [← strip_chomp hwhole]
    exact hprefix.map pyStrip
  · rw [hclosed, hpipe, List.append_nil, printedLines, if_pos rfl, hlines, List.flatten_append,
      List.flatten_singleton, splitNewline_whole hwhole, splitNewline_last hlast, List.map_append,
      List.map_append, strip_chomp hwhole]

theorem Read.complete (h : s.Read) (hpipe : s.pipe = []) :
    logOf s.lines = logOf (splitNewline s.written) := by
  rw [← h.all, hpipe]
  rcases h.split with hwhole | ⟨_, _, init, last, hlines, hwhole, hlast⟩
  · rw [splitNewline_whole hwhole, logOf_append, logOf, logOf, strip_chomp hwhole]
    exact (List.append_nil _).symm
  · rw [List.append_nil, hlines, List.flatten_append, List.flatten_singleton,
      splitNewline_whole hwhole, splitNewline_last hlast, logOf_append, logOf_append]
    rw [logOf, logOf, logOf, strip_chomp hwhole]

/-- What holds of the rest where the thread that called `start` is at this place. -/
def At (s : DaemonProcess) : DaemonPc → Prop
  | .entering => s.launched = false ∧ s.consumer = .idle ∧ s.signals = []
  | .spawned => s.consumer = .idle ∧ s.signals = []
  | .sleeping | .waking => s.readyPhrase = none ∧ s.signals = []
  | .body => (s.readyPhrase.isSome = true → s.readyEvent = true) ∧ s.signals = []
  | .waiting | .polling _ => s.signals = []
  | .terminating _ => s.signals = [.term]
  | .killing _ => s.signals = [.term, .kill]
  | .joining _ => s.exitCode.isSome = true ∧ s.signals <+: [.term, .kill]
  | .left o =>
    (s.launched = true → o ≠ .keyboardInterrupt → s.exitCode.isSome = true) ∧
      s.signals <+: [.term, .kill]

theorem At.signals {pc : DaemonPc} (h : s.At pc) : s.signals <+: [.term, .kill] := by
  cases pc with
  | entering => exact h.2.2 ▸ List.nil_prefix
  | spawned | sleeping | waking | body => exact h.2 ▸ List.nil_prefix
  | waiting | polling => exact (show s.signals = [] from h) ▸ List.nil_prefix
  | terminating =>
    exact (show s.signals = [.term] from h) ▸ List.prefix_append [Signal.term] [Signal.kill]
  | killing => exact (show s.signals = [.term, .kill] from h) ▸ List.prefix_rfl
  | joining | left => exact h.2

/-- The child and `_io_consumer` leave the thread that called `start` where it is. -/
theorem At.frame {pc : DaemonPc} (h : s.At pc) (hlaunched : s'.launched = s.launched)
    (hphrase : s'.readyPhrase = s.readyPhrase) (hsignals : s'.signals = s.signals)
    (hidle : s.consumer = .idle → s'.consumer = .idle)
    (hready : s.readyEvent = true → s'.readyEvent = true)
    (hexit : s.exitCode.isSome = true → s'.exitCode.isSome = true) : s'.At pc := by
  cases pc with
  | entering => exact ⟨hlaunched.trans h.1, hidle h.2.1, hsignals.trans h.2.2⟩
  | spawned => exact ⟨hidle h.1, hsignals.trans h.2⟩
  | sleeping | waking => exact ⟨hphrase.trans h.1, hsignals.trans h.2⟩
  | body => exact ⟨fun hp => hready (h.1 (hphrase ▸ hp)), hsignals.trans h.2⟩
  | waiting | polling | terminating | killing => exact hsignals.trans h
  | joining => exact ⟨hexit h.1, hsignals ▸ h.2⟩
  | left o => exact ⟨fun hl ho => hexit (h.1 (hlaunched ▸ hl) ho), hsignals ▸ h.2⟩

theorem At.step (h : s.At s.pc) (hs : Stepped lower s a s') : s'.At s'.pc := by
  have hat {pc : DaemonPc} (hpc : s.pc = pc) : s.At pc := hpc ▸ h
  have hbusy {c : ConsumerPc} (hc : s.consumer = c) (hne : c ≠ .idle) {c' : ConsumerPc}
      (hidle : s.consumer = .idle) : c' = .idle := (hne (hc.symm.trans hidle)).elim
  cases hs with
  | write | close => exact h.frame rfl rfl rfl id id id
  | exit code hlive => exact h.frame rfl rfl rfl id id fun _ => rfl
  | popen hpc => exact ⟨(hat hpc).2.1, (hat hpc).2.2⟩
  | notFound hpc =>
    refine ⟨fun hl => ?_, h.signals⟩
    rw [(hat hpc).1] at hl
    cases hl
  | await hpc hphrase => exact (hat hpc).2
  | settle hpc hphrase => exact ⟨hphrase, (hat hpc).2⟩
  | ready hpc hready => exact ⟨fun _ => hready, hat hpc⟩
  | expire hpc => exact hat hpc
  | wake hpc => exact hat hpc
  | crashed hpc hexit => exact (hat hpc).2
  | online hpc hlive =>
    refine ⟨fun hsome => ?_, (hat hpc).2⟩
    rw [(hat hpc).1] at hsome
    cases hsome
  | leave hpc | inBody hpc => exact (hat hpc).2
  | gone hpc hexit | obeyed hpc hexit | died hpc hexit => exact ⟨hexit, h.signals⟩
  | terminate hpc hlive =>
    have hquiet : s.signals = [] := hat hpc
    exact congrArg (· ++ [Signal.term]) hquiet
  | refused hpc =>
    have hterm : s.signals = [.term] := hat hpc
    exact congrArg (· ++ [Signal.kill]) hterm
  | join hpc => exact ⟨fun _ _ => (hat hpc).1, h.signals⟩
  | begin hc | late hc => exact h.frame rfl rfl rfl (hbusy hc (by simp)) id id
  | finished hc | got hc | garbled hc => exact h.frame rfl rfl rfl (hbusy hc (by simp)) id id
  | dropped hc | blank hc | checked hc | append hc =>
    exact h.frame rfl rfl rfl (hbusy hc (by simp)) id id
  | search hc =>
    refine h.frame rfl rfl rfl (hbusy hc (by simp)) (fun hready => ?_) id
    exact Bool.or_eq_true_iff.2 (.inl hready)
  | asleep hpc => exact (hat hpc).2
  | broken => exact ⟨fun _ hne => (hne rfl).elim, h.signals⟩

/-- What `_io_consumer` has made of the lines where it is at this place. -/
def Has (s : DaemonProcess) : ConsumerPc → Prop
  | .idle | .starting | .reading => s.stdoutLog = logOf s.lines
  | .got line => ∃ done, s.lines = done ++ [line] ∧ s.stdoutLog = logOf done
  | .checked line =>
    pyStrip line ≠ [] ∧ ∃ done, s.lines = done ++ [line] ∧ s.stdoutLog = logOf done
  | .logged line => line ∈ s.lines ∧ s.stdoutLog = logOf s.lines
  | .ended true => s.stdoutLog = logOf s.lines ∧ s.closed = true ∧ s.pipe = []
  | .ended false => s.stdoutLog <+: logOf s.lines

theorem Has.log {c : ConsumerPc} (h : s.Has c) : s.stdoutLog <+: logOf s.lines := by
  have hless {line : List Char} (h : ∃ done, s.lines = done ++ [line] ∧ s.stdoutLog = logOf done) :
      s.stdoutLog <+: logOf s.lines := by
    obtain ⟨done, hlines, hlog⟩ := h
    rw [hlines, hlog, logOf_append]
    exact List.prefix_append _ _
  cases c with
  | idle | starting | reading => exact (show s.stdoutLog = logOf s.lines from h) ▸ List.prefix_rfl
  | got line => exact hless h
  | checked line => exact hless h.2
  | logged line => exact h.2 ▸ List.prefix_rfl
  | ended all =>
    cases all with
    | false => exact h
    | true => exact h.1 ▸ List.prefix_rfl

/-- The thread that called `start` leaves `_io_consumer` where it is, and so does the child. -/
theorem Has.frame {c : ConsumerPc} (h : s.Has c) (hlines : s'.lines = s.lines)
    (hlog : s'.stdoutLog = s.stdoutLog)
    (hend : s.closed = true → s.pipe = [] → s'.closed = true ∧ s'.pipe = []) : s'.Has c := by
  cases c with
  | idle | starting | reading => exact hlog.trans ((hlines ▸ h : s.stdoutLog = logOf s'.lines))
  | got line =>
    obtain ⟨done, hdone, h⟩ := h
    exact ⟨done, hlines.trans hdone, hlog.trans h⟩
  | checked line =>
    obtain ⟨hne, done, hdone, h⟩ := h
    exact ⟨hne, done, hlines.trans hdone, hlog.trans h⟩
  | logged line => exact ⟨hlines ▸ h.1, hlog.trans (hlines ▸ h.2)⟩
  | ended all =>
    cases all with
    | false =>
      show s'.stdoutLog <+: logOf s'.lines
      rw [hlog, hlines]
      exact h
    | true => exact ⟨hlog.trans (hlines ▸ h.1), hend h.2.1 h.2.2⟩

theorem Has.step (h : s.Has s.consumer) (hat : s.At s.pc) (hs : Stepped lower s a s') :
    s'.Has s'.consumer := by
  have hhas {c : ConsumerPc} (hc : s.consumer = c) : s.Has c := hc ▸ h
  cases hs with
  | write text hopen =>
    refine h.frame rfl rfl fun hclosed => ?_
    rw [hopen] at hclosed
    cases hclosed
  | close => exact h.frame rfl rfl fun _ hpipe => ⟨rfl, hpipe⟩
  | exit | popen | notFound | ready | expire | wake | crashed | online | leave
  | gone | terminate | obeyed | died | refused | join | asleep | inBody | broken =>
    exact h.frame rfl rfl fun hclosed hpipe => ⟨hclosed, hpipe⟩
  | await hpc hphrase | settle hpc hphrase =>
    rw [hpc] at hat
    exact hhas hat.1
  | begin hc => exact hhas hc
  | late hc | garbled hc | dropped hc => exact h.log
  | finished hc hclosed hpipe => exact ⟨hhas hc, hclosed, hpipe⟩
  | @got line hc hline hne => exact ⟨s.lines, rfl, hhas hc⟩
  | @blank line hc hblank =>
    obtain ⟨done, hlines, hlog⟩ := hhas hc
    show s.stdoutLog = logOf s.lines
    rw [hlines, hlog, logOf_append, logOf_blank hblank, List.append_nil]
  | @checked line hc hblank => exact ⟨hblank, hhas hc⟩
  | @append line hc =>
    obtain ⟨hblank, done, hlines, hlog⟩ := hhas hc
    refine ⟨hlines ▸ List.mem_append_right _ List.mem_cons_self, ?_⟩
    show s.stdoutLog ++ [pyStrip line ++ ['\n']] = logOf s.lines
    rw [hlines, hlog, logOf_append, logOf_line hblank]
  | search hc => exact (hhas hc).2

/-- The ready event is set for a line that was read. -/
def Shown (lower : List Char → List Char) (s : DaemonProcess) : Prop :=
  s.readyEvent = true → ∃ line ∈ s.lines, s.shows lower line

theorem Shown.step (h : s.Shown lower) (hhas : s.Has s.consumer) (hs : Stepped lower s a s') :
    s'.Shown lower := by
  cases hs with
  | got hc hline hne =>
    intro hready
    obtain ⟨line, hmem, hshows⟩ := h hready
    exact ⟨line, List.mem_append_left _ hmem, hshows⟩
  | @search line hc =>
    intro hready
    rcases Bool.or_eq_true_iff.1 hready with hready | hshows
    · exact h hready
    · rw [hc] at hhas
      exact ⟨line, hhas.1, of_decide_eq_true hshows⟩
  | write | close | exit | popen | notFound | await | settle | ready | expire | wake | crashed
  | online | leave | gone | terminate | obeyed | died | refused | join | begin | late | finished
  | garbled | dropped | blank | checked | append | asleep | inBody | broken => exact h

/-- What holds in every state that a `DaemonProcess` gets into. -/
structure Sound (lower : List Char → List Char) (s : DaemonProcess) : Prop where
  read : s.Read
  place : s.At s.pc
  has : s.Has s.consumer
  shown : s.Shown lower

theorem Sound.step (h : s.Sound lower) (hs : Stepped lower s a s') : s'.Sound lower where
  read := h.read.step hs
  place := h.place.step hs
  has := h.has.step h.place hs
  shown := h.shown.step h.has hs

/-- `DaemonProcess(cmd, logger, ready_phrase)`. -/
def create (lower : List Char → List Char) (cmd : List String) (readyPhrase : Option (List Char)) :
    DaemonProcess :=
  { cmd := cmd, readyPhrase := (readyPhrase.filter (· ≠ [])).map lower }

theorem sound_run {cmd : List String} {readyPhrase : Option (List Char)} {acts : List DaemonAct}
    (h : Run (step lower) (fun _ _ => True) (create lower cmd readyPhrase) acts s) :
    s.Sound lower := by
  apply h.invariant (Sound lower)
  · exact fun hs _ hstep => hs.step (stepped hstep)
  · have hread : (create lower cmd readyPhrase).Read :=
      ⟨rfl, .inl fun l hl => (List.not_mem_nil hl).elim⟩
    exact ⟨hread, ⟨rfl, rfl, rfl⟩, rfl, fun hready => absurd hready Bool.false_ne_true⟩

theorem readyPhrase_step (h : s.step lower a = some s') : s'.readyPhrase = s.readyPhrase := by
  cases stepped h <;> rfl

end DaemonProcess

structure OpenOcdDaemonAdapter where
  interfaceCfg : String
  targetCfg : String
  rpcPort : Int := 4444

namespace OpenOcdDaemonAdapter
variable (a : OpenOcdDaemonAdapter) (lower : List Char → List Char)

def cmd : List String :=
  ["openocd", "-f", a.interfaceCfg, "-f", a.targetCfg, "-c", s!"telnet_port {a.rpcPort}",
    "-c", "gdb_port disabled", "-c", "tcl_port disabled"]

def readyPhrase : List Char := (s!"listening on port {a.rpcPort} for telnet").toList

def daemon : DaemonProcess := .create lower a.cmd (some a.readyPhrase)

theorem readyPhrase_ne_nil : a.readyPhrase ≠ [] := by
  rw [readyPhrase, String.toList_append]
  exact List.append_ne_nil_of_right_ne_nil _ (by decide)

theorem daemon_readyPhrase : (a.daemon lower).readyPhrase = some (lower a.readyPhrase) := by
  rw [daemon, DaemonProcess.create, Option.filter_some_pos (by simpa using a.readyPhrase_ne_nil)]
  rfl

end OpenOcdDaemonAdapter

/-- The body of `with OpenOcdDaemonAdapter(..)` runs only after a line with the ready phrase was
printed, and the log is that of the first lines that were printed, of all of them if `_io_consumer`
got to the end. -/
theorem openocd_online (lower : List Char → List Char) (a : OpenOcdDaemonAdapter)
    {acts : List DaemonAct} {s : DaemonProcess}
    (h : Run (DaemonProcess.step lower) (fun _ _ => True) (a.daemon lower) acts s) :
    (s.pc = .body → ∃ line ∈ printedLines s.closed s.written,
      lower a.readyPhrase <:+: lower (pyStrip line)) ∧
    s.stdoutLog <+: logOf (printedLines s.closed s.written) ∧
    (s.consumer = .ended true → s.stdoutLog = logOf (splitNewline s.written)) := by
  have hsound := DaemonProcess.sound_run h
  have hphrase : s.readyPhrase = some (lower a.readyPhrase) := by
    apply h.invariant fun s => s.readyPhrase = some (lower a.readyPhrase)
    · exact fun hs _ hstep => (DaemonProcess.readyPhrase_step hstep).trans hs
    · exact a.daemon_readyPhrase lower
  have hread := hsound.read.printed
  refine ⟨fun hpc => ?_, ?_, fun hc => ?_⟩
  · have hbody : s.At .body := hpc ▸ hsound.place
    obtain ⟨line, hline, phrase, hmem, hshows⟩ := hsound.shown (hbody.1 (hphrase ▸ rfl))
    rw [hphrase] at hmem
    cases hmem
    obtain ⟨line', hline', heq⟩ := List.mem_map.1 (hread.subset (List.mem_map_of_mem hline))
    exact ⟨line', hline', heq ▸ hshows⟩
  · exact hsound.has.log.trans ((hread.filter _).map _)
  · have hended : s.Has (.ended true) := hc ▸ hsound.has
    exact hended.1.trans (hsound.read.complete hended.2.2)

def probeAnswers : List DaemonAct :=
  [.popen true, .startThread, .begin, .write "Info : Listening on port 44".toList,
    .write "44 for telnet connections\n".toList, .readline, .check, .append, .search, .ready]

def asciiLower (s : List Char) : List Char := s.map Char.toLower

def stlinkAdapter : OpenOcdDaemonAdapter :=
  { interfaceCfg := "interface/stlink.cfg", targetCfg := "target/stm32f4x.cfg" }

def probeOnline : DaemonProcess :=
  (runFrom (DaemonProcess.step asciiLower) (stlinkAdapter.daemon asciiLower) probeAnswers).getD
    (stlinkAdapter.daemon asciiLower)

theorem probe_online : ∃ line ∈ printedLines probeOnline.closed probeOnline.written,
    "listening on port 4444 for telnet".toList <:+: asciiLower (pyStrip line) := by
  have hrun : Run (DaemonProcess.step asciiLower) (fun _ _ => True)
      (stlinkAdapter.daemon asciiLower) probeAnswers probeOnline :=
    Run.of_runFrom (runFrom_getD (by decide +kernel)) fun _ _ _ => trivial
  exact (openocd_online asciiLower stlinkAdapter hrun).1 (by decide +kernel)

/-- A session that is over has left no daemon behind, unless an interrupt came out of the wait of
`start` or out of `stop`. The daemon has got a SIGKILL only after a SIGTERM, and nothing else. -/
theorem daemon_released (lower : List Char → List Char) (cmd : List String)
    (readyPhrase : Option (List Char)) {acts : List DaemonAct} {s : DaemonProcess}
    (h : Run (DaemonProcess.step lower) (fun _ _ => True) (.create lower cmd readyPhrase) acts s) :
    s.signals <+: [.term, .kill] ∧
    (s.pc = .left o → s.launched = true → s.exitCode.isSome = true ∨ o = .keyboardInterrupt) := by
  have hsound := DaemonProcess.sound_run h
  refine ⟨hsound.place.signals, fun hpc hlaunched => ?_⟩
  have hleft : s.At (.left o) := hpc ▸ hsound.place
  by_cases ho : o = .keyboardInterrupt
  · exact .inr ho
  · exact .inl (hleft.1 hlaunched ho)

/-- No probe is plugged in, and the daemon does not obey its SIGTERM. -/
def noProbe : List DaemonAct :=
  [.popen true, .startThread, .begin, .expire, .pollStop, .refused, .exit (-9), .reaped, .join]

def probeMissing : DaemonProcess :=
  (runFrom (DaemonProcess.step asciiLower) (stlinkAdapter.daemon asciiLower) noProbe).getD
    (stlinkAdapter.daemon asciiLower)

theorem probe_released : probeMissing.signals = [.term, .kill] ∧ probeMissing.exitCode = some (-9) ∧
    (probeMissing.exitCode.isSome = true ∨
      probeMissing.outcome .timedOut = DaemonOutcome.keyboardInterrupt) := by
  have hrun : Run (DaemonProcess.step asciiLower) (fun _ _ => True)
      (.create asciiLower stlinkAdapter.cmd (some stlinkAdapter.readyPhrase)) noProbe
      probeMissing :=
    Run.of_runFrom (runFrom_getD (by decide +kernel)) fun _ _ _ => trivial
  refine ⟨by decide +kernel, by decide +kernel, ?_⟩
  exact (daemon_released asciiLower _ _ hrun).2 (by decide +kernel) (by decide +kernel)

end MesCore
