import MesCore.JsonlStream
import MesCore.RecordSanitize
import MesCore.TelemetryRouter
import MesCore.UbootShell

namespace MesCore
set_option autoImplicit true

open DeviceCrypto (fieldName)

inductive RecordOutcome
  | passed
  | failed
  | skipped
  | unknown
  deriving DecidableEq

/-- The fields of a record that are neither metrics nor context. -/
structure RecordFields where
  testName : String
  passed : Bool := false
  outcome : RecordOutcome := .unknown
  iteration : Nat := 1
  durationS : ℚ := 0
  errorMessage : Option String := none

abbrev MesRecord := TestRecord RecordFields

/-- What `longrepr` is good for: `str` of it, its truth, and the third item if it is a tuple. -/
structure LongRepr where
  text : String
  truthy : Bool := true
  third : Option String := none

/-- How the phases of one run of a test ended. -/
inductive TestPhases
  | setupFailed (longrepr : Option LongRepr)
  | setupSkipped (longrepr : Option LongRepr)
  | passed
  | failed (longrepr : Option LongRepr)
  | skipped (longrepr : Option LongRepr)
  | interrupted

def TestPhases.brokenOff : TestPhases → Bool
  | .interrupted => true
  | _ => false

/-- What the record takes over from the state machine. -/
structure FsmSnapshot where
  state : String
  activeRootfs : PyValue
  activeBootMedium : PyValue
  manifest : Option PyValue
  customData : List (CodePoints × PyValue)

structure DumpResult where
  exited : Int
  stdout : String
  stderr : String

/-- The transport of the post-mortem: `connect` is made if it is not connected, and each command is
run at its place in the list. -/
structure DumpTransport where
  isConnected : Bool
  connect : Except Raised Unit
  reconnected : Bool
  safeRun : Nat → String → Except Raised DumpResult

/-- The teardown of `mes_record`. -/
structure RecordTeardown where
  durationS : ℚ
  fsm : Option FsmSnapshot
  phases : TestPhases
  baseName : String
  postMortemDumps : List (String × List String)
  transport : Option DumpTransport

namespace MesRecord

def pyText (s : String) : PyValue := .str (fieldName s)

/-- `d[key] = value`, for a dict with string keys. -/
def setItem (key : CodePoints) (value : PyValue) :
    List (PyValue × PyValue) → List (PyValue × PyValue)
  | [] => [(.str key, value)]
  | (.str s, v) :: items =>
    if s = key then (.str s, value) :: items else (.str s, v) :: setItem key value items
  | item :: items => item :: setItem key value items

def addContext (r : MesRecord) (key : String) (value : PyValue) : MesRecord :=
  { r with context := setItem (fieldName key) value r.context }

def harvest (fsm : FsmSnapshot) (r : MesRecord) : MesRecord :=
  let r := ((r.addContext "fsm_state" (pyText fsm.state)).addContext "active_rootfs"
    fsm.activeRootfs).addContext "boot_medium" fsm.activeBootMedium
  let r := fsm.manifest.elim r fun manifest => r.addContext "manifest" manifest
  { r with
    context := fsm.customData.foldl (fun items item => setItem item.1 item.2 items) r.context }

def judged (r : MesRecord) (passed : Bool) (outcome : RecordOutcome)
    (errorMessage : Option String) : MesRecord :=
  { r with fields := { r.fields with
      passed := passed
      outcome := outcome
      errorMessage := errorMessage } }

end MesRecord

/-- `str(longrepr)` -/
def reprText (longrepr : Option LongRepr) : String := longrepr.elim "None" LongRepr.text

def skipText (longrepr : Option LongRepr) : String :=
  "SKIPPED: " ++ (longrepr.bind LongRepr.third).getD (reprText longrepr)

/-- `text.splitlines()[-1]` -/
def lastTraceLine (text : String) : Except Raised String :=
  match (splitLines text.toList).getLast? with
  | some line => .ok (String.ofList line)
  | none => .error (.exception "list index out of range")

/-- The commands of the profiles that the name of the test has. -/
def dumpCommands (t : RecordTeardown) : List String :=
  t.postMortemDumps.flatMap fun profile =>
    if profile.1.toList <:+: t.baseName.toList then profile.2 else []

def dumpText : DumpResult → String
  | ⟨exited, stdout, stderr⟩ => if exited = 0 then stdout else "NO DATA: " ++ stderr

def runDumps (safeRun : Nat → String → Except Raised DumpResult) :
    Nat → List String → List (PyValue × PyValue) → Except Raised (List (PyValue × PyValue))
  | _, [], dumps => .ok dumps
  | n, cmd :: cmds, dumps =>
    match safeRun n cmd with
    | .ok result =>
      runDumps safeRun (n + 1) cmds
        (MesRecord.setItem (fieldName cmd) (MesRecord.pyText (dumpText result)) dumps)
    | .error (.exception msg) =>
      runDumps safeRun (n + 1) cmds
        (MesRecord.setItem (fieldName cmd) (MesRecord.pyText ("DUMP_FAILED: " ++ msg)) dumps)
    | .error .baseException => .error .baseException

/-- Whether the transport of the post-mortem is there after a new connect, if it needs one. -/
def dumpConnected (t : DumpTransport) : Except Raised Bool :=
  if t.isConnected then .ok true
  else
    match t.connect with
    | .error .baseException => .error .baseException
    | _ => .ok t.reconnected

def postMortem (t : RecordTeardown) (r : MesRecord) : Except Raised MesRecord :=
  match dumpCommands t, t.transport with
  | [], _ => .ok r
  | _, none => .ok r
  | cmds, some transport => do
    let connected ← dumpConnected transport
    let dumps ← if connected then runDumps transport.safeRun 0 cmds [] else .ok []
    .ok (r.addContext "post_mortem" (.dict dumps))

def judge (t : RecordTeardown) (r : MesRecord) : Except Raised MesRecord :=
  match t.phases with
  | .setupFailed longrepr => do
    let text ← if longrepr.elim false LongRepr.truthy then lastTraceLine (reprText longrepr)
      else .ok "Unknown Setup Error"
    .ok (r.judged false .failed (some ("SETUP FAILURE: " ++ text)))
  | .setupSkipped longrepr => .ok (r.judged false .skipped (some (skipText longrepr)))
  | .skipped longrepr => .ok (r.judged false .skipped (some (skipText longrepr)))
  | .passed => .ok (r.judged true .passed r.fields.errorMessage)
  | .failed longrepr => do
    let trace := reprText longrepr
    let text ← if trace = "" then .ok "Unknown Assertion Failure" else lastTraceLine trace
    postMortem t ((r.judged false .failed (some text)).addContext "full_traceback"
      (MesRecord.pyText trace))
  | .interrupted => .ok r

/-- The `finally` of `mes_record`, up to the record that is emitted. -/
def finishRecord (t : RecordTeardown) (r : MesRecord) : Except Raised MesRecord :=
  let r := { r with fields := { r.fields with durationS := t.durationS } }
  judge t (t.fsm.elim r fun fsm => r.harvest fsm)

/-- How a run ends that does not come to its record: at a mark or in an earlier fixture. -/
inductive EarlyEnd
  | failed
  | skipped
  | interrupted

inductive RunCourse
  | unrecorded (ending : EarlyEnd)
  | recorded (teardown : RecordTeardown)

/-- The reports of a run are logged one by one, or when it is over by the rerun plugin, which may
take its failures back. -/
inductive RunLog
  | oneByOne
  | afterwards (rerun : Bool)

/-- One run of a test: its place, what the test does to its record, and its end. -/
structure TestRun where
  nodeid : String
  executionCount : Nat
  loopIteration : Int
  body : MesRecord → MesRecord
  course : RunCourse
  /-- Some other fixture fails its teardown. -/
  otherTeardownFails : Bool
  log : RunLog
  /-- The session ends behind this run (`-x`, `--maxfail`). -/
  stops : Bool

namespace TestRun

def begin (t : TestRun) : MesRecord where
  fields := { testName := t.nodeid, iteration := t.executionCount }
  metrics := []
  context := MesRecord.setItem (fieldName "stress_loop_iteration") (.int t.loopIteration)
    (MesRecord.setItem (fieldName "is_retry") (.bool (decide (1 < t.executionCount))) [])

def record (t : TestRun) : Option (Except Raised MesRecord) :=
  match t.course with
  | .unrecorded _ => none
  | .recorded teardown => some (finishRecord teardown (t.body t.begin))

def brokenOff (t : TestRun) : Bool :=
  match t.course with
  | .unrecorded .interrupted => true
  | .unrecorded _ => false
  | .recorded teardown => teardown.phases.brokenOff

def failedPhases (t : TestRun) : Nat :=
  match t.course with
  | .unrecorded .failed => 1
  | .unrecorded _ => 0
  | .recorded teardown =>
    match teardown.phases with
    | .setupFailed _ | .failed _ => 1
    | _ => 0

def rerun (t : TestRun) : Bool :=
  match t.log with
  | .oneByOne => false
  | .afterwards rerun => rerun

/-- What the run adds to `testsfailed`. -/
def failures (t : TestRun) (teardownFailed : Bool) : Nat :=
  if t.rerun then 0 else t.failedPhases + if teardownFailed then 1 else 0

def loggedFailures (t : TestRun) : Nat :=
  match t.log with
  | .oneByOne => t.failedPhases
  | .afterwards _ => 0

end TestRun

/-- How one run of a test ends for the session. -/
inductive RunEnd
  | reported (teardownFailed : Bool)
  | interrupted
  deriving DecidableEq

/-- The end of the run behind `emit_record`: an error that it raises fails the test. -/
def TestRun.endAs (t : TestRun) : Except Raised Unit → RunEnd
  | .ok () => .reported t.otherTeardownFails
  | .error (.exception _) => .reported true
  | .error .baseException => .interrupted

/-- `boot_metrics`, with the number that `t_boot_total_to_shell_s` stands for. There are none
where the fixture of the state machine is not set up or not finalized. -/
structure BootMetrics where
  items : List (String × UInt64) := []
  totalToShellS : Option ℚ := none

/-- The record of the finalizer of `dut_state_machine`. -/
def BootMetrics.record (m : BootMetrics) : Option MesRecord :=
  if m.items = [] then none
  else some {
    fields := {
      testName := "mes_fsm_boot_profiler"
      passed := true
      durationS := m.totalToShellS.getD 0 }
    metrics := m.items.map fun item => (MesRecord.pyText item.1, .float item.2)
    context := [] }

section
variable (sink : TelemetryExporter κ MesRecord)

/-- The teardown of `mes_record` and of the other fixtures. -/
def endRun (t : TestRun) (s : sink.State) : RunEnd × sink.State :=
  match t.record with
  | none => (.reported t.otherTeardownFails, s)
  | some (.error .baseException) => (.interrupted, s)
  | some (.error (.exception _)) => (.reported true, s)
  | some (.ok record) =>
    let (r, _, s') := sink.handle .emitRecord record s
    (t.endAs r, s')

def endFixtures (m : BootMetrics) (s : sink.State) : Except Raised Unit × sink.State :=
  match m.record with
  | none => (.ok (), s)
  | some record =>
    let (r, _, s') := sink.handle .emitRecord record s
    (r, s')

/-- The tests of a session: the failures, whether they were broken off, and the sink. The fixtures
of the session end with the last test, or behind them all where nothing counts any more. -/
def runTests (m : BootMetrics) : List TestRun → sink.State → Nat × Bool × sink.State
  | [], s => (0, false, (endFixtures sink m s).2)
  | t :: ts, s =>
    match endRun sink t s with
    | (.interrupted, s') => (t.loggedFailures, true, (endFixtures sink m s').2)
    | (.reported teardownFailed, s') =>
      if t.brokenOff then (0, true, (endFixtures sink m s').2)
      else if t.stops then (t.failures teardownFailed, true, (endFixtures sink m s').2)
      else
        match ts with
        | [] =>
          match endFixtures sink m s' with
          | (.ok (), s'') => (t.failures teardownFailed, false, s'')
          | (.error (.exception _), s'') => (t.failures true, false, s'')
          | (.error .baseException, s'') => (t.loggedFailures, true, s'')
        | t' :: ts =>
          let (failures, brokenOff, s'') := runTests m (t' :: ts) s'
          (t.failures teardownFailed + failures, brokenOff, s'')

structure SessionEnd where
  sessionPassed : Bool
  brokenOff : Bool
  ended : Except Raised Unit
  sink : sink.State

/-- `pytest_unconfigure`, behind the tests. -/
def finishSession : Nat × Bool × sink.State → SessionEnd sink
  | (failures, brokenOff, s) =>
    let (r, _, s') := sink.handle .endSession (failures == 0) s
    ⟨failures == 0, brokenOff, r, s'⟩

/-- A session of pytest. There is none if `pytest_configure` cannot start the sink. -/
def runSession (context : κ) (m : BootMetrics) (ts : List TestRun) (s : sink.State) :
    Option (SessionEnd sink) :=
  match sink.handle .startSession context s with
  | (.ok (), _, s') => some (finishSession sink (runTests sink m ts s'))
  | (.error _, _, _) => none

variable {sink} {m : BootMetrics} {t : TestRun} {ts : List TestRun} {s s' : sink.State}

theorem endRun_emitted {r r' : MesRecord} {res : Except Raised Unit}
    (hrecord : t.record = some (.ok r)) (h : sink.handle .emitRecord r s = (res, r', s')) :
    endRun sink t s = (t.endAs res, s') := by
  simp only [endRun, hrecord, h]

theorem endFixtures_emitted {r r' : MesRecord} {res : Except Raised Unit}
    (hrecord : m.record = some r) (h : sink.handle .emitRecord r s = (res, r', s')) :
    endFixtures sink m s = (res, s') := by
  simp only [endFixtures, hrecord, h]

theorem runTests_interrupted (h : endRun sink t s = (.interrupted, s')) :
    runTests sink m (t :: ts) s = (t.loggedFailures, true, (endFixtures sink m s').2) := by
  rw [runTests.eq_def]
  dsimp only
  rw [h]

variable (m ts) in
theorem runTests_ended {failed : Bool} (h : endRun sink t s = (.reported failed, s'))
    (hends : t.brokenOff = true ∨ t.stops = true) :
    ∃ n, runTests sink m (t :: ts) s = (n, true, (endFixtures sink m s').2) := by
  rw [runTests.eq_def]
  dsimp only
  rw [h]
  dsimp only
  by_cases hbroken : t.brokenOff = true
  · rw [if_pos hbroken]
    exact ⟨_, rfl⟩
  · rw [if_neg hbroken, if_pos (hends.resolve_left hbroken)]
    exact ⟨_, rfl⟩

theorem runTests_last {failed : Bool} (h : endRun sink t s = (.reported failed, s'))
    (hbroken : t.brokenOff = false) (hstops : t.stops = false) :
    runTests sink m [t] s =
      match endFixtures sink m s' with
      | (.ok (), s'') => (t.failures failed, false, s'')
      | (.error (.exception _), s'') => (t.failures true, false, s'')
      | (.error .baseException, s'') => (t.loggedFailures, true, s'') := by
  rw [runTests.eq_def]
  dsimp only
  rw [h]
  dsimp only
  rw [if_neg (by rw [hbroken]; decide), if_neg (by rw [hstops]; decide)]

theorem runTests_next {failed : Bool} (h : endRun sink t s = (.reported failed, s'))
    (hbroken : t.brokenOff = false) (hstops : t.stops = false) (hts : ts ≠ []) :
    runTests sink m (t :: ts) s =
      (t.failures failed + (runTests sink m ts s').1, (runTests sink m ts s').2) := by
  rw [runTests.eq_def]
  dsimp only
  rw [h]
  dsimp only
  rw [if_neg (by rw [hbroken]; decide), if_neg (by rw [hstops]; decide)]
  cases ts with
  | nil => exact absurd rfl hts
  | cons t' ts => rfl

end

/-- The fields of the station context that the receipt reads. -/
structure ReceiptContext where
  runId : String
  jigId : String
  operatorId : String
  dutSerial : String
  hwSn : String

/-- What the clock and the disk say when the receipt is written. -/
structure ReceiptHost where
  date : String
  time : String
  duration : String
  write : Except Raised Unit

structure OperatorReceiptExporter where
  totalTests : Nat := 0
  failedTests : Nat := 0
  skippedTests : Nat := 0
  context : Option ReceiptContext := none
  host : ReceiptHost
  receipts : List (String × String) := []

namespace OperatorReceiptExporter

def emitRecord (e : OperatorReceiptExporter) (r : MesRecord) : OperatorReceiptExporter :=
  let e := { e with totalTests := e.totalTests + 1 }
  match r.fields.outcome, r.fields.passed with
  | .skipped, _ => { e with skippedTests := e.skippedTests + 1 }
  | .failed, _ => { e with failedTests := e.failedTests + 1 }
  | .unknown, false => { e with failedTests := e.failedTests + 1 }
  | _, _ => e

def statusText (sessionPassed : Bool) : String := if sessionPassed then "PASS" else "FAIL"

def receiptName (host : ReceiptHost) (c : ReceiptContext) (sessionPassed : Bool) : String :=
  let safeOperator := String.ofList (c.operatorId.toList.map fun x => if x = '/' then '_' else x)
  let hwSnPart := if c.hwSn = "" then "" else "_HW-" ++ c.hwSn
  s!"{statusText sessionPassed}_{host.time}_{safeOperator}_SN-{c.dutSerial}{hwSnPart}_{c.runId}.txt"

def receiptBody (e : OperatorReceiptExporter) (c : ReceiptContext) (sessionPassed : Bool) :
    String :=
  let hwSnLine := if c.hwSn = "" then "" else s!"PCB HW SN    : {c.hwSn}\n"
  "=== EOL TEST RECEIPT ===\n" ++ s!"Run ID       : {c.runId}\n" ++
    s!"Status       : {statusText sessionPassed}\n" ++ s!"Jig ID       : {c.jigId}\n" ++
    s!"Operator     : {c.operatorId}\n" ++ s!"DUT Serial   : {c.dutSerial}\n" ++ hwSnLine ++
    s!"Duration     : {e.host.duration} seconds\n" ++ "------------------------\n" ++
    s!"Total Tests  : {e.totalTests}\n" ++ s!"Skipped Tests : {e.skippedTests}\n" ++
    s!"Failed Tests : {e.failedTests}\n" ++ "========================\n"

def endSession (e : OperatorReceiptExporter) (sessionPassed : Bool) :
    Except Raised Unit × OperatorReceiptExporter :=
  match e.context with
  | none => (.ok (), e)
  | some c =>
    match e.host.write with
    | .ok () =>
      (.ok (), { e with
        receipts := e.receipts ++ [("operator_receipts/" ++ e.host.date ++ "/" ++
          receiptName e.host c sessionPassed, e.receiptBody c sessionPassed)] })
    | .error err => (.error err, e)

end OperatorReceiptExporter

@[reducible] def operatorReceiptExporter : TelemetryExporter ReceiptContext MesRecord where
  State := OperatorReceiptExporter
  handle
    | .startSession, context, e => (.ok (), context, { e with context := some context })
    | .emitRecord, record, e => (.ok (), record, e.emitRecord record)
    | .endSession, passed, e =>
      let (r, e') := e.endSession passed
      (r, passed, e')

/-- A JSONL exporter at a disk: after how many bytes each append fails, there and on the RAM
disk. -/
structure JsonlSink where
  exporter : JsonlTelemetryExporter := ⟨none, []⟩
  appends : Nat := 0

def TelemetryErr.raised : TelemetryErr → Raised
  | .deliveryError msg | .serializationError msg => .exception msg

/-- The record is sanitized where it is, so that the exporters behind see that. -/
@[reducible] def jsonlTelemetryExporter (str : PyValue → CodePoints) (json : RecordJson MesRecord)
    (mkdir : Except Raised Unit) (disk : Nat → Option Nat × Option Nat) :
    TelemetryExporter ReceiptContext MesRecord where
  State := JsonlSink
  handle
    | .startSession, context, s =>
      match mkdir with
      | .ok () =>
        (.ok (), context, { s with exporter := { s.exporter with activeFile := some [] } })
      | .error e => (.error e, context, s)
    | .emitRecord, record, s =>
      let (r, e') := s.exporter.emitRecord json ⟨record, (disk s.appends).1, (disk s.appends).2⟩
      (r.mapError TelemetryErr.raised,
        if s.exporter.activeFile.isSome then record.sanitize str else record,
        ⟨e', s.appends + 1⟩)
    | .endSession, passed, s => (.ok (), passed, s)

/-- A station in production: the built-ins `repr` and `str`, the JSON writer and the disk. -/
structure Production where
  repr : List String → String
  str : PyValue → CodePoints
  json : RecordJson MesRecord
  mkdir : Except Raised Unit
  disk : Nat → Option Nat × Option Nat

@[reducible] def Production.jsonl (p : Production) : TelemetryExporter ReceiptContext MesRecord :=
  jsonlTelemetryExporter p.str p.json p.mkdir p.disk

@[reducible] def Production.sink (p : Production) : TelemetryExporter ReceiptContext MesRecord :=
  compositeTelemetryExporter p.repr [p.jsonl, operatorReceiptExporter]

namespace OperatorReceiptExporter

def fails (r : MesRecord) : Bool :=
  r.fields.outcome == .failed || (r.fields.outcome == .unknown && !r.fields.passed)

def skips (r : MesRecord) : Bool := r.fields.outcome == .skipped

def tally (e : OperatorReceiptExporter) (records : List MesRecord) : OperatorReceiptExporter :=
  { e with
    totalTests := e.totalTests + records.length
    failedTests := e.failedTests + records.countP fails
    skippedTests := e.skippedTests + records.countP skips }

theorem emitRecord_eq (e : OperatorReceiptExporter) (r : MesRecord) :
    e.emitRecord r = e.tally [r] := by
  unfold emitRecord tally
  obtain ⟨⟨_, passed, outcome, _, _, _⟩, _, _⟩ := r
  cases outcome <;> cases passed <;> rfl

theorem tally_tally (e : OperatorReceiptExporter) (rs rs' : List MesRecord) :
    (e.tally rs).tally rs' = e.tally (rs ++ rs') := by
  simp only [tally, List.length_append, List.countP_append, Nat.add_assoc]

end OperatorReceiptExporter

section
variable {p : Production}

def JsonlSink.emit (p : Production) (j : JsonlSink) (r : MesRecord) : JsonlSink :=
  ⟨(j.exporter.emitRecord p.json ⟨r, (p.disk j.appends).1, (p.disk j.appends).2⟩).2, j.appends + 1⟩

def JsonlSink.Accepts (p : Production) (j : JsonlSink) (r : MesRecord) : Prop :=
  (j.exporter.emitRecord p.json ⟨r, (p.disk j.appends).1, (p.disk j.appends).2⟩).1 = .ok ()

theorem emit_two (repr : List String → String) {J R : TelemetryExporter κ ρ} {r r₁ r₂ : ρ}
    {j j' : J.State} {e e' : R.State}
    {res : Except Raised Unit} (hj : J.handle .emitRecord r j = (res, r₁, j'))
    (hcalm : res ≠ .error .baseException) (hr : R.handle .emitRecord r₁ e = (.ok (), r₂, e')) :
    ∃ res', (compositeTelemetryExporter repr [J, R]).handle .emitRecord r (j, e, ()) =
        (res', r₂, (j', e', ())) ∧ (res' = .ok () ↔ res = .ok ()) ∧
      res' ≠ .error .baseException := by
  have hhandle : (compositeTelemetryExporter repr [J, R]).handle .emitRecord r (j, e, ()) =
      CompositeTelemetryExporter.handle repr [J, R] .emitRecord r (j, e, ()) := rfl
  rw [hhandle]
  cases res with
  | ok u =>
    refine ⟨.ok (), ?_, iff_of_true rfl rfl, fun h => by cases h⟩
    simp only [CompositeTelemetryExporter.handle, CompositeTelemetryExporter.forwardAll, hj, hr,
      CompositeTelemetryExporter.deliver]
  | error err =>
    cases err with
    | exception msg =>
      refine ⟨CompositeTelemetryExporter.deliver repr "to deliver payload" (.ok [msg]), ?_, ?_, ?_⟩
      · simp only [CompositeTelemetryExporter.handle, CompositeTelemetryExporter.forwardAll, hj, hr,
          Except.map]
      · exact iff_of_false (fun h => by cases h) fun h => by cases h
      · exact fun h => by cases h
    | baseException => exact absurd rfl hcalm

theorem station_emit (r : MesRecord) (j : JsonlSink) (e : OperatorReceiptExporter) :
    ∃ res r', p.sink.handle .emitRecord r (j, e, ()) =
        (res, r', (j.emit p r, e.tally [r], ())) ∧
      (res = .ok () ↔ j.Accepts p r) ∧ res ≠ .error .baseException := by
  have hkeeps :
      (if j.exporter.activeFile.isSome then r.sanitize p.str else r).fields = r.fields := by
    split <;> rfl
  have hreceipt (r' : MesRecord) (hr' : r'.fields = r.fields) :
      operatorReceiptExporter.handle .emitRecord r' e = (.ok (), r', e.tally [r]) := by
    have htally : e.emitRecord r' = e.tally [r] := by
      rw [← e.emitRecord_eq r]
      unfold OperatorReceiptExporter.emitRecord
      rw [hr']
    have hhandle : operatorReceiptExporter.handle .emitRecord r' e =
        (.ok (), r', e.emitRecord r') := rfl
    rw [hhandle, htally]
  have hj : p.jsonl.handle .emitRecord r j =
      ((j.exporter.emitRecord p.json ⟨r, (p.disk j.appends).1, (p.disk j.appends).2⟩).1.mapError
          TelemetryErr.raised,
        if j.exporter.activeFile.isSome then r.sanitize p.str else r, j.emit p r) := rfl
  rw [JsonlSink.Accepts]
  cases hres : (j.exporter.emitRecord p.json ⟨r, (p.disk j.appends).1, (p.disk j.appends).2⟩).1 with
  | ok u =>
    rw [hres] at hj
    obtain ⟨res, hemit, hok, hcalm⟩ :=
      emit_two p.repr hj (fun h => by cases h) (hreceipt _ hkeeps)
    exact ⟨res, _, hemit, hok.trans (iff_of_true rfl rfl), hcalm⟩
  | error err =>
    rw [hres] at hj
    have hraised : err.raised ≠ .baseException := by
      cases err <;> exact fun h => by cases h
    obtain ⟨res, hemit, hok, hcalm⟩ :=
      emit_two p.repr hj (fun h => hraised (Except.error.inj h)) (hreceipt _ hkeeps)
    exact ⟨res, _, hemit, hok.trans (iff_of_false (fun h => by cases h) (fun h => by cases h)),
      hcalm⟩

def JsonlSink.emitAll (p : Production) (j : JsonlSink) (rs : List MesRecord) : JsonlSink :=
  rs.foldl (JsonlSink.emit p) j

def JsonlSink.AcceptsAll (p : Production) : JsonlSink → List MesRecord → Prop
  | _, [] => True
  | j, r :: rs => j.Accepts p r ∧ (j.emit p r).AcceptsAll p rs

theorem JsonlSink.emitAll_append (j : JsonlSink) (rs rs' : List MesRecord) :
    j.emitAll p (rs ++ rs') = (j.emitAll p rs).emitAll p rs' := List.foldl_append

theorem JsonlSink.AcceptsAll.append {j : JsonlSink} {rs rs' : List MesRecord}
    (h : j.AcceptsAll p rs) (h' : (j.emitAll p rs).AcceptsAll p rs') :
    j.AcceptsAll p (rs ++ rs') := by
  induction rs generalizing j with
  | nil => exact h'
  | cons r rs ih => exact ⟨h.1, ih h.2 h'⟩

theorem JsonlSink.Accepts.emit_file {j : JsonlSink} {r : MesRecord} {file : Bytes}
    (hfile : j.exporter.activeFile = some file) (h : j.Accepts p r) :
    ∃ text, p.json.dump r = some text ∧
      (j.emit p r).exporter.activeFile = some (file ++ (text ++ [10])) := by
  obtain ⟨hdump, hdisk⟩ := (JsonlTelemetryExporter.emitRecord_ok p.json
    ⟨r, (p.disk j.appends).1, (p.disk j.appends).2⟩ hfile).1 h
  obtain ⟨text, htext⟩ := Option.isSome_iff_exists.1 hdump
  refine ⟨text, htext, ?_⟩
  have hemit := JsonlTelemetryExporter.emitRecord_file p.json
    ⟨r, (p.disk j.appends).1, (p.disk j.appends).2⟩ hfile
  change p.json.dump r = some text at htext
  change (p.disk j.appends).1 = none at hdisk
  change (j.emit p r).exporter.activeFile = some (file ++ (p.json.dump r).elim []
    fun text => written (text ++ [10]) (p.disk j.appends).1) at hemit
  rwa [htext, hdisk] at hemit

theorem JsonlSink.AcceptsAll.file {j : JsonlSink} {rs : List MesRecord} {file : Bytes}
    (hfile : j.exporter.activeFile = some file) (h : j.AcceptsAll p rs) :
    ∃ texts, List.Forall₂ (fun r text => p.json.dump r = some text) rs texts ∧
      (j.emitAll p rs).exporter.activeFile = some (file ++ texts.flatMap (· ++ [10])) := by
  induction rs generalizing j file with
  | nil =>
    refine ⟨[], .nil, ?_⟩
    rw [List.flatMap_nil, List.append_nil]
    exact hfile
  | cons r rs ih =>
    obtain ⟨text, htext, hfile'⟩ := h.1.emit_file hfile
    obtain ⟨texts, htexts, hlast⟩ := ih hfile' h.2
    refine ⟨text :: texts, .cons htext htexts, ?_⟩
    rw [List.flatMap_cons, ← List.append_assoc]
    exact hlast

def TestRun.emitted (t : TestRun) : List MesRecord :=
  match t.record with
  | some (.ok r) => [r]
  | _ => []

def TestRun.ends (t : TestRun) : Bool :=
  t.brokenOff || t.stops || match t.record with
    | some (.error .baseException) => true
    | _ => false

def testRecords : List TestRun → List MesRecord
  | [] => []
  | t :: ts => t.emitted ++ if t.ends then [] else testRecords ts

def sessionRecords (m : BootMetrics) (ts : List TestRun) : List MesRecord :=
  testRecords ts ++ m.record.toList

/-- The run went through, and so did the record if it came to one. -/
structure TestRun.WentThrough (t : TestRun) : Prop where
  phases : t.failedPhases = 0
  whole : t.brokenOff = false
  teardown : t.otherTeardownFails = false
  record : t.record = none ∨ ∃ r, t.record = some (.ok r)

theorem endRun_station (t : TestRun) (j : JsonlSink) (e : OperatorReceiptExporter) :
    ∃ res, endRun p.sink t (j, e, ()) =
        (res, (j.emitAll p t.emitted, e.tally t.emitted, ())) ∧
      (res = .interrupted → t.ends = true) ∧
      (res ≠ .interrupted → t.ends = (t.brokenOff || t.stops)) ∧
      (res = .reported false → t.otherTeardownFails = false ∧ j.AcceptsAll p t.emitted ∧
        (t.record = none ∨ ∃ r, t.record = some (.ok r))) := by
  have hquiet (h : t.record = none ∨ ∃ msg, t.record = some (.error (.exception msg))) :
      t.emitted = [] ∧ t.ends = (t.brokenOff || t.stops) := by
    unfold TestRun.emitted TestRun.ends
    rcases h with h | ⟨msg, h⟩ <;> rw [h] <;> exact ⟨rfl, Bool.or_false _⟩
  cases hrecord : t.record with
  | none =>
    have hrun : endRun p.sink t (j, e, ()) = (.reported t.otherTeardownFails, (j, e, ())) := by
      rw [endRun, hrecord]
    obtain ⟨hemitted, hends⟩ := hquiet (.inl hrecord)
    rw [hemitted]
    refine ⟨_, hrun, nofun, fun _ => hends, fun h => ?_⟩
    exact ⟨RunEnd.reported.inj h, trivial, .inl rfl⟩
  | some record =>
    cases record with
    | error err =>
      cases err with
      | baseException =>
        have hrun : endRun p.sink t (j, e, ()) = (.interrupted, (j, e, ())) := by
          rw [endRun, hrecord]
        have hends : t.emitted = [] ∧ t.ends = true := by
          unfold TestRun.emitted TestRun.ends
          rw [hrecord]
          exact ⟨rfl, Bool.or_true _⟩
        rw [hends.1]
        exact ⟨_, hrun, fun _ => hends.2, fun h => absurd rfl h, nofun⟩
      | exception msg =>
        have hrun : endRun p.sink t (j, e, ()) = (.reported true, (j, e, ())) := by
          rw [endRun, hrecord]
        obtain ⟨hemitted, hends⟩ := hquiet (.inr ⟨msg, hrecord⟩)
        rw [hemitted]
        exact ⟨_, hrun, nofun, fun _ => hends, nofun⟩
    | ok r =>
      obtain ⟨res, r', hemit, hok, hcalm⟩ := station_emit (p := p) r j e
      have hends : t.emitted = [r] ∧ t.ends = (t.brokenOff || t.stops) := by
        unfold TestRun.emitted TestRun.ends
        rw [hrecord]
        exact ⟨rfl, Bool.or_false _⟩
      rw [hends.1]
      refine ⟨_, endRun_emitted hrecord hemit, fun h => ?_, fun _ => hends.2, fun h => ?_⟩
      · rcases res with (_ | _) | _
        · cases h
        · exact absurd rfl hcalm
        · cases h
      · rcases res with (_ | _) | _
        · cases h
        · cases h
        · exact ⟨RunEnd.reported.inj h, ⟨hok.1 rfl, trivial⟩, .inr ⟨r, rfl⟩⟩

theorem endFixtures_station (m : BootMetrics) (j : JsonlSink) (e : OperatorReceiptExporter) :
    ∃ res, endFixtures p.sink m (j, e, ()) =
        (res, (j.emitAll p m.record.toList, e.tally m.record.toList, ())) ∧
      (res = .ok () → j.AcceptsAll p m.record.toList) ∧ res ≠ .error .baseException := by
  cases hrecord : m.record with
  | none => exact ⟨.ok (), by rw [endFixtures, hrecord]; rfl, fun _ => trivial, nofun⟩
  | some r =>
    obtain ⟨res, r', hemit, hok, hcalm⟩ := station_emit (p := p) r j e
    have hend := endFixtures_emitted hrecord hemit
    exact ⟨res, hend, fun h => ⟨hok.1 h, trivial⟩, hcalm⟩

variable {m : BootMetrics}

/-- Whatever becomes of the records on the disk, the receipt counts them all. -/
theorem runTests_receipt (ts : List TestRun) (j : JsonlSink) (e : OperatorReceiptExporter) :
    ∃ n b j', runTests p.sink m ts (j, e, ()) =
      (n, b, (j', e.tally (sessionRecords m ts), ())) := by
  induction ts generalizing j e with
  | nil =>
    obtain ⟨res, hend, -⟩ := endFixtures_station (p := p) m j e
    rw [runTests, hend]
    exact ⟨0, false, _, rfl⟩
  | cons t ts ih =>
    obtain ⟨res, hrun, htorn, hwhole, -⟩ := endRun_station (p := p) t j e
    obtain ⟨res', hend, -⟩ :=
      endFixtures_station (p := p) m (j.emitAll p t.emitted) (e.tally t.emitted)
    have hlast (hends : t.ends = true) : (e.tally t.emitted).tally m.record.toList =
        e.tally (sessionRecords m (t :: ts)) := by
      rw [e.tally_tally, sessionRecords, testRecords, if_pos hends, List.append_nil]
    cases res with
    | interrupted =>
      rw [runTests_interrupted hrun, hend, hlast (htorn rfl)]
      exact ⟨_, true, _, rfl⟩
    | reported failed =>
      have hends := hwhole fun h => by cases h
      by_cases hends' : t.ends = true
      · have hor : t.brokenOff = true ∨ t.stops = true := by
          rwa [hends, Bool.or_eq_true] at hends'
        obtain ⟨n, hn⟩ := runTests_ended m ts hrun hor
        rw [hn, hend, hlast hends']
        exact ⟨n, true, _, rfl⟩
      · have hrest : sessionRecords m (t :: ts) = t.emitted ++ sessionRecords m ts := by
          rw [sessionRecords, testRecords, if_neg hends', List.append_assoc]
          rfl
        rw [hends, Bool.not_eq_true, Bool.or_eq_false_iff] at hends'
        rw [hrest, ← e.tally_tally]
        cases ts with
        | nil =>
          rw [runTests_last hrun hends'.1 hends'.2, hend]
          rcases res' with (_ | _) | _ <;> exact ⟨_, _, _, rfl⟩
        | cons t' ts =>
          obtain ⟨n, b, j', hnext⟩ := ih (j.emitAll p t.emitted) (e.tally t.emitted)
          rw [runTests_next hrun hends'.1 hends'.2 (List.cons_ne_nil _ _), hnext]
          exact ⟨_, b, j', rfl⟩

theorem TestRun.failures_eq_zero {t : TestRun} {failed : Bool} (hrerun : t.rerun = false)
    (h : t.failures failed = 0) : t.failedPhases = 0 ∧ failed = false := by
  rw [failures, if_neg (by rw [hrerun]; decide)] at h
  obtain ⟨hphases, hteardown⟩ := Nat.add_eq_zero_iff.1 h
  cases failed with
  | false => exact ⟨hphases, rfl⟩
  | true => cases hteardown

theorem runTests_complete {ts : List TestRun} (hrerun : ∀ t ∈ ts, t.rerun = false)
    {j : JsonlSink} {e : OperatorReceiptExporter} (hts : ts ≠ []) {s : p.sink.State}
    (h : runTests p.sink m ts (j, e, ()) = (0, false, s)) :
    (∀ t ∈ ts, t.WentThrough ∧ t.stops = false) ∧
      j.AcceptsAll p (ts.flatMap TestRun.emitted ++ m.record.toList) ∧
      s.1 = j.emitAll p (ts.flatMap TestRun.emitted ++ m.record.toList) := by
  induction ts generalizing j e with
  | nil => exact absurd rfl hts
  | cons t ts ih =>
    obtain ⟨res, hrun, -, -, hok⟩ := endRun_station (p := p) t j e
    have hrerun' := hrerun t List.mem_cons_self
    cases res with
    | interrupted =>
      rw [runTests_interrupted hrun] at h
      have hbroken : true = false := congrArg (·.2.1) h
      cases hbroken
    | reported failed =>
      by_cases hends : t.brokenOff = true ∨ t.stops = true
      · obtain ⟨n, hn⟩ := runTests_ended m ts hrun hends
        rw [hn] at h
        cases h
      have hbroken : t.brokenOff = false := Bool.eq_false_iff.2 fun h => hends (.inl h)
      have hstops : t.stops = false := Bool.eq_false_iff.2 fun h => hends (.inr h)
      -- a run that counts and leaves no failure
      have hthrough (hfailures : t.failures failed = 0) :
          (t.WentThrough ∧ t.stops = false) ∧ j.AcceptsAll p t.emitted := by
        obtain ⟨hphases, rfl⟩ := TestRun.failures_eq_zero hrerun' hfailures
        obtain ⟨hteardown, haccepts, hrecord⟩ := hok rfl
        exact ⟨⟨⟨hphases, hbroken, hteardown, hrecord⟩, hstops⟩, haccepts⟩
      rw [List.flatMap_cons, List.append_assoc, JsonlSink.emitAll_append]
      cases ts with
      | nil =>
        obtain ⟨res', hend, hok', hcalm⟩ :=
          endFixtures_station (p := p) m (j.emitAll p t.emitted) (e.tally t.emitted)
        rw [runTests_last hrun hbroken hstops, hend] at h
        rcases res' with (_ | _) | _
        · cases (TestRun.failures_eq_zero hrerun' (Prod.ext_iff.1 h).1).2
        · exact absurd rfl hcalm
        · obtain ⟨hfailures, hsame⟩ := Prod.ext_iff.1 h
          obtain ⟨-, rfl⟩ := Prod.ext_iff.1 hsame
          obtain ⟨hwent, haccepts⟩ := hthrough hfailures
          refine ⟨?_, haccepts.append (hok' rfl), rfl⟩
          intro t' ht'
          rwa [List.mem_singleton.1 ht']
      | cons t' ts =>
        rw [runTests_next hrun hbroken hstops (List.cons_ne_nil _ _)] at h
        obtain ⟨hcount, hsame⟩ := Prod.ext_iff.1 h
        obtain ⟨hfailures, hrest⟩ := Nat.add_eq_zero_iff.1 hcount
        obtain ⟨hwent, haccepts⟩ := hthrough hfailures
        obtain ⟨hall, haccepts', hs⟩ := ih (fun t ht => hrerun t (List.mem_cons_of_mem _ ht))
          (List.cons_ne_nil _ _) (Prod.ext hrest hsame)
        refine ⟨?_, haccepts.append haccepts', hs⟩
        intro t'' ht''
        rcases List.mem_cons.1 ht'' with rfl | ht''
        · exact hwent
        · exact hall t'' ht''

def TestRun.recorded (t : TestRun) : Bool := t.record.isSome

def TestRun.skipped (t : TestRun) : Bool :=
  match t.course with
  | .unrecorded _ => false
  | .recorded teardown =>
    match teardown.phases with
    | .setupSkipped _ | .skipped _ => true
    | _ => false

theorem TestRun.WentThrough.outcome {t : TestRun} {r : MesRecord} (h : t.WentThrough)
    (hrecord : t.record = some (.ok r)) :
    OperatorReceiptExporter.fails r = false ∧ OperatorReceiptExporter.skips r = t.skipped := by
  have hphases := h.phases
  have hwhole := h.whole
  unfold TestRun.record at hrecord
  unfold TestRun.failedPhases at hphases
  unfold TestRun.brokenOff at hwhole
  cases hcourse : t.course with
  | unrecorded ending =>
    rw [hcourse] at hrecord
    cases hrecord
  | recorded teardown =>
    simp only [hcourse] at hrecord hphases hwhole
    unfold finishRecord judge at hrecord
    cases hend : teardown.phases with
    | setupFailed | failed => simp [hend] at hphases
    | interrupted => simp [hend, TestPhases.brokenOff] at hwhole
    | setupSkipped | passed | skipped =>
      simp only [hend] at hrecord
      cases hrecord
      simp only [TestRun.skipped, hcourse, hend]
      exact ⟨rfl, rfl⟩

theorem emitted_counts {ts : List TestRun} (h : ∀ t ∈ ts, t.WentThrough) :
    (ts.flatMap TestRun.emitted).length = ts.countP TestRun.recorded ∧
      (ts.flatMap TestRun.emitted).countP OperatorReceiptExporter.fails = 0 ∧
      (ts.flatMap TestRun.emitted).countP OperatorReceiptExporter.skips =
        ts.countP TestRun.skipped := by
  induction ts with
  | nil => exact ⟨rfl, rfl, rfl⟩
  | cons t ts ih =>
    obtain ⟨hlen, hfails, hskips⟩ := ih fun t ht => h t (List.mem_cons_of_mem _ ht)
    have hrun := h t List.mem_cons_self
    have hone : t.emitted.length = (if t.recorded then 1 else 0) ∧
        t.emitted.countP OperatorReceiptExporter.fails = 0 ∧
        t.emitted.countP OperatorReceiptExporter.skips = if t.skipped then 1 else 0 := by
      unfold TestRun.emitted TestRun.recorded
      rcases hrun.record with hrecord | ⟨r, hrecord⟩
      · rw [hrecord]
        refine ⟨rfl, rfl, ?_⟩
        unfold TestRun.record at hrecord
        unfold TestRun.skipped
        cases hcourse : t.course with
        | unrecorded ending => rfl
        | recorded teardown =>
          rw [hcourse] at hrecord
          cases hrecord
      · obtain ⟨hfails, hskips⟩ := hrun.outcome hrecord
        rw [hrecord]
        refine ⟨rfl, ?_, ?_⟩
        · rw [List.countP_cons_of_neg (by rw [hfails]; decide)]
          rfl
        · rw [List.countP_cons, hskips, List.countP_nil, Nat.zero_add]
    rw [List.flatMap_cons, List.length_append, List.countP_append, List.countP_append, hone.1,
      hone.2.1, hone.2.2, hlen, hfails, hskips, List.countP_cons, List.countP_cons]
    exact ⟨Nat.add_comm .., rfl, Nat.add_comm ..⟩

theorem testRecords_through {ts : List TestRun}
    (h : ∀ t ∈ ts, t.WentThrough ∧ t.stops = false) :
    testRecords ts = ts.flatMap TestRun.emitted := by
  induction ts with
  | nil => rfl
  | cons t ts ih =>
    obtain ⟨hrun, hstops⟩ := h t List.mem_cons_self
    have hends : t.ends = false := by
      unfold TestRun.ends
      rw [hrun.whole, hstops]
      rcases hrun.record with hrecord | ⟨r, hrecord⟩ <;> rw [hrecord] <;> rfl
    rw [testRecords, hends, List.flatMap_cons, ih fun t ht => h t (List.mem_cons_of_mem _ ht)]
    rfl

def freshSink (host : ReceiptHost) : p.sink.State :=
  ({}, { host := host }, ())

theorem station_end (passed : Bool) (j : JsonlSink) (e : OperatorReceiptExporter) :
    (p.sink.handle .endSession passed (j, e, ())).2.2 =
      (j, (e.endSession passed).2, ()) := by
  simp only [CompositeTelemetryExporter.handle, CompositeTelemetryExporter.forwardAll]
  cases (e.endSession passed).1 with
  | ok u => rfl
  | error err => cases err <;> rfl

/-- A session on a fresh sink: it starts, has its tests and is ended with their verdict. -/
theorem runSession_some {context : ReceiptContext} {ts : List TestRun} {host : ReceiptHost}
    {e : SessionEnd p.sink}
    (h : runSession p.sink context m ts (freshSink host) = some e) :
    ∃ n j r, runTests p.sink m ts
        (⟨⟨some [], []⟩, 0⟩, { host := host, context := some context }, ()) =
          (n, e.brokenOff, (j, r, ())) ∧
      e.sessionPassed = (n == 0) ∧ e.sink = (j, (r.endSession e.sessionPassed).2, ()) := by
  obtain ⟨repr, str, json, mkdir, disk⟩ := p
  cases mkdir with
  | error err => cases h
  | ok u =>
    rcases hrun : runTests (⟨repr, str, json, .ok u, disk⟩ : Production).sink m ts
      (⟨⟨some [], []⟩, 0⟩, { host := host, context := some context }, ()) with ⟨n, b, j, r, ⟨⟩⟩
    have hstart : runSession (⟨repr, str, json, .ok u, disk⟩ : Production).sink context m ts
        (freshSink host) = some (finishSession _ (n, b, (j, r, ()))) := by
      rw [← hrun]
      rfl
    rw [hstart] at h
    cases h
    exact ⟨n, j, r, rfl, rfl, station_end _ j r⟩

theorem endSession_receipt (e : OperatorReceiptExporter) (context : ReceiptContext)
    (hcontext : e.context = some context) (passed : Bool) :
    (e.endSession passed).2 =
      if e.host.write = .ok () then
        { e with receipts := e.receipts ++ [("operator_receipts/" ++ e.host.date ++ "/" ++
          OperatorReceiptExporter.receiptName e.host context passed,
          e.receiptBody context passed)] }
      else e := by
  rw [OperatorReceiptExporter.endSession, hcontext]
  cases hwrite : e.host.write with
  | ok u => rfl
  | error err => rfl

variable {context : ReceiptContext} {ts : List TestRun} {host : ReceiptHost}
  {e : SessionEnd p.sink}

/-- The receipt of every session counts its records, whatever becomes of them on the disk. -/
theorem session_receipt
    (h : runSession p.sink context m ts (freshSink host) = some e) :
    e.sink.2.1.totalTests = (sessionRecords m ts).length ∧
      e.sink.2.1.failedTests = (sessionRecords m ts).countP OperatorReceiptExporter.fails ∧
      e.sink.2.1.skippedTests = (sessionRecords m ts).countP OperatorReceiptExporter.skips ∧
      (host.write = .ok () → e.sink.2.1.receipts =
        [("operator_receipts/" ++ host.date ++ "/" ++
            OperatorReceiptExporter.receiptName host context e.sessionPassed,
          e.sink.2.1.receiptBody context e.sessionPassed)]) := by
  obtain ⟨n, j, r, hrun, -, hsink⟩ := runSession_some h
  obtain ⟨n', b', j', hreceipt⟩ := runTests_receipt (p := p) (m := m) ts ⟨⟨some [], []⟩, 0⟩
    { host := host, context := some context }
  rw [hrun] at hreceipt
  cases hreceipt
  rw [hsink, endSession_receipt _ context rfl]
  split
  · exact ⟨Nat.zero_add _, Nat.zero_add _, Nat.zero_add _, fun _ => rfl⟩
  · rename_i hwrite
    exact ⟨Nat.zero_add _, Nat.zero_add _, Nat.zero_add _, fun h => absurd h hwrite⟩

theorem BootMetrics.record_counts (m : BootMetrics) :
    m.record.toList.countP OperatorReceiptExporter.fails = 0 ∧
      m.record.toList.countP OperatorReceiptExporter.skips = 0 := by
  unfold BootMetrics.record
  split
  · exact ⟨rfl, rfl⟩
  · exact ⟨rfl, rfl⟩

/-- A session that passes, that nobody broke off and that reran no test has every record in its
stream, one line each in their order, and its receipt agrees. -/
theorem pass_is_complete
    (h : runSession p.sink context m ts (freshSink host) = some e) (hts : ts ≠ [])
    (hpass : e.sessionPassed = true) (hwhole : e.brokenOff = false)
    (hrerun : ∀ t ∈ ts, t.rerun = false) :
    (∀ t ∈ ts, t.WentThrough) ∧
      (∃ texts, List.Forall₂ (fun r text => p.json.dump r = some text)
          (ts.flatMap TestRun.emitted ++ m.record.toList) texts ∧
        e.sink.1.exporter.activeFile = some (texts.flatMap (· ++ [10]))) ∧
      e.sink.2.1.totalTests = ts.countP TestRun.recorded + m.record.toList.length ∧
      e.sink.2.1.failedTests = 0 ∧ e.sink.2.1.skippedTests = ts.countP TestRun.skipped := by
  obtain ⟨htotal, hfailed, hskipped, -⟩ := session_receipt h
  obtain ⟨n, j, r, hrun, hn, hsink⟩ := runSession_some h
  have hzero : n = 0 := by
    rw [hpass] at hn
    exact beq_iff_eq.1 hn.symm
  rw [hzero, hwhole] at hrun
  obtain ⟨hall, haccepts, hj⟩ := runTests_complete hrerun hts hrun
  have hthrough : ∀ t ∈ ts, t.WentThrough := fun t ht => (hall t ht).1
  obtain ⟨hlen, hfails, hskips⟩ := emitted_counts hthrough
  obtain ⟨hprofileFails, hprofileSkips⟩ := m.record_counts
  obtain ⟨texts, htexts, hfile⟩ := haccepts.file rfl
  have hrecords : sessionRecords m ts = ts.flatMap TestRun.emitted ++ m.record.toList := by
    rw [sessionRecords, testRecords_through hall]
  refine ⟨hthrough, ⟨texts, htexts, ?_⟩, ?_, ?_, ?_⟩
  · rw [hsink]
    change j = _ at hj
    rw [hj]
    exact hfile
  · rw [htotal, hrecords, List.length_append, hlen]
  · rw [hfailed, hrecords, List.countP_append, hfails, hprofileFails]
  · rw [hskipped, hrecords, List.countP_append, hskips, hprofileSkips, Nat.add_zero]

end

/-- A writer whose texts say nothing but that there is a record. -/
def emptyJson : RecordJson MesRecord where
  testName r := r.fields.testName
  dump _ := some (ascii "\x7b\x7d")
  parses t := t = ascii "\x7b\x7d"
  noBreak r t h := by
    cases h
    decide
  parses_dump r t h := by
    cases h
    decide

def stationContext : ReceiptContext := ⟨"run-1", "JIG-A", "line/7", "SN-42", ""⟩

def receiptHost : ReceiptHost := ⟨"2025-01-31", "14-30-00", "12.5", .ok ()⟩

def testRun (nodeid : String) (course : RunCourse) : TestRun where
  nodeid := nodeid
  executionCount := 1
  loopIteration := 1
  body := id
  course := course
  otherTeardownFails := false
  log := .oneByOne
  stops := false

/-- One test passes, one is skipped where it runs and one by its mark. -/
def threeRuns : List TestRun :=
  [testRun "test_boot" (.recorded ⟨3 / 2, none, .passed, "test_boot", [], none⟩),
    testRun "test_can" (.recorded
      ⟨1 / 2, none, .skipped (some ⟨"no bus", true, none⟩), "test_can", [], none⟩),
    testRun "test_wifi" (.unrecorded .skipped)]

def bootMetrics : BootMetrics := ⟨[("t_boot_total_to_shell_s", 0x4029000000000000)], some (25 / 2)⟩

@[reducible] def factory (disk : Nat → Option Nat × Option Nat) : Production where
  repr := toString
  str _ := []
  json := emptyJson
  mkdir := .ok ()
  disk := disk

def threeRunSession (disk : Nat → Option Nat × Option Nat) : SessionEnd (factory disk).sink :=
  finishSession (factory disk).sink (runTests (factory disk).sink bootMetrics threeRuns
    (⟨⟨some [], []⟩, 0⟩, { host := receiptHost, context := some stationContext }, ()))

/-- All appends fail, and the receipt has the two tests and the boot. -/
theorem session_receipt_full_disk :
    (threeRunSession fun _ => (some 0, none)).sink.2.1.totalTests = 3 ∧
      (threeRunSession fun _ => (some 0, none)).sink.2.1.skippedTests = 1 := by
  have h : runSession (factory fun _ => (some 0, none)).sink stationContext bootMetrics threeRuns
      (freshSink receiptHost) = some (threeRunSession fun _ => (some 0, none)) := rfl
  obtain ⟨htotal, -, hskipped, -⟩ := session_receipt h
  exact ⟨htotal.trans (by decide), hskipped.trans (by decide)⟩

theorem pass_is_complete_three_tests :
    (∀ t ∈ threeRuns, t.WentThrough) ∧
      (∃ texts, List.Forall₂ (fun r text => emptyJson.dump r = some text)
          (threeRuns.flatMap TestRun.emitted ++ bootMetrics.record.toList) texts ∧
        (threeRunSession fun _ => (none, none)).sink.1.exporter.activeFile =
          some (texts.flatMap (· ++ [10]))) ∧
      (threeRunSession fun _ => (none, none)).sink.2.1.totalTests = 3 ∧
      (threeRunSession fun _ => (none, none)).sink.2.1.failedTests = 0 ∧
      (threeRunSession fun _ => (none, none)).sink.2.1.skippedTests = 1 := by
  have h : runSession (factory fun _ => (none, none)).sink stationContext bootMetrics threeRuns
      (freshSink receiptHost) = some (threeRunSession fun _ => (none, none)) := rfl
  exact pass_is_complete h (List.cons_ne_nil _ _) rfl rfl (by decide)

end MesCore
