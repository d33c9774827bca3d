import MesCore.Interaction
import MesCore.Validators

namespace MesCore
set_option autoImplicit true

namespace NativeMemoryValidator

/-- The files of the test in the RAM of the target. -/
inductive TmpFile
  | originalBackup
  | testPayload
  | readback
  deriving DecidableEq

def TmpFile.path : TmpFile → String
  | .originalBackup => "/tmp/original_backup.bin"
  | .testPayload => "/tmp/test_payload.bin"
  | .readback => "/tmp/readback.bin"

/-- What a `dd` of the test reads. -/
inductive Source
  | device
  | urandom
  deriving DecidableEq

def Source.path (devicePath : String) : Source → String
  | .device => devicePath
  | .urandom => "/dev/urandom"

inductive TargetCmd
  | testDevice
  | dd (source : Source) (out : TmpFile) (count : Nat)
  | catSync (file : TmpFile)
  | cmp (a b : TmpFile)
  | rm (files : List TmpFile)
  deriving DecidableEq

def TargetCmd.text (devicePath : String) : TargetCmd → String
  | .testDevice => s!"test -e {devicePath}"
  | .dd source out count =>
    s!"dd if={source.path devicePath} of={out.path} bs=1 count={count} 2>/dev/null"
  | .catSync file => s!"sh -c 'cat {file.path} > {devicePath} && sync'"
  | .cmp a b => s!"cmp -l {a.path} {b.path}"
  | .rm files =>
    let paths := " ".intercalate (files.map TmpFile.path)
    s!"rm -f {paths}"

abbrev backupCmd (totalSizeBytes : Nat) : TargetCmd := .dd .device .originalBackup totalSizeBytes

abbrev payloadCmd (totalSizeBytes : Nat) : TargetCmd := .dd .urandom .testPayload totalSizeBytes

abbrev writeCmd : TargetCmd := .catSync .testPayload

abbrev readCmd (totalSizeBytes : Nat) : TargetCmd := .dd .device .readback totalSizeBytes

abbrev cmpCmd : TargetCmd := .cmp .testPayload .readback

abbrev restoreCmd : TargetCmd := .catSync .originalBackup

abbrev cleanupCmd : TargetCmd := .rm [.testPayload, .readback, .originalBackup]

structure TimedResult extends CommandResult where
  durationS : ℚ

/-- How a command goes: it is left to run, it stops with an error, or the transport raises. Where it
is not left to run it has `written` so many bytes, or has not even opened its file. -/
inductive Outcome
  | runs (stdout stderr : String) (durationS : ℚ)
  | stops (written : Option Nat) (res : {res : TimedResult // res.ok = false ∧ res.exited ≠ 0})
  | raises (written : Option Nat) (e : Err)

/-- The target, with the outcome of every command that will be sent to it. -/
structure Target where
  content : Bytes
  tmp : TmpFile → Option Bytes
  urandom : Nat → UInt8
  isConnected : Bool
  outcome : TargetCmd → Outcome

/-- A write from the start of a block device, which has as many bytes afterwards as before. -/
def overwrite (content bs : Bytes) : Bytes := (bs ++ content.drop bs.length).take content.length

def cutTo (written : Option Nat) (xs : List α) : List α := written.elim xs xs.take

namespace Target
section
variable (s : Target)

def input : Source → Nat → Bytes
  | .device, count => s.content.take count
  | .urandom, count => (List.range count).map s.urandom

/-- What a command does, up to the bytes it gets to write. -/
def perform (written : Option Nat) : TargetCmd → Target
  | .testDevice | .cmp _ _ => s
  | .dd source out count =>
    { s with tmp := Function.update s.tmp out (some (cutTo written (s.input source count))) }
  | .catSync file =>
    { s with content := overwrite s.content (cutTo written ((s.tmp file).getD [])) }
  | .rm files =>
    { s with tmp := fun file => if file ∈ cutTo written files then none else s.tmp file }

def status : TargetCmd → Int
  | .testDevice | .dd _ _ _ | .rm _ => 0
  | .catSync file =>
    match s.tmp file with
    | some bs => if bs.length ≤ s.content.length then 0 else 1
    | none => 1
  | .cmp a b =>
    match s.tmp a, s.tmp b with
    | some x, some y => if x = y then 0 else 1
    | _, _ => 2

def partly (written : Option Nat) (cmd : TargetCmd) : Target :=
  match written with
  | some n => s.perform (some n) cmd
  | none => s

def run (cmd : TargetCmd) : Except Err TimedResult × Target :=
  match s.outcome cmd with
  | .runs stdout stderr durationS =>
    (.ok { stdout, stderr, exited := s.status cmd, ok := s.status cmd == 0, durationS },
      s.perform none cmd)
  | .stops written res => (.ok res, s.partly written cmd)
  | .raises written e => (.error e, s.partly written cmd)

end
end Target

inductive MemoryCall
  | safeRun (cmd : TargetCmd) (timeoutMs : Nat)
  | isConnected

@[reducible] def MemoryCall.Ans : MemoryCall → Type
  | .safeRun _ _ => TimedResult
  | .isConnected => Bool

/-- The variable of a test is `backup_created`. -/
@[reducible] def memoryInterface : Interface where
  Call := MemoryCall
  Ans := MemoryCall.Ans
  Err := Err
  Note := Empty
  Vars := Bool

@[reducible] def target : Device memoryInterface where
  State := Target
  respond
    | .safeRun cmd _, s => s.run cmd
    | .isConnected, s => (.ok s.isConnected, s)

abbrev Test (α : Type) := Prog target α

def safeRun (cmd : TargetCmd) (timeoutMs : Nat) : Test TimedResult :=
  call (I := memoryInterface) (.safeRun cmd timeoutMs)

section
variable (devicePath : String) (totalSizeBytes : Nat)

def contextData : List (String × ContextValue) :=
  [("device_path", .str devicePath), ("total_size_bytes", .int totalSizeBytes)]

def failed (errorMsg : String) : Test ValidatorResult :=
  ofExcept (ValidatorResult.create false [] (contextData devicePath totalSizeBytes) errorMsg)

/-- The first half of the test where a backup is asked for: the verdict, if the backup fails. -/
def backUp : Test (Option ValidatorResult) := do
  let resBackup : TimedResult ← safeRun (backupCmd totalSizeBytes) 15000
  if resBackup.ok then do
    modifyVars fun _ => true
    pure none
  else do
    let r ← failed devicePath totalSizeBytes
      s!"Backup failed. Refusing to start destructive test: {stripText resBackup.stderr}"
    pure (some r)

/-- The verdict on what `cmp` said. -/
def compare (resWrite resRead resCmp : TimedResult) : Test ValidatorResult :=
  if resCmp.exited = -3 then
    failed devicePath totalSizeBytes "cmp command timed out. UART dropped keystrokes?"
  else if resCmp.exited < 0 then
    failed devicePath totalSizeBytes
      s!"cmp command failed with transport error code: {resCmp.exited}"
  else if resCmp.exited ≠ 0 then
    let errorOut := splitNewline (pyStrip resCmp.stdout.toList)
    failed devicePath totalSizeBytes s!"{errorOut.length} byte mismatches detected."
  else
    ofExcept (ValidatorResult.create true
      [("t_write_s", resWrite.durationS), ("t_read_s", resRead.durationS)]
      (contextData devicePath totalSizeBytes) "")

/-- The test proper: a random payload over the whole device, and back. -/
def overwriteAndCompare : Test ValidatorResult := do
  let _ : TimedResult ← safeRun (payloadCmd totalSizeBytes) 5000
  let resWrite : TimedResult ← safeRun writeCmd 15000
  if resWrite.ok then do
    let resRead : TimedResult ← safeRun (readCmd totalSizeBytes) 15000
    if resRead.ok then do
      let resCmp : TimedResult ← safeRun cmpCmd 10000
      compare devicePath totalSizeBytes resWrite resRead resCmp
    else failed devicePath totalSizeBytes s!"VFS Read failed: {stripText resRead.stderr}"
  else failed devicePath totalSizeBytes s!"VFS Write failed: {stripText resWrite.stderr}"

/-- The `try` block of `verify_full_capacity`. -/
def checkCapacity (restoreBackup : Bool) : Test ValidatorResult := do
  let resCheck : TimedResult ← safeRun .testDevice 30000
  if resCheck.ok then
    if restoreBackup then do
      match ← backUp devicePath totalSizeBytes with
      | some r => pure r
      | none => overwriteAndCompare devicePath totalSizeBytes
    else overwriteAndCompare devicePath totalSizeBytes
  else failed devicePath totalSizeBytes s!"Device path {devicePath} does not exist."

def regardless (cmd : TargetCmd) (timeoutMs : Nat) : Test Unit :=
  attempt (do let _ ← safeRun cmd timeoutMs; pure ()) Err.isException fun _ => pure ()

/-- The `finally` block. -/
def cleanUp (restoreBackup : Bool) : Test Unit := do
  let isConnected : Bool ← call (I := memoryInterface) .isConnected
  onlyIf isConnected do
    let backupCreated : Bool ← getVars
    onlyIf (restoreBackup && backupCreated) (regardless restoreCmd 15000)
    regardless cleanupCmd 5000

def verifyFullCapacity (restoreBackup : Bool) : Test ValidatorResult := do
  modifyVars fun _ => false
  ensuring
    (attempt
      (attempt (checkCapacity devicePath totalSizeBytes restoreBackup) Err.isTransportTimeoutError
        fun _ => failed devicePath totalSizeBytes "DUT hung during memory transaction.")
      Err.isTransportConnectionError fun e => match e with
        | .transportConnectionError msg =>
          failed devicePath totalSizeBytes s!"Transport pipe shattered: {msg}"
        | _ => fail e)
    (cleanUp restoreBackup)

end

/-- A verdict of PASS leaves the device with the content it had. -/
def Restores (devicePath : String) (totalSizeBytes : Nat) (s : Target) : Prop :=
  ∀ backupCreated trace r w,
    verifyFullCapacity devicePath totalSizeBytes true ⟨backupCreated, s, trace⟩ = .ok r w →
      r.passed = true → w.dev.content = s.content

def Outcome.Runs (o : Outcome) : Prop :=
  ∃ stdout stderr durationS, o = .runs stdout stderr durationS

/-- The command does not end in an error that `except Exception` lets through. -/
def Outcome.Caught (o : Outcome) : Prop :=
  ∀ written e, o = .raises written e → e.isException = true

/-- What it takes for the comparison to find no difference, with the payload that is compared. -/
structure Compares (totalSizeBytes : Nat) (s : Target) (payload : Bytes) : Prop where
  generated : ∀ written e, s.outcome (payloadCmd totalSizeBytes) ≠ .raises written e
  written : (s.run (payloadCmd totalSizeBytes)).2.tmp .testPayload = some payload
  whole : payload.length = totalSizeBytes
  overwritten : (s.outcome writeCmd).Runs
  readBack : (s.outcome (readCmd totalSizeBytes)).Runs
  compared : (s.outcome cmpCmd).Runs

structure Passes (totalSizeBytes : Nat) (s : Target) (payload : Bytes) : Prop where
  found : (s.outcome .testDevice).Runs
  backedUp : (s.outcome (backupCmd totalSizeBytes)).Runs
  compares : Compares totalSizeBytes s payload
  restoreCaught : s.isConnected = true → (s.outcome restoreCmd).Caught
  cleanupCaught : s.isConnected = true → (s.outcome cleanupCmd).Caught

/-- How much of the device the restore command gets to write. -/
def restored (totalSizeBytes : Nat) (s : Target) : Nat :=
  if s.isConnected then
    match s.outcome restoreCmd with
    | .runs _ _ _ => totalSizeBytes
    | .stops written _ | .raises written _ => written.getD 0
  else 0

section
variable {s s' : Target} {cmd : TargetCmd} {content bs : Bytes}

theorem overwrite_eq (h : bs.length ≤ content.length) :
    overwrite content bs = bs ++ content.drop bs.length := by
  rw [overwrite, List.take_of_length_le]
  rw [List.length_append, List.length_drop]
  omega

theorem overwrite_nil (content : Bytes) : overwrite content [] = content := by
  rw [overwrite_eq (Nat.zero_le _)]
  rfl

theorem overwrite_length (content bs : Bytes) : (overwrite content bs).length = content.length := by
  rw [overwrite, List.length_take, List.length_append, List.length_drop]
  omega

theorem take_overwrite (h : bs.length ≤ content.length) :
    (overwrite content bs).take bs.length = bs := by
  rw [overwrite_eq h, List.take_left]

/-- A payload of the backup's length, and the first `n` bytes of the backup over it. -/
theorem overwrite_restored {payload : Bytes} {size : Nat} (hsize : size ≤ content.length)
    (hpayload : payload.length = size) (n : Nat) :
    overwrite (overwrite content payload) ((content.take size).take n) = content ↔
      payload.drop n = (content.take size).drop n := by
  have hle : payload.length ≤ content.length := hpayload ▸ hsize
  have hbackup : (content.take size).length = size := List.length_take_of_le hsize
  have hlen : ((content.take size).take n).length ≤ (overwrite content payload).length := by
    rw [overwrite_length, List.length_take, hbackup]
    omega
  have hdrop : payload.drop ((content.take size).take n).length = payload.drop n := by
    rw [List.length_take, hbackup, ← hpayload]
    rcases Nat.le_total n payload.length with h | h
    · rw [Nat.min_eq_left h]
    · rw [Nat.min_eq_right h, List.drop_length, List.drop_of_length_le h]
  have hwhole : content = (content.take size).take n ++ (content.take size).drop n ++
      content.drop size := by
    rw [List.take_append_drop, List.take_append_drop]
  rw [overwrite_eq hlen, overwrite_eq hle, List.drop_append_of_le_length (by
    rw [List.length_take, hbackup, hpayload]
    omega), hdrop, hpayload]
  conv_lhs => rhs; rw [hwhole]
  rw [List.append_assoc, List.append_cancel_left_eq, List.append_cancel_right_eq]

end

section
variable {s s' : Target} {cmd : TargetCmd} {res : TimedResult} {written : Option Nat}

@[simp] theorem perform_outcome : (s.perform written cmd).outcome = s.outcome := by
  cases cmd <;> rfl

@[simp] theorem perform_isConnected : (s.perform written cmd).isConnected = s.isConnected := by
  cases cmd <;> rfl

@[simp] theorem partly_outcome : (s.partly written cmd).outcome = s.outcome := by
  cases written with
  | none => rfl
  | some n => exact perform_outcome

@[simp] theorem partly_isConnected : (s.partly written cmd).isConnected = s.isConnected := by
  cases written with
  | none => rfl
  | some n => exact perform_isConnected

@[simp] theorem run_outcome (s : Target) (cmd : TargetCmd) : (s.run cmd).2.outcome = s.outcome := by
  rw [Target.run]
  cases s.outcome cmd with
  | runs stdout stderr durationS => exact perform_outcome
  | stops written res => exact partly_outcome
  | raises written e => exact partly_outcome

@[simp] theorem run_isConnected (s : Target) (cmd : TargetCmd) :
    (s.run cmd).2.isConnected = s.isConnected := by
  rw [Target.run]
  cases s.outcome cmd with
  | runs stdout stderr durationS => exact perform_isConnected
  | stops written res => exact partly_isConnected
  | raises written e => exact partly_isConnected

theorem caught_iff : (s.outcome cmd).Caught ↔
    ∀ e, (s.run cmd).1 = .error e → e.isException = true := by
  rw [Target.run]
  cases s.outcome cmd with
  | runs stdout stderr durationS => simp [Outcome.Caught]
  | stops written res => simp [Outcome.Caught]
  | raises written e => simp [Outcome.Caught]

theorem run_of_runs (h : (s.outcome cmd).Runs) : ∃ res, s.run cmd = (.ok res, s.perform none cmd) ∧
    res.exited = s.status cmd ∧ res.ok = (s.status cmd == 0) := by
  obtain ⟨stdout, stderr, durationS, h⟩ := h
  rw [Target.run, h]
  exact ⟨_, rfl, rfl, rfl⟩

theorem run_succeeds (h : s.run cmd = (.ok res, s')) (hres : res.ok = true ∨ res.exited = 0) :
    (s.outcome cmd).Runs ∧ s.status cmd = 0 ∧ s' = s.perform none cmd := by
  rw [Target.run] at h
  cases ho : s.outcome cmd with
  | runs stdout stderr durationS =>
    rw [ho] at h
    cases h
    exact ⟨⟨_, _, _, rfl⟩, hres.elim eq_of_beq id, rfl⟩
  | stops written bad =>
    rw [ho] at h
    cases h
    rw [bad.2.1] at hres
    exact (hres.elim Bool.noConfusion bad.2.2).elim
  | raises written e =>
    rw [ho] at h
    cases h

theorem status_catSync {file : TmpFile} : s.status (.catSync file) = 0 ↔
    ∃ bs, s.tmp file = some bs ∧ bs.length ≤ s.content.length := by
  rw [Target.status]
  cases s.tmp file with
  | none => simp
  | some bs => simp

theorem status_cmp {a b : TmpFile} : s.status (.cmp a b) = 0 ↔
    ∃ bs, s.tmp a = some bs ∧ s.tmp b = some bs := by
  rw [Target.status]
  cases s.tmp a with
  | none => simp
  | some x =>
    cases s.tmp b with
    | none => simp
    | some y => simp [eq_comm]

theorem run_dd (s : Target) (source : Source) (out : TmpFile) (count : Nat) :
    (s.run (.dd source out count)).2.content = s.content ∧
      ∀ file, file ≠ out → (s.run (.dd source out count)).2.tmp file = s.tmp file := by
  have hperform (written : Option Nat) : ∀ file, file ≠ out →
      (s.perform written (.dd source out count)).tmp file = s.tmp file :=
    fun file hfile => Function.update_of_ne hfile _ _
  have hpartly (written : Option Nat) :
      (s.partly written (.dd source out count)).content = s.content ∧
      ∀ file, file ≠ out → (s.partly written (.dd source out count)).tmp file = s.tmp file := by
    cases written with
    | none => exact ⟨rfl, fun _ _ => rfl⟩
    | some n => exact ⟨rfl, hperform _⟩
  rw [Target.run]
  cases s.outcome (.dd source out count) with
  | runs stdout stderr durationS => exact ⟨rfl, hperform none⟩
  | stops written res => exact hpartly written
  | raises written e => exact hpartly written

theorem Compares.congr {n : Nat} {payload : Bytes} (h : Compares n s payload)
    (houtcome : s'.outcome = s.outcome)
    (hpayload : (s'.run (payloadCmd n)).2.tmp .testPayload =
      (s.run (payloadCmd n)).2.tmp .testPayload) :
    Compares n s' payload where
  generated := houtcome ▸ h.generated
  written := hpayload.trans h.written
  whole := h.whole
  overwritten := houtcome ▸ h.overwritten
  readBack := houtcome ▸ h.readBack
  compared := houtcome ▸ h.compared

theorem compares_backup (n : Nat) (payload : Bytes) :
    Compares n (s.perform none (backupCmd n)) payload ↔ Compares n s payload := by
  have hpayload : ((s.perform none (backupCmd n)).run (payloadCmd n)).2.tmp .testPayload =
      (s.run (payloadCmd n)).2.tmp .testPayload := by
    have hother : (s.perform none (backupCmd n)).tmp .testPayload = s.tmp .testPayload :=
      Function.update_of_ne (show TmpFile.testPayload ≠ .originalBackup by decide)
        (some (s.content.take n)) s.tmp
    rw [Target.run, Target.run, perform_outcome]
    cases s.outcome (payloadCmd n) with
    | runs stdout stderr durationS => rfl
    | stops written res =>
      cases written with
      | none => exact hother
      | some k => rfl
    | raises written e =>
      cases written with
      | none => exact hother
      | some k => rfl
  constructor
  · intro h
    exact h.congr perform_outcome.symm hpayload.symm
  · intro h
    exact h.congr perform_outcome hpayload

end

section
variable {devicePath : String} {size : Nat} {w w' : World target} {r : ValidatorResult}

theorem safeRun_run {cmd : TargetCmd} {timeoutMs : Nat} {res : TimedResult}
    (h : safeRun cmd timeoutMs w = .ok res w') :
    w.dev.run cmd = (.ok res, w'.dev) ∧ w'.vars = w.vars := by
  unfold safeRun call at h
  split at h
  · rename_i hrespond
    cases h
    exact ⟨hrespond, rfl⟩
  · cases h

theorem safeRun_of_run {cmd : TargetCmd} {res : TimedResult} {s : Target}
    (h : w.dev.run cmd = (.ok res, s)) (timeoutMs : Nat) :
    ∃ w', safeRun cmd timeoutMs w = .ok res w' ∧
      w'.dev = s ∧ w'.vars = w.vars :=
  ⟨_, call_of_respond h, rfl, rfl⟩

theorem failed_ok {errorMsg : String} (h : failed devicePath size errorMsg w = .ok r w') :
    r.passed = false :=
  ValidatorResult.create_ok (ofExcept_ok h).1

theorem not_passed_of_failed {errorMsg : String} {P : Prop}
    (h : failed devicePath size errorMsg w = .ok r w') (hr : r.passed = true) : P := by
  rw [failed_ok h] at hr
  cases hr

theorem compare_ok {resWrite resRead resCmp : TimedResult}
    (h : compare devicePath size resWrite resRead resCmp w = .ok r w') (hr : r.passed = true) :
    resCmp.exited = 0 ∧ w' = w := by
  unfold compare at h
  split at h
  · exact not_passed_of_failed h hr
  · split at h
    · exact not_passed_of_failed h hr
    · split at h
      · exact not_passed_of_failed h hr
      · exact ⟨not_not.1 ‹_›, (ofExcept_ok h).2⟩

theorem compare_of_exited {resCmp : TimedResult} (h : resCmp.exited = 0)
    (resWrite resRead : TimedResult) (w : World target) :
    ∃ r, compare devicePath size resWrite resRead resCmp w = .ok r w ∧ r.passed = true := by
  obtain ⟨r, hr, hpassed⟩ := ValidatorResult.create_passed
    [("t_write_s", resWrite.durationS), ("t_read_s", resRead.durationS)]
      (contextData devicePath size)
  rw [compare, if_neg (by omega), if_neg (by omega), if_neg (not_not.2 h)]
  exact ⟨r, ofExcept_of_ok hr w, hpassed⟩

/-- What is left on the target by a comparison without a difference. -/
structure Overwritten (size : Nat) (w : World target) (payload : Bytes) (w' : World target) :
    Prop where
  compares : Compares size w.dev payload
  vars : w'.vars = w.vars
  content : w'.dev.content = overwrite w.dev.content payload
  backup : w'.dev.tmp .originalBackup = w.dev.tmp .originalBackup
  outcome : w'.dev.outcome = w.dev.outcome
  isConnected : w'.dev.isConnected = w.dev.isConnected

theorem overwriteAndCompare_ok (hsize : size ≤ w.dev.content.length)
    (h : overwriteAndCompare devicePath size w = .ok r w') (hr : r.passed = true) :
    ∃ payload, Overwritten size w payload w' := by
  unfold overwriteAndCompare at h
  obtain ⟨resPayload, w₁, hpayload, h⟩ := bind_ok h
  obtain ⟨hrun₁, hvars₁⟩ := safeRun_run hpayload
  obtain ⟨hcontent₁, htmp₁⟩ := run_dd w.dev .urandom .testPayload size
  have houtcome₁ := run_outcome w.dev (payloadCmd size)
  have hconn₁ := run_isConnected w.dev (payloadCmd size)
  rw [hrun₁] at hcontent₁ houtcome₁ hconn₁ htmp₁
  obtain ⟨resWrite, w₂, hwrite, h⟩ := bind_ok h
  obtain ⟨hrun₂, hvars₂⟩ := safeRun_run hwrite
  split at h
  · obtain ⟨hruns₂, hstatus₂, hdev₂⟩ := run_succeeds hrun₂ (.inl ‹_›)
    obtain ⟨resRead, w₃, hread, h⟩ := bind_ok h
    obtain ⟨hrun₃, hvars₃⟩ := safeRun_run hread
    split at h
    · obtain ⟨hruns₃, -, hdev₃⟩ := run_succeeds hrun₃ (.inl ‹_›)
      obtain ⟨resCmp, w₄, hcmp, h⟩ := bind_ok h
      obtain ⟨hrun₄, hvars₄⟩ := safeRun_run hcmp
      obtain ⟨hexited, rfl⟩ := compare_ok h hr
      obtain ⟨hruns₄, hstatus₄, hdev₄⟩ := run_succeeds hrun₄ (.inr hexited)
      obtain ⟨payload, hfile, hle⟩ := status_catSync.1 hstatus₂
      obtain ⟨bs, hleft, hright⟩ := status_cmp.1 hstatus₄
      have hcontent₂ : w₂.dev.content = overwrite w.dev.content payload := by
        rw [hdev₂, Target.perform, hfile, hcontent₁]
        rfl
      have hfile₃ : w₃.dev.tmp .testPayload = some payload := by
        rw [hdev₃, hdev₂, ← hfile]
        rfl
      have hread₃ : w₃.dev.tmp .readback = some (w₂.dev.content.take size) := by
        rw [hdev₃]
        rfl
      have hwhole : payload = w₂.dev.content.take size := by
        rw [hfile₃] at hleft
        rw [hread₃] at hright
        exact Option.some.inj (hleft.trans hright.symm)
      have houtcome : w'.dev.outcome = w.dev.outcome := by
        rw [hdev₄, hdev₃, hdev₂, perform_outcome, perform_outcome, perform_outcome, houtcome₁]
      have hcompares : Compares size w.dev payload := by
        refine ⟨?_, by rw [hrun₁, ← hfile], ?_, ?_, ?_, ?_⟩
        · intro written e hraises
          rw [Target.run, hraises] at hrun₁
          cases hrun₁
        · rw [hwhole, List.length_take, hcontent₂, overwrite_length, Nat.min_eq_left hsize]
        · rwa [houtcome₁] at hruns₂
        · rwa [hdev₂, perform_outcome, houtcome₁] at hruns₃
        · rwa [hdev₃, hdev₂, perform_outcome, perform_outcome, houtcome₁] at hruns₄
      refine ⟨payload, hcompares, by rw [hvars₄, hvars₃, hvars₂, hvars₁], ?_, ?_, houtcome, ?_⟩
      · rw [hdev₄, hdev₃, ← hcontent₂]
        rfl
      · rw [hdev₄, hdev₃, hdev₂, ← htmp₁ _ (by decide)]
        rfl
      · rw [hdev₄, hdev₃, hdev₂, perform_isConnected, perform_isConnected,
          perform_isConnected, hconn₁]
    · exact not_passed_of_failed h hr
  · exact not_passed_of_failed h hr

theorem overwriteAndCompare_of_compares {payload : Bytes} (hsize : size ≤ w.dev.content.length)
    (h : Compares size w.dev payload) :
    ∃ r w', overwriteAndCompare devicePath size w = .ok r w' ∧ r.passed = true := by
  obtain ⟨hcontent₁, -⟩ := run_dd w.dev .urandom .testPayload size
  have hle : payload.length ≤ w.dev.content.length := h.whole ▸ hsize
  have hgenerated : ∃ res, w.dev.run (payloadCmd size) =
      (.ok res, (w.dev.run (payloadCmd size)).2) := by
    rw [Target.run]
    cases ho : w.dev.outcome (payloadCmd size) with
    | runs stdout stderr durationS => exact ⟨_, rfl⟩
    | stops written res => exact ⟨_, rfl⟩
    | raises written e => exact (h.generated _ _ ho).elim
  obtain ⟨resPayload, hrun₁⟩ := hgenerated
  obtain ⟨w₁, hpayload, hdev₁, -⟩ := safeRun_of_run hrun₁ 5000
  have hfile₁ : w₁.dev.tmp .testPayload = some payload := by rw [hdev₁, h.written]
  have hlength₁ : w₁.dev.content.length = w.dev.content.length := by rw [hdev₁, hcontent₁]
  have hout₁ : w₁.dev.outcome = w.dev.outcome := by rw [hdev₁, run_outcome]
  obtain ⟨resWrite, hrun₂, -, hok₂⟩ := run_of_runs (hout₁ ▸ h.overwritten)
  have hstatus₂ : w₁.dev.status writeCmd = 0 :=
    status_catSync.2 ⟨payload, hfile₁, by rwa [hlength₁]⟩
  obtain ⟨w₂, hwrite, hdev₂, -⟩ := safeRun_of_run hrun₂ 15000
  have hout₂ : w₂.dev.outcome = w.dev.outcome := by rw [hdev₂, perform_outcome, hout₁]
  have hcontent₂ : w₂.dev.content = overwrite w₁.dev.content payload := by
    rw [hdev₂, Target.perform, hfile₁]
    rfl
  obtain ⟨resRead, hrun₃, -, hok₃⟩ := run_of_runs (hout₂ ▸ h.readBack)
  obtain ⟨w₃, hread, hdev₃, -⟩ := safeRun_of_run hrun₃ 15000
  have hout₃ : w₃.dev.outcome = w.dev.outcome := by rw [hdev₃, perform_outcome, hout₂]
  have hfile₃ : w₃.dev.tmp .testPayload = some payload := by
    rw [hdev₃, hdev₂, ← hfile₁]
    rfl
  have hread₃ : w₃.dev.tmp .readback = some payload := by
    have htake : some (w₂.dev.content.take size) = some payload := by
      rw [hcontent₂, ← h.whole, take_overwrite (by rwa [hlength₁])]
    rw [hdev₃, ← htake]
    rfl
  obtain ⟨resCmp, hrun₄, hexited₄, -⟩ := run_of_runs (hout₃ ▸ h.compared)
  rw [status_cmp.2 ⟨payload, hfile₃, hread₃⟩] at hexited₄
  obtain ⟨w₄, hcmp, -, -⟩ := safeRun_of_run hrun₄ 10000
  obtain ⟨r, hcompare, hr⟩ := compare_of_exited hexited₄ resWrite resRead w₄
  refine ⟨r, w₄, ?_, hr⟩
  rw [overwriteAndCompare, bind_of_ok hpayload, bind_of_ok hwrite, hok₂, hstatus₂]
  change (safeRun _ _ >>= _) w₂ = _
  rw [bind_of_ok hread, hok₃]
  change (safeRun _ _ >>= _) w₃ = _
  rw [bind_of_ok hcmp, hcompare]

theorem backUp_ok {verdict : Option ValidatorResult}
    (h : backUp devicePath size w = .ok verdict w') :
    (∃ r, verdict = some r ∧ r.passed = false) ∨
      verdict = none ∧ (w.dev.outcome (backupCmd size)).Runs ∧ w'.vars = true ∧
        w'.dev = w.dev.perform none (backupCmd size) := by
  unfold backUp at h
  obtain ⟨resBackup, w₁, hbackup, h⟩ := bind_ok h
  obtain ⟨hrun, -⟩ := safeRun_run hbackup
  split at h
  · obtain ⟨hruns, -, hdev⟩ := run_succeeds hrun (.inl ‹_›)
    cases h
    exact .inr ⟨rfl, hruns, rfl, hdev⟩
  · obtain ⟨r, w₂, hfailed, h⟩ := bind_ok h
    cases h
    exact .inl ⟨r, rfl, failed_ok hfailed⟩

theorem backUp_of_runs (h : (w.dev.outcome (backupCmd size)).Runs) :
    ∃ w', backUp devicePath size w = .ok none w' ∧
      w'.dev = w.dev.perform none (backupCmd size) := by
  obtain ⟨resBackup, hrun, -, hok⟩ := run_of_runs h
  obtain ⟨w₁, hbackup, hdev, -⟩ := safeRun_of_run hrun 15000
  refine ⟨{ w₁ with vars := true }, ?_, hdev⟩
  rw [backUp, bind_of_ok hbackup, hok]
  rfl

/-- What is left on the target by a test that has passed, before the `finally` block. -/
structure Tested (size : Nat) (s : Target) (payload : Bytes) (w : World target) : Prop where
  found : (s.outcome .testDevice).Runs
  backedUp : (s.outcome (backupCmd size)).Runs
  compares : Compares size s payload
  vars : w.vars = true
  content : w.dev.content = overwrite s.content payload
  backup : w.dev.tmp .originalBackup = some (s.content.take size)
  outcome : w.dev.outcome = s.outcome
  isConnected : w.dev.isConnected = s.isConnected

theorem checkCapacity_ok (hsize : size ≤ w.dev.content.length)
    (h : checkCapacity devicePath size true w = .ok r w') (hr : r.passed = true) :
    ∃ payload, Tested size w.dev payload w' := by
  unfold checkCapacity at h
  obtain ⟨resCheck, w₁, hcheck, h⟩ := bind_ok h
  obtain ⟨hrun₁, -⟩ := safeRun_run hcheck
  split at h
  · obtain ⟨hfound, -, hdev₁⟩ := run_succeeds hrun₁ (.inl ‹_›)
    rw [if_pos rfl] at h
    obtain ⟨verdict, w₂, hbackup, h⟩ := bind_ok h
    have hdev₁ : w₁.dev = w.dev := hdev₁
    obtain ⟨r', rfl, hr'⟩ | ⟨rfl, hbackedUp, hvars₂, hdev₂⟩ := backUp_ok hbackup
    · obtain ⟨rfl, rfl⟩ := pure_ok h
      rw [hr'] at hr
      cases hr
    · rw [hdev₁] at hbackedUp hdev₂
      obtain ⟨payload, hover⟩ := overwriteAndCompare_ok (by rwa [hdev₂]) h hr
      refine ⟨payload, hfound, hbackedUp, ?_, hover.vars.trans hvars₂, ?_, ?_, ?_, ?_⟩
      · exact (compares_backup size payload).1 (hdev₂ ▸ hover.compares)
      · rw [hover.content, hdev₂]
        rfl
      · rw [hover.backup, hdev₂]
        rfl
      · rw [hover.outcome, hdev₂, perform_outcome]
      · rw [hover.isConnected, hdev₂, perform_isConnected]
  · exact not_passed_of_failed h hr

theorem checkCapacity_of_compares (devicePath : String) {payload : Bytes}
    (hsize : size ≤ w.dev.content.length)
    (hfound : (w.dev.outcome .testDevice).Runs) (hbackedUp : (w.dev.outcome (backupCmd size)).Runs)
    (hcompares : Compares size w.dev payload) :
    ∃ r w', checkCapacity devicePath size true w = .ok r w' ∧ r.passed = true := by
  obtain ⟨resCheck, hrun₁, -, hok₁⟩ := run_of_runs hfound
  obtain ⟨w₁, hcheck, hdev₁, -⟩ := safeRun_of_run hrun₁ 30000
  have hdev₁ : w₁.dev = w.dev := hdev₁
  obtain ⟨w₂, hbackup, hdev₂⟩ := backUp_of_runs (hdev₁ ▸ hbackedUp)
  rw [hdev₁] at hdev₂
  obtain ⟨r, w₃, hover, hr⟩ := overwriteAndCompare_of_compares (by rwa [hdev₂])
    (hdev₂ ▸ (compares_backup size payload).2 hcompares)
  refine ⟨r, w₃, ?_, hr⟩
  rw [checkCapacity, bind_of_ok hcheck, hok₁]
  change (backUp _ _ >>= _) w₁ = _
  rw [bind_of_ok hbackup]
  exact hover

theorem safeRun_error {cmd : TargetCmd} {timeoutMs : Nat} {e : Err}
    (h : safeRun cmd timeoutMs w = .error e w') :
    w.dev.run cmd = (.error e, w'.dev) ∧ w'.vars = w.vars := by
  unfold safeRun call at h
  split at h
  · cases h
  · rename_i hrespond
    cases h
    exact ⟨hrespond, rfl⟩

theorem regardless_ok {cmd : TargetCmd} {timeoutMs : Nat}
    (h : regardless cmd timeoutMs w = .ok () w') :
    (w.dev.outcome cmd).Caught ∧ w'.dev = (w.dev.run cmd).2 ∧ w'.vars = w.vars := by
  rw [caught_iff]
  obtain h | ⟨e, w₁, h, hexception, hpure⟩ := attempt_ok h
  · obtain ⟨res, w₁, h, hpure⟩ := bind_ok h
    cases hpure
    obtain ⟨hrun, hvars⟩ := safeRun_run h
    rw [hrun]
    exact ⟨nofun, rfl, hvars⟩
  · cases hpure
    obtain h | ⟨res, w₂, -, h⟩ := bind_error h
    · obtain ⟨hrun, hvars⟩ := safeRun_error h
      rw [hrun]
      exact ⟨fun e' he => Except.error.inj he ▸ hexception, rfl, hvars⟩
    · cases h

theorem regardless_of_caught {cmd : TargetCmd} (timeoutMs : Nat) (h : (w.dev.outcome cmd).Caught) :
    ∃ w', regardless cmd timeoutMs w = .ok () w' := by
  cases hp : regardless cmd timeoutMs w with
  | ok _ w' => exact ⟨w', rfl⟩
  | error e w' =>
    unfold regardless attempt at hp
    split at hp
    · cases hp
    · rename_i h'
      obtain h' | ⟨res, w₂, -, h'⟩ := bind_error h'
      · rw [if_pos (caught_iff.1 h _ (by rw [(safeRun_error h').1]))] at hp
        cases hp
      · cases h'

theorem run_cleanup (s : Target) : (s.run cleanupCmd).2.content = s.content := by
  have hpartly (written : Option Nat) : (s.partly written cleanupCmd).content = s.content := by
    cases written <;> rfl
  rw [Target.run]
  cases s.outcome cleanupCmd with
  | runs stdout stderr durationS => rfl
  | stops written res => exact hpartly written
  | raises written e => exact hpartly written

theorem run_restore {s : Target} {backup : Bytes} (hconn : s.isConnected = true)
    (hbackup : s.tmp .originalBackup = some backup) :
    (s.run restoreCmd).2.content =
      overwrite s.content (backup.take (restored backup.length s)) := by
  have hpartly (written : Option Nat) : (s.partly written restoreCmd).content =
      overwrite s.content (backup.take (written.getD 0)) := by
    cases written with
    | none => rw [Option.getD_none, List.take_zero, overwrite_nil, Target.partly]
    | some n =>
      rw [Target.partly, Target.perform, hbackup]
      rfl
  rw [Target.run, restored, if_pos hconn]
  cases s.outcome restoreCmd with
  | runs stdout stderr durationS =>
    dsimp only
    rw [List.take_length, Target.perform, hbackup]
    rfl
  | stops written res => exact hpartly written
  | raises written e => exact hpartly written

theorem isConnected_eq (w : World target) : ∃ w', call (I := memoryInterface) .isConnected w =
    .ok w.dev.isConnected w' ∧ w'.dev = w.dev ∧ w'.vars = w.vars :=
  ⟨_, rfl, rfl, rfl⟩

theorem cleanUp_ok {backup : Bytes} (hvars : w.vars = true)
    (hbackup : w.dev.tmp .originalBackup = some backup) (h : cleanUp true w = .ok () w') :
    (w.dev.isConnected = true →
        (w.dev.outcome restoreCmd).Caught ∧ (w.dev.outcome cleanupCmd).Caught) ∧
      w'.dev.content = overwrite w.dev.content (backup.take (restored backup.length w.dev)) := by
  obtain ⟨w₁, hcall, hdev₁, hvars₁⟩ := isConnected_eq w
  rw [cleanUp, bind_of_ok hcall] at h
  cases hconn : w.dev.isConnected with
  | false =>
    rw [hconn] at h
    cases h
    rw [restored, hconn, if_neg (by decide), List.take_zero, overwrite_nil, hdev₁]
    exact ⟨nofun, rfl⟩
  | true =>
    rw [hconn, onlyIf, if_pos rfl] at h
    obtain ⟨backupCreated, w₂, hget, h⟩ := bind_ok h
    cases hget
    rw [hvars₁, hvars] at h
    obtain ⟨_, w₃, hrestore, h⟩ := bind_ok h
    obtain ⟨hcaught, hdev₃, -⟩ := regardless_ok hrestore
    obtain ⟨hcaught', hdev', -⟩ := regardless_ok h
    rw [hdev₁] at hcaught hdev₃
    rw [hdev₃, run_outcome] at hcaught'
    rw [hdev', run_cleanup, hdev₃, run_restore hconn hbackup]
    exact ⟨fun _ => ⟨hcaught, hcaught'⟩, rfl⟩

theorem cleanUp_of_caught (hvars : w.vars = true) (h : w.dev.isConnected = true →
      (w.dev.outcome restoreCmd).Caught ∧ (w.dev.outcome cleanupCmd).Caught) :
    ∃ w', cleanUp true w = .ok () w' := by
  obtain ⟨w₁, hcall, hdev₁, hvars₁⟩ := isConnected_eq w
  rw [cleanUp, bind_of_ok hcall]
  cases hconn : w.dev.isConnected with
  | false => exact ⟨w₁, rfl⟩
  | true =>
    obtain ⟨w₂, hrestore⟩ := regardless_of_caught 15000 (hdev₁ ▸ (h hconn).1)
    obtain ⟨-, hdev₂, -⟩ := regardless_ok hrestore
    have hcaught : (w₂.dev.outcome cleanupCmd).Caught := by
      rw [hdev₂, run_outcome, hdev₁]
      exact (h hconn).2
    obtain ⟨w₃, hcleanup⟩ := regardless_of_caught 5000 hcaught
    have hget : (getVars : Test Bool) w₁ = .ok true w₁ := by
      rw [getVars, hvars₁, hvars]
    refine ⟨w₃, ?_⟩
    rw [onlyIf, if_pos rfl, bind_of_ok hget]
    change (regardless _ _ >>= _) w₁ = _
    rw [bind_of_ok hrestore, hcleanup]

theorem verifyFullCapacity_ok (hsize : size ≤ w.dev.content.length)
    (h : verifyFullCapacity devicePath size true w = .ok r w') (hr : r.passed = true) :
    ∃ payload, Passes size w.dev payload ∧ w'.dev.content =
      overwrite (overwrite w.dev.content payload)
        ((w.dev.content.take size).take (restored size w.dev)) := by
  obtain ⟨_, w₀, hvars, h⟩ := bind_ok h
  cases hvars
  obtain ⟨w₁, htest, hclean⟩ := ensuring_ok h
  have hcheck : checkCapacity devicePath size true { w with vars := false } = .ok r w₁ := by
    obtain htest | ⟨e, w₂, -, hconn, hfailed⟩ := attempt_ok htest
    · obtain htest | ⟨e, w₂, -, -, hfailed⟩ := attempt_ok htest
      · exact htest
      · exact not_passed_of_failed hfailed hr
    · cases e with
      | transportConnectionError msg => exact not_passed_of_failed hfailed hr
      | _ => cases hconn
  obtain ⟨payload, htested⟩ := checkCapacity_ok (w := { w with vars := false }) hsize hcheck hr
  obtain ⟨hcaught, hcontent⟩ := cleanUp_ok htested.vars htested.backup hclean
  rw [htested.isConnected, htested.outcome] at hcaught
  have hrestored : restored size w₁.dev = restored size w.dev := by
    rw [restored, restored, htested.isConnected, htested.outcome]
  refine ⟨payload, ⟨htested.found, htested.backedUp, htested.compares, fun h => (hcaught h).1,
    fun h => (hcaught h).2⟩, ?_⟩
  rw [hcontent, htested.content, List.length_take_of_le hsize, hrestored]

theorem verifyFullCapacity_of_passes (devicePath : String) {payload : Bytes}
    (hsize : size ≤ w.dev.content.length)
    (h : Passes size w.dev payload) :
    ∃ r w', verifyFullCapacity devicePath size true w = .ok r w' ∧ r.passed = true := by
  obtain ⟨r, w₁, hcheck, hr⟩ := checkCapacity_of_compares devicePath
    (w := { w with vars := false }) hsize h.found h.backedUp h.compares
  obtain ⟨payload', htested⟩ := checkCapacity_ok (w := { w with vars := false }) hsize hcheck hr
  obtain ⟨w₂, hclean⟩ := cleanUp_of_caught htested.vars (by
    rw [htested.isConnected, htested.outcome]
    exact fun hconn => ⟨h.restoreCaught hconn, h.cleanupCaught hconn⟩)
  refine ⟨r, w₂, ?_, hr⟩
  change ensuring _ _ { w with vars := false } = _
  rw [ensuring, attempt, attempt, hcheck]
  dsimp only
  rw [hclean]

/-- The device has its content back after a PASS exactly when the restore command has written at
least what the payload changed. -/
theorem restores_iff {s : Target} (hsize : size ≤ s.content.length) (devicePath : String) :
    Restores devicePath size s ↔ ∀ payload, Passes size s payload →
      payload.drop (restored size s) = (s.content.take size).drop (restored size s) := by
  constructor
  · intro h payload hpasses
    obtain ⟨r, w', hrun, hr⟩ := verifyFullCapacity_of_passes devicePath
      (w := ⟨false, s, []⟩) hsize hpasses
    obtain ⟨payload', hpasses', hcontent⟩ := verifyFullCapacity_ok hsize hrun hr
    obtain rfl : payload' = payload :=
      Option.some.inj (hpasses'.compares.written.symm.trans hpasses.compares.written)
    rw [h _ _ _ _ hrun hr] at hcontent
    exact (overwrite_restored hsize hpasses.compares.whole _).1 hcontent.symm
  · intro h backupCreated trace r w' hrun hr
    obtain ⟨payload, hpasses, hcontent⟩ := verifyFullCapacity_ok hsize hrun hr
    rw [hcontent]
    exact (overwrite_restored hsize hpasses.compares.whole _).2 (h payload hpasses)

end

/-- A device of two bytes, whose commands all run but for these. -/
def twoBytes (isConnected : Bool) (outcome : TargetCmd → Option Outcome) : Target where
  content := [0x4D, 0x45]
  tmp := fun _ => none
  urandom := fun i => UInt8.ofNat (200 + i)
  isConnected
  outcome := fun cmd => (outcome cmd).getD (.runs "" "" 0)

theorem restores_connected : Restores "/dev/mtdblock0" 2 (twoBytes true fun _ => none) :=
  (restores_iff (by decide) _).2 fun payload hpasses => by
    have hrestored : restored 2 (twoBytes true fun _ => none) = 2 := rfl
    rw [hrestored, List.drop_of_length_le hpasses.compares.whole.le]
    rfl

def writeProtected (cmd : TargetCmd) : Option Outcome :=
  if cmd = restoreCmd then
    some (.stops none ⟨{ stdout := "", stderr := "", exited := 1, ok := false, durationS := 0 },
      by decide⟩)
  else none

theorem restores_writeProtected :
    ¬ Restores "/dev/mtdblock0" 2 (twoBytes true writeProtected) := by
  intro h
  have hcontent := h false [] _ _ rfl rfl
  exact absurd hcontent (by decide)

end NativeMemoryValidator
end MesCore
