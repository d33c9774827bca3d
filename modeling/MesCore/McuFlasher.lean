import MesCore.CallHistory
import MesCore.ProbeRsMemory

namespace MesCore
set_option autoImplicit true

open BareMetal (hexLiteral)

/-- The calls of the flasher: the firmware file, the command line tool, the clock. -/
inductive FlashCall
  | exists
  | isFile
  | fileSize
  | hashFile
  | readFile (n : Nat)
  | runCli (cmd : List String) (timeoutS : Nat)
  | sleep (ms : Nat)
  deriving DecidableEq

@[reducible] def FlashCall.Ans : FlashCall → Type
  | .exists => Bool
  | .isFile => Bool
  | .fileSize => Nat
  | .hashFile => Unit
  | .readFile _ => Bytes
  | .runCli _ _ => CliRun
  | .sleep _ => Unit

inductive FlashErr
  | provisioningError (msg : String)
  | imageVerificationError (msg : String)
  | probeRsError (e : ProbeRsError)
  | valueError (msg : String)
  | assertionError
  | otherException (msg : String)
  | keyboardInterrupt

namespace FlashErr

def isException : FlashErr → Bool
  | .keyboardInterrupt => false
  | _ => true

/-- `str(exc)`. -/
def message : FlashErr → String
  | .provisioningError msg | .imageVerificationError msg | .valueError msg
  | .otherException msg => msg
  | .probeRsError e => e.message
  | .assertionError | .keyboardInterrupt => ""

end FlashErr

structure FlashVars where
  /-- Whether `_probe_rs_path` holds what `shutil.which` finds. -/
  resolved : Bool := false

@[reducible] def flashInterface : Interface where
  Call := FlashCall
  Ans := FlashCall.Ans
  Err := FlashErr
  Note := Empty
  Vars := FlashVars

abbrev FlashBench := Device flashInterface

/-- The probe with the time limit of its configuration. -/
structure FlashProbe extends ProbeRsTransport where
  timeoutS : Nat

/-- A firmware file, with the lower-case suffix of its name. -/
structure FirmwarePath where
  text : String
  suffix : String

namespace McuProvisioner
section
variable {d : FlashBench}

abbrev askFlash (c : FlashCall) : Prog d c.Ans := call (I := flashInterface) c

def failFlash (e : FlashErr) : Prog d α := fail (I := flashInterface) e

/-- What `_run_cli` makes of one run, within its time limit. -/
def runError (timeoutS : Nat) (context : String) (cmd : List String) :
    CliRun → Except ProbeRsError (List Char)
  | .timeoutExpired =>
    .error ⟨s!"probe-rs {context} timed out after {timeoutS}s", cmd, -1, [], "TIMEOUT".toList⟩
  | run => ProbeRsTransport.runError context cmd run

/-- The loop of `_run_cli`, with a longer wait after every failure but the last. -/
def attempts (context : String) (cmd : List String) (timeoutS : Nat) :
    Nat → Nat → Option ProbeRsError → Prog d (List Char)
  | 0, _, some e => failFlash (.probeRsError e)
  | 0, _, none => failFlash .assertionError
  | left + 1, attempt, _ => do
    let run : CliRun ← askFlash (.runCli cmd timeoutS)
    match runError timeoutS context cmd run with
    | .ok stdout => pure stdout
    | .error e => do
      onlyIf (left ≠ 0) (askFlash (.sleep (1000 * attempt)))
      attempts context cmd timeoutS left (attempt + 1) (some e)

variable (t : FlashProbe)

/-- `_build_cmd`. -/
def command (args : List String) : List String := t.buildCmd (t.binary.getD "probe-rs") args

def versionCmd : List String := [t.binary.getD "probe-rs", "--version"]

/-- `_resolve_binary`: the answer is only logged. -/
def resolveBinary : Prog d Unit := do
  let v ← getVars (I := flashInterface)
  if v.resolved then pure ()
  else
    match t.binary with
    | none => failFlash (.probeRsError ProbeRsTransport.notFound)
    | some _ => do
      modifyVars (I := flashInterface) fun v => { v with resolved := true }
      attempt (do
        let _ : CliRun ← askFlash (.runCli (versionCmd t) 5)
        pure ())
        FlashErr.isException fun _ => pure ()

def runCli (args : List String) (retries timeoutS : Nat) (context : String) :
    Prog d (List Char) := do
  resolveBinary t
  attempts context (command t args) timeoutS retries 1 none

/-- The arguments of `download`. -/
def downloadArgs (path : FirmwarePath) (base : Nat) (chipErase : Bool) : List String :=
  ["download", path.text] ++ (if chipErase then ["--chip-erase"] else []) ++
    if path.suffix ∈ [".hex", ".elf"] then []
    else ["--binary-format", "bin", "--base-address", hexLiteral 8 base]

def readArgs (base n : Nat) : List String := ["read", "b8", hexLiteral 8 base, toString (n : Int)]

/-- `_flash_probe_rs`. -/
def flashProbeRs (path : FirmwarePath) (base : Nat) (chipErase : Bool) : Prog d Unit := do
  let _ ← runCli t (downloadArgs path base chipErase) 2 t.timeoutS "download"
  let _ ← runCli t ["reset"] ProbeRsTransport.defaultRetries ProbeRsTransport.cliTimeoutS "reset"
  pure ()

/-- `read_memory` of the verification, whose size is from 1 to 256. -/
def readBack (base n : Nat) : Prog d Bytes := do
  let stdout ← runCli t (readArgs base n) ProbeRsTransport.defaultRetries
    ProbeRsTransport.cliTimeoutS "read_memory"
  pure (ProbeRsTransport.parseHexOutput stdout)

def firstMismatch : Bytes → Bytes → Option (Nat × UInt8 × UInt8)
  | a :: as, b :: bs =>
    if a ≠ b then some (0, a, b) else (firstMismatch as bs).map fun r => (r.1 + 1, r.2)
  | _, _ => none

/-- `f'0x{n:0wX}'`. -/
def hexUpper (w n : Nat) : String :=
  "0x" ++ pyUpper (String.ofList ((Nat.toDigits 16 n).leftpad w '0'))

def mismatchText (base i : Nat) (a b : UInt8) : String :=
  s!"Flash readback mismatch at offset {i} ({hexUpper 8 (base + i)}): " ++
    s!"expected {hexUpper 2 b.toNat}, got {hexUpper 2 a.toNat}"

def compareImages (base : Nat) (expected actual : Bytes) : Prog d Unit :=
  if actual.length ≠ expected.length then
    failFlash (.imageVerificationError (s!"Flash readback length mismatch: " ++
      s!"expected {expected.length} bytes, got {actual.length}"))
  else if actual = expected then pure ()
  else
    match firstMismatch actual expected with
    | some (i, a, b) => failFlash (.imageVerificationError (mismatchText base i a b))
    | none => pure ()

def verifyHandler : FlashErr → Prog d Unit
  | .imageVerificationError msg => failFlash (.imageVerificationError msg)
  | _ => pure ()

/-- `_verify_flash`. -/
def verifyFlash (base : Nat) : Prog d Unit := do
  let size : Nat ← askFlash .fileSize
  if min 256 size = 0 then pure ()
  else
    attempt (do
      let expected : Bytes ← askFlash (.readFile (min 256 size))
      let actual ← readBack t base (min 256 size)
      compareImages base expected actual)
      FlashErr.isException verifyHandler

/-- `_validate_firmware_file`. -/
def validateFirmwareFile (path : FirmwarePath) : Prog d Unit := do
  let found : Bool ← askFlash .exists
  if !found then failFlash (.provisioningError s!"Firmware file not found: {path.text}")
  else do
    let isFile : Bool ← askFlash .isFile
    if !isFile then failFlash (.provisioningError s!"Firmware path is not a file: {path.text}")
    else do
      let size : Nat ← askFlash .fileSize
      if size = 0 then
        failFlash (.provisioningError s!"Firmware file is empty (0 bytes): {path.text}")
      else pure ()

/-- `_safe_halt`: the tool cannot halt a core, it resets it. -/
def safeHalt : Prog d Unit :=
  attempt (do
    let _ ← runCli t ["reset"] 1 ProbeRsTransport.cliTimeoutS "halt"
    pure ())
    FlashErr.isException fun _ => pure ()

/-- The `except` clauses around the backend. -/
def dispatchHandler : FlashErr → Prog d Unit
  | .keyboardInterrupt => do
    safeHalt t
    failFlash (.provisioningError "Flash interrupted by operator (Ctrl+C)")
  | .provisioningError msg => failFlash (.provisioningError msg)
  | .imageVerificationError msg => failFlash (.imageVerificationError msg)
  | e => failFlash (.provisioningError s!"Flash failed (ProbeRsTransport): {e.message}")

/-- `flash_firmware` over a probe-rs transport. -/
def flashFirmware (path : FirmwarePath) (base : Nat) (verify chipErase : Bool) : Prog d Bool := do
  validateFirmwareFile path
  let _ : Nat ← askFlash .fileSize
  askFlash .hashFile
  attempt (flashProbeRs t path base chipErase) (fun _ => true) (dispatchHandler t)
  onlyIf (verify && path.suffix == ".bin") (verifyFlash t base)
  pure true

end

/-- The runs of the tool in a history, and which of them succeeded. -/
def cliRun : Entry flashInterface → Option (List String × Bool)
  | .call (.runCli cmd _) (.ok (.exited returncode _ _)) => some (cmd, returncode == 0)
  | .call (.runCli cmd _) _ => some (cmd, false)
  | _ => none

def cliRuns (seg : List (Entry flashInterface)) : List (List String × Bool) := seg.filterMap cliRun

theorem cliRuns_append (seg seg' : List (Entry flashInterface)) :
    cliRuns (seg ++ seg') = cliRuns seg ++ cliRuns seg' := List.filterMap_append

/-- Failures of one command, fewer than it has attempts, and then a success. -/
def Reached (cmd : List String) (n : Nat) (runs : List (List String × Bool)) : Prop :=
  ∃ k < n, runs = List.replicate k (cmd, false) ++ [(cmd, true)]

/-- Failures only, no more than it has attempts. -/
def Missed (cmd : List String) (n : Nat) (runs : List (List String × Bool)) : Prop :=
  ∃ k ≤ n, runs = List.replicate k (cmd, false)

theorem Reached.cons (h : Reached cmd n runs) : Reached cmd (n + 1) ((cmd, false) :: runs) := by
  obtain ⟨k, hk, rfl⟩ := h
  exact ⟨k + 1, Nat.succ_lt_succ hk, rfl⟩

theorem Missed.cons (h : Missed cmd n runs) : Missed cmd (n + 1) ((cmd, false) :: runs) := by
  obtain ⟨k, hk, rfl⟩ := h
  exact ⟨k + 1, Nat.succ_le_succ hk, rfl⟩

theorem missed_nil (cmd : List String) (n : Nat) : Missed cmd n [] := ⟨0, Nat.zero_le n, rfl⟩

theorem runError_ok {timeoutS : Nat} {context : String} {cmd : List String} {run : CliRun}
    {stdout : List Char} (h : runError timeoutS context cmd run = .ok stdout) :
    ∃ stderr, run = .exited 0 stdout stderr := by
  cases run with
  | exited returncode out err =>
    rw [runError, ProbeRsTransport.runError] at h
    · split at h
      · cases h
        exact ⟨err, by rw [‹returncode = 0›]⟩
      · cases h
    · rintro ⟨⟩
  | timeoutExpired => cases h
  | osError msg => cases h

theorem runError_error {timeoutS : Nat} {context : String} {cmd : List String} {run : CliRun}
    {e : ProbeRsError} (h : runError timeoutS context cmd run = .error e) (ts : Nat) :
    cliRun (.call (.runCli cmd ts) (.ok run)) = some (cmd, false) := by
  cases run with
  | exited returncode out err =>
    have hcode : returncode ≠ 0 := by
      rintro rfl
      cases h
    rw [cliRun, beq_false_of_ne hcode]
  | timeoutExpired => rfl
  | osError msg => rfl

section
variable {d : FlashBench} {t : FlashProbe} {context : String} {cmd : List String} {timeoutS : Nat}

theorem attempts_leaves (left attempt : Nat) (last : Option ProbeRsError) :
    Leaves (attempts context cmd timeoutS left attempt last : Prog d (List Char))
      (fun _ seg => Reached cmd left (cliRuns seg)) fun _ seg => Missed cmd left (cliRuns seg) := by
  induction left generalizing attempt last with
  | zero =>
    cases last with
    | none => exact .fail (missed_nil cmd 0)
    | some e => exact .fail (missed_nil cmd 0)
  | succ left ih =>
    refine Leaves.bind_call (fun e => ⟨1, Nat.succ_le_succ (Nat.zero_le _), rfl⟩) fun run => ?_
    dsimp only
    split
    · rename_i stdout hrun
      obtain ⟨stderr, rfl⟩ := runError_ok hrun
      exact .pure ⟨0, Nat.succ_pos _, rfl⟩
    · rename_i e hrun
      have hcons (seg : List (Entry flashInterface)) :
          cliRuns (.call (.runCli cmd timeoutS) (.ok run) :: seg) =
            (cmd, false) :: cliRuns seg := by
        rw [cliRuns, List.filterMap_cons, runError_error hrun]
        rfl
      have hsleep : Leaves (onlyIf (left ≠ 0) (askFlash (.sleep (1000 * attempt))) : Prog d Unit)
          (fun _ seg => cliRuns seg = []) fun _ seg => cliRuns seg = [] := by
        unfold onlyIf
        split
        · exact .call (fun _ => rfl) fun _ => rfl
        · exact .pure rfl
      refine Leaves.bind (Q := fun _ seg => cliRuns seg = []) ?_ ?_
      · refine hsleep.mono (fun _ _ h => h) fun _ seg h => ?_
        rw [hcons, h]
        exact (missed_nil cmd left).cons
      · intro _ s hs
        refine (ih (attempt + 1) (some e)).mono (fun _ seg h => ?_) fun _ seg h => ?_
        · rw [hcons, cliRuns_append, hs]
          exact h.cons
        · rw [hcons, cliRuns_append, hs]
          exact h.cons

def commandRuns (t : FlashProbe) (seg : List (Entry flashInterface)) : List (List String × Bool) :=
  (cliRuns seg).filter fun x => x.1 ≠ versionCmd t

theorem commandRuns_append (seg seg' : List (Entry flashInterface)) :
    commandRuns t (seg ++ seg') = commandRuns t seg ++ commandRuns t seg' := by
  rw [commandRuns, cliRuns_append, List.filter_append]
  rfl

theorem commandRuns_nil {seg : List (Entry flashInterface)} (h : seg.filterMap cliRun = []) :
    commandRuns t seg = [] := by
  rw [commandRuns, cliRuns, h]
  rfl

theorem commandRuns_eq {seg : List (Entry flashInterface)}
    (h : ∀ x ∈ cliRuns seg, x.1 ≠ versionCmd t) : commandRuns t seg = cliRuns seg := by
  apply List.filter_eq_self.2
  intro x hx
  exact decide_eq_true (h x hx)

/-- The command line names the chip, the question for the version does not. -/
theorem command_ne_version (args : List String) : command t args ≠ versionCmd t := by
  intro h
  have hlen := congrArg List.length h
  simp [command, versionCmd, ProbeRsTransport.buildCmd] at hlen

theorem mem_commandRuns {seg : List (Entry flashInterface)} {args : List String} {b : Bool}
    (h : (command t args, b) ∈ cliRuns seg) : (command t args, b) ∈ commandRuns t seg :=
  List.mem_filter.2 ⟨h, decide_eq_true (command_ne_version args)⟩

theorem resolveBinary_leaves :
    Leaves (resolveBinary t : Prog d Unit) (fun _ seg => commandRuns t seg = [])
      fun _ seg => commandRuns t seg = [] := by
  have hasked (r : Except FlashErr CliRun) :
      commandRuns t [.call (.runCli (versionCmd t) 5) r] = [] := by
    rw [commandRuns, List.filter_eq_nil_iff]
    intro x hx
    obtain ⟨e, he, hx⟩ := List.mem_filterMap.1 hx
    cases List.mem_singleton.1 he
    rcases r with _ | ⟨_ | _ | _⟩ <;> cases hx <;> simp
  unfold resolveBinary
  apply Leaves.bind (Leaves.getVars (P := fun _ seg => seg = []) fun _ => rfl)
  intro v s hs
  subst hs
  split
  · exact .pure rfl
  cases t.binary with
  | none => exact .fail rfl
  | some binary =>
    apply Leaves.bind (Leaves.modifyVars (P := fun _ seg => seg = []) rfl)
    intro _ s hs
    subst hs
    apply Leaves.attempt (S := fun _ seg => commandRuns t seg = [])
    · apply Leaves.bind_call
      · exact fun e => hasked (.error e)
      · exact fun r => .pure (hasked (.ok r))
    · intro e s hs _
      refine .pure ?_
      rw [List.nil_append, List.append_nil]
      exact hs
    · exact fun _ _ hs _ => hs

theorem Reached.all {cmd : List String} {n : Nat} {runs : List (List String × Bool)}
    (h : Reached cmd n runs) : (∀ x ∈ runs, x.1 = cmd) ∧ runs.length ≤ n := by
  obtain ⟨k, hk, rfl⟩ := h
  constructor
  · intro x hx
    rcases List.mem_append.1 hx with hx | hx
    · rw [List.eq_of_mem_replicate hx]
    · rw [List.mem_singleton.1 hx]
  · rw [List.length_append, List.length_replicate]
    exact hk

theorem Missed.all {cmd : List String} {n : Nat} {runs : List (List String × Bool)}
    (h : Missed cmd n runs) : (∀ x ∈ runs, x.1 = cmd) ∧ runs.length ≤ n := by
  obtain ⟨k, hk, rfl⟩ := h
  constructor
  · intro x hx
    rw [List.eq_of_mem_replicate hx]
  · rwa [List.length_replicate]

theorem runCli_leaves (args : List String) (retries : Nat) :
    Leaves (runCli t args retries timeoutS context : Prog d (List Char))
      (fun _ seg => Reached (command t args) retries (commandRuns t seg))
      fun _ seg => Missed (command t args) retries (commandRuns t seg) := by
  have hruns {s seg : List (Entry flashInterface)} (hs : commandRuns t s = [])
      (hseg : ∀ x ∈ cliRuns seg, x.1 = command t args) :
      commandRuns t (s ++ seg) = cliRuns seg := by
    rw [commandRuns_append, hs, List.nil_append, commandRuns_eq]
    intro x hx
    rw [hseg x hx]
    exact command_ne_version args
  apply Leaves.bind (Q := fun _ seg => commandRuns t seg = [])
  · apply resolveBinary_leaves.mono (fun _ _ h => h)
    intro _ seg h
    rw [h]
    exact missed_nil _ _
  · intro _ s hs
    apply (attempts_leaves retries 1 none).mono
    · intro _ seg h
      rwa [hruns hs h.all.1]
    · intro _ seg h
      rwa [hruns hs h.all.1]

/-- The runs of one `flash_firmware`: the download, resets, and read-backs only behind a download
and a reset that succeeded. -/
def FlashRuns (t : FlashProbe) (path : FirmwarePath) (base : Nat) (verify chipErase returned : Bool)
    (runs : List (List String × Bool)) : Prop :=
  ∃ downloads resets reads, runs = downloads ++ resets ++ reads ∧
    (Reached (command t (downloadArgs path base chipErase)) 2 downloads ∨
      Missed (command t (downloadArgs path base chipErase)) 2 downloads) ∧
    (∀ x ∈ resets, x.1 = command t ["reset"]) ∧ resets.length ≤ 6 ∧
    (reads = [] ∨ verify = true ∧ path.suffix = ".bin" ∧ ∃ n, 0 < n ∧ n ≤ 256 ∧
      (Reached (command t (readArgs base n)) 5 reads ∨
        Missed (command t (readArgs base n)) 5 reads)) ∧
    (returned = true ∨ reads ≠ [] →
      Reached (command t (downloadArgs path base chipErase)) 2 downloads ∧
        Reached (command t ["reset"]) 5 resets)

variable {path : FirmwarePath} {base : Nat} {verify chipErase : Bool}

theorem noRuns_ask (c : FlashCall) (hc : ∀ r, cliRun (.call c r) = none) :
    Emits cliRun (askFlash c : Prog d c.Ans) [] := by
  refine Emits.call (I := flashInterface) c fun r => ?_
  rw [List.filterMap_cons, hc]
  rfl

/-- What the backend leaves: both commands went through, or the first that did not. -/
theorem flashProbeRs_leaves :
    Leaves (flashProbeRs t path base chipErase : Prog d Unit)
      (fun _ seg => FlashRuns t path base verify chipErase true (commandRuns t seg))
      fun _ seg => ∃ downloads resets, commandRuns t seg = downloads ++ resets ∧
        (Reached (command t (downloadArgs path base chipErase)) 2 downloads ∨
          Missed (command t (downloadArgs path base chipErase)) 2 downloads) ∧
        (∀ x ∈ resets, x.1 = command t ["reset"]) ∧ resets.length ≤ 5 := by
  refine Leaves.bind (Q := fun _ seg =>
    Reached (command t (downloadArgs path base chipErase)) 2 (commandRuns t seg)) ?_
    fun _ s hs => ?_
  · refine (runCli_leaves _ 2).mono (fun _ _ h => h) fun _ seg h => ?_
    refine ⟨commandRuns t seg, [], (List.append_nil _).symm, .inr h, ?_, Nat.zero_le _⟩
    exact fun x hx => (List.not_mem_nil hx).elim
  · refine Leaves.bind (Q := fun _ seg => Reached (command t ["reset"]) 5 (commandRuns t seg)) ?_
      fun _ s' hs' => .pure ?_
    · refine (runCli_leaves ["reset"] 5).mono (fun _ _ h => h) fun _ seg h => ?_
      exact ⟨commandRuns t s, commandRuns t seg, commandRuns_append _ _, .inl hs, h.all⟩
    · refine ⟨commandRuns t s, commandRuns t s', [], ?_, .inl hs, hs'.all.1,
        Nat.le_succ_of_le hs'.all.2,
        .inl rfl, fun _ => ⟨hs, hs'⟩⟩
      rw [List.append_nil, List.append_nil, commandRuns_append]

/-- Read-backs of one size, or none. -/
def ReadBacks (t : FlashProbe) (base : Nat) (runs : List (List String × Bool)) : Prop :=
  runs = [] ∨ ∃ n, 0 < n ∧ n ≤ 256 ∧ (Reached (command t (readArgs base n)) 5 runs ∨
    Missed (command t (readArgs base n)) 5 runs)

theorem noRuns_compareImages (expected actual : Bytes) :
    Leaves (compareImages base expected actual : Prog d Unit) (fun _ seg => seg = [])
      fun _ seg => seg = [] := by
  unfold compareImages
  split
  · exact .fail rfl
  split
  · exact .pure rfl
  split
  · exact .fail rfl
  · exact .pure rfl

theorem verifyFlash_leaves :
    Leaves (verifyFlash t base : Prog d Unit) (fun _ seg => ReadBacks t base (commandRuns t seg))
      fun _ seg => ReadBacks t base (commandRuns t seg) := by
  refine Leaves.bind ((noRuns_ask .fileSize fun _ => rfl).mono (fun _ _ h => h)
    fun _ _ h => .inl (commandRuns_nil h)) fun size s hs => ?_
  replace hs : commandRuns t s = [] := commandRuns_nil hs
  split
  · refine .pure (.inl ?_)
    rw [List.append_nil, hs]
  rename_i hsize
  have hn : 0 < min 256 size ∧ min 256 size ≤ 256 := ⟨Nat.pos_of_ne_zero hsize, Nat.min_le_left ..⟩
  have hread : Leaves (do
      let expected : Bytes ← askFlash (.readFile (min 256 size))
      let actual ← readBack t base (min 256 size)
      compareImages base expected actual : Prog d Unit)
      (fun _ seg => ReadBacks t base (commandRuns t (s ++ seg)))
      fun _ seg => ReadBacks t base (commandRuns t (s ++ seg)) := by
    refine Leaves.bind (Q := fun _ seg => commandRuns t seg = []) ?_ fun expected s₁ hs₁ => ?_
    · refine (noRuns_ask (.readFile _) fun _ => rfl).mono (fun _ _ h => commandRuns_nil h)
        fun _ seg h => .inl ?_
      rw [commandRuns_append, hs]
      exact commandRuns_nil h
    refine Leaves.bind (Q := fun _ seg => Reached (command t (readArgs base (min 256 size))) 5
      (commandRuns t seg)) ?_ fun actual s₂ hs₂ => ?_
    · refine Leaves.bind ((runCli_leaves _ 5).mono (fun _ _ h => h) fun _ seg h => ?_)
        fun stdout s₂ hs₂ => .pure ?_
      · refine .inr ⟨_, hn.1, hn.2, .inr ?_⟩
        rwa [commandRuns_append, commandRuns_append, hs, hs₁]
      · rwa [List.append_nil]
    · refine (noRuns_compareImages expected actual).mono (fun _ seg h => ?_) fun _ seg h => ?_
      all_goals
        refine .inr ⟨_, hn.1, hn.2, .inl ?_⟩
        rwa [h, List.append_nil, commandRuns_append, commandRuns_append, hs, hs₁]
  refine Leaves.attempt hread (fun e s' hs' _ => ?_) fun _ _ h _ => h
  have hnothing : Leaves (verifyHandler e : Prog d Unit) (fun _ seg => seg = [])
      fun _ seg => seg = [] := by
    unfold verifyHandler
    split
    · exact .fail rfl
    · exact .pure rfl
  refine hnothing.mono (fun _ seg h => ?_) fun _ seg h => ?_
  all_goals
    rw [h, List.append_nil]
    exact hs'

/-- One reset, or none. -/
def OneReset (t : FlashProbe) (runs : List (List String × Bool)) : Prop :=
  (∀ x ∈ runs, x.1 = command t ["reset"]) ∧ runs.length ≤ 1

theorem dispatchHandler_leaves (e : FlashErr) :
    Leaves (dispatchHandler t e : Prog d Unit) (fun _ _ => False)
      fun _ seg => OneReset t (commandRuns t seg) := by
  have hnone (e : FlashErr) : Leaves (failFlash e : Prog d Unit) (fun _ _ => False)
      fun _ seg => OneReset t (commandRuns t seg) :=
    .fail ⟨fun x hx => (List.not_mem_nil hx).elim, Nat.zero_le _⟩
  have hhalt : Leaves (safeHalt t : Prog d Unit) (fun _ seg => OneReset t (commandRuns t seg))
      fun _ seg => OneReset t (commandRuns t seg) := by
    refine Leaves.attempt (Leaves.bind ((runCli_leaves ["reset"] 1).mono (fun _ _ h => h)
      fun _ _ h => h.all) fun _ s hs => .pure ?_) (fun e s hs _ => .pure ?_) fun _ _ h _ => h
    · rw [List.append_nil]
      exact hs.all
    · rwa [List.append_nil]
  cases e with
  | keyboardInterrupt =>
    refine Leaves.bind hhalt fun _ s hs => .fail ?_
    rwa [List.append_nil]
  | provisioningError | imageVerificationError | probeRsError | valueError | assertionError
  | otherException => exact hnone _

theorem noRuns_validate : Emits cliRun (validateFirmwareFile path : Prog d Unit) [] := by
  refine Emits.bind (noRuns_ask .exists fun _ => rfl) fun found => ?_
  split
  · exact .fail _
  refine Emits.bind (noRuns_ask .isFile fun _ => rfl) fun isFile => ?_
  split
  · exact .fail _
  refine Emits.bind (noRuns_ask .fileSize fun _ => rfl) fun size => ?_
  split
  · exact .fail _
  · exact .pure _

theorem noRuns_bind {p : Prog d β} {k : β → Prog d α} {P : α → List (List String × Bool) → Prop}
    {R : List (List String × Bool) → Prop} (hp : Emits cliRun p [])
    (hk : ∀ b, Leaves (k b) (fun a seg => P a (commandRuns t seg))
      fun _ seg => R (commandRuns t seg))
    (hnone : R []) :
    Leaves (p >>= k) (fun a seg => P a (commandRuns t seg)) fun _ seg => R (commandRuns t seg) := by
  have hnil (s : List (Entry flashInterface)) (hs : s.filterMap cliRun = []) :
      commandRuns t s = [] := commandRuns_nil hs
  refine Leaves.bind (hp.mono (fun _ _ h => h) fun _ seg h => ?_) fun b s hs => ?_
  · rw [hnil seg h]
    exact hnone
  · refine (hk b).mono (fun _ seg h => ?_) fun _ seg h => ?_
    all_goals rwa [commandRuns_append, hnil s hs, List.nil_append]

theorem FlashRuns.nothing (t : FlashProbe) (path : FirmwarePath) (base : Nat)
    (verify chipErase : Bool) : FlashRuns t path base verify chipErase false [] := by
  refine ⟨[], [], [], rfl, .inr (missed_nil _ _), fun x hx => (List.not_mem_nil hx).elim,
    Nat.zero_le _, .inl rfl, fun h => ?_⟩
  rcases h with h | h
  · cases h
  · exact absurd rfl h

theorem FlashRuns.reading {runs reads : List (List String × Bool)} {returned : Bool}
    (h : FlashRuns t path base false chipErase true runs) (hreads : ReadBacks t base reads)
    (hbin : reads ≠ [] → verify = true ∧ path.suffix = ".bin") :
    FlashRuns t path base verify chipErase returned (runs ++ reads) := by
  obtain ⟨downloads, resets, reads', rfl, -, hresets, hlen, hreads', hboth⟩ := h
  have hnil : reads' = [] := hreads'.resolve_right fun h => Bool.noConfusion h.1
  subst hnil
  obtain ⟨hdown, hreset⟩ := hboth (.inl rfl)
  refine ⟨downloads, resets, reads, by rw [List.append_nil], .inl hdown, hresets, hlen, ?_,
    fun _ => ⟨hdown, hreset⟩⟩
  rcases hreads with hreads | hreads
  · exact .inl hreads
  · by_cases hne : reads = []
    · exact .inl hne
    · obtain ⟨hverify, hsuffix⟩ := hbin hne
      exact .inr ⟨hverify, hsuffix, hreads⟩

theorem flashBackend_leaves :
    Leaves (attempt (flashProbeRs t path base chipErase) (fun _ => true) (dispatchHandler t) :
      Prog d Unit)
      (fun _ seg => FlashRuns t path base false chipErase true (commandRuns t seg))
      fun _ seg => FlashRuns t path base verify chipErase false (commandRuns t seg) := by
  refine Leaves.attempt flashProbeRs_leaves (fun e s hs _ => ?_) fun _ _ _ h => by cases h
  obtain ⟨downloads, resets, hruns, hdown, hresets, hlen⟩ := hs
  refine (dispatchHandler_leaves e).mono (fun _ _ h => h.elim) fun _ seg h => ?_
  refine ⟨downloads, resets ++ commandRuns t seg, [], ?_, hdown, fun x hx => ?_, ?_, .inl rfl, ?_⟩
  · rw [commandRuns_append, hruns, List.append_nil, List.append_assoc]
  · rcases List.mem_append.1 hx with hx | hx
    · exact hresets x hx
    · exact h.1 x hx
  · rw [List.length_append]
    exact Nat.add_le_add hlen h.2
  · rintro (h | h)
    · cases h
    · exact absurd rfl h

theorem flashFirmware_leaves :
    Leaves (flashFirmware t path base verify chipErase : Prog d Bool)
      (fun _ seg => FlashRuns t path base verify chipErase true (commandRuns t seg))
      fun _ seg => FlashRuns t path base verify chipErase false (commandRuns t seg) := by
  have hnone := FlashRuns.nothing t path base verify chipErase
  refine noRuns_bind noRuns_validate (fun _ => noRuns_bind (noRuns_ask .fileSize fun _ => rfl)
    (fun _ => noRuns_bind (noRuns_ask .hashFile fun _ => rfl) (fun _ => ?_) hnone) hnone) hnone
  refine Leaves.bind flashBackend_leaves fun _ s hs => ?_
  refine Leaves.bind (Q := fun _ seg =>
    FlashRuns t path base verify chipErase true (commandRuns t (s ++ seg))) ?_
    fun _ s' hs' => .pure ?_
  · unfold onlyIf
    split
    · rename_i hv
      rw [Bool.and_eq_true, beq_iff_eq] at hv
      refine verifyFlash_leaves.mono (fun _ seg h => ?_) fun _ seg h => ?_
      all_goals
        rw [commandRuns_append]
        exact hs.reading h fun _ => hv
    · refine .pure ?_
      rw [List.append_nil, ← List.append_nil (commandRuns t s)]
      exact hs.reading (.inl rfl) fun h => absurd rfl h
  · rwa [List.append_nil]

variable (t) in
/-- The runs between two moments: the version is asked for once, before the first command. -/
inductive Resolves : Bool → List (List String × Bool) → Bool → Prop
  | quiet (b : Bool) : Resolves b [] b
  | known : (∀ x ∈ runs, x.1 ≠ versionCmd t) → Resolves true runs true
  | first : (∀ x ∈ runs, x.1 ≠ versionCmd t) →
      Resolves false ((versionCmd t, answered) :: runs) true

theorem Resolves.known_of_true {runs : List (List String × Bool)} {b : Bool}
    (h : Resolves t true runs b) : b = true ∧ ∀ x ∈ runs, x.1 ≠ versionCmd t := by
  cases h with
  | quiet => exact ⟨rfl, fun x hx => (List.not_mem_nil hx).elim⟩
  | known h => exact ⟨rfl, h⟩

theorem Resolves.trans {a b c : Bool} {runs runs' : List (List String × Bool)}
    (h : Resolves t a runs b) (h' : Resolves t b runs' c) : Resolves t a (runs ++ runs') c := by
  cases h with
  | quiet => exact h'
  | known hruns =>
    obtain ⟨rfl, hruns'⟩ := h'.known_of_true
    exact .known fun x hx => (List.mem_append.1 hx).elim (hruns x) (hruns' x)
  | first hruns =>
    obtain ⟨rfl, hruns'⟩ := h'.known_of_true
    exact .first fun x hx => (List.mem_append.1 hx).elim (hruns x) (hruns' x)

variable (t) in
def Resolving (w w' : World d) : Prop :=
  ∃ seg, w'.trace = w.trace ++ seg ∧ Resolves t w.vars.resolved (cliRuns seg) w'.vars.resolved

instance : IsTrans (World d) (Resolving t) where
  trans u v w h h' := by
    obtain ⟨seg, htrace, h⟩ := h
    obtain ⟨seg', htrace', h'⟩ := h'
    refine ⟨seg ++ seg', by rw [htrace', htrace, List.append_assoc], ?_⟩
    rw [cliRuns_append]
    exact h.trans h'

theorem Resolving.refl (w : World d) : Resolving t w w :=
  ⟨[], (List.append_nil _).symm, .quiet _⟩

theorem resolving_ask (c : FlashCall) (hc : ∀ r, cliRun (.call c r) = none) :
    Along (Resolving t) (askFlash c : Prog d c.Ans) := by
  intro w
  apply (wp_call (I := flashInterface) (Q := fun _ => Resolving t w) ?_ ?_).after
  · intro a s
    refine ⟨_, rfl, ?_⟩
    rw [cliRuns, List.filterMap_cons, hc]
    exact .quiet _
  · intro e s
    refine ⟨_, rfl, ?_⟩
    rw [cliRuns, List.filterMap_cons, hc]
    exact .quiet _

theorem resolving_resolveBinary (w : World d) :
    wp (resolveBinary t : Prog d Unit) (fun _ w' => Resolving t w w' ∧ w'.vars.resolved = true)
      (fun _ w' => Resolving t w w') w := by
  unfold resolveBinary
  rw [wp_bind, wp_getVars]
  cases hw : w.vars.resolved with
  | true => exact ⟨.refl w, hw⟩
  | false =>
    rw [if_neg Bool.false_ne_true]
    cases t.binary with
    | none => exact .refl w
    | some binary =>
      dsimp only
      rw [wp_bind, wp_modifyVars, wp_attempt, wp_bind]
      have hasked (s : d.State) (r : Except FlashErr CliRun) :
          Resolving t w ⟨{ w.vars with resolved := true }, s,
            w.trace ++ [.call (.runCli (versionCmd t) 5) r]⟩ := by
        refine ⟨_, rfl, ?_⟩
        rw [hw]
        rcases r with _ | ⟨_ | _ | _⟩ <;> exact .first fun x hx => (List.not_mem_nil hx).elim
      apply wp_call
      · exact fun run s => ⟨hasked s (.ok run), rfl⟩
      · intro e s
        dsimp only
        split
        · exact ⟨hasked s (.error e), rfl⟩
        · exact hasked s (.error e)

/-- The runs of one command, which leave the transport as it is. -/
@[reducible] def attemptFrame (cmd : List String) : Frame flashInterface where
  entry e := ∀ x, cliRun e = some x → x.1 = cmd
  vars u v := v = u
  refl _ := rfl
  trans h h' := h'.trans h

theorem within_attempts (left attempt : Nat) (last : Option ProbeRsError) :
    Within (attemptFrame cmd) (attempts context cmd timeoutS left attempt last :
      Prog d (List Char)) := by
  have hrun : Within (attemptFrame cmd)
      (askFlash (.runCli cmd timeoutS) : Prog d CliRun) := by
    apply Within.call (I := flashInterface)
    intro r x hx
    rcases r with _ | ⟨_ | _ | _⟩ <;> cases hx <;> rfl
  have hsleep (ms : Nat) : Within (attemptFrame cmd) (askFlash (.sleep ms) : Prog d Unit) :=
    .call (I := flashInterface) _ fun _ _ hx => by cases hx
  induction left generalizing attempt last with
  | zero =>
    cases last with
    | none => exact .fail _
    | some e => exact .fail _
  | succ left ih =>
    apply hrun.bind
    intro run
    split
    · exact .pure _
    · exact (Within.onlyIf _ (hsleep _)).bind fun _ => ih _ _

theorem resolving_runCli (args : List String) (retries : Nat) :
    Along (Resolving t) (runCli t args retries timeoutS context : Prog d (List Char)) := by
  intro w
  apply wp.after
  rw [runCli]
  apply (resolving_resolveBinary w).bind
  intro _ w₁ ⟨hfirst, hw₁⟩
  have hattempts {w' : World d} (h : (attemptFrame (command t args)).Rel w₁ w') :
      Resolving t w w' := by
    obtain ⟨⟨seg, htrace, hseg⟩, hvars⟩ := h
    apply IsTrans.trans _ _ _ hfirst
    refine ⟨seg, htrace, ?_⟩
    rw [show w'.vars = w₁.vars from hvars, hw₁]
    apply Resolves.known
    intro x hx
    obtain ⟨e, he, hx⟩ := List.mem_filterMap.1 hx
    rw [hseg e he x hx]
    exact command_ne_version args
  exact (within_attempts retries 1 none).wp.mono (fun _ _ h => hattempts h)
    fun _ _ h => hattempts h

theorem resolving_fail {α : Type} (e : FlashErr) :
    Along (Resolving t) (failFlash e : Prog d α) :=
  Resolving.refl

theorem resolving_validateFirmwareFile :
    Along (Resolving t) (validateFirmwareFile path : Prog d Unit) := by
  apply Along.bind (resolving_ask .exists fun _ => rfl)
  intro found
  split
  · exact resolving_fail _
  apply Along.bind (resolving_ask .isFile fun _ => rfl)
  intro isFile
  split
  · exact resolving_fail _
  apply Along.bind (resolving_ask .fileSize fun _ => rfl)
  intro size
  split
  · exact resolving_fail _
  · exact Resolving.refl

theorem resolving_flashProbeRs :
    Along (Resolving t) (flashProbeRs t path base chipErase : Prog d Unit) := by
  apply Along.bind (resolving_runCli _ 2)
  intro _
  apply Along.bind (resolving_runCli _ _)
  exact fun _ => Resolving.refl

theorem resolving_dispatchHandler (e : FlashErr) :
    Along (Resolving t) (dispatchHandler t e : Prog d Unit) := by
  cases e with
  | keyboardInterrupt =>
    -- the interrupt is raised again behind the halt, which swallows its own failure
    have hhalt : Along (Resolving t) (safeHalt t : Prog d Unit) := by
      apply Along.attempt
      · apply Along.bind (resolving_runCli _ 1)
        exact fun _ => Resolving.refl
      · exact fun _ => Resolving.refl
    exact Along.bind hhalt fun _ => resolving_fail _
  | provisioningError | imageVerificationError | probeRsError | valueError | assertionError
  | otherException => exact resolving_fail _

theorem resolving_compareImages (expected actual : Bytes) :
    Along (Resolving t) (compareImages base expected actual : Prog d Unit) := by
  unfold compareImages
  split
  · exact resolving_fail _
  split
  · exact Resolving.refl
  split
  · exact resolving_fail _
  · exact Resolving.refl

theorem resolving_verifyFlash :
    Along (Resolving t) (verifyFlash t base : Prog d Unit) := by
  apply Along.bind (resolving_ask .fileSize fun _ => rfl)
  intro size
  split
  · exact Resolving.refl
  apply Along.attempt
  · apply Along.bind (resolving_ask (.readFile _) fun _ => rfl)
    intro expected
    apply Along.bind
    · apply Along.bind (resolving_runCli _ _)
      exact fun _ => Resolving.refl
    · exact fun actual => resolving_compareImages expected actual
  · intro e
    unfold verifyHandler
    split
    · exact resolving_fail _
    · exact Resolving.refl

theorem resolving_flashFirmware :
    Along (Resolving t) (flashFirmware t path base verify chipErase : Prog d Bool) := by
  apply Along.bind resolving_validateFirmwareFile
  intro _
  apply Along.bind (resolving_ask .fileSize fun _ => rfl)
  intro _
  apply Along.bind (resolving_ask .hashFile fun _ => rfl)
  intro _
  apply Along.bind (Along.attempt resolving_flashProbeRs resolving_dispatchHandler)
  intro _
  apply Along.bind
  · unfold onlyIf
    split
    · exact resolving_verifyFlash
    · exact Resolving.refl
  · exact fun _ => Resolving.refl

/-- What is run before the commands: on a fresh transport the question for the version, once. -/
def AsksVersion (t : FlashProbe) (resolved : Bool) (asked runs : List (List String × Bool)) :
    Prop :=
  asked = [] ∧ (resolved = true ∨ runs = []) ∨
    resolved = false ∧ ∃ answered, asked = [(versionCmd t, answered)]

theorem Resolves.asked {runs : List (List String × Bool)} {a b : Bool}
    (h : Resolves t a runs b) :
    ∃ asked, runs = asked ++ runs.filter (fun x => x.1 ≠ versionCmd t) ∧
      AsksVersion t a asked (runs.filter fun x => x.1 ≠ versionCmd t) := by
  have hall {runs : List (List String × Bool)} (h : ∀ x ∈ runs, x.1 ≠ versionCmd t) :
      runs.filter (fun x => x.1 ≠ versionCmd t) = runs :=
    List.filter_eq_self.2 fun x hx => decide_eq_true (h x hx)
  cases h with
  | quiet => exact ⟨[], rfl, .inl ⟨rfl, .inr rfl⟩⟩
  | known h =>
    rw [hall h]
    exact ⟨[], rfl, .inl ⟨rfl, .inl rfl⟩⟩
  | first h =>
    rw [List.filter_cons_of_neg (by simp), hall h]
    exact ⟨[_], rfl, .inr ⟨rfl, _, rfl⟩⟩

/-- The law of the runs of the tool: on a fresh transport the question for its version, then at
most two downloads, then resets, and read-backs only of a binary, behind a download and a reset
that succeeded; a flash that returns has both. -/
theorem flashFirmware_runs (w : World d) :
    ∃ asked runs,
      cliRuns (w.since (World.after (flashFirmware t path base verify chipErase w))) =
        asked ++ runs ∧
      AsksVersion t w.vars.resolved asked runs ∧
      FlashRuns t path base verify chipErase
        (returned (flashFirmware t path base verify chipErase w)) runs := by
  have hleaves : Leaves (flashFirmware t path base verify chipErase : Prog d Bool)
      (fun _ seg => FlashRuns t path base verify chipErase true (commandRuns t seg))
      fun _ seg => FlashRuns t path base verify chipErase false (commandRuns t seg) :=
    flashFirmware_leaves
  have hresolving : Resolving t w
      (World.after (flashFirmware t path base verify chipErase w)) := resolving_flashFirmware w
  obtain ⟨seg, htrace, hresolves⟩ := hresolving
  obtain ⟨asked, hruns, hasked⟩ := hresolves.asked
  have hlaw : FlashRuns t path base verify chipErase
      (returned (flashFirmware t path base verify chipErase w)) (commandRuns t seg) := by
    rw [← World.since_eq htrace]
    cases hrun : flashFirmware t path base verify chipErase w with
    | ok a w' => exact hleaves.ok hrun
    | error e w' => exact hleaves.error hrun
  rw [World.since_eq htrace]
  exact ⟨asked, commandRuns t seg, hruns, hasked, hlaw⟩

end

/-- A board on the probe, seen through its flash memory: only a download writes to it, and a read
that succeeds prints it. The file is that of the image. -/
structure Chip (d : FlashBench) (t : FlashProbe) (image : Bytes)
    (flash : d.State → Nat → UInt8) : Prop where
  size : ∀ {s n s'}, d.respond .fileSize s = (.ok n, s') → n = image.length
  content : ∀ {s n bs s'}, d.respond (.readFile n) s = (.ok bs, s') → bs = image.take n
  reads : ∀ {base n timeoutS s stdout stderr s'},
    d.respond (.runCli (command t (readArgs base n)) timeoutS) s =
      (.ok (.exited 0 stdout stderr), s') →
    ProbeRsTransport.Rendering ((List.range n).map fun i => flash s (base + i)) stdout
  keeps : ∀ c s, (∀ path base chipErase timeoutS,
    c ≠ .runCli (command t (downloadArgs path base chipErase)) timeoutS) →
    flash (d.respond c s).2 = flash s
  raises : ∀ c s e, (d.respond c s).1 = .error e →
    e = .keyboardInterrupt ∨ ∃ msg, e = .otherException msg

/-- The image is in the flash memory, as far as the verification looks. -/
def Matches (image : Bytes) (base : Nat) (mem : Nat → UInt8) : Prop :=
  ∀ i (h : i < image.length), i < 256 → mem (base + i) = image[i]

/-- The error names the first byte that is wrong. -/
def Mismatch (image : Bytes) (base : Nat) (mem : Nat → UInt8) (msg : String) : Prop :=
  ∃ i, ∃ h : i < image.length, i < 256 ∧ (∀ j (hj : j < i), mem (base + j) = image[j]) ∧
    mem (base + i) ≠ image[i] ∧ msg = mismatchText base i (mem (base + i)) image[i]

theorem firstMismatch_none {as bs : Bytes} (h : firstMismatch as bs = none)
    (hlen : as.length = bs.length) : as = bs := by
  induction as generalizing bs with
  | nil =>
    cases bs with
    | nil => rfl
    | cons b bs => cases hlen
  | cons a as ih =>
    cases bs with
    | nil => cases hlen
    | cons b bs =>
      rw [firstMismatch] at h
      split at h
      · cases h
      · rename_i hab
        rw [not_not.1 hab, ih (Option.map_eq_none_iff.1 h) (Nat.succ.inj hlen)]

theorem firstMismatch_some {as bs : Bytes} {r : Nat × UInt8 × UInt8}
    (h : firstMismatch as bs = some r) :
    as[r.1]? = some r.2.1 ∧ bs[r.1]? = some r.2.2 ∧ r.2.1 ≠ r.2.2 ∧
      ∀ j < r.1, as[j]? = bs[j]? := by
  induction as generalizing bs r with
  | nil => cases h
  | cons a as ih =>
    cases bs with
    | nil => cases h
    | cons b bs =>
      rw [firstMismatch] at h
      split at h
      · rename_i hab
        cases h
        exact ⟨rfl, rfl, hab, fun j hj => absurd hj (Nat.not_lt_zero j)⟩
      · rename_i hab
        obtain ⟨r', hr', rfl⟩ := Option.map_eq_some_iff.1 h
        obtain ⟨ha, hb, hne, hbefore⟩ := ih hr'
        refine ⟨ha, hb, hne, fun j hj => ?_⟩
        cases j with
        | zero => rw [List.getElem?_cons_zero, List.getElem?_cons_zero, not_not.1 hab]
        | succ j => exact hbefore j (Nat.lt_of_succ_lt_succ hj)

def cells (mem : Nat → UInt8) (base n : Nat) : Bytes :=
  (List.range n).map fun i => mem (base + i)

theorem cells_getElem? {mem : Nat → UInt8} {base n i : Nat} (h : i < n) :
    (cells mem base n)[i]? = some (mem (base + i)) := by
  rw [cells, List.getElem?_map, List.getElem?_range h]
  rfl

section
variable {image : Bytes} {base : Nat} {mem : Nat → UInt8} {d : FlashBench}

theorem matches_of_cells (hlen : n = min 256 image.length)
    (h : cells mem base n = image.take n) : Matches image base mem := by
  intro i hi h256
  have hn : i < n := by
    rw [hlen]
    exact Nat.lt_min.2 ⟨h256, hi⟩
  have hcell : (cells mem base n)[i]? = some (mem (base + i)) := cells_getElem? hn
  rw [h, List.getElem?_take_of_lt hn, List.getElem?_eq_getElem hi] at hcell
  exact (Option.some.inj hcell).symm

theorem mismatch_of_cells {r : Nat × UInt8 × UInt8} (hlen : n = min 256 image.length)
    (h : firstMismatch (cells mem base n) (image.take n) = some r) :
    Mismatch image base mem (mismatchText base r.1 r.2.1 r.2.2) := by
  obtain ⟨ha, hb, hne, hbefore⟩ := firstMismatch_some h
  have hn : r.1 < n := by
    have hlt := (List.getElem?_eq_some_iff.1 ha).1
    rwa [cells, List.length_map, List.length_range] at hlt
  have hboth : r.1 < 256 ∧ r.1 < image.length := by
    rw [hlen] at hn
    exact Nat.lt_min.1 hn
  have hi : r.1 < image.length := hboth.2
  rw [cells_getElem? hn] at ha
  rw [List.getElem?_take_of_lt hn, List.getElem?_eq_getElem hi] at hb
  refine ⟨r.1, hi, hboth.1, fun j hj => ?_, ?_, ?_⟩
  · have hj' : j < n := Nat.lt_trans hj hn
    have hsame := hbefore j hj
    rw [cells_getElem? hj', List.getElem?_take_of_lt hj',
      List.getElem?_eq_getElem (Nat.lt_trans hj hi)] at hsame
    exact Option.some.inj hsame
  · rw [Option.some.inj ha, Option.some.inj hb]
    exact hne
  · rw [Option.some.inj ha, Option.some.inj hb]

theorem wp_compareImages (hn : n = min 256 image.length) (w : World d) :
    wp (compareImages base (image.take n) (cells mem base n))
      (fun _ w' => w' = w ∧ Matches image base mem)
      (fun e w' => w' = w ∧ ∃ msg, e = .imageVerificationError msg ∧ Mismatch image base mem msg)
      w := by
  have hle : n ≤ image.length := hn ▸ Nat.min_le_right ..
  have hlen : (cells mem base n).length = (image.take n).length := by
    rw [cells, List.length_map, List.length_range, List.length_take, Nat.min_eq_left hle]
  rw [compareImages, if_neg (not_not.2 hlen)]
  split
  · exact ⟨rfl, matches_of_cells hn ‹_›⟩
  rename_i hne
  split
  · rename_i i a b hr
    have hmsg := mismatch_of_cells hn hr
    exact ⟨rfl, _, rfl, hmsg⟩
  · exact absurd (firstMismatch_none ‹_› hlen) hne

variable {t : FlashProbe} {flash : d.State → Nat → UInt8}

theorem command_ne_download {path : FirmwarePath} {chipErase : Bool} {args : List String}
    (h : args.head? ≠ some "download") (hne : args ≠ []) :
    command t args ≠ command t (downloadArgs path base chipErase) := by
  intro heq
  cases args with
  | nil => exact hne rfl
  | cons a args =>
    simp only [command, ProbeRsTransport.buildCmd, downloadArgs, List.cons_append,
      List.nil_append, List.cons.injEq] at heq
    exact h (congrArg some heq.2.1)

/-- A command that is no download, and the waits between its attempts, keep the flash memory. -/
theorem Chip.attempts_spec (hchip : Chip d t image flash) {context : String} {timeoutS : Nat}
    {args : List String} (h : args.head? ≠ some "download") (hne : args ≠ [])
    (left attempt : Nat) (last : Option ProbeRsError) (mem : Nat → UInt8) (w : World d)
    (hw : flash w.dev = mem) :
    wp (attempts context (command t args) timeoutS left attempt last)
      (fun stdout w' => flash w'.dev = mem ∧ ∃ s stderr, flash s = mem ∧
        (d.respond (.runCli (command t args) timeoutS) s).1 = .ok (.exited 0 stdout stderr))
      (fun e w' => flash w'.dev = mem ∧ ∀ msg, e ≠ .imageVerificationError msg) w := by
  have hkeeps (s : d.State) :
      flash (d.respond (.runCli (command t args) timeoutS) s).2 = flash s :=
    hchip.keeps _ s fun path base chipErase ts heq =>
      command_ne_download h hne (FlashCall.runCli.inj heq).1
  have hsleep (ms : Nat) (s : d.State) : flash (d.respond (.sleep ms) s).2 = flash s :=
    hchip.keeps _ s fun path base chipErase ts heq => by cases heq
  have hcalm (c : FlashCall) (s s' : d.State) (e : FlashErr)
      (he : d.respond c s = (.error e, s')) (msg : String) : e ≠ .imageVerificationError msg := by
    rcases hchip.raises c s e (by rw [he]) with rfl | ⟨msg', rfl⟩ <;> exact fun h => by cases h
  induction left generalizing attempt last w with
  | zero =>
    cases last with
    | none => exact ⟨hw, fun msg h => by cases h⟩
    | some e => exact ⟨hw, fun msg h => by cases h⟩
  | succ left ih =>
    rw [attempts, wp_bind]
    refine wp_respond (fun run s hrun => ?_) fun e s hrun => ?_
    · have hs : flash s = mem := by
        rw [← hw, ← hkeeps w.dev, hrun]
      dsimp only
      split
      · rename_i stdout hok
        obtain ⟨stderr, rfl⟩ := runError_ok hok
        exact ⟨hs, w.dev, stderr, hw, by rw [hrun]⟩
      · rw [wp_bind]
        refine wp_onlyIf (fun _ => ?_) fun _ => ih _ _ _ hs
        refine wp_respond (fun _ s' hrest => ih _ _ _ ?_)
          fun e s' hrest => ⟨?_, hcalm _ _ _ _ hrest⟩
        · rw [← hs, ← hsleep _ s, hrest]
        · rw [← hs, ← hsleep _ s, hrest]
    · refine ⟨?_, hcalm _ _ _ _ hrun⟩
      rw [← hw, ← hkeeps w.dev, hrun]

theorem Chip.calm (hchip : Chip d t image flash) {c : FlashCall} {e : FlashErr} {w w' : World d}
    (h : askFlash c w = .error e w') (msg : String) : e ≠ .imageVerificationError msg := by
  have herr : (d.respond c w.dev).1 = .error e := by
    unfold askFlash call at h
    split at h
    · cases h
    · rename_i hr
      cases h
      rw [hr]
  rcases hchip.raises c w.dev e herr with rfl | ⟨msg', rfl⟩ <;> exact fun h => by cases h

theorem Chip.resolveBinary_spec (hchip : Chip d t image flash) (w : World d) :
    wp (resolveBinary t) (fun _ w' => flash w'.dev = flash w.dev)
      (fun e w' => flash w'.dev = flash w.dev ∧ ∀ msg, e ≠ .imageVerificationError msg) w := by
  have hkeeps (s : d.State) : flash (d.respond (.runCli (versionCmd t) 5) s).2 = flash s :=
    hchip.keeps _ s fun path base chipErase ts heq =>
      command_ne_version _ (FlashCall.runCli.inj heq).1.symm
  unfold resolveBinary
  rw [wp_bind, wp_getVars]
  split
  · rfl
  cases t.binary with
  | none => exact ⟨rfl, fun msg h => by cases h⟩
  | some binary =>
    dsimp only
    rw [wp_bind, wp_modifyVars, wp_attempt, wp_bind]
    apply wp_respond
    · intro run s h
      change d.respond (.runCli (versionCmd t) 5) w.dev = _ at h
      exact (congrArg flash (congrArg Prod.snd h)).symm.trans (hkeeps w.dev)
    · intro e s h
      change d.respond (.runCli (versionCmd t) 5) w.dev = _ at h
      have hs : flash s = flash w.dev :=
        (congrArg flash (congrArg Prod.snd h)).symm.trans (hkeeps w.dev)
      dsimp only
      split
      · exact hs
      · refine ⟨hs, ?_⟩
        rcases hchip.raises _ w.dev e (by rw [h]) with rfl | ⟨msg', rfl⟩ <;>
          exact fun msg h => by cases h

theorem Chip.readBack_spec (hchip : Chip d t image flash) (n : Nat) (w : World d) :
    wp (readBack t base n)
      (fun bs w' => flash w'.dev = flash w.dev ∧ bs = cells (flash w.dev) base n)
      (fun e w' => flash w'.dev = flash w.dev ∧ ∀ msg, e ≠ .imageVerificationError msg) w := by
  rw [readBack, wp_bind, runCli, wp_bind]
  apply (hchip.resolveBinary_spec w).mono ?_ fun _ _ h => h
  intro _ w₁ hmem₁
  rw [← hmem₁]
  apply (hchip.attempts_spec (fun h => ?_) (List.cons_ne_nil _ _) _ _ _ (flash w₁.dev) w₁ rfl).mono
  · rintro stdout w' ⟨hmem, s, stderr, hs, hrun⟩
    refine ⟨hmem, ?_⟩
    have hrend := hchip.reads (Prod.ext hrun (Eq.refl (d.respond _ s).2))
    rw [hs] at hrend
    exact ProbeRsTransport.parseHexOutput_of_rendering hrend
  · exact fun _ _ h => h
  · simp at h

theorem readBack_error_leaves (t : FlashProbe) (base n : Nat) :
    Leaves (do
      let expected : Bytes ← askFlash (.readFile n)
      let actual ← readBack t base n
      compareImages base expected actual : Prog d Unit) (fun _ _ => True)
      fun e seg =>
        (∃ msg, e = .imageVerificationError msg) ∨ ∀ x ∈ commandRuns t seg, x.2 = false := by
  have hempty (s : List (Entry flashInterface)) (hs : s.filterMap cliRun = []) :
      ∀ x ∈ commandRuns t s, x.2 = false := by
    intro x hx
    rw [commandRuns_nil hs] at hx
    exact (List.not_mem_nil hx).elim
  refine Leaves.bind ((noRuns_ask (.readFile n) fun _ => rfl).mono (fun _ _ h => h)
    fun _ s h => .inr (hempty s h)) fun expected s hs => ?_
  refine Leaves.bind (Q := fun _ _ => True) ?_ fun actual s' _ => ?_
  · refine Leaves.bind ((runCli_leaves (readArgs base n) 5).mono (fun _ _ h => h)
      fun _ seg h => .inr fun x hx => ?_) fun _ _ _ => .pure trivial
    rw [commandRuns_append] at hx
    rcases List.mem_append.1 hx with hx | hx
    · exact hempty s hs x hx
    · obtain ⟨k, -, hk⟩ := h
      rw [hk] at hx
      rw [List.eq_of_mem_replicate hx]
  · unfold compareImages
    split
    · exact .fail (.inl ⟨_, rfl⟩)
    split
    · exact .pure trivial
    split
    · exact .fail (.inl ⟨_, rfl⟩)
    · exact .pure trivial

/-- The verification passes a chip that has the image, or that no read-back gets an answer from. -/
theorem Chip.verifyFlash_ok (hchip : Chip d t image flash) (hne : image ≠ []) {w w' : World d}
    (h : verifyFlash t base w = .ok () w') :
    Matches image base (flash w'.dev) ∨ ∀ x ∈ commandRuns t (w.since w'), x.2 = false := by
  obtain ⟨size, w₁, hsize, h⟩ := bind_ok h
  have hlen : size = image.length := hchip.size (call_respond hsize)
  subst hlen
  rw [if_neg (by rw [Nat.min_eq_zero_iff]; simpa using hne)] at h
  rcases attempt_ok h with hread | ⟨e, w₂, hread, -, hhandled⟩
  · obtain ⟨expected, w₂, hexpected, hread⟩ := bind_ok hread
    have himage := hchip.content (call_respond hexpected)
    subst himage
    obtain ⟨actual, w₃, hactual, hcompare⟩ := bind_ok hread
    obtain ⟨hmem, rfl⟩ := (hchip.readBack_spec _ w₂).ok hactual
    obtain ⟨rfl, hmatches⟩ := (wp_compareImages rfl w₃).ok hcompare
    rw [hmem]
    exact .inl hmatches
  · -- an error that is swallowed: the file or the chip gave no answer
    have hsince := (readBack_error_leaves t base _).error hread
    have hsame : w₂ = w' ∧ ∀ msg, e ≠ .imageVerificationError msg := by
      unfold verifyHandler at hhandled
      split at hhandled
      · cases hhandled
      · rename_i hother
        cases hhandled
        exact ⟨rfl, hother⟩
    obtain ⟨rfl, hother⟩ := hsame
    have hfailed := hsince.resolve_left fun ⟨msg, hmsg⟩ => hother msg hmsg
    have hgrows : w₁.trace <+: w₂.trace := by
      obtain ⟨seg, htrace, -⟩ := ((readBack_error_leaves t base _).runs w₁).error hread
      exact ⟨seg, htrace.symm⟩
    refine .inr fun x hx => ?_
    rw [World.since_append (call_grows hsize) hgrows, commandRuns_append, call_since hsize] at hx
    exact hfailed x hx

theorem Chip.verifyFlash_error (hchip : Chip d t image flash) {w w' : World d} {msg : String}
    (h : verifyFlash t base w = .error (.imageVerificationError msg) w') :
    Mismatch image base (flash w'.dev) msg := by
  rcases bind_error h with h | ⟨size, w₁, hsize, h⟩
  · exact absurd rfl (hchip.calm h msg)
  have hlen : size = image.length := hchip.size (call_respond hsize)
  subst hlen
  split at h
  · cases h
  have hread : (do
      let expected : Bytes ← askFlash (.readFile (min 256 image.length))
      let actual ← readBack t base (min 256 image.length)
      compareImages base expected actual : Prog d Unit) w₁ =
        .error (.imageVerificationError msg) w' := by
    rcases attempt_error h with h | ⟨e, w₂, hread, hhandled⟩
    · exact h
    · unfold verifyHandler at hhandled
      split at hhandled
      · cases hhandled
        exact hread
      · cases hhandled
  rcases bind_error hread with h | ⟨expected, w₂, hexpected, h⟩
  · exact absurd rfl (hchip.calm h msg)
  have himage := hchip.content (call_respond hexpected)
  subst himage
  rcases bind_error h with h | ⟨actual, w₃, hactual, h⟩
  · exact absurd rfl (((hchip.readBack_spec _ w₂).error h).2 msg)
  obtain ⟨hmem, rfl⟩ := (hchip.readBack_spec _ w₂).ok hactual
  obtain ⟨rfl, msg', hmsg, hmismatch⟩ := (wp_compareImages rfl w₃).error h
  cases hmsg
  rw [hmem]
  exact hmismatch

/-- All of `flash_firmware` before its verification. -/
def flashPrelude (t : FlashProbe) (path : FirmwarePath) (base : Nat) (chipErase : Bool) :
    Prog d Unit := do
  validateFirmwareFile path
  let _ : Nat ← askFlash .fileSize
  askFlash .hashFile
  attempt (flashProbeRs t path base chipErase) (fun _ => true) (dispatchHandler t)

variable {path : FirmwarePath} {chipErase : Bool}

theorem flashFirmware_eq (hbin : path.suffix = ".bin") :
    flashFirmware t path base true chipErase = (do
      flashPrelude t path base chipErase
      verifyFlash t base
      pure true : Prog d Bool) := by
  rw [flashFirmware, flashPrelude, hbin]
  simp only [bind_assoc, onlyIf, beq_self_eq_true, Bool.and_self, ↓reduceIte]

theorem flashPrelude_leaves :
    Leaves (flashPrelude t path base chipErase : Prog d Unit)
      (fun _ seg => ∀ n b, (command t (readArgs base n), b) ∉ commandRuns t seg)
      fun _ _ => True := by
  have hruns : Leaves (flashPrelude t path base chipErase : Prog d Unit)
      (fun _ seg => FlashRuns t path base false chipErase true (commandRuns t seg))
      fun _ _ => True := by
    have hleaves : Leaves (flashPrelude t path base chipErase : Prog d Unit)
        (fun _ seg => FlashRuns t path base false chipErase true (commandRuns t seg))
        fun _ seg => FlashRuns t path base false chipErase false (commandRuns t seg) := by
      have hnone := FlashRuns.nothing t path base false chipErase
      exact noRuns_bind noRuns_validate (fun _ => noRuns_bind (noRuns_ask .fileSize fun _ => rfl)
        (fun _ => noRuns_bind (noRuns_ask .hashFile fun _ => rfl) (fun _ => flashBackend_leaves)
          hnone) hnone) hnone
    exact hleaves.mono (fun _ _ h => h) fun _ _ _ => trivial
  refine hruns.mono (fun _ seg h n b hmem => ?_) fun _ _ h => h
  obtain ⟨downloads, resets, reads, hseg, hdown, hresets, -, hreads, -⟩ := h
  have hnil : reads = [] := hreads.resolve_right fun h => Bool.noConfusion h.1
  rw [hseg, hnil, List.append_nil, List.mem_append] at hmem
  have hread (args : List String) (h : command t (readArgs base n) = command t args) :
      args.head? = some "read" ∨ args = [] := by
    cases args with
    | nil => exact .inr rfl
    | cons a args =>
      simp only [command, ProbeRsTransport.buildCmd, readArgs, List.cons_append, List.nil_append,
        List.cons.injEq] at h
      exact .inl (congrArg some h.2.1.symm)
  rcases hmem with hmem | hmem
  · have hcmd : command t (readArgs base n) = command t (downloadArgs path base chipErase) := by
      rcases hdown with hdown | hdown
      · exact hdown.all.1 _ hmem
      · exact hdown.all.1 _ hmem
    rcases hread _ hcmd with h | h
    · revert h
      simp [downloadArgs]
    · revert h
      simp [downloadArgs]
  · rcases hread _ (hresets _ hmem) with h | h
    · revert h
      decide
    · cases h

/-- A step that never rejects the image. -/
abbrev Calm (p : Prog d α) : Prop :=
  ∀ w, wp p (fun _ _ => True) (fun e _ => ∀ msg, e ≠ .imageVerificationError msg) w

theorem Calm.bind {p : Prog d β} {k : β → Prog d α} (hp : Calm p) (hk : ∀ b, Calm (k b)) :
    Calm (p >>= k) :=
  fun w => (wp_bind p k).2 ((hp w).mono (fun b w' _ => hk b w') fun _ _ h => h)

theorem Calm.attempt {p : Prog d α} {catches : FlashErr → Bool} {handler : FlashErr → Prog d α}
    (hp : Calm p) (hhandler : ∀ e, (∀ msg, e ≠ .imageVerificationError msg) → Calm (handler e)) :
    Calm (attempt p catches handler) := fun w => by
  refine (wp_attempt p catches handler).2 ((hp w).mono (fun _ _ h => h) fun e w' he => ?_)
  split
  · exact hhandler e he w'
  · exact he

theorem Chip.calm_ask (hchip : Chip d t image flash) (c : FlashCall) :
    Calm (askFlash c : Prog d c.Ans) := fun w => by
  unfold wp
  split
  · trivial
  · exact hchip.calm ‹_›

theorem calm_provisioning (msg : String) : Calm (failFlash (.provisioningError msg) : Prog d α) :=
  fun _ _ h => by cases h

theorem Chip.calm_runCli (hchip : Chip d t image flash) (args : List String) (retries : Nat)
    (timeoutS : Nat) (context : String) :
    Calm (runCli t args retries timeoutS context : Prog d (List Char)) := by
  have hattempts (cmd : List String) (left attempt : Nat) (last : Option ProbeRsError) :
      Calm (attempts context cmd timeoutS left attempt last : Prog d (List Char)) := by
    induction left generalizing attempt last with
    | zero =>
      cases last with
      | none => exact fun _ _ h => by cases h
      | some e => exact fun _ _ h => by cases h
    | succ left ih =>
      refine (hchip.calm_ask _).bind fun run => ?_
      split
      · exact fun _ => trivial
      · refine Calm.bind (fun w => wp_onlyIf (fun _ => hchip.calm_ask _ w) fun _ => trivial)
          fun _ => ih _ _
  have hresolve : Calm (resolveBinary t : Prog d Unit) :=
    fun w => (hchip.resolveBinary_spec w).mono (fun _ _ _ => trivial) fun _ _ h => h.2
  exact hresolve.bind fun _ => hattempts _ _ _ _

theorem Chip.calm_prelude (hchip : Chip d t image flash) :
    Calm (flashPrelude t path base chipErase : Prog d Unit) := by
  have hvalidate : Calm (validateFirmwareFile path : Prog d Unit) := by
    refine (hchip.calm_ask .exists).bind fun found => ?_
    split
    · exact calm_provisioning _
    refine (hchip.calm_ask .isFile).bind fun isFile => ?_
    split
    · exact calm_provisioning _
    refine (hchip.calm_ask .fileSize).bind fun size => ?_
    split
    · exact calm_provisioning _
    · exact fun _ => trivial
  have hbackend : Calm (flashProbeRs t path base chipErase : Prog d Unit) :=
    (hchip.calm_runCli _ _ _ _).bind fun _ => (hchip.calm_runCli _ _ _ _).bind fun _ _ => trivial
  have hhalt : Calm (safeHalt t : Prog d Unit) := by
    refine Calm.attempt ((hchip.calm_runCli _ _ _ _).bind fun _ _ => ?_) fun _ _ _ => ?_
    all_goals trivial
  refine hvalidate.bind fun _ => (hchip.calm_ask .fileSize).bind fun _ =>
    (hchip.calm_ask .hashFile).bind fun _ => hbackend.attempt fun e he => ?_
  cases e with
  | keyboardInterrupt => exact hhalt.bind fun _ => calm_provisioning _
  | imageVerificationError msg => exact absurd rfl (he msg)
  | provisioningError | probeRsError | valueError | assertionError | otherException =>
    exact calm_provisioning _

/-- A flash that returns has put the image where the verification looks, or no read-back got an
answer; an image that is rejected is wrong at the byte the error names. -/
def Verdict (t : FlashProbe) (image : Bytes) (base : Nat) (flash : d.State → Nat → UInt8)
    (w : World d) : EStateM.Result FlashErr (World d) Bool → Prop
  | .ok r w' => r = true ∧ (Matches image base (flash w'.dev) ∨
      ∀ n, (command t (readArgs base n), true) ∉ cliRuns (w.since w'))
  | .error (.imageVerificationError msg) w' => Mismatch image base (flash w'.dev) msg
  | .error _ _ => True

/-- The verdict on a chip is right. -/
theorem flash_verdict (hchip : Chip d t image flash) (hne : image ≠ [])
    (hbin : path.suffix = ".bin") (w : World d) :
    Verdict t image base flash w (flashFirmware t path base true chipErase w) := by
  have hok (r : Bool) (w' : World d) (h : flashFirmware t path base true chipErase w = .ok r w') :
      r = true ∧ (Matches image base (flash w'.dev) ∨
        ∀ n, (command t (readArgs base n), true) ∉ cliRuns (w.since w')) := by
    rw [flashFirmware_eq hbin] at h
    obtain ⟨_, w₁, hprelude, h⟩ := bind_ok h
    obtain ⟨_, w₂, hverify, h⟩ := bind_ok h
    obtain ⟨rfl, rfl⟩ := pure_ok h
    refine ⟨rfl, (hchip.verifyFlash_ok hne hverify).imp_right fun hfailed n hmem => ?_⟩
    obtain ⟨seg₁, htrace₁, hseg₁⟩ := (flashPrelude_leaves.runs w).ok hprelude
    obtain ⟨seg₂, htrace₂, -⟩ := (verifyFlash_leaves.runs w₁).ok hverify
    rw [World.since_append ⟨seg₁, htrace₁.symm⟩ ⟨seg₂, htrace₂.symm⟩, cliRuns_append,
      World.since_eq htrace₁] at hmem
    rcases List.mem_append.1 hmem with hmem | hmem
    · exact hseg₁ n true (mem_commandRuns hmem)
    · cases hfailed _ (mem_commandRuns hmem)
  have herror (msg : String) (w' : World d)
      (h : flashFirmware t path base true chipErase w = .error (.imageVerificationError msg) w') :
      Mismatch image base (flash w'.dev) msg := by
    rw [flashFirmware_eq hbin] at h
    rcases bind_error h with h | ⟨_, w₁, -, h⟩
    · exact absurd rfl ((hchip.calm_prelude w).error h msg)
    rcases bind_error h with h | ⟨_, w₂, -, h⟩
    · exact hchip.verifyFlash_error h
    · cases h
  unfold Verdict
  split
  · exact hok _ _ ‹_›
  · exact herror _ _ ‹_›
  · trivial

end

def flashProbe : FlashProbe where
  chip := "STM32F407VG"
  protocol := "swd"
  speed := 4000
  binary := some "/usr/bin/probe-rs"
  timeoutS := 120

def firmwareBin : FirmwarePath := ⟨"/srv/firmware.bin", ".bin"⟩

/-- A run of the tool on a chip with one byte of flash memory. -/
def oneByteRun (cmd : List String) (programmed : Bool) : CliRun × Bool :=
  if cmd = command flashProbe (downloadArgs firmwareBin 0x08000000 false) then
    (.exited 0 [] [], true)
  else if cmd[1]? = some "reset" then (.exited 0 [] [], programmed)
  else if cmd[1]? = some "read" ∧ cmd[4]? = some (toString (1 : Int)) then
    (.exited 0 (if programmed then ['1', '2'] else ['f', 'f']) [], programmed)
  else (.exited 1 [] [], programmed)

def oneByteChip : FlashBench where
  State := Bool
  respond c s :=
    match c with
    | .exists | .isFile => (.ok true, s)
    | .fileSize => (.ok 1, s)
    | .hashFile | .sleep _ => (.ok (), s)
    | .readFile n => (.ok ([0x12].take n), s)
    | .runCli cmd _ => (.ok (oneByteRun cmd s).1, (oneByteRun cmd s).2)

def oneByteFlash (programmed : Bool) : Nat → UInt8 := fun _ => if programmed then 0x12 else 0xff

theorem oneByte_rendering (programmed : Bool) :
    ProbeRsTransport.Rendering [oneByteFlash programmed 0]
      (if programmed then ['1', '2'] else ['f', 'f']) := by
  cases programmed
  · exact ⟨[[0xff]], rfl, .cons ⟨[], ['f', 'f'], rfl, .inl rfl,
      .cons ⟨'f', 'f', 15, 15, rfl, rfl, rfl, rfl⟩ .nil⟩ .nil⟩
  · exact ⟨[[0x12]], rfl, .cons ⟨[], ['1', '2'], rfl, .inl rfl,
      .cons ⟨'1', '2', 1, 2, rfl, rfl, rfl, rfl⟩ .nil⟩ .nil⟩

theorem oneByteRun_read {base n : Nat} {s : Bool} {stdout stderr : List Char}
    (h : (oneByteRun (command flashProbe (readArgs base n)) s).1 = .exited 0 stdout stderr) :
    n = 1 ∧ stdout = if s then ['1', '2'] else ['f', 'f'] := by
  have hdown : command flashProbe (readArgs base n) ≠
      command flashProbe (downloadArgs firmwareBin 0x08000000 false) :=
    command_ne_download (fun h => by simp [readArgs] at h) (List.cons_ne_nil _ _)
  have hcmd : (command flashProbe (readArgs base n))[1]? = some "read" ∧
      (command flashProbe (readArgs base n))[4]? = some (toString (n : Int)) := ⟨rfl, rfl⟩
  rw [oneByteRun, if_neg hdown, hcmd.1, hcmd.2, if_neg (by decide)] at h
  split at h
  · rename_i hn
    cases h
    have hdigits : Nat.toDigits 10 n = Nat.toDigits 10 1 :=
      String.ofList_injective (Option.some.inj hn.2)
    have hsize : Nat.ofDigitChars 10 (Nat.toDigits 10 n) 0 = 1 := by
      rw [hdigits, Nat.ofDigitChars_ten_toDigits]
    exact ⟨by rwa [Nat.ofDigitChars_ten_toDigits] at hsize, rfl⟩
  · cases h

theorem oneByteChip_chip : Chip oneByteChip flashProbe [0x12] oneByteFlash where
  size h := by cases h; rfl
  content h := by cases h; rfl
  reads {base n timeoutS s stdout stderr s'} h := by
    have hrun : (oneByteRun (command flashProbe (readArgs base n)) s).1 = .exited 0 stdout stderr :=
      Except.ok.inj (Prod.ext_iff.1 h).1
    obtain ⟨rfl, rfl⟩ := oneByteRun_read hrun
    exact oneByte_rendering s
  keeps c s hc := by
    cases c with
    | runCli cmd timeoutS =>
      have hdown : cmd ≠ command flashProbe (downloadArgs firmwareBin 0x08000000 false) :=
        fun h => hc _ _ _ timeoutS (by rw [h])
      change oneByteFlash (oneByteRun cmd s).2 = oneByteFlash s
      unfold oneByteRun
      rw [if_neg hdown]
      split
      · rfl
      split <;> rfl
    | _ => rfl
  raises c s e h := by
    cases c <;> cases h

def blankChip : World oneByteChip := ⟨{}, false, []⟩

theorem flash_verdict_one_byte :
    Verdict flashProbe [0x12] 0x08000000 oneByteFlash blankChip
      (flashFirmware flashProbe firmwareBin 0x08000000 true false blankChip) :=
  flash_verdict oneByteChip_chip (List.cons_ne_nil _ _) rfl _

end McuProvisioner

end MesCore
