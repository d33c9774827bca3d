import MesCore.CallHistory
import MesCore.Efuse
import MesCore.UbootShell

namespace MesCore
set_option autoImplicit true

open NvmemEfuseValidator (Builtins)

/-- A file below `/sys/bus/usb/devices/<device>`. -/
inductive SysfsFile
  | missing
  | unreadable
  | text (s : String)

/-- A USB device of the host. -/
structure UsbDevice where
  path : String
  idVendor : SysfsFile
  idProduct : SysfsFile
  serial : SysfsFile
  product : SysfsFile

structure MicrochipProbe where
  vid : String
  pid : String
  serial : String
  product : String
  toolType : String
  sysfsPath : String
  deriving DecidableEq

def microchipUsbVid : String := "04d8"

def knownProbes : List (String × String) :=
  [("9012", "PK4"), ("9018", "PK5"), ("9009", "PK3"), ("9014", "ICD4"), ("9015", "ICD5"),
    ("9010", "SNAP")]

/-- An optional file, stripped; `none` is an exception. -/
def SysfsFile.stripped : SysfsFile → Option String
  | .missing => some ""
  | .unreadable => none
  | .text s => some (stripText s)

def SysfsFile.content : SysfsFile → Option String
  | .text s => some (stripText s)
  | _ => none

/-- One turn of the loop of `detect_microchip_probes`. -/
def microchipProbe (lower : String → String) (dev : UsbDevice) : Option MicrochipProbe := do
  let vid ← dev.idVendor.content.map lower
  let pid ← dev.idProduct.content.map lower
  if vid = microchipUsbVid then
    let serial ← dev.serial.stripped
    let product ← dev.product.stripped
    return ⟨vid, pid, serial, product, (knownProbes.lookup pid).getD "UNKNOWN", dev.path⟩
  else none

def detectMicrochipProbes (lower : String → String) (devices : List UsbDevice) :
    List MicrochipProbe :=
  devices.filterMap (microchipProbe lower)

structure HostPickitAdapter where
  toolSerial : String
  probeInfo : Option MicrochipProbe

namespace HostPickitAdapter

def noProbe : String :=
  "No Microchip PICkit/ICD probes found on host USB bus and no tool_serial configured."

def multipleProbes (detected : List MicrochipProbe) : String :=
  let probes := ", ".intercalate (detected.map fun p => s!"{p.product} ({p.serial})")
  s!"Multiple Microchip probes detected [{probes}]. Please configure tool_serial explicitly in " ++
    "station TOML."

/-- `HostPickitAdapter(tool_serial, auto_detect=..)`, or the message of its `HostAdapterError`. -/
def create (toolSerial : Option String) (autoDetect : Bool) (detected : List MicrochipProbe) :
    Except String HostPickitAdapter :=
  let requested := stripText (toolSerial.getD "")
  if (requested = "" ∨ requested = "auto") ∧ autoDetect then
    match detected with
    | [p] => .ok ⟨p.serial, some p⟩
    | [] => if requested = "" then .error noProbe else .ok ⟨requested, none⟩
    | _ => .error (multipleProbes detected)
  else .ok ⟨requested, detected.find? fun p => p.serial = requested⟩

def toolType (a : HostPickitAdapter) : String :=
  match a.probeInfo with
  | some p => p.toolType
  | none => "UNKNOWN"

end HostPickitAdapter

/-- The calls of the provisioner: the files, the tool, the log it leaves, the clock. -/
inductive IpeCall
  | ipecmdExists
  | imageExists
  | ipecmdIsFile
  | execute (cmd : List String) (timeoutS : Int) (cwd : Option String)
  | exportLog
  | sleep (ms : Nat)

/-- A run that ends answers with its exit code and its output. -/
@[reducible] def IpeCall.Ans : IpeCall → Type
  | .ipecmdExists => Bool
  | .imageExists => Bool
  | .ipecmdIsFile => Bool
  | .execute _ _ _ => Int × List Char
  | .exportLog => Unit
  | .sleep _ => Unit

inductive IpeErr
  | provisioningError (msg : String)
  | imageVerificationError (msg : String)
  | siliconLockError (msg : String)
  | processTimeoutError
  | processExecutionError (msg : String)
  | otherException (msg : String)
  | keyboardInterrupt
  deriving DecidableEq

@[reducible] def ipeInterface : Interface where
  Call := IpeCall
  Ans := IpeCall.Ans
  Err := IpeErr
  Note := Empty
  Vars := Unit

abbrev IpeBench := Device ipeInterface

/-- A path, as `str`, `resolve`, `parent` and `suffix` have it. -/
structure IpecmdPath where
  text : String
  resolved : String
  parent : String
  suffix : String

structure MicrochipIpeProvisioner where
  pickit : HostPickitAdapter
  ipecmdPath : IpecmdPath
  device : String
  timeoutS : Int := 60
  extraFlags : List String := []
  retries : Int := 1

namespace MicrochipIpeProvisioner

def summary (stdout : List Char) : String :=
  let lines := splitLines (pyStrip stdout)
  let last := ((lines.drop (lines.length - 3)).map pyStrip).filter (· ≠ [])
  " | ".intercalate (last.map String.ofList)

section
variable (lib : Builtins) (lower : List Char → List Char) (p : MicrochipIpeProvisioner)

/-- What is looked for in the output, and the error that it is reported as. -/
def failures : List (List String × IpeErr) :=
  [(["no voltage has been detected on vdd"],
      .provisioningError ("Target VDD missing. ICSP refused to connect. Ensure target is " ++
        "energized or add -W3.3 to extra_flags.")),
    (["target device was not found", "target silicon not detected"], .provisioningError
      s!"Target silicon '{p.device}' not detected. Check physical ICSP connections and VDD."),
    (["verify failed"], .imageVerificationError "ICSP readback verification failed."),
    (["protected", "code protect"],
      .siliconLockError "PIC Configuration Bits are locked. Cannot flash."),
    (["could not find a tool with the serial number", "no tool found"], .provisioningError
      s!"Microchip probe with serial '{p.pickit.toolSerial}' not found by IPECMD."),
    (["connection failed", "failed to connect"],
      .provisioningError "IPECMD connection failed. Target could not be contacted."),
    (["exception in thread", "outofmemoryerror"],
      .provisioningError "IPECMD JVM crashed. Check Host PC RAM and Java version.")]

/-- The error that a run is reported as, if it is no success. -/
def judge (returncode : Int) (stdout : List Char) : Option IpeErr :=
  let s := lower stdout
  match (failures p).find? fun f => prints f.1 s with
  | some f => some f.2
  | none =>
    if returncode ≠ 0 then
      some (.provisioningError
        s!"IPECMD returned non-zero exit code {returncode}: {summary stdout}")
    else if !prints ["program succeeded"] s && !prints ["programming complete"] s then
      some (.provisioningError
        "IPECMD returned exit code 0, but did not confirm programming was complete.")
    else none

/-- What comes of one flag of `extra_flags`. -/
def sanitizeFlag (toolType flag : String) : Option String :=
  let expectedTp := "-TP" ++ toolType
  if "-TP".toList <+: (lib.upper flag).toList ∧ toolType ≠ "UNKNOWN" ∧ lib.upper flag ≠ expectedTp
  then some expectedTp
  else if lib.upper flag = "-OH" then none
  else some flag

def sanitize (toolType : String) (extraFlags : List String) : List String :=
  extraFlags.filterMap (sanitizeFlag lib toolType)

/-- What comes behind the target and the payload: erase, program and verify, then the flags. -/
def flagArgs (toolType : String) (extraFlags : List String) : List String :=
  let flags := sanitize lib toolType extraFlags
  (if flags.any fun f => lib.upper f = "-E" then [] else ["-E"]) ++
    (if flags.any fun f => "-M".toList <+: (lib.upper f).toList then [] else ["-M"]) ++
    (if flags.any fun f => "-Y".toList <+: (lib.upper f).toList then [] else ["-Y"]) ++ flags

def command (image : IpecmdPath) : List String :=
  (if p.ipecmdPath.suffix = ".jar" then ["java", "-jar", p.ipecmdPath.text]
    else [p.ipecmdPath.resolved]) ++
    ["-P" ++ p.device, "-TS" ++ p.pickit.toolSerial, "-F" ++ image.resolved] ++
    flagArgs lib p.pickit.toolType p.extraFlags

variable {d : IpeBench}

abbrev askIpe (c : IpeCall) : Prog d c.Ans := call (I := ipeInterface) c

def failIpe (e : IpeErr) : Prog d α := fail (I := ipeInterface) e

def isProcessError : IpeErr → Bool
  | .processTimeoutError | .processExecutionError _ => true
  | _ => false

def processHandler : IpeErr → Prog d Unit
  | .processTimeoutError => failIpe (.provisioningError
      s!"PIC flash operation timed out after {p.timeoutS}s. JVM Deadlock.")
  | .processExecutionError msg => failIpe (.provisioningError
      s!"Failed to execute IPECMD script. Error: {msg}")
  | e => failIpe e

/-- `_execute_flash`. -/
def executeFlash (cmd : List String) (cwd : Option String) : Prog d Unit :=
  attempt (do
    let run : Int × List Char ← askIpe (.execute cmd p.timeoutS cwd)
    match judge lower p run.1 run.2 with
    | none => pure ()
    | some e => do
      askIpe .exportLog
      failIpe e)
    isProcessError (processHandler p)

/-- What is tried again: a `ProvisioningError`, but no `SiliconLockError`. -/
def retryable : IpeErr → Bool
  | .provisioningError _ | .imageVerificationError _ => true
  | _ => false

def provision (image : IpecmdPath) : Prog d Bool := do
  let found : Bool ← askIpe .ipecmdExists
  if !found then
    failIpe (.provisioningError s!"IPECMD executable not found at {p.ipecmdPath.text}.")
  else do
    let found : Bool ← askIpe .imageExists
    if !found then failIpe (.provisioningError s!"Firmware hex not found: {image.text}")
    else do
      let isFile : Bool ← askIpe .ipecmdIsFile
      retry retryable (askIpe (.sleep 2000))
        (executeFlash lower p (command lib p image)
          (if isFile then some p.ipecmdPath.parent else none)) p.retries.toNat
      pure true

end

/-- How a run of the tool ends: with its exit code and its output, or with an exception. -/
abbrev RunEnd := Except IpeErr (Int × List Char)

/-- A run of the tool, or a pause. -/
inductive IpeStep
  | run (cmd : List String) (timeoutS : Int) (cwd : Option String) (r : RunEnd)
  | pause (ms : Nat)

def ipeStep : Entry ipeInterface → Option IpeStep
  | .call (.execute cmd timeoutS cwd) r => some (.run cmd timeoutS cwd r)
  | .call (.sleep ms) (.ok _) => some (.pause ms)
  | _ => none

def failurePhrases : List String :=
  ["no voltage has been detected on vdd", "target device was not found",
    "target silicon not detected", "verify failed", "protected", "code protect",
    "could not find a tool with the serial number", "no tool found", "connection failed",
    "failed to connect", "exception in thread", "outofmemoryerror"]

/-- The tool says that it has programmed the chip, and nothing else than that went wrong. -/
def Confirmed (output : List Char) : Prop :=
  prints ["program succeeded", "programming complete"] output = true ∧
    prints failurePhrases output = false

def isLock : IpeErr → Bool
  | .siliconLockError _ => true
  | _ => false

section
variable (lower : List Char → List Char) (p : MicrochipIpeProvisioner)

def Accepted (r : RunEnd) : Prop := ∃ stdout, r = .ok (0, stdout) ∧ Confirmed (lower stdout)

def report : RunEnd → Option IpeErr
  | .ok run => judge lower p run.1 run.2
  | .error .processTimeoutError => some (.provisioningError
      s!"PIC flash operation timed out after {p.timeoutS}s. JVM Deadlock.")
  | .error (.processExecutionError msg) => some (.provisioningError
      s!"Failed to execute IPECMD script. Error: {msg}")
  | .error _ => none

/-- The runs of one provision are of one command: all but the last are rejected, as nothing that
is final, and followed by a pause. -/
structure Attempts (cmd : List String) (cwd : Option String) (n : Nat) (rejected : List RunEnd)
    (last : RunEnd) (steps : List IpeStep) : Prop where
  steps_eq : steps = rejected.flatMap (fun r => [.run cmd p.timeoutS cwd r, .pause 2000]) ++
    [.run cmd p.timeoutS cwd last]
  bounded : rejected.length ≤ n
  retried : ∀ r ∈ rejected, ∃ e, report lower p r = some e ∧ retryable e = true

/-- The answer is the verdict on the last run, and no attempt is left when it is to be tried
again. -/
def Ends (n : Nat) (rejected : List RunEnd) (last : RunEnd) : Except IpeErr Bool → Prop
  | .ok b => b = true ∧ Accepted lower last
  | .error e => ¬ Accepted lower last ∧
    (isLock e = true → report lower p last = some e) ∧
    (retryable e = true → report lower p last = some e ∧ rejected.length = n)

theorem find_failures_eq_none (output : List Char) :
    (failures p).find? (fun f => prints f.1 output) = none ↔
      prints failurePhrases output = false := by
  have hphrases : failurePhrases = (failures p).flatMap Prod.fst := rfl
  rw [List.find?_eq_none, hphrases, prints_eq_false]
  constructor
  · intro h q hq
    obtain ⟨f, hf, hqf⟩ := List.mem_flatMap.1 hq
    exact prints_eq_false.1 (Bool.eq_false_iff.2 (h f hf)) q hqf
  · intro h f hf
    rw [Bool.not_eq_true, prints_eq_false]
    exact fun q hq => h q (List.mem_flatMap.2 ⟨f, hf, hq⟩)

theorem judge_eq_none_iff (returncode : Int) (stdout : List Char) :
    judge lower p returncode stdout = none ↔ returncode = 0 ∧ Confirmed (lower stdout) := by
  have happend : ["program succeeded", "programming complete"] =
      ["program succeeded"] ++ ["programming complete"] := rfl
  rw [Confirmed, happend, prints_append, ← find_failures_eq_none p, judge]
  cases (failures p).find? fun f => prints f.1 (lower stdout) with
  | some f =>
    constructor
    · exact fun h => by cases h
    · exact fun h => by cases h.2.2
  | none =>
    by_cases hcode : returncode = 0
    · cases hs : prints ["program succeeded"] (lower stdout) <;>
        cases hc : prints ["programming complete"] (lower stdout) <;> simp [hcode]
    · simp [hcode]

end

/-- What the calls raise themselves: an `OSError` or an interrupt, and the run what `LiveProcess`
raises. -/
structure Raises (d : IpeBench) : Prop where
  raises : ∀ c s e s', d.respond c s = (.error e, s') →
    e = .keyboardInterrupt ∨ (∃ msg, e = .otherException msg) ∨
      isProcessError e = true ∧ ∃ cmd timeoutS cwd, c = .execute cmd timeoutS cwd

section
variable {d : IpeBench} (lower : List Char → List Char) (p : MicrochipIpeProvisioner)

theorem Raises.error (h : Raises d) {c : IpeCall} {s s' : d.State} {e : IpeErr}
    (hr : d.respond c s = (.error e, s')) : retryable e = false ∧ isLock e = false := by
  rcases h.raises c s e s' hr with rfl | ⟨_, rfl⟩ | ⟨he, _⟩
  · exact ⟨rfl, rfl⟩
  · exact ⟨rfl, rfl⟩
  · cases e with
    | processTimeoutError => exact ⟨rfl, rfl⟩
    | processExecutionError msg => exact ⟨rfl, rfl⟩
    | _ => cases he

/-- A call other than the run raises nothing that `_execute_flash` turns into a verdict. -/
theorem Raises.passes (h : Raises d) {c : IpeCall} {s s' : d.State} {e : IpeErr}
    (hr : d.respond c s = (.error e, s')) (hc : ∀ cmd t cwd, c ≠ .execute cmd t cwd) :
    isProcessError e = false := by
  rcases h.raises c s e s' hr with rfl | ⟨_, rfl⟩ | ⟨_, cmd, t, cwd, rfl⟩
  · rfl
  · rfl
  · exact (hc cmd t cwd rfl).elim

/-- The answer of one run is its verdict, unless something else is raised. -/
def Judged (r : RunEnd) (e : IpeErr) : Prop :=
  ¬ Accepted lower r ∧ (retryable e = true ∨ isLock e = true → report lower p r = some e)

theorem not_accepted_of_judge {run : Int × List Char} {e : IpeErr}
    (h : judge lower p run.1 run.2 = some e) : ¬ Accepted lower (.ok run) := by
  rintro ⟨stdout, heq, hconf⟩
  cases heq
  rw [(judge_eq_none_iff lower p 0 stdout).2 ⟨rfl, hconf⟩] at h
  cases h

theorem not_accepted_error (e : IpeErr) : ¬ Accepted lower (.error e) := by
  rintro ⟨_, heq, _⟩
  cases heq

theorem judge_error {run : Int × List Char} {e : IpeErr}
    (h : judge lower p run.1 run.2 = some e) : isProcessError e = false := by
  have hfailures : ∀ f ∈ failures p, isProcessError f.2 = false := by
    simp only [failures, List.forall_mem_cons]
    exact ⟨rfl, rfl, rfl, rfl, rfl, rfl, rfl, fun f hf => (List.not_mem_nil hf).elim⟩
  rw [judge] at h
  cases hf : (failures p).find? fun f => prints f.1 (lower run.2) with
  | some f =>
    simp only [hf] at h
    cases h
    exact hfailures f (List.mem_of_find?_eq_some hf)
  | none =>
    simp only [hf] at h
    split at h
    · cases h
      rfl
    · split at h
      · cases h
        rfl
      · cases h

theorem executeFlash_leaves (hd : Raises d) (cmd : List String) (cwd : Option String) :
    Leaves (executeFlash lower p cmd cwd : Prog d Unit)
      (fun _ seg => ∃ r, seg.filterMap ipeStep = [.run cmd p.timeoutS cwd r] ∧ Accepted lower r)
      (fun e seg => ∃ r, seg.filterMap ipeStep = [.run cmd p.timeoutS cwd r] ∧
        Judged lower p r e) := by
  rw [executeFlash]
  apply Leaves.attempt (S := fun e seg =>
    ∃ r, seg.filterMap ipeStep = [.run cmd p.timeoutS cwd r] ∧ ¬ Accepted lower r ∧
      (isProcessError e = true → r = .error e) ∧
      (retryable e = true ∨ isLock e = true → report lower p r = some e))
  · apply Leaves.bind (Q := fun run (seg : List (Entry ipeInterface)) =>
        seg = [.call (.execute cmd p.timeoutS cwd) (.ok run)])
    · apply Leaves.respond
      · exact fun _ _ _ _ => rfl
      · intro e s s' hr
        refine ⟨.error e, rfl, not_accepted_error lower e, fun _ => rfl, fun he => ?_⟩
        rw [(hd.error hr).1, (hd.error hr).2] at he
        simp at he
    · rintro run _ rfl
      cases hj : judge lower p run.1 run.2 with
      | none =>
        apply Leaves.pure
        refine ⟨.ok run, rfl, run.2, ?_, ((judge_eq_none_iff lower p _ _).1 hj).2⟩
        rw [← ((judge_eq_none_iff lower p _ _).1 hj).1]
      | some e =>
        have hno := not_accepted_of_judge lower p hj
        apply Leaves.bind (Q := fun _ (seg : List (Entry ipeInterface)) =>
            seg = [.call .exportLog (.ok ())])
        · apply Leaves.respond
          · exact fun _ _ _ _ => rfl
          · intro e' s s' hr
            refine ⟨.ok run, rfl, hno, fun he => ?_, fun he => ?_⟩
            · rw [hd.passes hr (fun _ _ _ h => by cases h)] at he
              cases he
            · rw [(hd.error hr).1, (hd.error hr).2] at he
              simp at he
        · rintro _ _ rfl
          apply Leaves.fail
          refine ⟨.ok run, rfl, hno, fun he => ?_, fun _ => hj⟩
          rw [judge_error lower p hj] at he
          cases he
  · rintro e seg ⟨r, hsteps, hno, hprocess, _⟩ he
    have hr := hprocess he
    cases e with
    | processTimeoutError =>
      apply Leaves.fail
      rw [List.append_nil]
      exact ⟨r, hsteps, hno, fun _ => hr ▸ rfl⟩
    | processExecutionError msg =>
      apply Leaves.fail
      rw [List.append_nil]
      exact ⟨r, hsteps, hno, fun _ => hr ▸ rfl⟩
    | _ => cases he
  · rintro e seg ⟨r, hsteps, hno, _, hverdict⟩ _
    exact ⟨r, hsteps, hno, hverdict⟩

theorem Attempts.cons {p : MicrochipIpeProvisioner} {r : RunEnd} {e : IpeErr}
    (hr : report lower p r = some e) (he : retryable e = true)
    (h : Attempts lower p cmd cwd n rejected last steps) :
    Attempts lower p cmd cwd (n + 1) (r :: rejected) last
      (.run cmd p.timeoutS cwd r :: .pause 2000 :: steps) where
  steps_eq := by rw [h.steps_eq, List.flatMap_cons, List.append_assoc]; rfl
  bounded := Nat.succ_le_succ h.bounded
  retried := by
    rw [List.forall_mem_cons]
    exact ⟨⟨e, hr, he⟩, h.retried⟩

theorem Attempts.one (p : MicrochipIpeProvisioner) (n : Nat) (r : RunEnd) :
    Attempts lower p cmd cwd n [] r [.run cmd p.timeoutS cwd r] where
  steps_eq := rfl
  bounded := Nat.zero_le n
  retried := fun _ hr => (List.not_mem_nil hr).elim

theorem retry_leaves (hd : Raises d) (cmd : List String) (cwd : Option String) (n : Nat) :
    Leaves (retry retryable (askIpe (.sleep 2000)) (executeFlash lower p cmd cwd) n : Prog d Unit)
      (fun _ seg => ∃ rejected last,
        Attempts lower p cmd cwd n rejected last (seg.filterMap ipeStep) ∧
        Ends lower p n rejected last (.ok true))
      (fun e seg => ∃ rejected last,
        Attempts lower p cmd cwd n rejected last (seg.filterMap ipeStep) ∧
        Ends lower p n rejected last (.error e)) := by
  induction n with
  | zero =>
    apply (executeFlash_leaves lower p hd cmd cwd).mono
    · rintro _ seg ⟨r, hsteps, hr⟩
      exact ⟨[], r, hsteps ▸ .one lower p 0 r, rfl, hr⟩
    · rintro e seg ⟨r, hsteps, hno, hverdict⟩
      exact ⟨[], r, hsteps ▸ .one lower p 0 r, hno, fun he => hverdict (.inr he),
        fun he => ⟨hverdict (.inl he), rfl⟩⟩
  | succ n ih =>
    apply Leaves.attempt ((executeFlash_leaves lower p hd cmd cwd).mono ?_ fun _ _ h => h)
    · rintro e seg ⟨r, hsteps, hno, hverdict⟩ he
      have hreport := hverdict (.inl he)
      apply Leaves.bind (Q := fun _ (seg : List (Entry ipeInterface)) =>
          seg = [.call (.sleep 2000) (.ok ())])
      · apply Leaves.respond
        · exact fun _ _ _ _ => rfl
        · intro e' s s' hr
          refine ⟨[], r, ?_, hno, fun he' => ?_, fun he' => ?_⟩
          · rw [List.filterMap_append, hsteps]
            exact .one lower p (n + 1) r
          · rw [(hd.error hr).2] at he'
            cases he'
          · rw [(hd.error hr).1] at he'
            cases he'
      · rintro _ _ rfl
        apply ih.mono
        · rintro _ seg' ⟨rejected, last, hattempts, hends⟩
          refine ⟨r :: rejected, last, ?_, hends⟩
          rw [List.filterMap_append, hsteps]
          exact hattempts.cons lower hreport he
        · rintro e' seg' ⟨rejected, last, hattempts, hlast, hlock, hretry⟩
          refine ⟨r :: rejected, last, ?_, hlast, hlock, fun he' => ?_⟩
          · rw [List.filterMap_append, hsteps]
            exact hattempts.cons lower hreport he
          · exact ⟨(hretry he').1, congrArg Nat.succ (hretry he').2⟩
    · rintro e seg ⟨r, hsteps, hno, hverdict⟩ he
      refine ⟨[], r, hsteps ▸ .one lower p (n + 1) r, hno, fun hl => hverdict (.inr hl),
        fun hr => ?_⟩
      rw [he] at hr
      cases hr
    · rintro _ seg ⟨r, hsteps, hr⟩
      exact ⟨[], r, hsteps ▸ .one lower p (n + 1) r, rfl, hr⟩

end

/-- What comes of one provision. -/
def Provisioned (lib : Builtins) (lower : List Char → List Char) (p : MicrochipIpeProvisioner)
    (image : IpecmdPath) (answer : Except IpeErr Bool) (steps : List IpeStep) : Prop :=
  (steps = [] ∧ ∃ e, answer = .error e ∧ isLock e = false) ∨
    ∃ cwd rejected last,
      Attempts lower p (command lib p image) cwd p.retries.toNat rejected last steps ∧
      Ends lower p p.retries.toNat rejected last answer

end MicrochipIpeProvisioner

open MicrochipIpeProvisioner

/-- A provision runs one command until a run is accepted, the chip is locked or no retry is left,
and its answer is the verdict on the last run. -/
theorem ipe_provision {d : IpeBench} (hd : Raises d) (lib : Builtins)
    (lower : List Char → List Char) (p : MicrochipIpeProvisioner) (image : IpecmdPath) :
    Leaves (provision lib lower p image : Prog d Bool)
      (fun b seg => Provisioned lib lower p image (.ok b) (seg.filterMap ipeStep))
      (fun e seg => Provisioned lib lower p image (.error e) (seg.filterMap ipeStep)) := by
  have hlost {c : IpeCall} {s s' : d.State} {e : IpeErr} (hr : d.respond c s = (.error e, s')) :
      Provisioned lib lower p image (.error e) [] :=
    .inl ⟨rfl, e, rfl, (hd.error hr).2⟩
  rw [provision]
  apply Leaves.bind (Q := fun found (seg : List (Entry ipeInterface)) =>
    seg = [.call .ipecmdExists (.ok found)])
  · exact Leaves.respond (fun _ _ _ _ => rfl) fun e _ _ hr => hlost hr
  rintro found _ rfl
  cases found with
  | false => exact Leaves.fail (.inl ⟨rfl, _, rfl, rfl⟩)
  | true =>
    apply Leaves.bind (Q := fun found (seg : List (Entry ipeInterface)) =>
      seg = [.call .imageExists (.ok found)])
    · exact Leaves.respond (fun _ _ _ _ => rfl) fun e _ _ hr => hlost hr
    rintro found _ rfl
    cases found with
    | false => exact Leaves.fail (.inl ⟨rfl, _, rfl, rfl⟩)
    | true =>
      apply Leaves.bind (Q := fun isFile (seg : List (Entry ipeInterface)) =>
        seg = [.call .ipecmdIsFile (.ok isFile)])
      · exact Leaves.respond (fun _ _ _ _ => rfl) fun e _ _ hr => hlost hr
      rintro isFile _ rfl
      apply Leaves.bind ((retry_leaves lower p hd _ _ _).mono (fun _ _ h => h) ?_)
      · rintro _ seg ⟨rejected, last, hattempts, hends⟩
        apply Leaves.pure
        rw [List.append_nil]
        exact .inr ⟨_, rejected, last, hattempts, hends⟩
      · rintro e seg ⟨rejected, last, hattempts, hends⟩
        exact .inr ⟨_, rejected, last, hattempts, hends⟩

namespace MicrochipIpeProvisioner

def looseCable : IpeBench where
  State := Nat
  respond
    | .ipecmdExists, runs => (.ok true, runs)
    | .imageExists, runs => (.ok true, runs)
    | .ipecmdIsFile, runs => (.ok true, runs)
    | .execute _ _ _, 0 => (.ok (1, "Failed to connect.\n".toList), 1)
    | .execute _ _ _, runs + 1 => (.ok (0, "Program Succeeded.\n".toList), runs + 2)
    | .exportLog, runs => (.ok (), runs)
    | .sleep _, runs => (.ok (), runs)

theorem looseCable_raises : Raises looseCable where
  raises c s e s' h := by
    cases c with
    | execute cmd timeoutS cwd => cases s <;> cases h
    | _ => cases h

def picBoard : MicrochipIpeProvisioner where
  pickit := ⟨"BUR123456789", some ⟨"04d8", "9012", "BUR123456789", "MPLAB PICkit 4", "PK4",
    "/sys/bus/usb/devices/1-2"⟩⟩
  ipecmdPath := ⟨"/opt/mplab/ipecmd.sh", "/opt/mplab/ipecmd.sh", "/opt/mplab", ".sh"⟩
  device := "18F47Q10"
  extraFlags := ["-oh", "-TPPK5", "-W3.3"]

def picImage : IpecmdPath := ⟨"app.hex", "/srv/app.hex", ".", ".hex"⟩

end MicrochipIpeProvisioner

theorem ipe_provision_looseCable : ∃ b w,
    provision NvmemEfuseValidator.asciiBuiltins (List.map Char.toLower) picBoard picImage
      (⟨(), (0 : Nat), []⟩ : World looseCable) = .ok b w ∧
    Provisioned NvmemEfuseValidator.asciiBuiltins (List.map Char.toLower) picBoard picImage
      (.ok b) (w.trace.filterMap ipeStep) := by
  obtain ⟨b, w, hrun⟩ := of_returned (show returned (provision NvmemEfuseValidator.asciiBuiltins
    (List.map Char.toLower) picBoard picImage (⟨(), (0 : Nat), []⟩ : World looseCable)) = true by
    decide +kernel)
  exact ⟨b, w, hrun, (ipe_provision looseCable_raises _ _ _ _).ok hrun⟩

namespace MicrochipIpeProvisioner

/-- A flag stays as it is: it does not switch the erase off, and names no other type of tool. -/
def Settled (lib : Builtins) (toolType flag : String) : Prop :=
  lib.upper flag ≠ "-OH" ∧
    (toolType ≠ "UNKNOWN" → "-TP".toList <+: (lib.upper flag).toList →
      lib.upper flag = "-TP" ++ toolType)

instance (lib : Builtins) (toolType flag : String) : Decidable (Settled lib toolType flag) :=
  inferInstanceAs (Decidable (_ ∧ _))

/-- What the tool is told behind its target: erase all, program and verify, with the flags that
are configured. -/
structure FlagLaw (lib : Builtins) (toolType : String) (extraFlags args : List String) :
    Prop where
  settled : ∀ f ∈ args, Settled lib toolType f
  erases : ∃ f ∈ args, lib.upper f = "-E"
  programs : ∃ f ∈ args, "-M".toList <+: (lib.upper f).toList
  verifies : ∃ f ∈ args, "-Y".toList <+: (lib.upper f).toList
  kept : (extraFlags.filter fun f => decide (Settled lib toolType f)).Sublist args
  known : ∀ f ∈ args, f ∈ extraFlags ∨ f ∈ ["-E", "-M", "-Y"] ∨
    toolType ≠ "UNKNOWN" ∧ f = "-TP" ++ toolType
  stable : flagArgs lib toolType args = args

section
variable {lib : Builtins} {toolType : String}

theorem sanitizeFlag_settled (h : Settled lib toolType f) :
    sanitizeFlag lib toolType f = some f := by
  rw [sanitizeFlag, if_neg, if_neg h.1]
  rintro ⟨hstart, hknown, hne⟩
  exact hne (h.2 hknown hstart)

theorem sanitizeFlag_cases (h : sanitizeFlag lib toolType f = some g) :
    toolType ≠ "UNKNOWN" ∧ g = "-TP" ++ toolType ∨ g = f ∧ Settled lib toolType f := by
  rw [sanitizeFlag] at h
  split at h
  · rename_i hcond
    cases h
    exact .inl ⟨hcond.2.1, rfl⟩
  · rename_i hcond
    split at h
    · cases h
    · rename_i hoh
      cases h
      refine .inr ⟨rfl, hoh, fun hknown hstart => ?_⟩
      exact Decidable.of_not_not fun hne => hcond ⟨hstart, hknown, hne⟩

theorem sanitize_settled {fs : List String} (h : ∀ f ∈ fs, Settled lib toolType f) :
    sanitize lib toolType fs = fs := by
  induction fs with
  | nil => rfl
  | cons f fs ih =>
    rw [List.forall_mem_cons] at h
    rw [sanitize, List.filterMap_cons_some (sanitizeFlag_settled h.1)]
    exact congrArg (f :: ·) (ih h.2)

theorem sanitize_kept (fs : List String) :
    (fs.filter fun f => decide (Settled lib toolType f)).Sublist (sanitize lib toolType fs) := by
  induction fs with
  | nil => exact .slnil
  | cons f fs ih =>
    by_cases hf : Settled lib toolType f
    · rw [List.filter_cons_of_pos (p := fun f => decide (Settled lib toolType f))
        (decide_eq_true hf), sanitize,
        List.filterMap_cons_some (sanitizeFlag_settled hf)]
      exact ih.cons_cons f
    · rw [List.filter_cons_of_neg (p := fun f => decide (Settled lib toolType f))
        (by rwa [decide_eq_true_eq])]
      cases hg : sanitizeFlag lib toolType f with
      | none =>
        rw [sanitize, List.filterMap_cons_none hg]
        exact ih
      | some g =>
        rw [sanitize, List.filterMap_cons_some hg]
        exact ih.cons g

/-- The tool type is written in capitals. -/
structure TypeInCapitals (lib : Builtins) (toolType : String) : Prop where
  upper_eq : lib.upper ("-TP" ++ toolType) = "-TP" ++ toolType

theorem TypeInCapitals.settled (h : TypeInCapitals lib toolType) :
    Settled lib toolType ("-TP" ++ toolType) := by
  rw [Settled, h.upper_eq]
  refine ⟨fun heq => ?_, fun _ _ => rfl⟩
  have hlist := congrArg String.toList heq
  rw [String.toList_append] at hlist
  cases hlist

theorem mem_sanitize (h : TypeInCapitals lib toolType) (hg : g ∈ sanitize lib toolType fs) :
    Settled lib toolType g ∧ (g ∈ fs ∨ toolType ≠ "UNKNOWN" ∧ g = "-TP" ++ toolType) := by
  obtain ⟨f, hf, hfg⟩ := List.mem_filterMap.1 hg
  rcases sanitizeFlag_cases hfg with ⟨hknown, rfl⟩ | ⟨rfl, hsettled⟩
  · exact ⟨h.settled, .inr ⟨hknown, rfl⟩⟩
  · exact ⟨hsettled, .inl hf⟩

theorem exists_added (kind : String → Bool) (hx : kind x = true) (flags : List String) :
    ∃ f, (f ∈ (if flags.any kind then [] else [x]) ∨ f ∈ flags) ∧ kind f = true := by
  by_cases hany : flags.any kind = true
  · obtain ⟨f, hf, hkind⟩ := List.any_eq_true.1 hany
    exact ⟨f, .inr hf, hkind⟩
  · refine ⟨x, .inl ?_, hx⟩
    rw [if_neg hany]
    exact List.mem_singleton_self x

theorem mem_added {kind : String → Bool} {flags : List String}
    (h : f ∈ (if flags.any kind then [] else [x])) : f = x := by
  split at h
  · exact (List.not_mem_nil h).elim
  · exact List.mem_singleton.1 h

theorem mem_flagArgs (h : f ∈ flagArgs lib toolType flags) :
    f ∈ ["-E", "-M", "-Y"] ∨ f ∈ sanitize lib toolType flags := by
  rw [flagArgs, List.mem_append, List.mem_append, List.mem_append] at h
  rcases h with ((h | h) | h) | h
  · rw [mem_added h]
    exact .inl (by decide)
  · rw [mem_added h]
    exact .inl (by decide)
  · rw [mem_added h]
    exact .inl (by decide)
  · exact .inr h

theorem upper_plain (hupper : lib.AsciiUpper) : ∀ x ∈ ["-E", "-M", "-Y"], lib.upper x = x := by
  intro x hx
  have hascii : ∀ x ∈ ["-E", "-M", "-Y"],
      x.toList.all (fun c => decide (c.toNat < 128)) = true ∧ pyUpper x = x := by
    decide
  rw [hupper x (forall_mem_of_all (hascii x hx).1), (hascii x hx).2]

theorem plain_settled (hupper : lib.AsciiUpper) (hx : x ∈ ["-E", "-M", "-Y"]) :
    Settled lib toolType x := by
  have hapart : ∀ x ∈ ["-E", "-M", "-Y"], x ≠ "-OH" ∧ ¬ "-TP".toList <+: x.toList := by decide
  rw [Settled, upper_plain hupper x hx]
  exact ⟨(hapart x hx).1, fun _ hstart => absurd hstart (hapart x hx).2⟩

theorem flagArgs_settled (hupper : lib.AsciiUpper) (h : TypeInCapitals lib toolType)
    (extraFlags : List String) :
    ∀ f ∈ flagArgs lib toolType extraFlags, Settled lib toolType f := by
  intro f hf
  rcases mem_flagArgs hf with hx | hf
  · exact plain_settled hupper hx
  · exact (mem_sanitize h hf).1

theorem flagArgs_complete (hupper : lib.AsciiUpper) (toolType : String)
    (extraFlags : List String) :
    (∃ f ∈ flagArgs lib toolType extraFlags, lib.upper f = "-E") ∧
    (∃ f ∈ flagArgs lib toolType extraFlags, "-M".toList <+: (lib.upper f).toList) ∧
    ∃ f ∈ flagArgs lib toolType extraFlags, "-Y".toList <+: (lib.upper f).toList := by
  have hplain := upper_plain hupper
  rw [List.forall_mem_cons, List.forall_mem_cons, List.forall_mem_singleton] at hplain
  obtain ⟨hE, hM, hY⟩ := hplain
  obtain ⟨e, he, hekind⟩ := exists_added
    (fun f => decide (lib.upper f = "-E")) (decide_eq_true hE) (sanitize lib toolType extraFlags)
  obtain ⟨m, hm, hmkind⟩ := exists_added (x := "-M")
    (fun f => decide ("-M".toList <+: (lib.upper f).toList)) (decide_eq_true (by rw [hM]))
    (sanitize lib toolType extraFlags)
  obtain ⟨y, hy, hykind⟩ := exists_added (x := "-Y")
    (fun f => decide ("-Y".toList <+: (lib.upper f).toList)) (decide_eq_true (by rw [hY]))
    (sanitize lib toolType extraFlags)
  simp only [flagArgs, List.mem_append]
  refine ⟨⟨e, ?_, of_decide_eq_true hekind⟩, ⟨m, ?_, of_decide_eq_true hmkind⟩,
    ⟨y, ?_, of_decide_eq_true hykind⟩⟩
  · exact he.elim (fun he => .inl (.inl (.inl he))) .inr
  · exact hm.elim (fun hm => .inl (.inl (.inr hm))) .inr
  · exact hy.elim (fun hy => .inl (.inr hy)) .inr

theorem flagArgs_law (hupper : lib.AsciiUpper) (h : TypeInCapitals lib toolType)
    (extraFlags : List String) :
    FlagLaw lib toolType extraFlags (flagArgs lib toolType extraFlags) := by
  have hsettled := flagArgs_settled hupper h extraFlags
  obtain ⟨herases, hprograms, hverifies⟩ := flagArgs_complete hupper toolType extraFlags
  refine ⟨hsettled, herases, hprograms, hverifies, ?_, fun f hf => ?_, ?_⟩
  · exact (sanitize_kept extraFlags).trans (List.sublist_append_right _ _)
  · rcases mem_flagArgs hf with hx | hf
    · exact .inr (.inl hx)
    · exact (mem_sanitize h hf).2.imp_right .inr
  · rw [flagArgs, sanitize_settled hsettled, if_pos, if_pos, if_pos]
    · rfl
    · obtain ⟨f, hf, hkind⟩ := hverifies
      exact List.any_eq_true.2 ⟨f, hf, decide_eq_true hkind⟩
    · obtain ⟨f, hf, hkind⟩ := hprograms
      exact List.any_eq_true.2 ⟨f, hf, decide_eq_true hkind⟩
    · obtain ⟨f, hf, hkind⟩ := herases
      exact List.any_eq_true.2 ⟨f, hf, decide_eq_true hkind⟩

end

theorem create_probe (h : HostPickitAdapter.create toolSerial autoDetect detected = .ok a)
    (hprobe : a.probeInfo = some probe) : probe ∈ detected ∧ probe.serial = a.toolSerial := by
  unfold HostPickitAdapter.create at h
  dsimp only at h
  split at h
  · cases detected with
    | nil =>
      dsimp only at h
      split at h
      · cases h
      · cases h
        cases hprobe
    | cons p detected =>
      cases detected with
      | nil =>
        cases h
        cases hprobe
        exact ⟨List.mem_singleton_self _, rfl⟩
      | cons q detected => cases h
  · cases h
    have hfound : detected.find? (fun p => decide (p.serial = stripText (toolSerial.getD ""))) =
        some probe := hprobe
    have hserial := List.find?_some hfound
    exact ⟨List.mem_of_find?_eq_some hfound, of_decide_eq_true hserial⟩

theorem detected_toolType (h : probe ∈ detectMicrochipProbes lower devices) :
    probe.toolType ∈ "UNKNOWN" :: knownProbes.map Prod.snd := by
  obtain ⟨dev, _, hdev⟩ := List.mem_filterMap.1 h
  rw [microchipProbe] at hdev
  obtain ⟨vid, _, hdev⟩ := Option.bind_eq_some_iff.1 hdev
  obtain ⟨pid, _, hdev⟩ := Option.bind_eq_some_iff.1 hdev
  split at hdev
  · obtain ⟨serial, _, hdev⟩ := Option.bind_eq_some_iff.1 hdev
    obtain ⟨product, _, hdev⟩ := Option.bind_eq_some_iff.1 hdev
    cases hdev
    show (knownProbes.lookup pid).getD "UNKNOWN" ∈ _
    cases hlookup : knownProbes.lookup pid with
    | none => exact List.mem_cons_self
    | some t =>
      obtain ⟨before, after, hsplit, _⟩ := List.lookup_eq_some_iff.1 hlookup
      apply List.mem_cons_of_mem
      rw [hsplit, List.map_append]
      exact List.mem_append_right _ List.mem_cons_self
  · cases hdev

theorem toolType_inCapitals (hupper : lib.AsciiUpper)
    (h : t ∈ "UNKNOWN" :: knownProbes.map Prod.snd) : TypeInCapitals lib t where
  upper_eq := by
    have hascii : ∀ t ∈ "UNKNOWN" :: knownProbes.map Prod.snd,
        ("-TP" ++ t).toList.all (fun c => decide (c.toNat < 128)) = true ∧
          pyUpper ("-TP" ++ t) = "-TP" ++ t := by
      decide
    rw [hupper _ (forall_mem_of_all (hascii t h).1), (hascii t h).2]

end MicrochipIpeProvisioner

/-- The flags erase, program and verify the whole chip with the type of the tool that is plugged
in under the serial number of the command, and the others are kept. -/
theorem ipe_command {lib : Builtins} (hupper : lib.AsciiUpper) {p : MicrochipIpeProvisioner}
    (h : HostPickitAdapter.create toolSerial autoDetect (detectMicrochipProbes lower devices) =
      .ok p.pickit) (image : IpecmdPath) :
    (∃ launcher args, command lib p image =
        launcher ++ ["-P" ++ p.device, "-TS" ++ p.pickit.toolSerial, "-F" ++ image.resolved] ++
          args ∧ FlagLaw lib p.pickit.toolType p.extraFlags args) ∧
    (p.pickit.toolType ≠ "UNKNOWN" → ∃ probe ∈ detectMicrochipProbes lower devices,
      probe.serial = p.pickit.toolSerial ∧ probe.toolType = p.pickit.toolType) := by
  have hprobe (hknown : p.pickit.toolType ≠ "UNKNOWN") :
      ∃ probe ∈ detectMicrochipProbes lower devices,
        probe.serial = p.pickit.toolSerial ∧ probe.toolType = p.pickit.toolType := by
    cases hinfo : p.pickit.probeInfo with
    | none =>
      rw [HostPickitAdapter.toolType, hinfo] at hknown
      exact absurd rfl hknown
    | some probe =>
      obtain ⟨hmem, hserial⟩ := create_probe h hinfo
      refine ⟨probe, hmem, hserial, ?_⟩
      rw [HostPickitAdapter.toolType, hinfo]
  have htype : p.pickit.toolType ∈ "UNKNOWN" :: knownProbes.map Prod.snd := by
    by_cases hknown : p.pickit.toolType = "UNKNOWN"
    · rw [hknown]
      exact List.mem_cons_self
    · obtain ⟨probe, hmem, _, htype⟩ := hprobe hknown
      rw [← htype]
      exact detected_toolType hmem
  exact ⟨⟨_, _, rfl, flagArgs_law hupper (toolType_inCapitals hupper htype) p.extraFlags⟩, hprobe⟩

namespace MicrochipIpeProvisioner

def asciiLowered (s : String) : String := String.ofList (s.toList.map Char.toLower)

def picHost : List UsbDevice :=
  [⟨"/sys/bus/usb/devices/1-1", .text "1d6b\n", .text "0002\n", .missing, .missing⟩,
    ⟨"/sys/bus/usb/devices/1-2", .text "04d8\n", .text "9012\n", .text "BUR123456789\n",
      .text "MPLAB PICkit 4\n"⟩]

theorem picBoard_created :
    HostPickitAdapter.create (some "auto") true (detectMicrochipProbes asciiLowered picHost) =
      .ok picBoard.pickit := by
  have hdetected : detectMicrochipProbes asciiLowered picHost = [⟨"04d8", "9012", "BUR123456789",
      "MPLAB PICkit 4", "PK4", "/sys/bus/usb/devices/1-2"⟩] := by
    decide +kernel
  have hauto : stripText "auto" = "auto" := by decide +kernel
  rw [hdetected, HostPickitAdapter.create, Option.getD_some, hauto]
  rfl

end MicrochipIpeProvisioner

theorem ipe_command_picBoard :
    command NvmemEfuseValidator.asciiBuiltins picBoard picImage =
      ["/opt/mplab/ipecmd.sh", "-P18F47Q10", "-TSBUR123456789", "-F/srv/app.hex", "-E", "-M",
        "-Y", "-TPPK4", "-W3.3"] ∧
    ∃ launcher args, command NvmemEfuseValidator.asciiBuiltins picBoard picImage =
        launcher ++ ["-P18F47Q10", "-TSBUR123456789", "-F/srv/app.hex"] ++ args ∧
      FlagLaw NvmemEfuseValidator.asciiBuiltins "PK4" ["-oh", "-TPPK5", "-W3.3"] args :=
  ⟨by decide +kernel, (ipe_command (fun _ _ => rfl) picBoard_created picImage).1⟩

end MesCore
