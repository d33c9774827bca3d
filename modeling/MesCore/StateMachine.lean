import MesCore.Hardware

namespace MesCore
set_option autoImplicit true

variable {d : Hardware} (fsm : Station)

def namedPin (pin : Option String) : Option String := pin.filter (· ≠ "")

/-- The power domain of the probe: three current samples averaged below the threshold. -/
def probePowerOff (psu : Psu) : Fsm d Bool :=
  if psu.hasMeasureCurrent then
    attempt (do
      let i₁ : ℚ ← ask .psuMeasureCurrent
      let i₂ : ℚ ← ask .psuMeasureCurrent
      let i₃ : ℚ ← ask .psuMeasureCurrent
      pure (decide ((i₁ + i₂ + i₃) / 3 < fsm.cfg.powerOffThresholdA)))
      Err.isException fun _ => pure false
  else pure false

/-- The network domain of the probe: an SSH server that introduces itself. -/
def probeSshBanner : Fsm d Bool :=
  attempt (do
    let banner : String ← ask .sshBanner
    pure (decide (occursIn "SSH-2.0" banner)))
    Err.isOSError fun _ => pure false

def classifyPassive (chunk : Bytes) : DutState :=
  let clean := stripAnsi chunk
  if ascii fsm.cfg.osShellPrompt <:+: clean then .osUserland
  else if ascii fsm.cfg.bootloaderPrompt <:+: clean then .bootloader
  else .energized

def classifyResponse (resp : Bytes) : DutState :=
  let clean := stripAnsi resp
  if ascii fsm.cfg.osShellPrompt <:+: clean then .osUserland
  else if ascii fsm.cfg.osLoginPrompt <:+: clean then .energized
  else if ascii fsm.cfg.bootloaderPrompt <:+: clean then .bootloader
  else if clean ≠ [] then .energized
  else .powerOff

/-- The two newline passes of the probe; the second only after a silent first. -/
def probePasses : List Nat → Bytes → Fsm d Bytes
  | [], resp => pure resp
  | waitMs :: waits, resp =>
    if resp ≠ [] then pure resp
    else do
      ask .serialFlushBuffers
      ask (.serialRawWrite (ascii "\r\n"))
      ask (.sleep waitMs)
      let chunks : List Bytes ← ask .serialReadUntilSilent
      probePasses waits (resp ++ chunks.flatten)

def probeSerial : Fsm d DutState := do
  let connected : Bool ← ask .serialIsConnected
  onlyIf (!connected) do
    ask .serialConnect
    ask (.sleep 100)
  ask (.sleep 300)
  let passive : Bytes ← ask .serialRawReadChunk
  if passive ≠ [] then pure (classifyPassive fsm passive)
  else do
    let resp ← probePasses [400, 2000] []
    pure (classifyResponse fsm resp)

def probePower : Fsm d Bool :=
  match fsm.psu with
  | some psu => probePowerOff fsm psu
  | none => pure false

/-- `_probe_hardware_state`. -/
def probeHardwareState : Fsm d DutState := do
  let off ← probePower fsm
  if off then pure .powerOff
  else do
    let connected : Bool ← ask .sshIsConnected
    if connected then pure .osUserland
    else do
      let ready ← probeSshBanner
      if ready then pure .osUserland else probeSerial fsm

/-- `_align_to_physical_state` skips the probe in a state it may trust. -/
def trustsState (s : DutState) : Bool :=
  (fsm.psu.isSome && s ≠ .dirty) || s ∈ [DutState.recovery, .bootloader, .powerOff]

/-- `_align_to_physical_state`. -/
def alignToPhysicalState (force : Bool := false) : Fsm d Unit := do
  let s ← getState
  if !force && trustsState fsm s then pure ()
  else do
    let detected ← probeHardwareState fsm
    setState detected

/-- `self.cfg.os_user or 'root'`. -/
def loginUser : String := if fsm.cfg.osUser = "" then "root" else fsm.cfg.osUser

def typePassword : Fsm d Unit :=
  match namedPin fsm.cfg.osPassword with
  | some password => do
    ask (.serialWriteLine password true)
    ask (.sleep 500)
  | none => pure ()

/-- `_do_soft_reboot`. -/
def doSoftReboot : Fsm d Unit := do
  ask (.serialWriteLine (loginUser fsm) false)
  ask (.sleep 500)
  typePassword fsm
  ask (.serialWriteLine "reboot" false)

def setPins : List (String × Bool) → Fsm d Unit
  | [] => pure ()
  | (pin, level) :: rest => do
    ask (.gpioSetPin pin level)
    setPins rest

def strapMedium (requested : String) : String := if requested = "" then "default" else requested

def strapByGpio (medium : String) : Fsm d Unit :=
  match fsm.cfg.bootStrapsGpioMap.lookup medium with
  | some (pin :: pins) => do
    setPins (pin :: pins)
    ask (.sleep 500)
  | _ => pure ()

def strapByHand (medium : String) : Fsm d Unit :=
  if fsm.headless then
    fail (.stateMachineError
      (s!"Manual hardware intervention required (SET BOOT STRAPS TO {pyUpper medium}) " ++
        "but running in headless/CI environment."))
  else operatorInput (.setBootStraps medium) 2000

/-- The body of `_do_apply_bootstrap`. -/
def applyStraps (requested : String) : Fsm d Unit := do
  let ctx ← getContext
  if strapMedium requested = "default" ∧ ctx.activeBootMedium = "default" then pure ()
  else if fsm.gpio then strapByGpio fsm (strapMedium requested)
  else strapByHand fsm (strapMedium requested)

/-- `_do_apply_bootstrap`. -/
def doApplyBootstrap (medium : String) : Fsm d Unit := do
  applyStraps fsm medium
  note (.bootstrapApplied medium)

/-- `_rebind_serial_port`: up to fifty attempts. -/
def rebindSerialPort : Fsm d Unit :=
  retry Err.isException (ask (.sleep 100))
    (do
      ask .serialDisconnect
      ask .serialConnect
      ask (.sleep 200)
      attempt (do
        let isOpen : Bool ← ask .serIsOpen
        if isOpen then do
          ask .serResetOutputBuffer
          ask .serialFlushBuffers
        else pure ())
        Err.isException fun _ => pure ())
    49

def dropPower : Fsm d Unit :=
  match fsm.psu with
  | some _ => do
    ask (.psuSetVoltage 0)
    ask .psuDisableOutput
    ask (.sleep 2000)
  | none =>
    if fsm.headless then
      fail (.stateMachineError ("Manual hardware intervention required (UNPLUG 12V POWER) " ++
        "but running in headless/CI environment."))
    else operatorInput .unplugPower 2000

/-- The start of `_do_power_off`: the SSH session and the device context are given up. -/
def leaveSession : Fsm d Unit := do
  let connected : Bool ← ask .sshIsConnected
  onlyIf connected (ask .sshDisconnect)
  modifyContext fun c => { activeBootMedium := c.activeBootMedium }

/-- `_do_power_off`. -/
def doPowerOff : Fsm d Unit := do
  leaveSession
  dropPower fsm

/-- The inrush measurement after the output is on; a failed sample is skipped. -/
def inrushSamples : Nat → Fsm d Unit
  | 0 => pure ()
  | n + 1 => do
    attempt (do
      let _ ← ask .psuMeasureCurrent
      pure ())
      Err.isException fun _ => pure ()
    inrushSamples n

/-- The voltage `_do_energize` programs before it enables the output. -/
def voltageSetpoint (psu : Psu) : Fsm d Unit :=
  match psu.hasSetVoltage, psu.defaultVoltage with
  | true, some volts => ask (.psuSetVoltage volts)
  | true, none => ask (.psuSetVoltage 5)
  | false, _ => pure ()

def currentSetpoint (psu : Psu) : Fsm d Unit :=
  match psu.hasSetCurrent, psu.defaultCurrent with
  | true, some amps => ask (.psuSetCurrent amps)
  | _, _ => pure ()

/-- The second in which `_do_energize` watches the inrush current. -/
def measureInrush (psu : Psu) : Fsm d Unit :=
  if psu.hasMeasureCurrent then do
    let turns : Nat ← ask .inrushTurns
    inrushSamples turns
  else ask (.sleep 1000)

def applyPower : Fsm d Unit :=
  match fsm.psu with
  | some psu => do
    voltageSetpoint psu
    currentSetpoint psu
    ask .psuEnableOutput
    measureInrush psu
  | none =>
    if fsm.headless then
      fail (.stateMachineError ("Manual hardware intervention required (PLUG IN 12V POWER) " ++
        "but running in headless/CI environment."))
    else operatorInput .plugInPower 2000

/-- `_do_energize`. -/
def doEnergize : Fsm d Unit := do
  applyPower fsm
  rebindSerialPort

def resetPin : Option String := if fsm.gpio then namedPin fsm.cfg.gpioResetPin else none

def pulseResetPin (pin : String) : Fsm d Unit := do
  ask (.gpioSetPin pin true)
  ask (.sleep 500)
  ask (.gpioSetPin pin false)
  ask (.sleep 500)

/-- `_do_hardware_reset`. -/
def doHardwareReset : Fsm d Unit :=
  match resetPin fsm with
  | some pin => do
    let s ← getState
    if s = .powerOff then pure () else pulseResetPin pin
  | none => do
    doPowerOff fsm
    doEnergize fsm

/-- `self.transport.safe_run`: SSH where it is connected, the serial console elsewhere. -/
def transportSafeRun (cmd : String) (timeoutMs : Nat) (checkExitCode : Bool) :
    Fsm d CommandResult := do
  let connected : Bool ← ask .sshIsConnected
  if connected then ask (.sshSafeRun cmd timeoutMs checkExitCode)
  else ask (.serialSafeRun cmd none timeoutMs checkExitCode)

/-- `_async_reboot_dut`, also the last part of the trap. -/
def asyncRebootDut : Fsm d Unit := do
  attempt (do
    let _ ← transportSafeRun "reboot" 2000 false
    pure ())
    Err.isTransportError fun _ => pure ()
  let connected : Bool ← ask .sshIsConnected
  onlyIf connected (ask .sshDisconnect)

def trapBackupCmd : String := "fw_setenv mes_prev_bootcmd \"$(fw_printenv -n bootcmd)\""

def trapCmd : String := "fw_setenv bootcmd 'echo MES Framework Trap'"

/-- `_set_uboot_trap_and_reboot`. -/
def setUbootTrapAndReboot : Fsm d Unit := do
  let _ ← transportSafeRun trapBackupCmd 3000 true
  let _ ← transportSafeRun trapCmd 3000 true
  asyncRebootDut

def restoreBootcmdCmd : String := "setenv bootcmd \"$\x7bmes_prev_bootcmd\x7d\""

def deleteBackupCmd : String := "setenv mes_prev_bootcmd"

/-- `_restore_uboot_trap`: three commands whose results nobody looks at. -/
def restoreUbootTrap : Fsm d Unit := do
  let prompt := some fsm.cfg.bootloaderPrompt
  let _ ← ask (.serialSafeRun restoreBootcmdCmd prompt 3000 false)
  let _ ← ask (.serialSafeRun deleteBackupCmd prompt 3000 false)
  let _ ← ask (.serialSafeRun "saveenv" prompt 5000 false)

/-- The consumer's loop body over the events of one chunk; `true` when it returns. -/
def runEvents (body : UartEvent → Fsm d Bool) : List UartEvent → Fsm d Bool
  | [] => pure false
  | ev :: evs => do
    let done ← body ev
    if done then pure true else runEvents body evs

/-- The ping after five silent seconds, where the caller asked for one. -/
def pingConsole (ping : Option Bytes) (due : Bool) : Fsm d Unit :=
  match ping with
  | some c => onlyIf due (ask (.serialRawWrite c))
  | none => pure ()

def idle (body : UartEvent → Fsm d Bool) (due : Bool) : Fsm d Bool :=
  if due then body .idleTick else pure false

/-- The loop of `UartEventStream.open` and of its consumer, for `turns` turns. -/
def streamLoop (p : StreamParams) (ping : Option Bytes) (body : UartEvent → Fsm d Bool) :
    Nat → StreamState → Fsm d Bool
  | 0, _ => pure false
  | turns + 1, st => do
    let poll : RxPoll ← ask .rxQueueGet
    match poll with
    | .empty pingDue tickDue => do
      pingConsole ping pingDue
      let done ← idle body tickDue
      if done then pure true else streamLoop p ping body turns st
    | .chunk c =>
      if c = [] then streamLoop p ping body turns st
      else do
        let done ← runEvents body (st.feed p c).1
        if done then pure true
        else if (st.feed p c).2.panicked then pure false
        else streamLoop p ping body turns (st.feed p c).2

/-- A `for` loop over `UartEventStream.open`, closed on every exit. -/
def overStream (p : StreamParams) (flush : Bool) (ping : Option Bytes)
    (body : UartEvent → Fsm d Bool) : Fsm d Bool := do
  onlyIf flush (ask .serialFlushBuffers)
  ask .serialSubscribe
  ensuring
    (do
      let turns : Nat ← ask .streamTurns
      streamLoop p ping body turns p.start)
    (ask .serialUnsubscribe)

def bootloaderStream (interceptAutoboot : Bool) : StreamParams where
  prompts := [("bootloader", ascii fsm.cfg.bootloaderPrompt), ("trap", ascii "MES Framework Trap")]
  autobootTrigger :=
    if interceptAutoboot then some (ascii fsm.cfg.bootloaderInterruptPattern) else none

/-- Three interrupt characters, the answer to the autoboot countdown. -/
def snipeAutoboot : Nat → Fsm d Unit
  | 0 => pure ()
  | n + 1 => do
    ask (.serialRawWrite (ascii fsm.cfg.bootloaderInterruptChar))
    ask (.sleep 50)
    snipeAutoboot n

/-- The synchronisation with a bootloader prompt that was seen. -/
def syncBootloader : Fsm d Unit := do
  ask (.serialRawWrite (ascii "\n"))
  ask (.sleep 100)
  ask .serialFlushBuffers
  let res : CommandResult ←
    ask (.serialSafeRun "echo MES_SYNC" (some fsm.cfg.bootloaderPrompt) 3000 false)
  if occursIn "MES_SYNC" res.stdout then pure ()
  else fail (.bootloaderSyncError "Failed to synchronize with Bootloader prompt after detection.")

def bootloaderEvent : UartEvent → Fsm d Bool
  | .panicDetected raw =>
    fail (.kernelPanicError s!"Kernel panic during Bootloader routing:\n{raw}")
  | .autobootWindowDetected => do
    snipeAutoboot fsm 3
    pure false
  | .promptDetected ptype =>
    if ptype ∈ ["bootloader", "trap"] then do
      syncBootloader fsm
      pure true
    else pure false
  | _ => pure false

/-- `event_wait_for_bootloader`. -/
def eventWaitForBootloader (interceptAutoboot : Bool) : Fsm d Unit := do
  let done ← overStream (bootloaderStream fsm interceptAutoboot) true
    (if interceptAutoboot then some (ascii "\r\n") else none) (bootloaderEvent fsm)
  if done then pure ()
  else fail (.bootloaderTimeoutError
    s!"Failed to intercept Bootloader within {fsm.cfg.coldBootTimeoutS}s timeout.")

def osShellStream : StreamParams where
  prompts :=
    [("shell", ascii fsm.cfg.osShellPrompt), ("login", ascii fsm.cfg.osLoginPrompt),
      ("bootloader", ascii fsm.cfg.bootloaderPrompt)] ++
    match namedPin fsm.cfg.osPassword with
    | some _ => [("password", ascii fsm.cfg.osPasswordPrompt)]
    | none => []
  milestones := fsm.milestones

theorem osShellStream_shell {pbytes : Bytes}
    (h : ("shell", pbytes) ∈ (osShellStream fsm).prompts) :
    pbytes = ascii fsm.cfg.osShellPrompt := by
  rw [osShellStream] at h
  dsimp only at h
  split at h <;> simpa using h

def osShellEvent : UartEvent → Fsm d Bool
  | .panicDetected _ =>
    fail (.kernelPanicError "Device kernel panicked during OS boot sequence.")
  | .promptDetected ptype =>
    if ptype = "shell" then pure true
    else if ptype = "login" then do
      ask (.sleep 100)
      ask (.serialWriteLine (loginUser fsm) false)
      ask .serialClearParser
      pure false
    else if ptype = "password" then do
      ask (.sleep 100)
      ask (.serialWriteLine (fsm.cfg.osPassword.getD "") true)
      ask .serialClearParser
      pure false
    else if ptype = "bootloader" then do
      ask (.serialWriteLine "boot" false)
      pure false
    else pure false
  | _ => pure false

/-- `event_wait_for_os_shell`. -/
def eventWaitForOsShell (flush : Bool := true) : Fsm d Unit := do
  let done ← overStream (osShellStream fsm) flush (some (ascii "\n")) (osShellEvent fsm)
  if done then pure ()
  else fail (.transportTimeoutError "Timed out waiting for Linux Shell prompt.")

def bootCommand : Bytes := ascii (fsm.cfg.bootloaderBootCmd ++ "\n")

/-- `event_boot_from_bootloader_to_os`. -/
def eventBootFromBootloaderToOs : Fsm d Unit := do
  ask .serialFlushBuffers
  ask (.serialRawWrite (bootCommand fsm))
  note .bootCommanded
  eventWaitForOsShell fsm false

/-- `_connect_ssh_with_retry`: up to ten attempts. -/
def connectSshWithRetry : Fsm d Unit :=
  retry Err.isException (ask (.sleep 1000)) (ask .sshConnect) 9

/-- The partition `swupdate -g` names: its last line that is neither the command nor a prompt. -/
def activeRootfsOf (shellPrompt stdout : String) : String :=
  let output := pyStrip stdout.toList
  let lines := (splitNewline output).filter fun l =>
    !(pyStrip l).isEmpty && !decide ("swupdate".toList <:+: l) &&
      !decide (shellPrompt.toList <:+: l)
  match lines.getLast? with
  | some l => String.ofList (pyStrip l)
  | none => "UNKNOWN"

def reportedRootfs (res : CommandResult) : String :=
  if res.ok then activeRootfsOf fsm.cfg.osShellPrompt res.stdout else "UNKNOWN"

/-- `DefaultSWUpdateStrategy.verify_linux_context`. -/
def swupdateVerifyContext : Fsm d Unit := do
  let connected : Bool ← ask .serialIsConnected
  if connected then do
    let res : CommandResult ← ask (.serialSafeRun "swupdate -g" none 3000 false)
    modifyContext fun c => { c with activeRootfs := reportedRootfs fsm res }
    match namedPin fsm.cfg.storageDataEncrypted with
    | some part => do
      let mount : CommandResult ← ask (.serialSafeRun "mount | grep /data" none 3000 false)
      modifyContext fun c => { c with cryptoDataMounted := decide (occursIn part mount.stdout) }
    | none => pure ()
  else modifyContext fun c => { c with activeRootfs := "UNKNOWN" }

def runValidators : List String → Fsm d Unit
  | [] => pure ()
  | name :: rest => do
    attempt (do
      let u : ContextUpdate ← ask (.runValidator name)
      modifyContext fun c =>
        { c with
          activeRootfs := u.activeRootfs.getD c.activeRootfs
          cryptoDataMounted := u.cryptoDataMounted.getD c.cryptoDataMounted })
      Err.isException fun _ => pure ()
    runValidators rest

/-- `_verify_linux_context`. -/
def verifyLinuxContext : Fsm d Unit :=
  match fsm.contextValidators with
  | [] => swupdateVerifyContext fsm
  | names => runValidators names

/-- `finalize_os_boot`; the `systemd-analyze` figures go to telemetry only. -/
def finalizeOsBoot : Fsm d Unit := do
  let connected : Bool ← ask .sshIsConnected
  if connected then pure ()
  else do
    verifyLinuxContext fsm
    let serial : Bool ← ask .serialIsConnected
    onlyIf serial do
      let _ ← ask (.serialSafeRun "systemd-analyze time" none 5000 false)
    connectSshWithRetry

def heartbeatCmd : String := "echo MES_HEARTBEAT"

def heartbeatSeen (res : CommandResult) : Bool := decide (occursIn "MES_HEARTBEAT" res.stdout)

/-- The SSH reconnect with which `verify_heartbeat` starts in `OS_USERLAND`. -/
def reconnectSsh : Fsm d Unit := do
  let connected : Bool ← ask .sshIsConnected
  onlyIf (!connected) (attempt (ask .sshConnect) Err.isException fun _ => pure ())

/-- `self.transport.is_connected`. -/
def transportIsConnected : Fsm d Bool := do
  let overSsh : Bool ← ask .sshIsConnected
  if overSsh then ask .sshIsConnected else ask .serialIsConnected

/-- `verify_heartbeat`. -/
def verifyHeartbeat : Fsm d Bool := do
  let s ← getState
  onlyIf (s = .osUserland) reconnectSsh
  let connected ← transportIsConnected
  if connected then
    attempt (do
      let res ← transportSafeRun heartbeatCmd 5000 false
      pure (heartbeatSeen res))
      Err.isException fun _ => pure false
  else pure false

/-- The heartbeat over SSH at the start of `_try_resume_existing_os`. -/
def sshHeartbeat : Fsm d Bool :=
  attempt (do
    connectSshWithRetry
    let res : CommandResult ← ask (.sshSafeRun heartbeatCmd 2000 false)
    pure (heartbeatSeen res))
    Err.isException fun _ => pure false

/-- The interrupt sent to a shell that does not answer, before the power cycle. -/
def flushDeadUart : Fsm d Unit :=
  attempt (do
    let isOpen : Bool ← ask .serIsOpen
    if isOpen then do
      ask (.serWrite (ascii "\x03\x03\r\n"))
      ask .serFlush
      ask .serResetOutputBuffer
      ask .serialFlushBuffers
    else pure ())
    Err.isException fun _ => pure ()

/-- `_try_resume_existing_os`. -/
def tryResumeExistingOs : Fsm d Bool := do
  let alive ← sshHeartbeat
  if alive then pure true
  else do
    let connected : Bool ← ask .serialIsConnected
    if connected then do
      let res : Option CommandResult ← attempt (do
        let r : CommandResult ← ask (.serialSafeRun heartbeatCmd none 2000 false)
        pure (some r))
        Err.isTransportConnectionError fun _ => pure none
      match res with
      | none => pure false
      | some r =>
        if heartbeatSeen r then pure true
        else do
          flushDeadUart
          pure false
    else pure false

/-- `_try_hot_login`. -/
def tryHotLogin : Fsm d Bool :=
  attempt (do
    eventWaitForOsShell fsm false
    finalizeOsBoot fsm
    pure true)
    Err.isTransportTimeoutError fun _ => pure false

/-- `cold_boot_to_bootloader` of the strategy the configuration selects. -/
def coldBootToBootloader : Fsm d Unit :=
  if fsm.cfg.autobootEnabled then do
    doEnergize fsm
    eventWaitForBootloader fsm true
  else do
    doEnergize fsm
    eventWaitForOsShell fsm
    finalizeOsBoot fsm
    setUbootTrapAndReboot
    eventWaitForBootloader fsm false

/-- `cold_boot_to_os` of the strategy the configuration selects. -/
def coldBootToOs : Fsm d Unit :=
  if fsm.cfg.autobootEnabled then do
    doEnergize fsm
    eventWaitForBootloader fsm true
    eventBootFromBootloaderToOs fsm
  else do
    doEnergize fsm
    eventWaitForOsShell fsm

/-- `resume_bootloader_to_os` of the strategy the configuration selects. -/
def resumeBootloaderToOs : Fsm d Unit :=
  if fsm.cfg.autobootEnabled then eventBootFromBootloaderToOs fsm
  else do
    restoreUbootTrap fsm
    eventBootFromBootloaderToOs fsm

def recoveryPin : Option String := if fsm.gpio then namedPin fsm.cfg.gpioRecoveryPin else none

/-- `GpioRecoveryStrategy.trigger_recovery`. -/
def triggerRecovery : Fsm d Unit :=
  match recoveryPin fsm with
  | some pin => do
    ask (.gpioSetPin pin true)
    doEnergize fsm
    ask (.sleep fsm.cfg.recoveryLatchTimeMs)
    ask (.gpioSetPin pin false)
  | none =>
    if fsm.headless then
      fail (.stateMachineError
        ("Manual intervention required ('PRESS AND HOLD THE RECOVERY BUTTON') " ++
          "but running in headless/CI environment."))
    else do
      attempt (ask (.input .holdRecovery)) Err.isPromptInterrupt fun _ => pure ()
      doEnergize fsm

/-- `_hw_power_off` after the alignment. -/
def routePowerOff : Fsm d Unit := do
  let s ← getState
  if s = .powerOff then pure () else doPowerOff fsm

/-- `_hw_power_off`. -/
def hwPowerOff : Fsm d Unit := do
  alignToPhysicalState fsm
  routePowerOff fsm

/-- The common start of a change of straps: power off, apply, remember. -/
def changeStraps (target : String) : Fsm d Unit := do
  doPowerOff fsm
  doApplyBootstrap fsm target
  modifyContext fun c => { c with activeBootMedium := target }

/-- `_hw_energize` after the alignment. -/
def routeEnergize (medium : Option String) : Fsm d Unit := do
  let ctx ← getContext
  let s ← getState
  let target := medium.getD ctx.activeBootMedium
  if target ≠ ctx.activeBootMedium ∨ s = .recovery then do
    changeStraps fsm target
    doEnergize fsm
  else if s ∈ [DutState.energized, .bootloader, .osUserland] then pure ()
  else do
    doApplyBootstrap fsm target
    modifyContext fun c => { c with activeBootMedium := target }
    doEnergize fsm

/-- `_hw_energize`. -/
def hwEnergize (medium : Option String) : Fsm d Unit := do
  alignToPhysicalState fsm
  routeEnergize fsm medium

/-- The reboot of a running OS on its way to the bootloader. -/
def rebootFromOs : Fsm d Unit :=
  if fsm.cfg.autobootEnabled then asyncRebootDut else setUbootTrapAndReboot

/-- The branch of `_hw_boot_to_bootloader` for a target that is powered but not identified. -/
def rebootEnergized : Fsm d Unit :=
  match fsm.psu with
  | none => do
    doSoftReboot fsm
    eventWaitForBootloader fsm fsm.cfg.autobootEnabled
  | some _ => do
    doPowerOff fsm
    coldBootToBootloader fsm

/-- `_hw_boot_to_bootloader` after the alignment. -/
def routeBootToBootloader (medium : Option String) : Fsm d Unit := do
  let ctx ← getContext
  let s ← getState
  let target := medium.getD ctx.activeBootMedium
  if target ≠ ctx.activeBootMedium ∨ s = .recovery then do
    changeStraps fsm target
    coldBootToBootloader fsm
  else if s = .bootloader then pure ()
  else if s = .osUserland then do
    rebootFromOs fsm
    eventWaitForBootloader fsm fsm.cfg.autobootEnabled
  else if s = .energized then rebootEnergized fsm
  else coldBootToBootloader fsm

/-- `_hw_boot_to_bootloader`. -/
def hwBootToBootloader (medium : Option String) : Fsm d Unit := do
  alignToPhysicalState fsm
  routeBootToBootloader fsm medium

/-- The first `if` of `_hw_boot_to_os`: resume a running OS, or reset the target. -/
def resumeOrReset : Fsm d Bool := do
  let s ← getState
  if s = .osUserland then do
    let alive ← tryResumeExistingOs
    if alive then do
      finalizeOsBoot fsm
      pure true
    else do
      doHardwareReset fsm
      setState .energized
      pure false
  else pure false

/-- The second `if` of `_hw_boot_to_os`: log in to a booting target, or reset it. -/
def hotLoginOrReset : Fsm d Bool := do
  let s ← getState
  if s = .energized then do
    let reached ← tryHotLogin fsm
    if reached then pure true
    else do
      doHardwareReset fsm
      setState .dirty
      pure false
  else pure false

/-- The cold boot of `_hw_boot_to_os`, from straps to the finished boot. -/
def strapAndBootOs (target : String) : Fsm d Unit := do
  doApplyBootstrap fsm target
  modifyContext fun c => { c with activeBootMedium := target }
  coldBootToOs fsm
  finalizeOsBoot fsm

/-- The last two `if`s of `_hw_boot_to_os`. A state that none of them names falls through. -/
def coldBootOrResume (target : String) : Fsm d Unit := do
  let s ← getState
  if s ∈ [DutState.recovery, .dirty, .powerOff] then do
    onlyIf (s ≠ .powerOff) (doPowerOff fsm)
    strapAndBootOs fsm target
  else if s = .bootloader then do
    resumeBootloaderToOs fsm
    finalizeOsBoot fsm
  else pure ()

/-- `_hw_boot_to_os` after the alignment. -/
def routeBootToOs (medium : Option String) : Fsm d Unit := do
  let ctx ← getContext
  let resumed ← resumeOrReset fsm
  if resumed then pure ()
  else do
    let loggedIn ← hotLoginOrReset fsm
    if loggedIn then pure () else coldBootOrResume fsm (medium.getD ctx.activeBootMedium)

/-- `_hw_boot_to_os`. -/
def hwBootToOs (medium : Option String) : Fsm d Unit := do
  alignToPhysicalState fsm
  routeBootToOs fsm medium

/-- `_hw_to_recovery` after the alignment. -/
def routeToRecovery : Fsm d Unit := do
  let s ← getState
  if s = .recovery then pure ()
  else do
    onlyIf (s ≠ .powerOff) (doPowerOff fsm)
    triggerRecovery fsm
    ask (.sleep 2000)

/-- `_hw_to_recovery`. -/
def hwToRecovery : Fsm d Unit := do
  alignToPhysicalState fsm
  routeToRecovery fsm

end MesCore
