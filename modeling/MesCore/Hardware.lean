import MesCore.Interaction
import MesCore.EventStream
import Mathlib.Data.Rat.Defs

namespace MesCore
set_option autoImplicit true

/-- The states of the machine: the six of `DutState` and those a subclass registers. -/
inductive DutState
  | powerOff
  | energized
  | bootloader
  | osUserland
  | recovery
  | dirty
  | custom (name : String)
  deriving DecidableEq

/-- `_state_name`. -/
def DutState.name : DutState → String
  | .powerOff => "POWER_OFF"
  | .energized => "ENERGIZED"
  | .bootloader => "BOOTLOADER"
  | .osUserland => "OS_USERLAND"
  | .recovery => "RECOVERY"
  | .dirty => "DIRTY"
  | .custom n => n

/-- The fields of `DeviceContext` that the machine reads or writes. -/
structure DeviceContext where
  activeRootfs : String := "UNKNOWN"
  cryptoDataMounted : Bool := false
  activeBootMedium : String := "default"
  deriving DecidableEq

/-- `StateMachineConfig`. The boot timeout is kept as the text its error message shows: how
much time has passed is for the device to say. -/
structure StateMachineConfig where
  bootloaderPrompt : String := "=>"
  bootloaderInterruptPattern : String := "stop autoboot"
  bootloaderInterruptChar : String := "\n"
  bootloaderBootCmd : String := "boot"
  osLoginPrompt : String := "login:"
  osPasswordPrompt : String := "Password:"
  osShellPrompt : String := "root@"
  osUser : String := "root"
  osPassword : Option String := none
  coldBootTimeoutS : String := "60.0"
  autobootEnabled : Bool := true
  gpioResetPin : Option String := none
  gpioRecoveryPin : Option String := some "RECOVERY_BTN"
  recoveryLatchTimeMs : Nat := 1500
  powerOffThresholdA : ℚ := 1 / 20
  bootStrapsGpioMap : List (String × List (String × Bool)) := []
  storageDataEncrypted : Option String := some "/dev/mapper/data_crypt"

/-- What the power supply object offers (`hasattr`). -/
structure Psu where
  defaultVoltage : Option ℚ := none
  hasSetVoltage : Bool := true
  defaultCurrent : Option ℚ := none
  hasSetCurrent : Bool := false
  hasMeasureCurrent : Bool := true

/-- The arguments of the state machine's constructor and the environment it runs in. -/
structure Station where
  cfg : StateMachineConfig := {}
  psu : Option Psu := none
  gpio : Bool := false
  milestones : List (String × String) := []
  contextValidators : List String := []
  headless : Bool := false

structure CommandResult where
  stdout : String
  stderr : String := ""
  exited : Int := 0
  ok : Bool := true
  deriving DecidableEq, Inhabited

/-- The exceptions, each with its message. -/
inductive Err
  | stateMachineError (msg : String)
  | kernelPanicError (msg : String)
  | bootloaderTimeoutError (msg : String)
  | bootloaderSyncError (msg : String)
  | transportError (msg : String)
  | transportConnectionError (msg : String)
  | transportTimeoutError (msg : String)
  | runtimeError (msg : String)
  | osError (msg : String)
  | eofError
  | machineError (msg : String)
  | otherException (msg : String)
  | keyboardInterrupt
  deriving DecidableEq

/-- `except Exception`: everything but the interrupt of the operator. -/
def Err.isException : Err → Bool
  | .keyboardInterrupt => false
  | _ => true

/-- `except TransportError`. -/
def Err.isTransportError : Err → Bool
  | .transportError _ | .transportConnectionError _ | .transportTimeoutError _ => true
  | _ => false

def Err.isTransportConnectionError : Err → Bool
  | .transportConnectionError _ => true
  | _ => false

def Err.isTransportTimeoutError : Err → Bool
  | .transportTimeoutError _ => true
  | _ => false

/-- `except (OSError, socket.timeout)`. -/
def Err.isOSError : Err → Bool
  | .osError _ => true
  | _ => false

/-- `except (EOFError, KeyboardInterrupt)`. -/
def Err.isPromptInterrupt : Err → Bool
  | .eofError | .keyboardInterrupt => true
  | _ => false

/-- What the operator of a station without a power supply or GPIO is asked to do. -/
inductive OperatorPrompt
  | unplugPower
  | plugInPower
  | setBootStraps (medium : String)
  | holdRecovery
  | removeRecoveryJumper
  deriving DecidableEq

/-- The calls of the state machine on its collaborators and on the operating system. -/
inductive Call
  | psuSetVoltage (volts : ℚ)
  | psuSetCurrent (amps : ℚ)
  | psuEnableOutput
  | psuDisableOutput
  | psuMeasureCurrent
  | sshIsConnected
  | sshConnect
  | sshDisconnect
  | sshBanner
  | sshSafeRun (cmd : String) (timeoutMs : Nat) (checkExitCode : Bool)
  | serialIsConnected
  | serialConnect
  | serialDisconnect
  | serialFlushBuffers
  | serialRawReadChunk
  | serialReadUntilSilent
  | serialRawWrite (data : Bytes)
  | serialWriteLine (line : String) (sensitive : Bool)
  | serialSafeRun (cmd : String) (expectedPrompt : Option String) (timeoutMs : Nat)
      (checkExitCode : Bool)
  | serialClearParser
  | serIsOpen
  | serWrite (data : Bytes)
  | serFlush
  | serResetOutputBuffer
  | serialSubscribe
  | serialUnsubscribe
  | streamTurns
  | rxQueueGet
  | gpioSetPin (pin : String) (level : Bool)
  | input (prompt : OperatorPrompt)
  | sleep (ms : Nat)
  | inrushTurns
  | runValidator (name : String)
  deriving DecidableEq

/-- One turn of the event stream: the queue was empty (with what the clocks of the ping and
of the idle tick say), or it held a chunk. -/
inductive RxPoll
  | empty (pingDue tickDue : Bool)
  | chunk (data : Bytes)
  deriving DecidableEq, Inhabited

/-- What a custom validator leaves in the device context. -/
structure ContextUpdate where
  activeRootfs : Option String
  cryptoDataMounted : Option Bool
  deriving Inhabited

/-- The answer of each call. `sshBanner` is the text read after connecting;
`serialReadUntilSilent` the chunks read before the first empty one; `streamTurns` and
`inrushTurns` how many turns a loop starts before its deadline. -/
@[reducible] def Call.Ans : Call → Type
  | .psuMeasureCurrent => ℚ
  | .sshIsConnected => Bool
  | .sshBanner => String
  | .sshSafeRun _ _ _ => CommandResult
  | .serialIsConnected => Bool
  | .serialRawReadChunk => Bytes
  | .serialReadUntilSilent => List Bytes
  | .serialSafeRun _ _ _ _ => CommandResult
  | .serIsOpen => Bool
  | .streamTurns => Nat
  | .rxQueueGet => RxPoll
  | .inrushTurns => Nat
  | .runValidator _ => ContextUpdate
  | _ => Unit

/-- Marks in the history: a published `StateChanged` event, the end of
`_do_apply_bootstrap`, and the boot command written to U-Boot. -/
inductive Note
  | stateChanged (oldState newState trigger : String)
  | bootstrapApplied (medium : String)
  | bootCommanded
  deriving DecidableEq

structure FsmVars where
  state : DutState := .dirty
  context : DeviceContext := {}
  deriving DecidableEq

@[reducible] def fsmInterface : Interface where
  Call := Call
  Ans := Call.Ans
  Err := Err
  Note := Note
  Vars := FsmVars

abbrev Hardware := Device fsmInterface

instance (c : Call) : Inhabited c.Ans := ⟨by cases c <;> exact default⟩

/-- Hardware that answers a call in the same way every time. -/
def steady (answer : (c : Call) → Except Err c.Ans) : Hardware where
  State := Unit
  respond c s := (answer c, s)

/-- Programs of the state machine against some hardware. -/
abbrev Fsm (d : Hardware) (α : Type) := Prog d α

section
variable {d : Hardware}

abbrev ask (c : Call) : Fsm d c.Ans := call (I := fsmInterface) c

/-- The entry a call of the state machine leaves. -/
abbrev did (c : Call) (r : Except Err c.Ans) : Entry fsmInterface := .call (I := fsmInterface) c r

def getState : Fsm d DutState := do return (← getVars).state

def setState (s : DutState) : Fsm d Unit := modifyVars fun v => { v with state := s }

def getContext : Fsm d DeviceContext := do return (← getVars).context

def modifyContext (f : DeviceContext → DeviceContext) : Fsm d Unit :=
  modifyVars fun v => { v with context := f v.context }

/-- `input(...)` under `except (EOFError, KeyboardInterrupt)`, which goes on after a pause. -/
def operatorInput (p : OperatorPrompt) (recoverMs : Nat) : Fsm d Unit :=
  attempt (ask (.input p)) Err.isPromptInterrupt fun _ => ask (.sleep recoverMs)

/-- The part of the state machine's history a run may not touch, whatever the hardware does:
the state and the boot medium. -/
def FsmVars.sameRoute (u v : FsmVars) : Prop :=
  v.state = u.state ∧ v.context.activeBootMedium = u.context.activeBootMedium

/-- Frames that leave the state and the medium alone, and add only the given entries. -/
@[reducible] def routeFrame (P : Entry fsmInterface → Prop) : Frame fsmInterface where
  entry := P
  vars := FsmVars.sameRoute
  refl _ := ⟨rfl, rfl⟩
  trans h h' := ⟨h'.1.trans h.1, h'.2.trans h.2⟩

theorem getState_apply (w : World d) : getState w = .ok w.vars.state w := rfl

end

end MesCore
