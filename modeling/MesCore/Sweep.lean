import MesCore.CallHistory
import MesCore.Dps150
import MesCore.SweepPoints

namespace MesCore
set_option autoImplicit true

namespace DPS150

def cmdWrite : UInt8 := 0xB1

def regWVoltage : UInt8 := 0xC1
def regWCurrent : UInt8 := 0xC2
def regWOutput : UInt8 := 0xDB

/-- `CMD_DELAY`. -/
def cmdDelay : ℚ := 5 / 100

/-- The data of a packet. A float32 is kept as the number it stands for. -/
inductive Operand
  | float (value : ℚ)
  | raw (data : Bytes)
  deriving DecidableEq

structure Command where
  command : UInt8
  register : UInt8
  data : Operand
  deriving DecidableEq

namespace Axis

def register : Axis → UInt8
  | .voltage => regWVoltage
  | .current => regWCurrent

def name : Axis → String
  | .voltage => "Voltage"
  | .current => "Current"

def unit : Axis → String
  | .voltage => "V"
  | .current => "A"

def suffix : Axis → String
  | .voltage => "v"
  | .current => "a"

def fixedName : Axis → String
  | .voltage => "current_limit"
  | .current => "voltage"

end Axis

inductive DpsCall
  | write (cmd : Command)
  | sleep (seconds : ℚ)
  | inWaiting
  | read (size : Nat)
  | callback (stepIdx : Nat) (voltage current power : UInt32)

/-- The callback answers `false` where it returns `False`, and `true` for anything else. -/
@[reducible] def DpsCall.Ans : DpsCall → Type
  | .write _ | .sleep _ => Unit
  | .inWaiting => Nat
  | .read _ => Bytes
  | .callback .. => Bool

inductive DpsErr
  | valueError (msg : String)
  | buffer (e : BufferError)
  | serialException (msg : String)
  | keyboardInterrupt
  | other (name : String)
  deriving DecidableEq

@[reducible] def dpsInterface : Interface where
  Call := DpsCall
  Ans := DpsCall.Ans
  Err := DpsErr
  Note := Empty
  Vars := Unit

abbrev Bench := Device dpsInterface

abbrev DpsProg (d : Bench) (α : Type) := Prog d α

abbrev DpsHistory := List (Entry dpsInterface)

/-- How a number is printed into a message. -/
structure RatText where
  str : ℚ → String
  fixed : (decimals : Nat) → ℚ → String

/-- One entry of the results. -/
structure Reading where
  step : Nat
  voltage : UInt32
  current : UInt32
  power : UInt32
  deriving DecidableEq

section
variable (text : RatText) (psu : Limits) (axis : Axis) {d : Bench}

def outOfRange (param : String) (axis : Axis) (value : ℚ) : DpsErr :=
  .valueError (s!"{param} {text.str value}" ++
    s!"{axis.unit} out of range [0, {text.str (axis.limit psu)}" ++ s!"{axis.unit}]")

def validate (args : SweepArgs) : Except DpsErr (Accepted psu axis) :=
  if hstep : args.step ≤ 0 then
    .error (.valueError s!"step_{axis.suffix} must be positive")
  else if hstart : args.start < 0 ∨ axis.limit psu < args.start then
    .error (outOfRange text psu s!"start_{axis.suffix}" axis args.start)
  else if hstop : args.stop < 0 ∨ axis.limit psu < args.stop then
    .error (outOfRange text psu s!"stop_{axis.suffix}" axis args.stop)
  else if hfixed : args.fixed < 0 ∨ axis.other.limit psu < args.fixed then
    .error (outOfRange text psu axis.fixedName axis.other args.fixed)
  else
    .ok { args with
      step_pos := not_le.1 hstep
      start_mem := by simpa using hstart
      stop_mem := by simpa using hstop
      fixed_mem := by simpa using hfixed }

/-- `_send`. -/
def send (command register : UInt8) (data : Operand) : DpsProg d Unit := do
  call (I := dpsInterface) (.write ⟨command, register, data⟩)
  call (I := dpsInterface) (.sleep cmdDelay)

/-- `set_voltage` and `set_current`. -/
def setPoint (value : ℚ) : DpsProg d Unit :=
  if value < 0 ∨ axis.limit psu < value then
    fail (.valueError (s!"{axis.name} {text.fixed 3 value}" ++
      s!"{axis.unit} out of range [0, {text.fixed 1 (axis.limit psu)}" ++ s!"{axis.unit}]"))
  else send cmdWrite axis.register (.float value)

def setVoltage (volts : ℚ) : DpsProg d Unit := setPoint text psu .voltage volts

/-- `_write_byte`. -/
def writeByte (register value : UInt8) : DpsProg d Unit :=
  send cmdWrite register (.raw [value])

def outputOn : DpsProg d Unit := writeByte regWOutput 1

def outputOff : DpsProg d Unit := writeByte regWOutput 0

/-- `self._ser.read(self._ser.in_waiting or size)`. -/
def readWaiting (size : Nat) : DpsProg d Bytes := do
  let waiting : Nat ← call (I := dpsInterface) .inWaiting
  call (I := dpsInterface) (.read (if waiting = 0 then size else waiting))

def sendAndRecv (command register : UInt8) (data : Bytes) (wait : ℚ) : DpsProg d Bytes := do
  call (I := dpsInterface) (.write ⟨command, register, .raw data⟩)
  call (I := dpsInterface) (.sleep wait)
  readWaiting 256

def readState : DpsProg d (Option State) := do
  let resp ← sendAndRecv cmdRead regAll [0] 1
  call (I := dpsInterface) (.sleep (3 / 10))
  let extra ← readWaiting 0
  match stateOf (resp ++ extra) with
  | .ok state => pure state
  | .error e => fail (.buffer e)

end

section
variable (text : RatText) {psu : Limits} {axis : Axis} (s : Accepted psu axis) {d : Bench}

/-- One turn of the loop: its reading, if there is one, and whether the callback breaks it off. -/
def turn (stepIdx : Nat) (v : ℚ) : DpsProg d (List Reading × Bool) := do
  setPoint text psu axis (axis.clamped psu v)
  call (I := dpsInterface) (.sleep s.hold)
  let state ← readState
  match state with
  | none => pure ([], false)
  | some state =>
    let reading : Reading :=
      ⟨stepIdx, state.outputVoltage, state.outputCurrent, state.outputPower⟩
    if s.hasCallback then do
      let ret : Bool ← call (I := dpsInterface)
        (.callback stepIdx state.outputVoltage state.outputCurrent state.outputPower)
      pure ([reading], !ret)
    else pure ([reading], false)

def sweepLoop (stepIdx : Nat) (v : ℚ) (results : List Reading) : DpsProg d (List Reading) :=
  if _h : s.Continues v then do
    let (readings, aborted) ← turn text s stepIdx v
    if aborted then pure (results ++ readings)
    else sweepLoop (stepIdx + 1) (s.next v) (results ++ readings)
  else pure results
  termination_by s.turnsLeft v
  decreasing_by
    rw [Accepted.turnsLeft_continues _h]
    exact Nat.lt_succ_self _

def runSweep : DpsProg d (List Reading) := do
  setPoint text psu axis.other s.fixed
  setPoint text psu axis s.start
  outputOn
  ensuring (sweepLoop text s 0 s.start []) outputOff

end

section
variable (text : RatText) (psu : Limits) {d : Bench}

def sweep (axis : Axis) (args : SweepArgs) : DpsProg d (List Reading) :=
  match validate text psu axis args with
  | .error e => fail e
  | .ok s => runSweep text s

def sweepVoltage (args : SweepArgs) : DpsProg d (List Reading) := sweep text psu .voltage args

def sweepCurrent (args : SweepArgs) : DpsProg d (List Reading) := sweep text psu .current args

end

end DPS150
end MesCore
