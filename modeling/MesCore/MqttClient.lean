import MesCore.DeviceCrypto
import Mathlib.Logic.Function.Basic

namespace MesCore
set_option autoImplicit true

namespace Mqtt

/-- What `json.loads` may raise. Besides its own error there are the `RecursionError` of a deep
nesting and the `ValueError` of a number with too many digits. -/
inductive LoadsError
  | jsonDecodeError
  | other (text : String)
  deriving DecidableEq

inductive MqttErr
  | transportTimeoutError (msg : String)
  | transportConnectionError (msg : String)
  | attributeError (msg : String)
  | other (text : String)
  deriving DecidableEq

inductive Outcome
  | event (data : Json)
  | ran (stdout : String)
  | flushed
  | raised (e : MqttErr)

inductive Kind
  | waitForEvent (eventCode : String)
  | safeRun (cmd timeoutS : String)
  | flushBuffers

/-- The places of a call. `polling` is the top of a loop and `leaving` the `finally`. -/
inductive Place
  | called
  | subscribed
  | flushing
  | flushed
  | polling
  | getting
  | leaving (o : Outcome)
  | done (o : Outcome)

/-- A payload in a queue, and whether it came before the deadline of the call it is for. -/
structure Delivery where
  payload : Bytes
  inTime : Bool

/-- A call with its queue; what has been delivered to it before its deadline; and whether the
deadline has passed. -/
structure Call where
  kind : Kind
  queue : List Delivery := []
  place : Place := .called
  chunks : List Bytes := []
  due : List Bytes := []
  late : Bool := false

/-- The client with every call that was ever made. `_subscribers` names the queues by their calls,
and the lock is held by a flush, with what is left of its loop. -/
structure MqttClient where
  subscribers : List Nat := []
  lock : Option (Nat × List Nat) := none
  calls : Nat → Option Call := fun _ => none

/-- The statements of a call, and the passing of its deadline. -/
inductive Statement
  | refuse
  | subscribe
  | flush
  | write (failure : Option String)
  | elapse
  | check
  | take
  | empty
  | leave
  deriving DecidableEq

inductive MqttAct
  | deliver (payload : Bytes)
  | call (i : Nat) (kind : Kind)
  | exec (i : Nat) (s : Statement)

def Place.outcome : Place → Option Outcome
  | .leaving o | .done o => some o
  | _ => none

/-- The type of a JSON value, as an `AttributeError` names it. -/
def typeName : Json → String
  | .null => "NoneType"
  | .bool _ => "bool"
  | .number literal => if literal.any (['.', 'e', 'E', 'N', 'I'].contains ·) then "float" else "int"
  | .string _ => "str"
  | .array _ => "list"
  | .object _ => "dict"

/-- What a payload is to a call that waits for an event. -/
inductive Received
  | event (data : Json)
  | other
  | raised (e : MqttErr)

section
variable (loads : List Char → Except LoadsError Json)

/-- The body of the loop of `wait_for_event`, behind `q.get`. -/
def receive (eventCode : String) (chunk : Bytes) : Received :=
  match loads (decodeReplace chunk) with
  | .error .jsonDecodeError => .other
  | .error (.other text) => .raised (.other text)
  | .ok (.object data) =>
    match data.lookup (DeviceCrypto.fieldName "eventCode") with
    | some (.string s) =>
      if s = DeviceCrypto.fieldName eventCode then .event (.object data) else .other
    | _ => .other
  | .ok data => .raised (.attributeError s!"'{typeName data}' object has no attribute 'get'")

def timedOut (eventCode : String) : Outcome :=
  .raised (.transportTimeoutError s!"Timed out waiting for MQTT event '{eventCode}'")

/-- The end of `safe_run`. -/
def finish (cmd timeoutS : String) (chunks : List Bytes) : Outcome :=
  if chunks = [] then
    .raised (.transportTimeoutError
      s!"MQTT Command '{cmd}' timed out after {timeoutS}s waiting for response")
  else .ran (String.ofList (pyStrip (chunks.flatMap decodeReplace)))

namespace Call

def hear (c : Call) (payload : Bytes) : Call :=
  { c with
    queue := c.queue ++ [⟨payload, !c.late⟩]
    due := if c.late then c.due else c.due ++ [payload] }

def goTo (c : Call) (place : Place) : Call := { c with place := place }

def giveUp (c : Call) : Outcome :=
  match c.kind with
  | .waitForEvent eventCode => timedOut eventCode
  | .safeRun cmd timeoutS => finish cmd timeoutS c.chunks
  | .flushBuffers => .flushed

def take (c : Call) (payload : Bytes) : Call :=
  match c.kind with
  | .waitForEvent eventCode =>
    match receive loads eventCode payload with
    | .event data => c.goTo (.leaving (.event data))
    | .other => c.goTo .polling
    | .raised e => c.goTo (.leaving (.raised e))
  | _ => { c with chunks := c.chunks ++ [payload], place := .polling }

/-- `queue.Empty`. -/
def starve (c : Call) : Call :=
  match c.kind with
  | .safeRun cmd timeoutS =>
    if c.chunks = [] then c.goTo .polling else c.goTo (.leaving (finish cmd timeoutS c.chunks))
  | _ => c.goTo .polling

/-- The statements that concern a call and its queue alone. -/
def advance (c : Call) : Statement → Option Call
  | .refuse =>
    match c.place, c.kind with
    | .called, .safeRun _ _ =>
      some (c.goTo (.done (.raised (.transportConnectionError "MQTT is disconnected"))))
    | _, _ => none
  | .write failure =>
    match c.place, c.kind with
    | .flushed, .safeRun _ _ =>
      match failure with
      | none => some (c.goTo .polling)
      | some msg => some (c.goTo (.done (.raised (.transportConnectionError msg))))
    | _, _ => none
  | .elapse =>
    match c.place with
    | .polling | .getting => some { c with late := true }
    | _ => none
  | .check =>
    match c.place with
    | .polling => some (c.goTo (if c.late then .leaving c.giveUp else .getting))
    | _ => none
  | .take =>
    match c.place, c.queue with
    | .getting, x :: queue => some (({ c with queue := queue } : Call).take loads x.payload)
    | _, _ => none
  | .empty =>
    match c.place, c.queue with
    | .getting, [] => some c.starve
    | _, _ => none
  | _ => none

end Call

namespace MqttClient
variable (m : MqttClient)

def setCall (i : Nat) (c : Call) : MqttClient :=
  { m with calls := Function.update m.calls i (some c) }

/-- `_on_message`, under the lock. -/
def deliver (payload : Bytes) : Option MqttClient :=
  match m.lock with
  | none => some { m with
      calls := fun i => (m.calls i).map fun c =>
        if i ∈ m.subscribers then c.hear payload else c }
  | some _ => none

/-- `subscribe`, under the lock. -/
def subscribe (i : Nat) (c : Call) : Option MqttClient :=
  match m.lock, c.place, c.kind with
  | none, .called, .waitForEvent _ =>
    some ({ m with subscribers := m.subscribers ++ [i] }.setCall i (c.goTo .polling))
  | none, .called, .safeRun _ _ =>
    some ({ m with subscribers := m.subscribers ++ [i] }.setCall i (c.goTo .subscribed))
  | _, _, _ => none

/-- `unsubscribe`, under the lock, and the end of the call. -/
def leave (i : Nat) (c : Call) : Option MqttClient :=
  match m.lock, c.place with
  | none, .leaving o =>
    some ({ m with subscribers := m.subscribers.erase i }.setCall i (c.goTo (.done o)))
  | _, _ => none

/-- A payload is drained from a queue, if it has one left. -/
def drain (j : Nat) : Option MqttClient :=
  match m.calls j with
  | some c =>
    match c.queue with
    | [] => none
    | _ :: queue => some (m.setCall j { c with queue := queue })
  | none => none

/-- The next step of `flush_buffers`, which keeps the lock until every queue was seen empty. -/
def flush (i : Nat) (c : Call) : Option MqttClient :=
  match c.place, c.kind, m.lock with
  | .called, .flushBuffers, none | .subscribed, .safeRun _ _, none =>
    some ({ m with lock := some (i, m.subscribers) }.setCall i (c.goTo .flushing))
  | .flushing, kind, some (k, []) =>
    if k = i then
      match kind with
      | .flushBuffers => some ({ m with lock := none }.setCall i (c.goTo (.done .flushed)))
      | .safeRun _ _ => some ({ m with lock := none }.setCall i (c.goTo .flushed))
      | .waitForEvent _ => none
    else none
  | .flushing, _, some (k, j :: left) =>
    if k = i then some ((m.drain j).getD { m with lock := some (k, left) }) else none
  | _, _, _ => none

def exec (i : Nat) (c : Call) : Statement → Option MqttClient
  | .subscribe => m.subscribe i c
  | .leave => m.leave i c
  | .flush => m.flush i c
  | s => (c.advance loads s).map (m.setCall i)

def step : MqttAct → Option MqttClient
  | .deliver payload => m.deliver payload
  | .call i kind =>
    match m.calls i with
    | none => some (m.setCall i { kind := kind })
    | some _ => none
  | .exec i s =>
    match m.calls i with
    | some c => m.exec loads i c s
    | none => none

end MqttClient

end

end Mqtt
end MesCore
