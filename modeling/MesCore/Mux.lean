import MesCore.Text
import Mathlib.Logic.Function.Basic

namespace MesCore
set_option autoImplicit true

/-- The queues of the multiplexer, numbered in the order they are made. Number 0 is its own
`_default_raw_queue`. -/
abbrev QueueId := Nat

def defaultQueue : QueueId := 0

/-- A `queue.Queue` and the client that holds it; the default queue is open to everyone. -/
structure RxQueue (T : Type) where
  maxsize : Nat := 0
  items : List Bytes := []
  owner : Option T := none

def RxQueue.full (r : RxQueue T) : Bool := r.maxsize ≠ 0 && r.maxsize ≤ r.items.length

/-- The code of a client, as far as it touches the multiplexer. A write may fail, and the clock
answers whatever the client asks of it. -/
inductive Code
  | done
  | subscribe (maxsize : Nat) (next : QueueId → Code)
  | unsubscribe (q : QueueId) (next : Code)
  | get (q : QueueId) (next : Option Bytes → Code)
  | flush (next : Code)
  | write (data : Bytes) (next : Bool → Code)
  | clock (next : Nat → Code)
  | written (next : Code)

/-- Who holds `_sub_lock`, and what is left of the loop over the subscribers. The daemon evicts
the oldest chunk of the default queue when that is full and then tries once more. -/
inductive Holder (T : Type)
  | free
  | publishing (chunk : Bytes) (todo : List QueueId)
  | evicting (chunk : Bytes) (todo : List QueueId)
  | retrying (chunk : Bytes) (todo : List QueueId)
  | flushing (t : T) (todo : List QueueId)

inductive MuxEvent (T : Type)
  | read (chunk : Bytes)
  | subscribed (t : T) (q : QueueId)
  | unsubscribed (t : T) (q : QueueId)
  | took (t : T) (q : QueueId) (chunk : Bytes)
  | drained (t : T) (q : QueueId) (chunk : Bytes)
  | dropped (q : QueueId) (chunk : Bytes)
  | wrote (t : T) (data : Bytes)
  | written (t : T)
  deriving DecidableEq

/-- The multiplexer and the clients that use it, one thread each. -/
structure Mux (T : Type) where
  subscribers : List QueueId
  queue : QueueId → RxQueue T
  fresh : QueueId
  holder : Holder T
  code : T → Code
  history : List (MuxEvent T)

def Mux.start (code : T → Code) : Mux T where
  subscribers := [defaultQueue]
  queue q := if q = defaultQueue then { maxsize := 2048 } else {}
  fresh := defaultQueue + 1
  holder := .free
  code := code
  history := []

section
variable (m : Mux T)

def Mux.log (e : MuxEvent T) : Mux T := { m with history := m.history ++ [e] }

def Mux.hold (h : Holder T) : Mux T := { m with holder := h }

def Mux.setItems (q : QueueId) (items : List Bytes) : Mux T :=
  { m with queue := Function.update m.queue q { m.queue q with items := items } }

/-- `q.put_nowait(chunk)` on a queue that is not full. -/
def Mux.put (q : QueueId) (chunk : Bytes) : Mux T :=
  m.setItems q ((m.queue q).items ++ [chunk])

/-- The daemon finds a chunk at the port, under the lock. -/
def Mux.readChunk (chunk : Bytes) : Option (Mux T) :=
  match m.holder with
  | .free =>
    if chunk = [] then none
    else some ((m.log (.read chunk)).hold (.publishing chunk m.subscribers))
  | _ => none

/-- The next step of the daemon's loop over the subscribers. -/
def Mux.publish : Option (Mux T) :=
  match m.holder with
  | .publishing _ [] => some (m.hold .free)
  | .publishing chunk (q :: todo) =>
    if (m.queue q).full then
      if q = defaultQueue then some (m.hold (.evicting chunk todo))
      else some ((m.log (.dropped q chunk)).hold (.publishing chunk todo))
    else some ((m.put q chunk).hold (.publishing chunk todo))
  | .evicting chunk todo =>
    match (m.queue defaultQueue).items with
    | [] => some (m.hold (.retrying chunk todo))
    | old :: items =>
      some (((m.setItems defaultQueue items).log (.dropped defaultQueue old)).hold
        (.retrying chunk todo))
  | .retrying chunk todo =>
    if (m.queue defaultQueue).full then
      some ((m.log (.dropped defaultQueue chunk)).hold (.publishing chunk todo))
    else some ((m.put defaultQueue chunk).hold (.publishing chunk todo))
  | _ => none

variable [DecidableEq T]

def Mux.goOn (t : T) (c : Code) : Mux T := { m with code := Function.update m.code t c }

/-- `subscribe`, under the lock. -/
def Mux.subscribe (t : T) (maxsize : Nat) (next : QueueId → Code) : Option (Mux T) :=
  match m.holder with
  | .free => some <|
    ({ m with
        subscribers := m.subscribers ++ [m.fresh]
        queue := Function.update m.queue m.fresh ⟨maxsize, [], some t⟩
        fresh := m.fresh + 1 }.log (.subscribed t m.fresh)).goOn t (next m.fresh)
  | _ => none

/-- `unsubscribe`, under the lock. -/
def Mux.unsubscribe (t : T) (q : QueueId) (next : Code) : Option (Mux T) :=
  match m.holder with
  | .free =>
    if q ∈ m.subscribers then some <|
      ({ m with subscribers := m.subscribers.erase q }.log (.unsubscribed t q)).goOn t next
    else some (m.goOn t next)
  | _ => none

/-- `q.get(timeout)` on a queue the client holds. -/
def Mux.get (t : T) (q : QueueId) (next : Option Bytes → Code) : Option (Mux T) :=
  if q = defaultQueue ∨ (m.queue q).owner = some t then
    match (m.queue q).items with
    | [] => some (m.goOn t (next none))
    | chunk :: items =>
      some (((m.setItems q items).log (.took t q chunk)).goOn t (next (some chunk)))
  else none

/-- The next step of `flush_buffers`, which keeps the lock until every queue was seen empty. -/
def Mux.flush (t : T) (next : Code) : Option (Mux T) :=
  match m.holder with
  | .free => some (m.hold (.flushing t m.subscribers))
  | .flushing u [] => if u = t then some ((m.hold .free).goOn t next) else none
  | .flushing u (q :: todo) =>
    if u = t then
      match (m.queue q).items with
      | [] => some (m.hold (.flushing t todo))
      | chunk :: items => some ((m.setItems q items).log (.drained t q chunk))
    else none
  | _ => none

/-- The next step of a client; `n` is the answer of the clock, and whether a write succeeds. -/
def Mux.client (t : T) (n : Nat) : Option (Mux T) :=
  match m.code t with
  | .done => none
  | .subscribe maxsize next => m.subscribe t maxsize next
  | .unsubscribe q next => m.unsubscribe t q next
  | .get q next => m.get t q next
  | .flush next => m.flush t next
  | .write data next =>
    if n = 0 then some (m.goOn t (next false))
    else some ((m.log (.wrote t data)).goOn t (next true))
  | .clock next => some (m.goOn t (next n))
  | .written next => some ((m.log (.written t)).goOn t next)

end

/-- The inner loop of the kernel watchdog: it ends at a panic signature unless it is muted. The
rolling window outlives it. -/
def monitorLoop (q : QueueId) (next : Bytes → Code) : Nat → Bytes → Code
  | 0, rolling => .unsubscribe q (next rolling)
  | turns + 1, rolling => .get q fun
    | none => monitorLoop q next turns rolling
    | some chunk =>
      let grown := rolling ++ stripAnsi chunk
      let rolling' := grown.drop (grown.length - 1024)
      if panicSearch rolling' then .clock fun muted =>
        if muted = 0 then .unsubscribe q (next rolling') else monitorLoop q next turns []
      else monitorLoop q next turns rolling'

/-- `UartKernelWatchdog._monitor_loop`, which subscribes anew in every round. -/
def monitor : Nat → Bytes → Code
  | 0, _ => .done
  | rounds + 1, rolling =>
    .subscribe 0 fun q => .clock fun turns => monitorLoop q (monitor rounds) turns rolling

/-- One step of the daemon or of a client. -/
inductive Act (T : Type)
  | read (chunk : Bytes)
  | publish
  | client (t : T) (n : Nat)

def Mux.step [DecidableEq T] (m : Mux T) : Act T → Option (Mux T)
  | .read chunk => m.readChunk chunk
  | .publish => m.publish
  | .client t n => m.client t n

def Mux.run [DecidableEq T] (m : Mux T) : List (Act T) → Option (Mux T)
  | [] => some m
  | a :: as => (m.step a).bind fun m' => m'.run as

/-- What a queue has to hear: whether it is subscribed, and the chunks read while it was. -/
structure Ear where
  isOpen : Bool
  heard : List Bytes

def Ear.hear (q : QueueId) (e : Ear) : MuxEvent T → Ear
  | .read chunk => if e.isOpen then { e with heard := e.heard ++ [chunk] } else e
  | .subscribed _ q' => if q' = q then { e with isOpen := true } else e
  | .unsubscribed _ q' => if q' = q then { e with isOpen := false } else e
  | _ => e

def ear (q : QueueId) (h : List (MuxEvent T)) : Ear := h.foldl (Ear.hear q) ⟨q = defaultQueue, []⟩

/-- The chunks the daemon read from the port while the queue was subscribed. -/
def window (q : QueueId) (h : List (MuxEvent T)) : List Bytes := (ear q h).heard

/-- A chunk that left the queue, and whether a client took it or a flush drained it. -/
def MuxEvent.outOf (q : QueueId) : MuxEvent T → Option (Bytes × Bool)
  | .took _ q' chunk => if q' = q then some (chunk, true) else none
  | .drained _ q' chunk => if q' = q then some (chunk, false) else none
  | _ => none

def gone (q : QueueId) (h : List (MuxEvent T)) : List (Bytes × Bool) :=
  h.filterMap (MuxEvent.outOf q)

/-- What the client that holds the queue obtained from it. -/
def obtained (q : QueueId) (h : List (MuxEvent T)) : List Bytes :=
  h.filterMap fun
    | .took _ q' chunk => if q' = q then some chunk else none
    | _ => none

def flushed (q : QueueId) (h : List (MuxEvent T)) : List Bytes :=
  h.filterMap fun
    | .drained _ q' chunk => if q' = q then some chunk else none
    | _ => none

def Holder.todo : Holder T → List QueueId
  | .publishing _ todo | .evicting _ todo | .retrying _ todo => todo
  | .free | .flushing _ _ => []

/-- The chunk the daemon has read and has yet to put into the queue. -/
def Holder.pending (q : QueueId) : Holder T → List Bytes
  | .publishing chunk todo | .evicting chunk todo | .retrying chunk todo =>
    if q ∈ todo then [chunk] else []
  | .free | .flushing _ _ => []

end MesCore
