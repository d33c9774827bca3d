import MesCore.MqttClient
import MesCore.Deadlines
import Mathlib.Data.List.Nodup

namespace MesCore
set_option autoImplicit true

namespace Mqtt

section
variable (loads : List Char → Except LoadsError Json)

def eventOf (eventCode : String) (payload : Bytes) : Option Json :=
  match receive loads eventCode payload with
  | .event data => some data
  | _ => none

def firstEvent (eventCode : String) (payloads : List Bytes) : Option Json :=
  payloads.findSome? (eventOf loads eventCode)

def expected (eventCode : String) (due : List Bytes) : Outcome :=
  match firstEvent loads eventCode due with
  | some data => .event data
  | none => timedOut eventCode

/-- How many statements a call is from its end, once it looks at the clock and that is late. -/
def Place.toGo : Place → Nat
  | .done _ => 0
  | .leaving _ => 1
  | .polling => 2
  | .getting => 3
  | _ => 4

def Call.deadline : Deadline Call where
  late := Call.late
  toGo c := c.place.toGo
  limit := 3

/-- A statement of the call, as against the passing of its deadline. -/
def MqttAct.states (i : Nat) : MqttAct → Bool
  | .exec j s => j == i && s != .elapse
  | _ => false

def Call.inTime (c : Call) : List Bytes := (c.queue.filter Delivery.inTime).map Delivery.payload

namespace MqttClient
variable (m : MqttClient)

/-- The queue of every call that has waited for an event is unsubscribed. -/
def Unsubscribed : Prop :=
  ∀ i c eventCode o, m.calls i = some c → c.kind = .waitForEvent eventCode → c.place = .done o →
    i ∉ m.subscribers

/-- Every call that has waited for an event has returned the first one that was delivered to it
before its deadline, or has timed out without one. -/
def Found : Prop :=
  ∀ i c eventCode o, m.calls i = some c → c.kind = .waitForEvent eventCode → c.place = .done o →
    o = expected loads eventCode c.due

/-- A call whose deadline has passed is held up by nothing but a flush, which goes on itself, and
ends within three statements. -/
def Prompt : Prop :=
  ∀ i c, m.calls i = some c → c.late = true →
    ((∀ o, c.place ≠ .done o) →
      (∃ s, MqttAct.states i (.exec i s) = true ∧ (m.step loads (.exec i s)).isSome = true) ∨
        ∃ k left, m.lock = some (k, left) ∧ (m.step loads (.exec k .flush)).isSome = true) ∧
    ∀ acts m', Run (MqttClient.step loads) (fun _ _ => True) m acts m' →
      acts.countP (MqttAct.states i) ≤ 3

/-- What a payload at the head of a queue must not be for the call that takes it. -/
def Takeable (eventCode : String) (x : Delivery) : Prop :=
  (∀ e, receive loads eventCode x.payload ≠ .raised e) ∧
    (x.inTime = false → eventOf loads eventCode x.payload = none)

/-- A payload that is taken can be parsed to an object or not be parsed at all, and is no event of
after the deadline; no call gives up with an event in its queue that came in time; and no flush
drains one from the queue of a call that still waits for it. -/
def Guarded : MqttAct → Prop
  | .exec i .take => ∀ c eventCode x queue, m.calls i = some c → c.kind = .waitForEvent eventCode →
      c.queue = x :: queue → Takeable loads eventCode x
  | .exec i .check => ∀ c eventCode, m.calls i = some c → c.kind = .waitForEvent eventCode →
      c.late = true → firstEvent loads eventCode c.inTime = none
  | .exec i .flush => ∀ j left c eventCode x queue, m.lock = some (i, j :: left) →
      m.calls j = some c → c.kind = .waitForEvent eventCode → c.place.outcome = none →
      c.queue = x :: queue → x.inTime = true → eventOf loads eventCode x.payload = none
  | _ => True

end MqttClient

end

/-- The statements that concern a call alone, with what each of them needs. A wait for an event has
no part in the first kind. -/
inductive Call.Moved (loads : List Char → Except LoadsError Json) (c : Call) :
    Statement → Call → Prop
  | aside {s : Statement} {p : Place} : (∀ eventCode, c.kind ≠ .waitForEvent eventCode) →
      p ≠ .called → Moved loads c s (c.goTo p)
  | elapse : c.place = .polling ∨ c.place = .getting → Moved loads c .elapse { c with late := true }
  | check : c.place = .polling →
      Moved loads c .check (c.goTo (if c.late then .leaving c.giveUp else .getting))
  | take {x : Delivery} {left : List Delivery} : c.place = .getting → c.queue = x :: left →
      Moved loads c .take (({ c with queue := left } : Call).take loads x.payload)
  | empty : c.place = .getting → Moved loads c .empty c.starve

section
variable {loads : List Char → Except LoadsError Json} {c c' : Call} {eventCode : String}
  {m m' : MqttClient} {s : Statement} {payload : Bytes} {x : Delivery}

/-- What a statement keeps of a call. -/
structure Continues (c c' : Call) : Prop where
  kind : c'.kind = c.kind
  begun : c'.place ≠ .called
  ended : ∀ eventCode o, c.kind = .waitForEvent eventCode → c'.place ≠ .done o

theorem continues_goTo {p : Place} (hp : p ≠ .called) (hdone : ∀ o, p ≠ .done o) :
    Continues c (c.goTo p) := ⟨rfl, hp, fun _ o _ => hdone o⟩

theorem continues_take (c : Call) (payload : Bytes) : Continues c (c.take loads payload) := by
  rw [Call.take]
  split
  · split
    · exact continues_goTo nofun nofun
    · exact continues_goTo nofun nofun
    · exact continues_goTo nofun nofun
  · exact ⟨rfl, nofun, nofun⟩

theorem continues_starve (c : Call) : Continues c c.starve := by
  rw [Call.starve]
  split
  · split
    · exact continues_goTo nofun nofun
    · exact continues_goTo nofun nofun
  · exact continues_goTo nofun nofun

theorem moved_of_advance (h : c.advance loads s = some c') : c.Moved loads s c' := by
  cases s with
  | refuse =>
    rw [Call.advance] at h
    split at h
    · rename_i hkind
      cases h
      exact .aside (fun _ hwait => by rw [hwait] at hkind; cases hkind) nofun
    · cases h
  | write failure =>
    simp only [Call.advance] at h
    split at h
    · rename_i hkind
      have hother : ∀ eventCode, c.kind ≠ .waitForEvent eventCode := fun _ hwait => by
        rw [hwait] at hkind
        cases hkind
      cases failure with
      | none =>
        cases h
        exact .aside hother nofun
      | some msg =>
        cases h
        exact .aside hother nofun
    · cases h
  | elapse =>
    rw [Call.advance] at h
    split at h
    · cases h
      exact .elapse (.inl ‹_›)
    · cases h
      exact .elapse (.inr ‹_›)
    · cases h
  | check =>
    rw [Call.advance] at h
    split at h
    · cases h
      exact .check ‹_›
    · cases h
  | take =>
    rw [Call.advance] at h
    split at h
    · cases h
      exact .take ‹_› ‹_›
    · cases h
  | empty =>
    rw [Call.advance] at h
    split at h
    · cases h
      exact .empty ‹_›
    · cases h
  | subscribe => cases h
  | flush => cases h
  | leave => cases h

theorem continues_moved (h : c.Moved loads s c') : Continues c c' := by
  cases h with
  | aside hother hp => exact ⟨rfl, hp, fun eventCode _ hwait => absurd hwait (hother eventCode)⟩
  | elapse hplace =>
    rcases hplace with hplace | hplace
    · exact ⟨rfl, by rw [hplace]; exact nofun, fun _ _ _ => by rw [hplace]; exact nofun⟩
    · exact ⟨rfl, by rw [hplace]; exact nofun, fun _ _ _ => by rw [hplace]; exact nofun⟩
  | check hplace =>
    split
    · exact continues_goTo nofun nofun
    · exact continues_goTo nofun nofun
  | @take x queue hplace hqueue =>
    have htake : Continues _ (Call.take loads { c with queue := queue } x.payload) :=
      continues_take _ _
    exact ⟨htake.kind, htake.begun, htake.ended⟩
  | empty hplace => exact continues_starve c

namespace MqttClient

/-- The queues are subscribed once each, by calls that have begun; no wait for an event among them
has ended. -/
structure Enrolled (m : MqttClient) : Prop where
  nodup : m.subscribers.Nodup
  living : ∀ i ∈ m.subscribers, ∃ c, m.calls i = some c ∧ c.place ≠ .called ∧
    ∀ eventCode o, c.kind = .waitForEvent eventCode → c.place ≠ .done o

theorem setCall_same (m : MqttClient) (i : Nat) (c : Call) : (m.setCall i c).calls i = some c :=
  Function.update_self ..

theorem setCall_other {i j : Nat} (h : j ≠ i) (m : MqttClient) (c : Call) :
    (m.setCall i c).calls j = m.calls j := Function.update_of_ne h ..

theorem Enrolled.setCall {i : Nat} (h : m.Enrolled)
    (hc : i ∈ m.subscribers → c.place ≠ .called ∧
      ∀ eventCode o, c.kind = .waitForEvent eventCode → c.place ≠ .done o) :
    (m.setCall i c).Enrolled where
  nodup := h.nodup
  living j hj := by
    by_cases hji : j = i
    · subst hji
      exact ⟨c, setCall_same m j c, hc hj⟩
    · rw [setCall_other hji]
      exact h.living j hj

theorem Enrolled.goOn {i : Nat} (h : m.Enrolled) (hc : Continues c c') :
    (m.setCall i c').Enrolled :=
  h.setCall fun _ => ⟨hc.begun, fun eventCode o hkind =>
    hc.ended eventCode o (hc.kind.symm.trans hkind)⟩

theorem Enrolled.setLock (h : m.Enrolled) (lock : Option (Nat × List Nat)) :
    ({ m with lock := lock } : MqttClient).Enrolled := ⟨h.nodup, h.living⟩

theorem deliver_eq (hs : m.deliver payload = some m') : m' = { m with
    calls := fun i => (m.calls i).map fun c =>
      if i ∈ m.subscribers then c.hear payload else c } := by
  rw [MqttClient.deliver] at hs
  split at hs
  · cases hs
    rfl
  · cases hs

theorem subscribe_cases {i : Nat} (hs : m.subscribe i c = some m') : c.place = .called ∧
    ∃ p, m' = MqttClient.setCall { m with subscribers := m.subscribers ++ [i] } i (c.goTo p) ∧
      p ≠ .called ∧ p.outcome = none := by
  rw [MqttClient.subscribe] at hs
  split at hs
  · cases hs
    exact ⟨‹_›, _, rfl, nofun, rfl⟩
  · cases hs
    exact ⟨‹_›, _, rfl, nofun, rfl⟩
  · cases hs

theorem leave_cases {i : Nat} (hs : m.leave i c = some m') : ∃ o, c.place = .leaving o ∧
    m' = MqttClient.setCall { m with subscribers := m.subscribers.erase i } i
      (c.goTo (.done o)) := by
  rw [MqttClient.leave] at hs
  split at hs
  · cases hs
    exact ⟨_, ‹_›, rfl⟩
  · cases hs

theorem drain_cases {j : Nat} (hs : m.drain j = some m') : ∃ c x queue, m.calls j = some c ∧
    c.queue = x :: queue ∧ m' = m.setCall j { c with queue := queue } := by
  rw [MqttClient.drain] at hs
  split at hs
  · split at hs
    · cases hs
    · cases hs
      exact ⟨_, _, _, ‹_›, ‹_›, rfl⟩
  · cases hs

theorem Enrolled.deliver (h : m.Enrolled) (hs : m.deliver payload = some m') : m'.Enrolled := by
  cases deliver_eq hs
  refine ⟨h.nodup, fun i hi => ?_⟩
  obtain ⟨c, hc, hbegun, hended⟩ := h.living i hi
  refine ⟨if i ∈ m.subscribers then c.hear payload else c, ?_, ?_⟩
  · dsimp only
    rw [hc, Option.map_some]
  · rw [if_pos hi]
    exact ⟨hbegun, hended⟩

theorem Enrolled.join {i : Nat} {p : Place} (h : m.Enrolled) (hc : m.calls i = some c)
    (hplace : c.place = .called) (hp : p ≠ .called) (houtcome : p.outcome = none) :
    (MqttClient.setCall { m with subscribers := m.subscribers ++ [i] } i (c.goTo p)).Enrolled := by
  have hnew : i ∉ m.subscribers := by
    intro hi
    obtain ⟨c', hc', hbegun, -⟩ := h.living i hi
    rw [hc] at hc'
    cases hc'
    exact hbegun hplace
  constructor
  · exact List.nodup_append'.2 ⟨h.nodup, List.nodup_singleton i, by simpa using hnew⟩
  · intro j hj
    by_cases hji : j = i
    · subst hji
      refine ⟨_, setCall_same _ _ _, hp, ?_⟩
      rintro _ o _ rfl
      cases houtcome
    · rw [setCall_other hji]
      rcases List.mem_append.1 hj with hj | hj
      · exact h.living j hj
      · exact absurd (List.mem_singleton.1 hj) hji

theorem Enrolled.subscribe {i : Nat} (h : m.Enrolled) (hc : m.calls i = some c)
    (hs : m.subscribe i c = some m') : m'.Enrolled := by
  obtain ⟨hplace, p, rfl, hp, houtcome⟩ := subscribe_cases hs
  exact h.join hc hplace hp houtcome

theorem Enrolled.leave {i : Nat} (h : m.Enrolled) (hs : m.leave i c = some m') : m'.Enrolled := by
  obtain ⟨o, -, rfl⟩ := leave_cases hs
  refine Enrolled.setCall ⟨h.nodup.erase i, fun j hj => h.living j (List.mem_of_mem_erase hj)⟩ ?_
  exact fun hi => absurd hi h.nodup.not_mem_erase

theorem Enrolled.drain {j : Nat} (h : m.Enrolled) (hs : m.drain j = some m') : m'.Enrolled := by
  obtain ⟨c, x, queue, hc, -, rfl⟩ := drain_cases hs
  apply h.setCall
  intro hj
  obtain ⟨c', hc', hliving⟩ := h.living j hj
  rw [hc] at hc'
  cases hc'
  exact hliving

/-- What a step of a flush may do, none of whose places watches a clock. It is no part of a wait for
an event, and keeps the lock as long as it drains. -/
theorem flush_cases {i : Nat} (hs : m.flush i c = some m') : c.place.toGo = 4 ∧
    ((∃ lock p, m' = MqttClient.setCall { m with lock := lock } i (c.goTo p) ∧ p ≠ .called ∧
      (∀ eventCode, c.kind ≠ .waitForEvent eventCode) ∧
      ∀ k left, lock = some (k, left) → k = i ∧ p = .flushing) ∨
    ∃ j left, m.lock = some (i, j :: left) ∧
      (m.drain j = some m' ∨ m.drain j = none ∧ m' = { m with lock := some (i, left) })) := by
  rw [MqttClient.flush] at hs
  split at hs
  · rename_i hplace hkind _
    cases hs
    refine ⟨by rw [hplace]; rfl, .inl ⟨_, _, rfl, nofun, ?_, fun _ _ h => ?_⟩⟩
    · exact fun _ hwait => by rw [hwait] at hkind; cases hkind
    · cases h
      exact ⟨rfl, rfl⟩
  · rename_i hplace hkind _
    cases hs
    refine ⟨by rw [hplace]; rfl, .inl ⟨_, _, rfl, nofun, ?_, fun _ _ h => ?_⟩⟩
    · exact fun _ hwait => by rw [hwait] at hkind; cases hkind
    · cases h
      exact ⟨rfl, rfl⟩
  · rename_i hplace _
    apply And.intro (by rw [hplace]; rfl)
    split at hs
    · split at hs
      · rename_i hkind
        cases hs
        refine .inl ⟨_, _, rfl, nofun, ?_, nofun⟩
        exact fun _ hwait => by rw [hwait] at hkind; cases hkind
      · rename_i hkind
        cases hs
        refine .inl ⟨_, _, rfl, nofun, ?_, nofun⟩
        exact fun _ hwait => by rw [hwait] at hkind; cases hkind
      · cases hs
    · cases hs
  · rename_i hplace hlock
    apply And.intro (by rw [hplace]; rfl)
    split at hs
    · rename_i hk
      subst hk
      refine .inr ⟨_, _, hlock, ?_⟩
      cases hdrain : m.drain _ with
      | none =>
        rw [hdrain] at hs
        cases hs
        exact .inr ⟨rfl, rfl⟩
      | some m₁ =>
        rw [hdrain] at hs
        exact .inl hs
    · cases hs
  · cases hs

theorem Enrolled.flush {i : Nat} (h : m.Enrolled) (hs : m.flush i c = some m') : m'.Enrolled := by
  obtain ⟨-, ⟨lock, p, rfl, hp, hkind, -⟩ | ⟨j, left, -, hdrain | ⟨-, rfl⟩⟩⟩ := flush_cases hs
  · exact (h.setLock lock).setCall fun _ => ⟨hp, fun eventCode o hwait =>
      absurd hwait (hkind eventCode)⟩
  · exact h.drain hdrain
  · exact h.setLock _

/-- A statement is one of the three that need the client, or concerns its call alone. -/
theorem exec_cases {i : Nat} (hs : m.exec loads i c s = some m') :
    m.subscribe i c = some m' ∨ m.leave i c = some m' ∨ s = .flush ∧ m.flush i c = some m' ∨
      ∃ c', c.advance loads s = some c' ∧ m' = m.setCall i c' := by
  unfold exec at hs
  split at hs
  · exact .inl hs
  · exact .inr (.inl hs)
  · exact .inr (.inr (.inl ⟨rfl, hs⟩))
  · obtain ⟨c', hc', rfl⟩ := Option.map_eq_some_iff.1 hs
    exact .inr (.inr (.inr ⟨c', hc', rfl⟩))

theorem step_call {i : Nat} {kind : Kind} (hs : m.step loads (.call i kind) = some m') :
    m.calls i = none ∧ m' = m.setCall i { kind := kind } := by
  rw [step] at hs
  split at hs
  · cases hs
    exact ⟨‹_›, rfl⟩
  · cases hs

theorem step_exec {i : Nat} (hs : m.step loads (.exec i s) = some m') :
    ∃ c, m.calls i = some c ∧ m.exec loads i c s = some m' := by
  rw [step] at hs
  split at hs
  · exact ⟨_, ‹_›, hs⟩
  · cases hs

theorem Enrolled.step {a : MqttAct} (h : m.Enrolled) (hs : m.step loads a = some m') :
    m'.Enrolled := by
  cases a with
  | deliver payload => exact h.deliver hs
  | call i kind =>
    obtain ⟨hnone, rfl⟩ := step_call hs
    apply h.setCall
    intro hi
    obtain ⟨c, hc, -⟩ := h.living i hi
    rw [hnone] at hc
    cases hc
  | exec i s =>
    obtain ⟨c, hc, hs⟩ := step_exec hs
    obtain hs | hs | ⟨-, hs⟩ | ⟨c', hadvance, rfl⟩ := exec_cases hs
    · exact h.subscribe hc hs
    · exact h.leave hs
    · exact h.flush hs
    · exact h.goOn (continues_moved (moved_of_advance hadvance))

theorem Enrolled.unsubscribed (h : m.Enrolled) : m.Unsubscribed := by
  intro i c eventCode o hc hkind hdone hi
  obtain ⟨c', hc', -, hended⟩ := h.living i hi
  rw [hc] at hc'
  cases hc'
  exact hended eventCode o hkind hdone

theorem enrolled_start : ({} : MqttClient).Enrolled :=
  ⟨List.nodup_nil, fun i hi => by cases hi⟩

end MqttClient

/-- What a call that waits for an event keeps: the first one that came in time is the first of them
in its queue, until it has been decided how the call ends. -/
structure Call.Kept (loads : List Char → Except LoadsError Json) (eventCode : String) (c : Call) :
    Prop where
  live : c.place.outcome = none →
    firstEvent loads eventCode c.due = firstEvent loads eventCode c.inTime
  right : ∀ o, c.place.outcome = some o → o = expected loads eventCode c.due
  settled : c.place.outcome.isSome = true →
    (firstEvent loads eventCode c.due).isSome = true ∨ c.late = true

theorem firstEvent_append (payloads payloads' : List Bytes) :
    firstEvent loads eventCode (payloads ++ payloads') =
      (firstEvent loads eventCode payloads).or (firstEvent loads eventCode payloads') :=
  List.findSome?_append

theorem Call.Kept.hear (h : c.Kept loads eventCode) (payload : Bytes) :
    (c.hear payload).Kept loads eventCode := by
  cases hlate : c.late with
  | true =>
    have hdue : (c.hear payload).due = c.due := by
      rw [Call.hear, hlate]
      rfl
    have hqueue : (c.hear payload).inTime = c.inTime := by
      rw [Call.inTime, Call.hear, hlate, List.filter_append]
      simp [Call.inTime]
    refine ⟨?_, ?_, ?_⟩
    · rw [hdue, hqueue]
      exact h.live
    · rw [hdue]
      exact h.right
    · exact fun _ => .inr hlate
  | false =>
    have hdue : (c.hear payload).due = c.due ++ [payload] := by
      rw [Call.hear, hlate]
      rfl
    have hqueue : (c.hear payload).inTime = c.inTime ++ [payload] := by
      rw [Call.inTime, Call.hear, hlate, List.filter_append]
      simp [Call.inTime]
    have hsettled (hplace : c.place.outcome.isSome = true) :
        firstEvent loads eventCode (c.due ++ [payload]) = firstEvent loads eventCode c.due := by
      rw [firstEvent_append]
      apply Option.or_of_isSome
      exact (h.settled hplace).resolve_right (by rw [hlate]; exact Bool.false_ne_true)
    refine ⟨?_, ?_, ?_⟩
    · intro hplace
      rw [hdue, hqueue, firstEvent_append, firstEvent_append, h.live hplace]
    · intro o hplace
      rw [hdue, expected, hsettled (Option.isSome_of_mem hplace)]
      exact h.right o hplace
    · intro hplace
      rw [hdue, hsettled hplace]
      exact h.settled hplace

/-- A payload has left the queue that is not the event the call waits for. -/
theorem Call.Kept.skip {queue : List Delivery} (h : c.Kept loads eventCode)
    (hqueue : c.queue = x :: queue)
    (hx : c.place.outcome = none → x.inTime = true → eventOf loads eventCode x.payload = none) :
    ({ c with queue := queue } : Call).Kept loads eventCode where
  live hplace := by
    rw [h.live hplace, Call.inTime, hqueue, Call.inTime, List.filter_cons]
    split
    · rename_i htime
      rw [List.map_cons, firstEvent, List.findSome?_cons, hx hplace htime]
      rfl
    · rfl
  right := h.right
  settled := h.settled

theorem Call.Kept.goTo {p : Place} (h : c.Kept loads eventCode) (hplace : c.place.outcome = none)
    (hp : p.outcome = none) : (c.goTo p).Kept loads eventCode where
  live _ := h.live hplace
  right o ho := by
    rw [Call.goTo, hp] at ho
    cases ho
  settled ho := by
    rw [Call.goTo, hp] at ho
    cases ho

theorem expected_of_some {payloads : List Bytes} {data : Json}
    (h : firstEvent loads eventCode payloads = some data) :
    expected loads eventCode payloads = .event data := by
  rw [expected, h]

theorem expected_of_none {payloads : List Bytes} (h : firstEvent loads eventCode payloads = none) :
    expected loads eventCode payloads = timedOut eventCode := by
  rw [expected, h]

theorem Call.take_wait (hkind : c.kind = .waitForEvent eventCode) (payload : Bytes) :
    c.take loads payload = match receive loads eventCode payload with
      | .event data => c.goTo (.leaving (.event data))
      | .other => c.goTo .polling
      | .raised e => c.goTo (.leaving (.raised e)) := by
  obtain ⟨kind, queue, place, chunks, due, late⟩ := c
  cases hkind
  rfl

theorem Call.Kept.take {queue : List Delivery} (h : c.Kept loads eventCode)
    (hkind : c.kind = .waitForEvent eventCode) (hplace : c.place.outcome = none)
    (hqueue : c.queue = x :: queue) (hx : MqttClient.Takeable loads eventCode x) :
    (({ c with queue := queue } : Call).take loads x.payload).Kept loads eventCode := by
  have hkind' : ({ c with queue := queue } : Call).kind = .waitForEvent eventCode := hkind
  rw [Call.take_wait hkind']
  cases hreceive : receive loads eventCode x.payload with
  | event data =>
    have hevent : eventOf loads eventCode x.payload = some data := by
      rw [eventOf, hreceive]
    have htime : x.inTime = true := by
      cases htime : x.inTime with
      | true => rfl
      | false =>
        rw [hx.2 htime] at hevent
        cases hevent
    have hdue : firstEvent loads eventCode c.due = some data := by
      rw [h.live hplace, Call.inTime, hqueue, List.filter_cons, if_pos htime, List.map_cons,
        firstEvent, List.findSome?_cons, hevent]
    refine ⟨nofun, ?_, ?_⟩
    · intro o ho
      cases ho
      exact (expected_of_some hdue).symm
    · exact fun _ => .inl (Option.isSome_of_mem hdue)
  | other =>
    have hother : eventOf loads eventCode x.payload = none := by
      rw [eventOf, hreceive]
    have hskipped := (h.skip hqueue fun _ _ => hother).goTo (p := .polling) hplace rfl
    exact hskipped
  | raised e => exact absurd hreceive (hx.1 e)

theorem Call.Kept.check (h : c.Kept loads eventCode) (hkind : c.kind = .waitForEvent eventCode)
    (hplace : c.place.outcome = none)
    (hguard : c.late = true → firstEvent loads eventCode c.inTime = none) :
    (c.goTo (if c.late then .leaving c.giveUp else .getting)).Kept loads eventCode := by
  cases hlate : c.late with
  | true =>
    have hdue : firstEvent loads eventCode c.due = none := (h.live hplace).trans (hguard hlate)
    have hgive : c.giveUp = timedOut eventCode := by
      rw [Call.giveUp, hkind]
    refine ⟨nofun, ?_, ?_⟩
    · intro o ho
      cases ho
      exact hgive.trans (expected_of_none hdue).symm
    · exact fun _ => .inr hlate
  | false => exact h.goTo hplace rfl

theorem Call.Kept.moved (h : c.Kept loads eventCode) (hkind : c.kind = .waitForEvent eventCode)
    (htake : s = .take → ∀ x queue, c.queue = x :: queue → MqttClient.Takeable loads eventCode x)
    (hcheck : s = .check → c.late = true → firstEvent loads eventCode c.inTime = none)
    (hs : c.Moved loads s c') : c'.Kept loads eventCode := by
  cases hs with
  | aside hother _ => exact absurd hkind (hother eventCode)
  | elapse _ => exact ⟨h.live, h.right, fun _ => .inr rfl⟩
  | check hplace => exact h.check hkind (by rw [hplace]; rfl) (hcheck rfl)
  | take hplace hqueue =>
    exact h.take hkind (by rw [hplace]; rfl) hqueue (htake rfl _ _ hqueue)
  | empty hplace =>
    rw [Call.starve]
    simp only [hkind]
    exact h.goTo (by rw [hplace]; rfl) rfl

namespace MqttClient

/-- Every call that waits for an event keeps the first one that came in time. -/
def Keeps (loads : List Char → Except LoadsError Json) (m : MqttClient) : Prop :=
  ∀ i c eventCode, m.calls i = some c → c.kind = .waitForEvent eventCode → c.Kept loads eventCode

theorem Keeps.setCall {i : Nat} (h : m.Keeps loads)
    (hc : ∀ eventCode, c.kind = .waitForEvent eventCode → c.Kept loads eventCode) :
    (m.setCall i c).Keeps loads := by
  intro j c' eventCode hj hkind
  by_cases hji : j = i
  · subst hji
    rw [setCall_same] at hj
    cases hj
    exact hc eventCode hkind
  · rw [setCall_other hji] at hj
    exact h j c' eventCode hj hkind

theorem Keeps.deliver (h : m.Keeps loads) (hs : m.deliver payload = some m') : m'.Keeps loads := by
  cases deliver_eq hs
  intro i c' eventCode hi hkind
  obtain ⟨c, hc, rfl⟩ := Option.map_eq_some_iff.1 hi
  split at hkind
  · rw [if_pos ‹_›]
    exact (h i c eventCode hc hkind).hear payload
  · rw [if_neg ‹_›]
    exact h i c eventCode hc hkind

theorem Keeps.drain {j : Nat} (h : m.Keeps loads)
    (hguard : ∀ c eventCode x queue, m.calls j = some c → c.kind = .waitForEvent eventCode →
      c.place.outcome = none → c.queue = x :: queue → x.inTime = true →
      eventOf loads eventCode x.payload = none) (hs : m.drain j = some m') : m'.Keeps loads := by
  obtain ⟨c, x, queue, hc, hqueue, rfl⟩ := drain_cases hs
  apply h.setCall
  intro eventCode hkind
  exact (h j c eventCode hc hkind).skip hqueue fun hplace =>
    hguard c eventCode x queue hc hkind hplace hqueue

theorem Keeps.subscribe {i : Nat} (h : m.Keeps loads) (hc : m.calls i = some c)
    (hs : m.subscribe i c = some m') : m'.Keeps loads := by
  obtain ⟨hplace, p, rfl, -, houtcome⟩ := subscribe_cases hs
  apply Keeps.setCall (m := { m with subscribers := m.subscribers ++ [i] }) h
  intro eventCode hkind
  exact (h i c eventCode hc hkind).goTo (by rw [hplace]; rfl) houtcome

theorem Keeps.leave {i : Nat} (h : m.Keeps loads) (hc : m.calls i = some c)
    (hs : m.leave i c = some m') : m'.Keeps loads := by
  obtain ⟨o, hplace, rfl⟩ := leave_cases hs
  apply Keeps.setCall (m := { m with subscribers := m.subscribers.erase i }) h
  intro eventCode hkind
  have hkept := h i c eventCode hc hkind
  have houtcome : c.place.outcome = some o := by
    rw [hplace]
    rfl
  refine ⟨nofun, ?_, ?_⟩
  · intro o' ho'
    cases ho'
    exact hkept.right o houtcome
  · exact fun _ => hkept.settled (Option.isSome_of_mem houtcome)

theorem Keeps.step {a : MqttAct} (h : m.Keeps loads) (hguard : m.Guarded loads a)
    (hs : m.step loads a = some m') : m'.Keeps loads := by
  cases a with
  | deliver payload => exact h.deliver hs
  | call i kind =>
    obtain ⟨-, rfl⟩ := step_call hs
    apply h.setCall
    exact fun eventCode _ => ⟨fun _ => rfl, nofun, nofun⟩
  | exec i s =>
    obtain ⟨c, hc, hs⟩ := step_exec hs
    obtain hs | hs | ⟨rfl, hs⟩ | ⟨c', hadvance, rfl⟩ := exec_cases hs
    · exact h.subscribe hc hs
    · exact h.leave hc hs
    · obtain ⟨-, ⟨lock, p, rfl, -, hkind, -⟩ | ⟨j, left, hlock, hdrain | ⟨-, rfl⟩⟩⟩ :=
        flush_cases hs
      · apply Keeps.setCall (m := { m with lock := lock }) h
        exact fun eventCode hwait => absurd hwait (hkind eventCode)
      · exact h.drain (fun c eventCode x queue => hguard j left c eventCode x queue hlock) hdrain
      · exact h
    · apply h.setCall
      intro eventCode hkind
      have hmoved := moved_of_advance hadvance
      have hkind' : c.kind = .waitForEvent eventCode :=
        (continues_moved hmoved).kind.symm.trans hkind
      apply (h i c eventCode hc hkind').moved hkind' _ _ hmoved
      · rintro rfl x queue hqueue
        exact hguard c eventCode x queue hc hkind' hqueue
      · rintro rfl
        exact hguard c eventCode hc hkind'

theorem guarded_check {i : Nat} (hc : m.calls i = some c) (hlate : c.late = false) :
    m.Guarded loads (.exec i .check) := by
  intro c' eventCode hc' _ hlate'
  rw [hc] at hc'
  cases hc'
  exact absurd (hlate.symm.trans hlate') Bool.false_ne_true

theorem guarded_take {i : Nat} {queue : List Delivery} (hc : m.calls i = some c)
    (hkind : c.kind = .waitForEvent eventCode) (hqueue : c.queue = x :: queue)
    (hx : Takeable loads eventCode x) : m.Guarded loads (.exec i .take) := by
  intro c' eventCode' x' queue' hc' hkind' hqueue'
  rw [hc] at hc'
  cases hc'
  rw [hkind] at hkind'
  cases hkind'
  rw [hqueue] at hqueue'
  cases hqueue'
  exact hx

theorem keeps_start : ({} : MqttClient).Keeps loads := fun i c eventCode hc => by cases hc

theorem Keeps.found (h : m.Keeps loads) : m.Found loads := by
  intro i c eventCode o hc hkind hdone
  apply (h i c eventCode hc hkind).right
  rw [hdone]
  rfl

variable (loads) in
theorem take_toGo (c : Call) (payload : Bytes) :
    (c.take loads payload).late = c.late ∧ (c.take loads payload).place.toGo ≤ 2 := by
  rw [Call.take]
  split
  · split
    · exact ⟨rfl, by simp [Call.goTo, Place.toGo]⟩
    · exact ⟨rfl, by simp [Call.goTo, Place.toGo]⟩
    · exact ⟨rfl, by simp [Call.goTo, Place.toGo]⟩
  · exact ⟨rfl, by simp [Place.toGo]⟩

theorem starve_toGo (c : Call) : c.starve.late = c.late ∧ c.starve.place.toGo ≤ 2 := by
  rw [Call.starve]
  split
  · split
    · exact ⟨rfl, by simp [Call.goTo, Place.toGo]⟩
    · exact ⟨rfl, by simp [Call.goTo, Place.toGo]⟩
  · exact ⟨rfl, by simp [Call.goTo, Place.toGo]⟩

theorem deadline_nearer {own : Bool} (h : c.place.toGo ≤ 3) (hlate : c'.late = c.late)
    (h' : c'.place.toGo + 1 ≤ c.place.toGo) : Call.deadline.Step own (some c) (some c') := by
  apply Deadline.Step.watching h (show c'.place.toGo ≤ 3 by omega)
  intro hc
  apply And.intro (hlate.trans hc)
  have hone := Bool.toNat_le own
  change _ + c'.place.toGo ≤ c.place.toGo
  omega

theorem deadline_early {own : Bool} (h : c.place.toGo = 4) (hlate : c'.late = c.late) :
    Call.deadline.Step own (some c) (some c') :=
  .early (by simp [Call.deadline, h]) hlate

theorem deadline_elapse (h : c.place.toGo ≤ 3) :
    Call.deadline.Step false (some c) (some { c with late := true }) :=
  .watching h h fun _ => ⟨rfl, by simp [Call.deadline]⟩

theorem deadline_check (hplace : c.place = .polling) :
    Call.deadline.Step true (some c)
      (some (c.goTo (if c.late then .leaving c.giveUp else .getting))) := by
  cases hlate : c.late with
  | true =>
    apply deadline_nearer
    · simp [hplace, Place.toGo]
    · rfl
    · simp [hplace, Call.goTo, Place.toGo]
  | false =>
    -- before the deadline the call may go round again
    apply Deadline.Step.watching
    · simp [Call.deadline, hplace, Place.toGo]
    · simp [Call.deadline, Call.goTo, Place.toGo]
    · intro hc
      cases hlate.symm.trans hc

theorem deadline_advance (h : c.advance loads s = some c') :
    Call.deadline.Step (s != .elapse) (some c) (some c') := by
  cases s with
  | refuse =>
    rw [Call.advance] at h
    split at h
    · rename_i hplace _
      cases h
      exact deadline_early (by rw [hplace]; rfl) rfl
    · cases h
  | write failure =>
    simp only [Call.advance] at h
    split at h
    · rename_i hplace _
      have hearly : c.place.toGo = 4 := by
        rw [hplace]
        rfl
      split at h
      · cases h
        exact deadline_early hearly rfl
      · cases h
        exact deadline_early hearly rfl
    · cases h
  | elapse =>
    rw [Call.advance] at h
    split at h
    · rename_i hplace
      cases h
      exact deadline_elapse (by simp [hplace, Place.toGo])
    · rename_i hplace
      cases h
      exact deadline_elapse (by simp [hplace, Place.toGo])
    · cases h
  | check =>
    rw [Call.advance] at h
    split at h
    · rename_i hplace
      cases h
      exact deadline_check hplace
    · cases h
  | take =>
    rw [Call.advance] at h
    split at h
    · rename_i x queue hplace _
      cases h
      have htake := take_toGo loads { c with queue := queue } x.payload
      apply deadline_nearer
      · simp [hplace, Place.toGo]
      · exact htake.1
      · rw [hplace]
        exact Nat.succ_le_succ htake.2
    · cases h
  | empty =>
    rw [Call.advance] at h
    split at h
    · rename_i hplace _
      cases h
      have hstarve := starve_toGo c
      apply deadline_nearer
      · simp [hplace, Place.toGo]
      · exact hstarve.1
      · rw [hplace]
        exact Nat.succ_le_succ hstarve.2
    · cases h
  | subscribe => cases h
  | flush => cases h
  | leave => cases h

theorem step_setCall {i : Nat} {own : Bool} (hc : m.calls i = some c)
    (h : Call.deadline.Step own (some c) (some c')) (j : Nat) :
    Call.deadline.Step (i == j && own) (m.calls j) ((m.setCall i c').calls j) := by
  by_cases hji : j = i
  · subst hji
    rw [setCall_same, hc, beq_self_eq_true, Bool.true_and]
    exact h
  · rw [setCall_other hji, beq_false_of_ne (Ne.symm hji), Bool.false_and]
    exact .refl _

theorem flush_deadline {i : Nat} (hc : m.calls i = some c) (hs : m.flush i c = some m') (j : Nat) :
    Call.deadline.Step (i == j && true) (m.calls j) (m'.calls j) := by
  obtain ⟨hearly, ⟨lock, p, rfl, -, -, -⟩ | ⟨k, left, -, hdrain | ⟨-, rfl⟩⟩⟩ := flush_cases hs
  · have hstep : Call.deadline.Step true (some c) (some (c.goTo p)) := deadline_early hearly rfl
    exact step_setCall (m := { m with lock := lock }) hc hstep j
  · obtain ⟨c', x, queue, hc', -, rfl⟩ := drain_cases hdrain
    have hsame : Call.deadline.Step false (some c') (some { c' with queue := queue }) :=
      .same rfl rfl
    have hdrained := step_setCall hc' hsame j
    by_cases hji : j = i
    · subst hji
      rw [beq_self_eq_true, Bool.true_and, hc]
      rw [Bool.and_false, hc] at hdrained
      by_cases hjk : j = k
      · subst hjk
        rw [hc] at hc'
        cases hc'
        rw [setCall_same]
        exact deadline_early hearly rfl
      · rw [setCall_other hjk, hc]
        exact deadline_early hearly rfl
    · rw [beq_false_of_ne (Ne.symm hji), Bool.false_and]
      rwa [Bool.and_false] at hdrained
  · by_cases hji : j = i
    · subst hji
      rw [hc]
      exact deadline_early hearly rfl
    · rw [beq_false_of_ne (Ne.symm hji), Bool.false_and]
      exact .refl _

theorem step_deadline {a : MqttAct} (hs : m.step loads a = some m') (j : Nat) :
    Call.deadline.Step (a.states j) (m.calls j) (m'.calls j) := by
  cases a with
  | deliver payload =>
    cases deliver_eq hs
    apply Deadline.Step.map
    · intro c
      split
      · rfl
      · rfl
    · intro c
      split
      · rfl
      · rfl
  | call i kind =>
    obtain ⟨hnone, rfl⟩ := step_call hs
    by_cases hji : j = i
    · subst hji
      rw [setCall_same, hnone]
      exact .made rfl
    · rw [setCall_other hji]
      exact .refl _
  | exec i s =>
    obtain ⟨c, hc, hs⟩ := step_exec hs
    unfold exec at hs
    split at hs
    · obtain ⟨hplace, p, rfl, -, -⟩ := subscribe_cases hs
      have hstep : Call.deadline.Step true (some c) (some (c.goTo p)) :=
        deadline_early (by rw [hplace]; rfl) rfl
      exact step_setCall (m := { m with subscribers := m.subscribers ++ [i] }) hc hstep j
    · obtain ⟨o, hplace, rfl⟩ := leave_cases hs
      apply step_setCall (m := { m with subscribers := m.subscribers.erase i }) hc
      apply deadline_nearer
      · simp [hplace, Place.toGo]
      · rfl
      · simp [hplace, Call.goTo, Place.toGo]
    · exact flush_deadline hc hs j
    · obtain ⟨c', hadvance, rfl⟩ := Option.map_eq_some_iff.1 hs
      exact step_setCall hc (deadline_advance hadvance) j

/-- The lock is held by a call that flushes. -/
def Held (m : MqttClient) : Prop :=
  ∀ k left, m.lock = some (k, left) → ∃ c, m.calls k = some c ∧ c.place = .flushing ∧
    ∀ eventCode, c.kind ≠ .waitForEvent eventCode

theorem Held.of_free (h : m.lock = none) : m.Held := by
  intro k left hlock
  rw [h] at hlock
  cases hlock

theorem Held.setCall {i : Nat} (h : m.Held) (hc : m.calls i = some c)
    (hplace : c.place = .flushing → c'.place = .flushing) (hkind : c'.kind = c.kind) :
    (m.setCall i c').Held := by
  intro k left hlock
  obtain ⟨u, hu, hflushing, hwait⟩ := h k left hlock
  by_cases hki : k = i
  · subst hki
    rw [hc] at hu
    cases hu
    exact ⟨c', setCall_same .., hplace hflushing, fun e => hkind ▸ hwait e⟩
  · exact ⟨u, by rwa [setCall_other hki], hflushing, hwait⟩

theorem advance_not_flushing (h : c.advance loads s = some c') : c.place ≠ .flushing := by
  intro hplace
  cases s with
  | _ => simp [Call.advance, hplace] at h

theorem Held.step {a : MqttAct} (h : m.Held) (hs : m.step loads a = some m') : m'.Held := by
  cases a with
  | deliver payload =>
    apply Held.of_free
    rw [MqttClient.step, MqttClient.deliver] at hs
    split at hs
    · cases hs
      assumption
    · cases hs
  | call i kind =>
    obtain ⟨hnone, rfl⟩ := step_call hs
    intro k left hlock
    obtain ⟨c, hc, hrest⟩ := h k left hlock
    have hki : k ≠ i := by
      rintro rfl
      rw [hnone] at hc
      cases hc
    exact ⟨c, by rwa [setCall_other hki], hrest⟩
  | exec i s =>
    obtain ⟨c, hc, hs⟩ := step_exec hs
    unfold exec at hs
    split at hs
    · apply Held.of_free
      rw [MqttClient.subscribe] at hs
      split at hs
      · cases hs
        assumption
      · cases hs
        assumption
      · cases hs
    · apply Held.of_free
      rw [MqttClient.leave] at hs
      split at hs
      · cases hs
        assumption
      · cases hs
    · obtain ⟨-, ⟨lock, p, rfl, -, hkind, hlock⟩ | ⟨j, left, hlock, hdrain | ⟨-, rfl⟩⟩⟩ :=
        flush_cases hs
      · intro k left hl
        obtain ⟨rfl, rfl⟩ := hlock k left hl
        exact ⟨_, setCall_same .., rfl, hkind⟩
      · obtain ⟨c', x, queue, hc', -, rfl⟩ := drain_cases hdrain
        exact h.setCall hc' (fun hp => hp) rfl
      · intro k left' hl
        cases hl
        exact h i _ hlock
    · obtain ⟨c', hadvance, rfl⟩ := Option.map_eq_some_iff.1 hs
      have hnot := advance_not_flushing hadvance
      exact h.setCall hc (fun hp => absurd hp hnot)
        (continues_moved (moved_of_advance hadvance)).kind

theorem Held.flush_isSome (h : m.Held) {k : Nat} {left : List Nat}
    (hlock : m.lock = some (k, left)) :
    (m.step loads (.exec k .flush)).isSome = true := by
  obtain ⟨c, hc, hplace, hwait⟩ := h k left hlock
  rw [MqttClient.step, hc]
  change (m.flush k c).isSome = true
  rw [MqttClient.flush]
  cases left with
  | nil =>
    rw [hplace, hlock]
    cases hkind : c.kind with
    | waitForEvent eventCode => exact absurd hkind (hwait eventCode)
    | safeRun cmd timeoutS => simp
    | flushBuffers => simp
  | cons j left =>
    rw [hplace, hlock]
    simp

theorem run_prompt {acts : List MqttAct}
    (h : Run (MqttClient.step loads) (fun _ _ => True) {} acts m) : m.Prompt loads := by
  intro i c hc hlate
  have hwatched := Deadline.watched_run MqttClient.calls MqttAct.states
    (fun ht => step_deadline ht) h (fun i c hc => by cases hc)
  have hbound : c.place.toGo ≤ 3 := hwatched i c hc hlate
  constructor
  · intro hdone
    have hexec (s : Statement) (hs : s ≠ .elapse) (h : (m.exec loads i c s).isSome = true) :
        ∃ s, MqttAct.states i (.exec i s) = true ∧ (m.step loads (.exec i s)).isSome = true := by
      refine ⟨s, by simp [MqttAct.states, hs], ?_⟩
      rw [MqttClient.step, hc]
      exact h
    cases hplace : c.place with
    | polling => exact .inl (hexec .check (by decide) (by simp [exec, Call.advance, hplace]))
    | getting =>
      cases hqueue : c.queue with
      | nil => exact .inl (hexec .empty (by decide) (by simp [exec, Call.advance, hplace, hqueue]))
      | cons x queue =>
        exact .inl (hexec .take (by decide) (by simp [exec, Call.advance, hplace, hqueue]))
    | leaving o =>
      cases hlock : m.lock with
      | none =>
        exact .inl (hexec .leave (by decide) (by simp [exec, MqttClient.leave, hplace, hlock]))
      | some held =>
        have hheld : m.Held := by
          apply h.invariant Held
          · exact fun hs _ hstep => hs.step hstep
          · exact Held.of_free rfl
        exact .inr ⟨held.1, held.2, rfl, hheld.flush_isSome hlock⟩
    | done o => exact absurd hplace (hdone o)
    | called | subscribed | flushing | flushed =>
      rw [hplace] at hbound
      simp [Place.toGo] at hbound
  · intro acts m' hrun
    exact Deadline.overdue_run MqttClient.calls MqttAct.states (fun ht => step_deadline ht) hrun
      ⟨c, hc, hlate, hbound⟩

end MqttClient

/-- In every run a call that has waited for an event has unsubscribed its queue, however it ended,
and each call ends promptly after its deadline; and in every guarded run a call that has waited for
an event has returned the first one that came in time, or has timed out without one. -/
theorem events_found (loads : List Char → Except LoadsError Json) :
    (∀ acts m, Run (MqttClient.step loads) (fun _ _ => True) {} acts m →
      m.Unsubscribed ∧ m.Prompt loads) ∧
      ∀ acts m, Run (MqttClient.step loads) (MqttClient.Guarded loads) {} acts m →
        m.Found loads := by
  constructor
  · intro acts m h
    apply And.intro _ (MqttClient.run_prompt h)
    apply MqttClient.Enrolled.unsubscribed
    apply h.invariant MqttClient.Enrolled
    · exact fun hs _ hstep => hs.step hstep
    · exact MqttClient.enrolled_start
  · intro acts m h
    apply MqttClient.Keeps.found
    apply h.invariant (MqttClient.Keeps loads)
    · exact fun hs hguard hstep => hs.step hguard hstep
    · exact MqttClient.keeps_start

end

/-- What `json.loads` makes of `[]` and of one event; nothing else is JSON. -/
def loadsTwo (text : List Char) : Except LoadsError Json :=
  if text = "[]".toList then .ok (.array [])
  else if text = "\x7b\"eventCode\": \"BOOT\"\x7d".toList then
    .ok (.object [(DeviceCrypto.fieldName "eventCode", .string (DeviceCrypto.fieldName "BOOT"))])
  else .error .jsonDecodeError

def bootEvent : Bytes := ascii "\x7b\"eventCode\": \"BOOT\"\x7d"

def servedWait : List MqttAct :=
  [.call 0 (.waitForEvent "BOOT"), .exec 0 .subscribe, .deliver (ascii "ok"), .deliver bootEvent,
    .exec 0 .check, .exec 0 .take, .exec 0 .check, .exec 0 .take, .exec 0 .leave]

theorem servedWait_found :
    ∃ m, runFrom (MqttClient.step loadsTwo) {} servedWait = some m ∧ m.Found loadsTwo := by
  refine ⟨_, rfl, (events_found loadsTwo).2 servedWait _ ?_⟩
  apply Run.cons trivial rfl
  apply Run.cons trivial rfl
  apply Run.cons trivial rfl
  apply Run.cons trivial rfl
  apply Run.cons (MqttClient.guarded_check rfl rfl) rfl
  apply Run.cons
  · apply MqttClient.guarded_take rfl rfl rfl
    exact ⟨nofun, nofun⟩
  · rfl
  apply Run.cons (MqttClient.guarded_check rfl rfl) rfl
  apply Run.cons
  · apply MqttClient.guarded_take rfl rfl rfl
    exact ⟨nofun, nofun⟩
  · rfl
  apply Run.cons trivial rfl
  exact .nil _

def arrayFirst : List MqttAct :=
  [.call 0 (.waitForEvent "BOOT"), .exec 0 .subscribe, .exec 0 .check, .deliver (ascii "[]"),
    .deliver bootEvent, .exec 0 .take, .exec 0 .leave]

/-- A command of another client flushes the event away, and the deadline passes. -/
def flushedAway : List MqttAct :=
  [.call 0 (.waitForEvent "BOOT"), .exec 0 .subscribe, .exec 0 .check, .call 1 .flushBuffers,
    .deliver bootEvent, .exec 1 .flush, .exec 1 .flush, .exec 1 .flush, .exec 1 .flush,
    .exec 0 .empty, .exec 0 .elapse, .exec 0 .check, .exec 0 .leave]

/-- The deadline passes while the event stands in the queue. -/
def lateLook : List MqttAct :=
  [.call 0 (.waitForEvent "BOOT"), .exec 0 .subscribe, .deliver bootEvent, .exec 0 .elapse,
    .exec 0 .check, .exec 0 .leave]

theorem events_missed :
    (∃ m, Run (MqttClient.step loadsTwo) (fun _ _ => True) {} arrayFirst m ∧ ¬ m.Found loadsTwo) ∧
    (∃ m, Run (MqttClient.step loadsTwo) (fun _ _ => True) {} flushedAway m ∧
      ¬ m.Found loadsTwo) ∧
    ∃ m, Run (MqttClient.step loadsTwo) (fun _ _ => True) {} lateLook m ∧ ¬ m.Found loadsTwo := by
  refine ⟨⟨_, Run.of_runFrom rfl fun _ _ _ => trivial, ?_⟩,
    ⟨_, Run.of_runFrom rfl fun _ _ _ => trivial, ?_⟩,
    ⟨_, Run.of_runFrom rfl fun _ _ _ => trivial, ?_⟩⟩
  · intro h
    have hright := h 0 _ "BOOT" _ rfl rfl rfl
    cases hright
  · intro h
    have hright := h 0 _ "BOOT" _ rfl rfl rfl
    cases hright
  · intro h
    have hright := h 0 _ "BOOT" _ rfl rfl rfl
    cases hright

end Mqtt
end MesCore
