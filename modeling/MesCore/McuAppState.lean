import MesCore.CallHistory
import Mathlib.Algebra.Order.Field.Rat
import Mathlib.Logic.Function.Basic

namespace MesCore
set_option autoImplicit true

namespace McuApp

inductive AppErr
  | machineError (msg : String)
  | attributeError (msg : String)
  | other (name : String)
  deriving DecidableEq

/-- `except (MachineError, AttributeError)`. -/
def AppErr.ignored : AppErr → Bool
  | .machineError _ | .attributeError _ => true
  | .other _ => false

/-- A callback around a change of state. -/
inductive Hook
  | before (name : String)
  | onExit (state : String)
  | onEnter (state : String)
  | after (name : String)
  deriving DecidableEq

structure StateChanged where
  fsmName : String
  oldState : String
  newState : String
  trigger : String
  timestamp : ℚ
  deriving DecidableEq

inductive AppCall
  | condition (name : String)
  | hook (h : Hook)
  | monotonic
  | time
  | emitStateEvent (ev : StateChanged)

@[reducible] def AppCall.Ans : AppCall → Type
  | .condition _ => Bool
  | .hook _ | .emitStateEvent _ => Unit
  | .monotonic | .time => ℚ

/-- The state of the machine, `_state_timestamps` and `_state_durations`. -/
structure App where
  state : String
  timestamps : String → Option ℚ
  durations : String → Option ℚ

/-- A transition has been executed. -/
structure Executed where
  source : String
  dest : String
  deriving DecidableEq

@[reducible] def appInterface : Interface where
  Call := AppCall
  Ans := AppCall.Ans
  Err := AppErr
  Note := Executed
  Vars := App

abbrev Observers := Device appInterface

abbrev AppProg (d : Observers) (α : Type) := Prog d α

abbrev AppHistory := List (Entry appInterface)

namespace App

def init (initialState : String) : App := ⟨initialState, fun _ => none, fun _ => none⟩

def setState (dest : String) (v : App) : App := { v with state := dest }

/-- What `_record_timestamp` does to the two maps. -/
def record (source : String) (now : ℚ) (v : App) : App where
  state := v.state
  timestamps := Function.update v.timestamps v.state (some now)
  durations :=
    match v.timestamps source with
    | some entry =>
      Function.update v.durations source (some ((v.durations source).getD 0 + (now - entry)))
    | none => v.durations

/-- `state_durations`, read at `now`. -/
def stateDurations (v : App) (now : ℚ) : String → Option ℚ :=
  match v.timestamps v.state with
  | some entry =>
    Function.update v.durations v.state (some ((v.durations v.state).getD 0 + (now - entry)))
  | none => v.durations

end App

inductive Source
  | wildcard
  | only (states : List String)

/-- The `dest` of a transition: a state, `"="`, or `None`. -/
inductive Dest
  | state (name : String)
  | reflexive
  | internal

/-- The arguments of `add_transition`. -/
structure TransitionSpec where
  trigger : String
  source : Source
  dest : Dest
  conditions : List String
  before : List String
  after : List String

/-- A transition out of one state. An internal transition has no destination. -/
structure Transition where
  trigger : String
  source : String
  dest : Option String
  conditions : List String
  before : List String
  after : List String

/-- The machine of the `transitions` library, as far as it decides what a trigger does. -/
structure Machine where
  states : List String
  events : List String
  transitions : List Transition

def Dest.resolve (source : String) : Dest → Option String
  | .state name => some name
  | .reflexive => some source
  | .internal => none

def Machine.addTransition (m : Machine) (t : TransitionSpec) : Machine :=
  let sources := match t.source with
    | .wildcard => m.states
    | .only states => states
  { m with
    events := m.events ++ [t.trigger]
    transitions := m.transitions ++ sources.map fun s =>
      ⟨t.trigger, s, t.dest.resolve s, t.conditions, t.before, t.after⟩ }

/-- What a project adds to `McuAppStateMachine`. -/
structure Subclass where
  className : String
  initialState : String
  extraStates : List String
  extraTransitions : List TransitionSpec
  /-- There is a method `on_enter_<state>`. -/
  definesOnEnter : String → Bool
  definesOnExit : String → Bool

def baseStates : List String := ["OFFLINE", "BOOTING", "NETWORK_UP", "TIME_SYNCED", "APP_READY"]

def baseTransitions : List TransitionSpec :=
  let plain (trigger source dest : String) : TransitionSpec :=
    ⟨trigger, .only [source], .state dest, [], [], []⟩
  [plain "boot_started" "OFFLINE" "BOOTING",
    plain "network_up" "BOOTING" "NETWORK_UP",
    plain "time_synced" "NETWORK_UP" "TIME_SYNCED",
    plain "app_ready" "TIME_SYNCED" "APP_READY",
    ⟨"reset", .wildcard, .state "OFFLINE", [], [], []⟩,
    plain "app_ready" "NETWORK_UP" "APP_READY",
    plain "app_ready" "BOOTING" "APP_READY"]

namespace Subclass
section
variable (sub : Subclass) {d : Observers}

def machine : Machine :=
  (baseTransitions ++ sub.extraTransitions).foldl Machine.addTransition
    { states := baseStates ++ sub.extraStates, events := [], transitions := [] }

def runHooks : List Hook → AppProg d Unit
  | [] => pure ()
  | h :: hs => do
    call (I := appInterface) (.hook h)
    runHooks hs

/-- The conditions of a transition, up to the first that fails. -/
def evalConditions : List String → AppProg d Bool
  | [] => pure true
  | c :: cs => do
    let holds : Bool ← call (I := appInterface) (.condition c)
    if holds then evalConditions cs else pure false

def hooksBefore (t : Transition) : List Hook :=
  t.before.map .before ++
    if t.dest.isSome ∧ sub.definesOnExit t.source = true then [.onExit t.source] else []

/-- The callbacks behind the change of state, up to `_record_timestamp`. -/
def hooksAfter (t : Transition) : List Hook :=
  (match t.dest with
    | some dest => if sub.definesOnEnter dest then [.onEnter dest] else []
    | none => []) ++ t.after.map .after

def changeState (t : Transition) : AppProg d Unit := do
  match t.dest with
  | some dest => modifyVars (App.setState dest)
  | none => pure ()
  note (I := appInterface) ⟨t.source, t.dest.getD t.source⟩

/-- `_record_timestamp`. -/
def recordTimestamp (source trigger : String) : AppProg d Unit := do
  let now : ℚ ← call (I := appInterface) .monotonic
  modifyVars (App.record source now)
  let v ← getVars
  let timestamp : ℚ ← call (I := appInterface) .time
  call (I := appInterface) (.emitStateEvent
    ⟨sub.className, source, v.state, if trigger = "" then "unknown" else trigger, timestamp⟩)

/-- The library runs one transition: `False` where a condition fails. -/
def execute (t : Transition) : AppProg d Bool := do
  let accepted ← evalConditions t.conditions
  if accepted then do
    runHooks (sub.hooksBefore t)
    changeState t
    runHooks (sub.hooksAfter t)
    sub.recordTimestamp t.source t.trigger
    pure true
  else pure false

/-- The first transition whose conditions hold is executed. -/
def process : List Transition → AppProg d Bool
  | [] => pure false
  | t :: ts => do
    let done ← sub.execute t
    if done then pure true else process ts

/-- `self.trigger(trigger)`. -/
def trigger (trigger : String) : AppProg d Bool := do
  let v ← getVars
  if trigger ∉ sub.machine.events then
    fail (.attributeError s!"Do not know event named '{trigger}'.")
  else
    match sub.machine.transitions.filter fun t => t.trigger = trigger ∧ t.source = v.state with
    | [] =>
      let state := v.state
      fail (.machineError s!"Can't trigger event {trigger} from state {state}!")
    | ts => sub.process ts

def feedEvent (event : String) : AppProg d Bool :=
  attempt (do
    let _ ← sub.trigger event
    pure true)
    AppErr.ignored fun _ => pure false

end
end Subclass

/-- A transition has been executed. -/
def Changed (t : AppHistory) : Prop := ∃ n, .note n ∈ t

/-- The last thing that happened is a call. -/
def EndsIn (t : AppHistory) (c : AppCall) (r : Except AppErr c.Ans) : Prop :=
  t.getLast? = some (.call c r)

/-- The last candidate has been turned down by a condition. -/
def Refused (t : AppHistory) : Prop := ∃ c, EndsIn t (.condition c) (.ok false)

def AppCall.late : AppCall → Bool
  | .condition _ | .hook (.before _) | .hook (.onExit _) => false
  | .hook (.onEnter _) | .hook (.after _) | .monotonic | .time | .emitStateEvent _ => true

/-- A callback behind the change of state has raised an error that `feed_event` ignores. -/
def FailedLate (t : AppHistory) : Prop :=
  ∃ c e, EndsIn t c (.error e) ∧ c.late = true ∧ e.ignored = true

/-- `feed_event` says what has happened: `True` for an executed transition, and nothing has been
touched where it says `False`. -/
structure Truthful {d : Observers} (sub : Subclass) (event : String) (w : World d) : Prop where
  result : wp (sub.feedEvent event)
    (fun accepted w' => (accepted = true ↔ Changed (w.since w')) ∧
      (accepted = false → w'.vars = w.vars))
    (fun _ _ => True) w

/-- The ways a trigger can go, from the variables, the history and the result it leaves. -/
inductive Fired (v v' : App) (t : AppHistory) : Except AppErr Bool → Prop
  | refused (hv : v' = v) (ht : ¬ Changed t) (hlast : Refused t) : Fired v v' t (.ok false)
  | completed (ht : Changed t) (ev : StateChanged)
      (hlast : EndsIn t (.emitStateEvent ev) (.ok ())) : Fired v v' t (.ok true)
  | early (hv : v' = v) (ht : ¬ Changed t) (c : AppCall) (hlast : EndsIn t c (.error e))
      (hc : c.late = false) : Fired v v' t (.error e)
  | late (ht : Changed t) (c : AppCall) (hlast : EndsIn t c (.error e)) (hc : c.late = true) :
      Fired v v' t (.error e)

section
variable {sub : Subclass} {d : Observers} {s t : AppHistory} {c : AppCall}
  {r : Except AppErr c.Ans}

theorem EndsIn.append (h : EndsIn t c r) (s : AppHistory) : EndsIn (s ++ t) c r := by
  rw [EndsIn, List.getLast?_append, h]
  rfl

theorem Refused.append (h : Refused t) (s : AppHistory) : Refused (s ++ t) := by
  obtain ⟨c, hc⟩ := h
  exact ⟨c, hc.append s⟩

theorem changed_append : Changed (s ++ t) ↔ Changed s ∨ Changed t := by
  simp only [Changed, List.mem_append, exists_or]

theorem not_changed_call (c : AppCall) (r : Except AppErr c.Ans) : ¬ Changed [.call c r] := by
  intro h
  obtain ⟨n, hn⟩ := h
  cases List.mem_singleton.1 hn

theorem not_changed_nil : ¬ Changed [] := by
  intro h
  obtain ⟨n, hn⟩ := h
  cases hn

theorem EndsIn.ok_error {a : c.Ans} {c' : AppCall} {e : AppErr} (h : EndsIn t c (.ok a))
    (h' : EndsIn t c' (.error e)) : False := by
  rw [EndsIn, h] at h'
  injection h' with h'
  injection h' with hc hr
  subst hc
  cases hr

theorem not_changed_cons (h : ¬ Changed t) : ¬ Changed (.call c r :: t) := by
  intro h'
  obtain ⟨n, hn⟩ := h'
  cases hn with
  | tail _ hn => exact h ⟨n, hn⟩

theorem leaves_runHooks {late : Bool} {hs : List Hook}
    (hlate : ∀ h ∈ hs, (AppCall.hook h).late = late) :
    Leaves (d := d) (Subclass.runHooks hs) (fun _ seg => ¬ Changed seg)
      fun e seg => ¬ Changed seg ∧ ∃ c, EndsIn seg c (.error e) ∧ c.late = late := by
  induction hs with
  | nil => exact .pure not_changed_nil
  | cons h hs ih =>
    apply Leaves.bind_call
    · intro e
      exact ⟨not_changed_call _ _, _, rfl, hlate h (List.mem_cons_self ..)⟩
    · intro _
      apply (ih fun h' hh' => hlate h' (List.mem_cons_of_mem _ hh')).mono
      · exact fun _ _ ht => not_changed_cons ht
      · intro e seg h
        obtain ⟨ht, c, hc, hearly⟩ := h
        exact ⟨not_changed_cons ht, c, hc.append [_], hearly⟩

theorem leaves_evalConditions (cs : List String) :
    Leaves (d := d) (Subclass.evalConditions cs)
      (fun holds seg => ¬ Changed seg ∧ (holds = false → Refused seg))
      fun e seg => ¬ Changed seg ∧ ∃ c, EndsIn seg c (.error e) ∧ c.late = false := by
  induction cs with
  | nil => exact .pure ⟨not_changed_nil, fun h => by cases h⟩
  | cons c cs ih =>
    apply Leaves.bind_call
    · intro e
      exact ⟨not_changed_call _ _, _, rfl, rfl⟩
    · intro holds
      cases holds with
      | false => exact .pure ⟨not_changed_call _ _, fun _ => ⟨c, rfl⟩⟩
      | true =>
        apply ih.mono
        · intro holds seg h
          exact ⟨not_changed_cons h.1, fun hf => (h.2 hf).append [_]⟩
        · intro e seg h
          obtain ⟨ht, c, hc, hearly⟩ := h
          exact ⟨not_changed_cons ht, c, hc.append [_], hearly⟩

/-- Nothing is known but that the variables stay as they are. -/
def sameVars : Frame appInterface where
  entry _ := True
  vars := Eq
  refl _ := rfl
  trans := Eq.trans

theorem within_runHooks (hs : List Hook) : Within (d := d) sameVars (Subclass.runHooks hs) := by
  induction hs with
  | nil => exact .pure ()
  | cons h hs ih => exact (Within.call _ fun _ => trivial).bind fun _ => ih

theorem within_evalConditions (cs : List String) :
    Within (d := d) sameVars (Subclass.evalConditions cs) := by
  induction cs with
  | nil => exact .pure true
  | cons c cs ih =>
    apply (Within.call _ fun _ => trivial).bind
    intro holds
    cases holds with
    | false => exact .pure false
    | true => exact ih

end

section
variable {sub : Subclass} {d : Observers} {t : Transition}

theorem not_late_before (h : Hook) (hh : h ∈ sub.hooksBefore t) :
    (AppCall.hook h).late = false := by
  rw [Subclass.hooksBefore, List.mem_append, List.mem_map] at hh
  obtain ⟨name, -, rfl⟩ | hh := hh
  · rfl
  · split at hh
    · rw [List.mem_singleton.1 hh]
      rfl
    · cases hh

theorem late_after (h : Hook) (hh : h ∈ sub.hooksAfter t) : (AppCall.hook h).late = true := by
  rw [Subclass.hooksAfter, List.mem_append, List.mem_map] at hh
  obtain hh | ⟨name, -, rfl⟩ := hh
  · split at hh
    · split at hh
      · rw [List.mem_singleton.1 hh]
        rfl
      · cases hh
    · cases hh
  · rfl

theorem leaves_recordTimestamp (source trigger : String) :
    Leaves (d := d) (sub.recordTimestamp source trigger)
      (fun _ seg => ∃ ev, EndsIn seg (.emitStateEvent ev) (.ok ()))
      fun e seg => ∃ c, EndsIn seg c (.error e) ∧ c.late = true := by
  apply Leaves.bind_call
  · exact fun e => ⟨_, rfl, rfl⟩
  intro now
  apply Leaves.bind (Q := fun _ s => s = []) (.modifyVars rfl)
  intro _ s hs
  subst hs
  apply Leaves.bind (Q := fun _ s => s = []) (.getVars fun _ => rfl)
  intro v s hs
  subst hs
  apply Leaves.bind_call
  · exact fun e => ⟨_, rfl, rfl⟩
  intro timestamp
  apply Leaves.call
  · exact fun _ => ⟨_, rfl⟩
  · exact fun e => ⟨_, rfl, rfl⟩

theorem leaves_changeState (t : Transition) (R : AppErr → AppHistory → Prop) :
    Leaves (d := d) (Subclass.changeState t) (fun _ seg => Changed seg) R := by
  have hnote (n : Executed) : Changed [.note n] := ⟨n, List.mem_singleton_self _⟩
  unfold Subclass.changeState
  split
  · apply Leaves.bind (Q := fun _ s => s = []) (.modifyVars rfl)
    intro _ s hs
    subst hs
    exact .note (hnote _)
  · exact .note (hnote _)

def Subclass.commit (sub : Subclass) (t : Transition) : AppProg d Bool := do
  changeState t
  runHooks (sub.hooksAfter t)
  sub.recordTimestamp t.source t.trigger
  pure true

theorem leaves_commit (sub : Subclass) (t : Transition) :
    Leaves (d := d) (sub.commit t)
      (fun done seg => done = true ∧ Changed seg ∧ ∃ ev, EndsIn seg (.emitStateEvent ev) (.ok ()))
      fun e seg => Changed seg ∧ ∃ c, EndsIn seg c (.error e) ∧ c.late = true := by
  apply (leaves_changeState t _).bind
  intro _ s₁ hs₁
  have hchanged (seg : AppHistory) : Changed (s₁ ++ seg) := changed_append.2 (.inl hs₁)
  apply Leaves.bind ((leaves_runHooks late_after).mono (fun _ _ h => h) _)
  · intro _ s₂ _
    apply Leaves.bind ((leaves_recordTimestamp _ _).mono (fun _ _ h => h) _)
    · intro _ s₃ hs₃
      obtain ⟨ev, hev⟩ := hs₃
      apply Leaves.pure
      rw [List.append_nil]
      exact ⟨rfl, hchanged _, ev, (hev.append s₂).append s₁⟩
    · intro e s₃ hs₃
      obtain ⟨c, hc, hlate⟩ := hs₃
      exact ⟨hchanged _, c, (hc.append s₂).append s₁, hlate⟩
  · intro e s₂ hs₂
    obtain ⟨-, c, hc, hlate⟩ := hs₂
    exact ⟨hchanged _, c, hc.append s₁, hlate⟩

theorem execute_eq (sub : Subclass) (t : Transition) :
    sub.execute (d := d) t = (do
      let accepted ← Subclass.evalConditions t.conditions
      if accepted then do
        Subclass.runHooks (sub.hooksBefore t)
        sub.commit t
      else pure false) := rfl

/-- A run has fired in one of the ways there are. -/
abbrev Fires (w w' : World d) (r : Except AppErr Bool) : Prop :=
  ∃ seg, w'.trace = w.trace ++ seg ∧ Fired w.vars w'.vars seg r

theorem fires_execute (sub : Subclass) (t : Transition) (w : World d) :
    wp (sub.execute t) (fun done w' => Fires w w' (.ok done)) (fun e w' => Fires w w' (.error e))
      w := by
  rw [execute_eq, wp_bind]
  apply ((leaves_evalConditions t.conditions).wp_within (within_evalConditions _)).mono
  · intro accepted w₁ h
    obtain ⟨hv₁, s₁, htrace₁, ht₁, hrefused⟩ := h
    cases accepted with
    | false => exact ⟨s₁, htrace₁, .refused hv₁.symm ht₁ (hrefused rfl)⟩
    | true =>
      rw [if_pos rfl, wp_bind]
      apply ((leaves_runHooks not_late_before).wp_within (within_runHooks _)).mono
      · intro _ w₂ h
        obtain ⟨hv₂, s₂, htrace₂, ht₂⟩ := h
        have htrace {w₃ : World d} {s₃ : AppHistory} (h : w₃.trace = w₂.trace ++ s₃) :
            w₃.trace = w.trace ++ (s₁ ++ s₂ ++ s₃) := by
          rw [h, htrace₂, htrace₁, List.append_assoc, List.append_assoc, List.append_assoc]
        apply ((leaves_commit sub t).runs w₂).mono
        · intro done w₃ h
          obtain ⟨s₃, htrace₃, rfl, ht₃, ev, hev⟩ := h
          exact ⟨_, htrace htrace₃, .completed (changed_append.2 (.inr ht₃)) ev (hev.append _)⟩
        · intro e w₃ h
          obtain ⟨s₃, htrace₃, ht₃, c, hc, hlate⟩ := h
          exact ⟨_, htrace htrace₃, .late (changed_append.2 (.inr ht₃)) c (hc.append _) hlate⟩
      · intro e w₂ h
        obtain ⟨hv₂, s₂, htrace₂, ht₂, c, hc, hearly⟩ := h
        refine ⟨s₁ ++ s₂, by rw [htrace₂, htrace₁, List.append_assoc], ?_⟩
        apply Fired.early (hv₁.trans hv₂).symm _ c (hc.append s₁) hearly
        exact fun h => (changed_append.1 h).elim ht₁ ht₂
  · intro e w₁ h
    obtain ⟨hv₁, s₁, htrace₁, ht₁, c, hc, hearly⟩ := h
    exact ⟨s₁, htrace₁, .early hv₁.symm ht₁ c hc hearly⟩

theorem Fired.after_refused {v v' : App} {s seg : AppHistory} {r : Except AppErr Bool}
    (hs : ¬ Changed s) (h : Fired v v' seg r) : Fired v v' (s ++ seg) r := by
  have hnot (ht : ¬ Changed seg) : ¬ Changed (s ++ seg) := fun h => (changed_append.1 h).elim hs ht
  cases h with
  | refused hv ht hlast => exact .refused hv (hnot ht) (hlast.append s)
  | completed ht ev hlast => exact .completed (changed_append.2 (.inr ht)) ev (hlast.append s)
  | early hv ht c hlast hc => exact .early hv (hnot ht) c (hlast.append s) hc
  | late ht c hlast hc => exact .late (changed_append.2 (.inr ht)) c (hlast.append s) hc

theorem fires_process (sub : Subclass) (t : Transition) (ts : List Transition) (w : World d) :
    wp (sub.process (t :: ts)) (fun done w' => Fires w w' (.ok done))
      (fun e w' => Fires w w' (.error e)) w := by
  induction ts generalizing t w with
  | nil =>
    rw [Subclass.process, wp_bind]
    apply (fires_execute sub t w).mono
    · intro done w₁ h
      cases done with
      | false => exact h
      | true => exact h
    · exact fun _ _ h => h
  | cons t' ts ih =>
    rw [Subclass.process, wp_bind]
    apply (fires_execute sub t w).mono
    · intro done w₁ h
      cases done with
      | true => exact h
      | false =>
        obtain ⟨s, htrace, hfired⟩ := h
        cases hfired with
        | refused hv hs _ =>
          have hgoes {w₂ : World d} {r : Except AppErr Bool} (h : Fires w₁ w₂ r) :
              Fires w w₂ r := by
            obtain ⟨seg, htrace₂, hseg⟩ := h
            rw [hv] at hseg
            exact ⟨s ++ seg, by rw [htrace₂, htrace, List.append_assoc], hseg.after_refused hs⟩
          exact (ih t' w₁).mono (fun _ _ h => hgoes h) fun _ _ h => hgoes h
    · exact fun _ _ h => h

/-- A trigger that the machine does not take in its state leaves nothing behind. -/
theorem fires_trigger (sub : Subclass) (event : String) (w : World d) :
    wp (sub.trigger event) (fun done w' => Fires w w' (.ok done))
      (fun e w' => w' = w ∨ Fires w w' (.error e)) w := by
  rw [Subclass.trigger, wp_bind, wp_getVars]
  split
  · exact .inl rfl
  · split
    · exact .inl rfl
    · rename_i hne
      cases hts : sub.machine.transitions.filter fun t =>
        t.trigger = event ∧ t.source = w.vars.state with
      | nil => exact (hne hts).elim
      | cons t ts => exact (fires_process sub t ts w).mono (fun _ _ h => h) fun _ _ h => .inr h

theorem feedEvent_of_ok {event : String} {w w' : World d} {done : Bool}
    (h : sub.trigger event w = .ok done w') : sub.feedEvent event w = .ok true w' := by
  rw [Subclass.feedEvent, attempt, bind_of_ok h]
  rfl

theorem feedEvent_of_error {event : String} {w w' : World d} {e : AppErr}
    (h : sub.trigger event w = .error e w') :
    sub.feedEvent event w = if e.ignored then .ok false w' else .error e w' := by
  rw [Subclass.feedEvent, attempt, bind_of_error h]
  rfl

theorem EndsIn.not_refused {c : AppCall} {seg : AppHistory} {e : AppErr}
    (h : EndsIn seg c (.error e)) : ¬ Refused seg := by
  intro hrefused
  obtain ⟨c', hc'⟩ := hrefused
  exact hc'.ok_error h

theorem EndsIn.failedLate_iff {c : AppCall} {seg : AppHistory} {e : AppErr}
    (h : EndsIn seg c (.error e)) :
    FailedLate seg ↔ c.late = true ∧ e.ignored = true := by
  constructor
  · intro hlate
    obtain ⟨c', e', hc', hlate⟩ := hlate
    rw [EndsIn, h] at hc'
    injection hc' with hc'
    injection hc' with hc hr
    subst hc
    cases hr
    exact hlate
  · exact fun hlate => ⟨c, e, h, hlate⟩

theorem EndsIn.not_failedLate {c : AppCall} {seg : AppHistory} {a : c.Ans}
    (h : EndsIn seg c (.ok a)) : ¬ FailedLate seg := by
  intro hlate
  obtain ⟨c', e, hc', -⟩ := hlate
  exact h.ok_error hc'

theorem truthful_of_ok {event : String} {w w' : World d} {seg : AppHistory} {done : Bool}
    (hrun : sub.trigger event w = .ok done w') (htrace : w'.trace = w.trace ++ seg)
    (h : Fired w.vars w'.vars seg (.ok done)) :
    Truthful sub event w ↔ ¬ Refused seg ∧ ¬ FailedLate seg := by
  have hiff : Truthful sub event w ↔ Changed seg := by
    have hresult : Truthful sub event w ↔ _ := ⟨fun h => h.result, fun h => ⟨h⟩⟩
    rw [hresult, wp, feedEvent_of_ok hrun]
    simp [World.since_eq htrace]
  rw [hiff]
  cases h with
  | refused hv ht hlast => exact iff_of_false ht fun h => h.1 hlast
  | completed ht ev hlast =>
    refine iff_of_true ht ⟨fun hrefused => ?_, hlast.not_failedLate⟩
    obtain ⟨c, hc⟩ := hrefused
    rw [EndsIn, hlast] at hc
    injection hc with hc
    injection hc with hc
    cases hc

theorem truthful_error_iff {event : String} {w w' : World d} {e : AppErr}
    (hrun : sub.trigger event w = .error e w') :
    Truthful sub event w ↔ (e.ignored = true → ¬ Changed (w.since w') ∧ w'.vars = w.vars) := by
  have hresult : Truthful sub event w ↔ _ := ⟨fun h => h.result, fun h => ⟨h⟩⟩
  rw [hresult, wp, feedEvent_of_error hrun]
  cases e.ignored with
  | false => simp
  | true => simp

theorem truthful_of_error {event : String} {w w' : World d} {seg : AppHistory} {e : AppErr}
    (hrun : sub.trigger event w = .error e w') (htrace : w'.trace = w.trace ++ seg)
    (h : Fired w.vars w'.vars seg (.error e)) :
    Truthful sub event w ↔ ¬ Refused seg ∧ ¬ FailedLate seg := by
  rw [truthful_error_iff hrun, World.since_eq htrace]
  cases h with
  | early hv ht c hlast hc =>
    refine iff_of_true (fun _ => ⟨ht, hv⟩) ⟨hlast.not_refused, ?_⟩
    rw [hlast.failedLate_iff, hc]
    simp
  | late ht c hlast hc =>
    rw [hlast.failedLate_iff, hc, and_iff_right hlast.not_refused]
    simp [ht]

/-- `feed_event` says what has happened, in any state and whatever the callbacks do, exactly when
the trigger does not end at a condition that fails, and no callback behind the change of state
raises an error that `feed_event` takes for a trigger it has to ignore. -/
theorem truthful_iff (sub : Subclass) (event : String) (w : World d) :
    Truthful sub event w ↔
      ¬ Refused (w.since (World.after (sub.feedEvent event w))) ∧
        ¬ FailedLate (w.since (World.after (sub.feedEvent event w))) := by
  have hfires := fires_trigger sub event w
  cases hrun : sub.trigger event w with
  | ok done w' =>
    obtain ⟨seg, htrace, h⟩ := hfires.ok hrun
    rw [truthful_of_ok hrun htrace h, feedEvent_of_ok hrun, World.after_ok, World.since_eq htrace]
  | error e w' =>
    have hafter : World.after (sub.feedEvent event w) = w' := by
      rw [feedEvent_of_error hrun]
      split <;> rfl
    rw [hafter]
    obtain rfl | ⟨seg, htrace, h⟩ := hfires.error hrun
    · have hsince : w'.since w' = [] := World.since_eq (List.append_nil _).symm
      rw [truthful_error_iff hrun, hsince]
      refine iff_of_true (fun _ => ⟨not_changed_nil, rfl⟩) ⟨fun h => ?_, fun h => ?_⟩
      · obtain ⟨c, hc⟩ := h
        cases hc
      · obtain ⟨c, e, hc, -⟩ := h
        cases hc
    · rw [truthful_of_error hrun htrace h, World.since_eq htrace]

end

/-- A guarded trigger out of `OFFLINE`, and a base machine with a method `on_enter_BOOTING`. -/
def guarded : Subclass where
  className := "GuardedAppStateMachine"
  initialState := "OFFLINE"
  extraStates := []
  extraTransitions := [⟨"go", .only ["OFFLINE"], .state "BOOTING", ["is_armed"], [], []⟩]
  definesOnEnter s := s = "BOOTING"
  definesOnExit _ := false

/-- Every condition fails, and every callback raises an `AttributeError`. -/
def contrary : Observers where
  State := Unit
  respond
    | .condition _, u => (.ok false, u)
    | .hook _, u => (.error (.attributeError "'NoneType' object has no attribute 'info'"), u)
    | .monotonic, u => (.ok (1 : ℚ), u)
    | .time, u => (.ok (1 : ℚ), u)
    | .emitStateEvent _, u => (.ok (), u)

/-- `feed_event("go")` returns `True` and does nothing; `feed_event("boot_started")` returns
`False` in the new state. -/
theorem feedEvent_untruthful : ¬ Truthful (d := contrary) guarded "go" ⟨.init "OFFLINE", (), []⟩ ∧
    ¬ Truthful (d := contrary) guarded "boot_started" ⟨.init "OFFLINE", (), []⟩ := by
  constructor
  · intro h
    have hrun : guarded.feedEvent (d := contrary) "go" ⟨.init "OFFLINE", (), []⟩ =
        .ok true ⟨.init "OFFLINE", (), [.call (.condition "is_armed") (.ok false)]⟩ := rfl
    exact not_changed_call _ _ ((h.result.ok hrun).1.1 rfl)
  · intro h
    obtain ⟨w', hrun, hstate⟩ : ∃ w', guarded.feedEvent (d := contrary) "boot_started"
        ⟨.init "OFFLINE", (), []⟩ = .ok false w' ∧ w'.vars.state = "BOOTING" := ⟨_, rfl, rfl⟩
    rw [(h.result.ok hrun).2 rfl] at hstate
    exact absurd hstate (by decide)

end McuApp
end MesCore
