import MesCore.StateMachine

namespace MesCore
set_option autoImplicit true

variable {d : Hardware} (fsm : Station)

/-- The triggers of the base machine, with the `medium` keyword of those that read it. -/
inductive Trigger
  | powerOff
  | energize (medium : Option String)
  | bootToBootloader (medium : Option String)
  | bootToOs (medium : Option String)
  | bootToRecovery
  | markDirty
  deriving DecidableEq

def Trigger.name : Trigger → String
  | .powerOff => "power_off"
  | .energize _ => "energize"
  | .bootToBootloader _ => "boot_to_bootloader"
  | .bootToOs _ => "boot_to_os"
  | .bootToRecovery => "boot_to_recovery"
  | .markDirty => "mark_dirty"

def Trigger.dest : Trigger → DutState
  | .powerOff => .powerOff
  | .energize _ => .energized
  | .bootToBootloader _ => .bootloader
  | .bootToOs _ => .osUserland
  | .bootToRecovery => .recovery
  | .markDirty => .dirty

/-- The `medium` keyword of a trigger, where its hook reads one. -/
def Trigger.medium : Trigger → Option String
  | .energize medium | .bootToBootloader medium | .bootToOs medium => medium
  | .powerOff | .bootToRecovery | .markDirty => none

/-- The `before` hook of a trigger. -/
def Trigger.hook : Trigger → Fsm d Unit
  | .powerOff => hwPowerOff fsm
  | .energize medium => hwEnergize fsm medium
  | .bootToBootloader medium => hwBootToBootloader fsm medium
  | .bootToOs medium => hwBootToOs fsm medium
  | .bootToRecovery => hwToRecovery fsm
  | .markDirty => pure ()

def Trigger.route : Trigger → Fsm d Unit
  | .powerOff => routePowerOff fsm
  | .energize medium => routeEnergize fsm medium
  | .bootToBootloader medium => routeBootToBootloader fsm medium
  | .bootToOs medium => routeBootToOs fsm medium
  | .bootToRecovery => routeToRecovery fsm
  | .markDirty => pure ()

/-- A trigger fired in a state it is registered for: the hook, then the change of state, then
the published event. A hook that raises leaves the state as the hook left it. -/
def fire (t : Trigger) : Fsm d Unit := do
  let source ← getState
  t.hook fsm
  setState t.dest
  note (.stateChanged source.name t.dest.name t.name)

/-- One registered transition. The hook reads the trigger's `medium` keyword. -/
structure Transition (d : Hardware) where
  trigger : String
  source : DutState
  dest : DutState
  before : Option String → Fsm d Unit

/-- The registry of the `transitions` library, as far as it decides what a trigger does. -/
structure Machine (d : Hardware) where
  states : List DutState
  transitions : List (Transition d)

inductive Source
  | wildcard
  | only (sources : List DutState)

/-- `add_transition`: the wildcard stands for the states registered so far. -/
def Machine.addTransition (m : Machine d) (trigger : String) (source : Source) (dest : DutState)
    (before : Option String → Fsm d Unit) : Machine d :=
  let sources := match source with
    | .wildcard => m.states
    | .only l => l
  { m with transitions := m.transitions ++ sources.map fun s => ⟨trigger, s, dest, before⟩ }

def Machine.addState (m : Machine d) (s : DutState) : Machine d :=
  { m with states := m.states ++ [s] }

/-- One statement of a subclass's `_register_custom_states`. -/
inductive Registration (d : Hardware)
  | state (name : String)
  | transition (trigger : String) (source : Source) (dest : DutState)
      (before : Option String → Fsm d Unit)

def Machine.register (m : Machine d) : Registration d → Machine d
  | .state name => m.addState (.custom name)
  | .transition trigger source dest before => m.addTransition trigger source dest before

def baseStates : List DutState :=
  [.powerOff, .energized, .bootloader, .osUserland, .recovery, .dirty]

/-- The machine before `_register_custom_states` runs. -/
def baseMachine : Machine d :=
  let m : Machine d := { states := baseStates, transitions := [] }
  let m := m.addTransition "power_off" .wildcard .powerOff fun _ => hwPowerOff fsm
  let m := m.addTransition "energize" .wildcard .energized (hwEnergize fsm)
  let m := m.addTransition "boot_to_bootloader" .wildcard .bootloader (hwBootToBootloader fsm)
  let m := m.addTransition "boot_to_os" .wildcard .osUserland (hwBootToOs fsm)
  let m := m.addTransition "boot_to_recovery" .wildcard .recovery fun _ => hwToRecovery fsm
  m.addTransition "mark_dirty" .wildcard .dirty fun _ => pure ()

def customMachine (regs : List (Registration d)) : Machine d :=
  regs.foldl Machine.register (baseMachine fsm)

/-- A trigger by name: the first transition registered for the current state, or
`MachineError`. -/
def Machine.fire (m : Machine d) (trigger : String) (medium : Option String) : Fsm d Unit := do
  let source ← getState
  match m.transitions.find? fun t => t.trigger = trigger ∧ t.source = source with
  | none => fail (.machineError s!"Can't trigger event {trigger} from state {source.name}!")
  | some t => do
    t.before medium
    setState t.dest
    note (.stateChanged source.name t.dest.name trigger)

theorem Trigger.hook_eq {t : Trigger} (h : t ≠ .markDirty) :
    t.hook fsm = (do alignToPhysicalState fsm; t.route fsm : Fsm d Unit) := by
  cases t with
  | markDirty => exact absurd rfl h
  | powerOff => rfl
  | energize medium => rfl
  | bootToBootloader medium => rfl
  | bootToOs medium => rfl
  | bootToRecovery => rfl

/-- Worlds that a sequence of base triggers can reach from construction, whatever the
hardware answers and whichever triggers raise. -/
inductive Reachable : World d → Prop
  | init (s : d.State) : Reachable ⟨{}, s, []⟩
  | step (t : Trigger) : Reachable w → Reachable (World.after (fire fsm t w))

theorem fire_ok {t : Trigger} {w w' : World d} (h : fire fsm t w = .ok () w') :
    ∃ w₁, t.hook fsm w = .ok () w₁ ∧ w'.vars = { w₁.vars with state := t.dest } ∧
      w'.trace = w₁.trace ++ [.note (.stateChanged w.vars.state.name t.dest.name t.name)] := by
  obtain ⟨s, w₀, hs, h⟩ := bind_ok h
  cases hs
  obtain ⟨_, w₁, hk, h⟩ := bind_ok h
  cases h
  exact ⟨w₁, hk, rfl, rfl⟩

theorem fire_error {t : Trigger} {w w' : World d} {e : Err} (h : fire fsm t w = .error e w') :
    t.hook fsm w = .error e w' := by
  rcases bind_error h with h | ⟨s, w₀, hs, h⟩
  · cases h
  · cases hs
    rcases bind_error h with h | ⟨_, w₁, hk, h⟩
    · exact h
    · cases h

theorem fire_of_hook_ok {t : Trigger} {w w₁ : World d} (h : t.hook fsm w = .ok () w₁) :
    fire fsm t w = .ok () ⟨{ w₁.vars with state := t.dest }, w₁.dev,
      w₁.trace ++ [.note (.stateChanged w.vars.state.name t.dest.name t.name)]⟩ := by
  rw [fire, bind_of_ok (getState_apply w), bind_of_ok h]
  rfl

theorem fire_of_hook_error {t : Trigger} {w w₁ : World d} {e : Err}
    (h : t.hook fsm w = .error e w₁) : fire fsm t w = .error e w₁ := by
  rw [fire, bind_of_ok (getState_apply w), bind_of_error h]

end MesCore
