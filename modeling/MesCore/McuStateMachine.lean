import MesCore.Text

namespace MesCore
set_option autoImplicit true

namespace BareMetal

inductive McuState
  | powerOff
  | energized
  | halted
  | running
  | otaUpdate
  | failedOta
  deriving DecidableEq

def McuState.value : McuState → String
  | .powerOff => "POWER_OFF"
  | .energized => "ENERGIZED"
  | .halted => "HALTED"
  | .running => "RUNNING"
  | .otaUpdate => "OTA_UPDATE"
  | .failedOta => "FAILED_OTA"

inductive Trigger
  | energize
  | powerOff
  | autoRun
  | haltCore
  | resumeCore
  | triggerOta
  | otaCorrupt
  | otaSuccess
  | recoverOta
  deriving DecidableEq

def Trigger.name : Trigger → String
  | .energize => "energize"
  | .powerOff => "power_off"
  | .autoRun => "auto_run"
  | .haltCore => "halt_core"
  | .resumeCore => "resume_core"
  | .triggerOta => "trigger_ota"
  | .otaCorrupt => "ota_corrupt"
  | .otaSuccess => "ota_success"
  | .recoverOta => "recover_ota"

/-- What reaches the bench: the power supply, the command line of probe-rs, and pyOCD's core. -/
inductive HardwareCall
  | enableOutput
  | disableOutput
  | runCli (args : List String)
  | coreHalt
  | coreResume
  | coreReset
  | writeMemoryBlock8 (address : Nat) (data : Bytes)
  deriving DecidableEq

inductive McuErr
  | machineError (msg : String)
  | valueError (msg : String)
  deriving DecidableEq

/-- `f'0x{n:0wx}'`. -/
def hexLiteral (w n : Nat) : String :=
  "0x" ++ String.ofList ((Nat.toDigits 16 n).leftpad w '0')

/-- The two probes; that of pyOCD has a core while its session is open. -/
inductive McuTransport
  | probeRs
  | pyOcd (connected : Bool)
  deriving DecidableEq

namespace McuTransport

/-- Without a session of its own probe-rs resets the core, which then runs. -/
def halt : McuTransport → List HardwareCall
  | .probeRs => [.runCli ["reset"]]
  | .pyOcd connected => if connected then [.coreHalt] else []

def resume : McuTransport → List HardwareCall
  | .probeRs => [.runCli ["reset"]]
  | .pyOcd connected => if connected then [.coreResume] else []

def reset : McuTransport → List HardwareCall
  | .probeRs => [.runCli ["reset"]]
  | .pyOcd connected => if connected then [.coreReset] else []

def writeMemory (address : Nat) (data : Bytes) : McuTransport → Except McuErr (List HardwareCall)
  | .probeRs =>
    if data = [] then .ok []
    else if 256 < data.length then
      .error (.valueError s!"write_memory: {data.length} bytes exceeds 256-byte CLI limit")
    else .ok [.runCli (["write", "b8", hexLiteral 8 address] ++
      data.map fun b => hexLiteral 2 b.toNat)]
  | .pyOcd connected => .ok (if connected then [.writeMemoryBlock8 address data] else [])

end McuTransport

/-- What `BareMetalStateMachine` is constructed with. -/
structure BareMetalStateMachine where
  psu : Bool
  swd : Option McuTransport
  otaFlagAddr : Option Nat
  otaFlagValue : Option Bytes

abbrev Callback := BareMetalStateMachine → Except McuErr (List HardwareCall)

def hwEnergize : Callback := fun fsm => .ok (if fsm.psu then [.enableOutput] else [])

def hwPowerOff : Callback := fun fsm => .ok (if fsm.psu then [.disableOutput] else [])

def hwHaltCore : Callback := fun fsm => .ok (fsm.swd.elim [] McuTransport.halt)

def hwResumeCore : Callback := fun fsm => .ok (fsm.swd.elim [] McuTransport.resume)

/-- The OTA flag, where one is configured, is written before the reset. -/
def hwTriggerOta : Callback := fun fsm =>
  match fsm.swd with
  | none => .ok []
  | some swd =>
    match fsm.otaFlagAddr, fsm.otaFlagValue with
    | some address, some value => do
      let written ← swd.writeMemory address value
      .ok (written ++ swd.reset)
    | _, _ => .ok swd.reset

/-- One `add_transition`; no list of sources stands for `'*'`. -/
structure McuTransition where
  trigger : Trigger
  source : Option (List McuState)
  dest : McuState
  before : Callback

def transitions : List McuTransition :=
  [⟨.energize, some [.powerOff], .energized, hwEnergize⟩,
   ⟨.powerOff, none, .powerOff, hwPowerOff⟩,
   ⟨.autoRun, some [.energized], .running, fun _ => .ok []⟩,
   ⟨.haltCore, some [.energized, .running], .halted, hwHaltCore⟩,
   ⟨.resumeCore, some [.halted], .running, hwResumeCore⟩,
   ⟨.triggerOta, some [.running, .energized], .otaUpdate, hwTriggerOta⟩,
   ⟨.otaCorrupt, some [.otaUpdate], .failedOta, fun _ => .ok []⟩,
   ⟨.otaSuccess, some [.otaUpdate], .running, fun _ => .ok []⟩,
   ⟨.recoverOta, some [.failedOta], .powerOff, hwPowerOff⟩]

/-- The event that `_record_timestamp` emits. -/
structure StateChanged where
  oldState : McuState
  newState : McuState
  trigger : Trigger
  deriving DecidableEq

structure Fired where
  state : McuState
  calls : List HardwareCall
  event : StateChanged
  deriving DecidableEq

/-- A declared trigger: the state changes once the callback has returned, and a trigger without a
transition from this state is refused. -/
def BareMetalStateMachine.fire (fsm : BareMetalStateMachine) (s : McuState) (t : Trigger) :
    Except McuErr Fired :=
  match transitions.find? fun r => r.trigger = t ∧ r.source.all (s ∈ ·) with
  | none => .error (.machineError s!"Can't trigger event {t.name} from state {s.value}!")
  | some r => do
    let calls ← r.before fsm
    .ok ⟨r.dest, calls, ⟨s, r.dest, t⟩⟩

/-- The target: a core runs only while it is powered. -/
structure Core where
  power : Bool
  running : Bool
  deriving DecidableEq

/-- Power-on and a reset start the core, and so does the command line's `reset`. -/
def Core.after (c : Core) : HardwareCall → Core
  | .enableOutput => if c.power then c else ⟨true, true⟩
  | .disableOutput => ⟨false, false⟩
  | .coreHalt => { c with running := false }
  | .coreResume | .coreReset => { c with running := c.power }
  | .runCli args => if args = ["reset"] then { c with running := c.power } else c
  | .writeMemoryBlock8 _ _ => c

/-- The state machine beside the target it has belief about. -/
structure Jig where
  state : McuState
  core : Core
  deriving DecidableEq

/-- A trigger that raises has changed nothing: no callback raises after a call of its own. -/
def BareMetalStateMachine.step (fsm : BareMetalStateMachine) (j : Jig) (t : Trigger) : Jig :=
  match fsm.fire j.state t with
  | .ok fired => ⟨fired.state, fired.calls.foldl Core.after j.core⟩
  | .error _ => j

def Jig.initial : Jig := ⟨.powerOff, ⟨false, false⟩⟩

def BareMetalStateMachine.run (fsm : BareMetalStateMachine) (ts : List Trigger) : Jig :=
  ts.foldl fsm.step Jig.initial

/-- The belief of the state machine matches the core. -/
structure BeliefMatches (j : Jig) : Prop where
  halted : j.state = .halted → j.core = ⟨true, false⟩
  running : j.state = .running → j.core = ⟨true, true⟩
  powerOff : j.state = .powerOff → j.core.power = false

/-- Over a whole run, in every state it reaches. -/
def AlwaysMatches (fsm : BareMetalStateMachine) (ts : List Trigger) : Prop :=
  ∀ us, us <+: ts → BeliefMatches (fsm.run us)

/-- A bench with a power supply and a probe, which for pyOCD is connected. -/
def BareMetalStateMachine.Attached (fsm : BareMetalStateMachine) : Prop :=
  fsm.psu = true ∧ (fsm.swd = some .probeRs ∨ fsm.swd = some (.pyOcd true))

/-- The ways in which a trigger is accepted. -/
inductive Fires (fsm : BareMetalStateMachine) :
    McuState → Trigger → McuState → List HardwareCall → Prop
  | energize : hwEnergize fsm = .ok calls → Fires fsm .powerOff .energize .energized calls
  | powerOff : hwPowerOff fsm = .ok calls → Fires fsm s .powerOff .powerOff calls
  | autoRun : Fires fsm .energized .autoRun .running []
  | haltCore : s ∈ [McuState.energized, .running] → hwHaltCore fsm = .ok calls →
      Fires fsm s .haltCore .halted calls
  | resumeCore : hwResumeCore fsm = .ok calls → Fires fsm .halted .resumeCore .running calls
  | triggerOta : s ∈ [McuState.running, .energized] → hwTriggerOta fsm = .ok calls →
      Fires fsm s .triggerOta .otaUpdate calls
  | otaCorrupt : Fires fsm .otaUpdate .otaCorrupt .failedOta []
  | otaSuccess : Fires fsm .otaUpdate .otaSuccess .running []
  | recoverOta : hwPowerOff fsm = .ok calls → Fires fsm .failedOta .recoverOta .powerOff calls

section
variable {fsm : BareMetalStateMachine} {s : McuState} {t : Trigger} {j : Jig}

theorem fire_ok {fired : Fired} (h : fsm.fire s t = .ok fired) :
    ∃ r ∈ transitions, r.trigger = t ∧ r.source.all (s ∈ ·) = true ∧ r.dest = fired.state ∧
      r.before fsm = .ok fired.calls := by
  rw [BareMetalStateMachine.fire] at h
  cases hr : transitions.find? fun r => r.trigger = t ∧ r.source.all (s ∈ ·) with
  | none =>
    rw [hr] at h
    cases h
  | some r =>
    rw [hr] at h
    have hsome := List.find?_some hr
    rw [decide_eq_true_eq] at hsome
    cases hcalls : r.before fsm with
    | error e =>
      simp only [hcalls] at h
      cases h
    | ok calls =>
      simp only [hcalls] at h
      cases h
      exact ⟨r, List.mem_of_find?_eq_some hr, hsome.1, hsome.2, rfl, hcalls⟩

theorem Fires.of_fire {fired : Fired} (h : fsm.fire s t = .ok fired) :
    Fires fsm s t fired.state fired.calls := by
  obtain ⟨r, hr, rfl, hs, hdest, hcalls⟩ := fire_ok h
  rw [← hdest]
  simp only [transitions, List.mem_cons, List.not_mem_nil, or_false] at hr
  rcases hr with rfl | rfl | rfl | rfl | rfl | rfl | rfl | rfl | rfl
  · obtain rfl : s = .powerOff := by simpa using hs
    exact .energize hcalls
  · exact .powerOff hcalls
  · obtain rfl : s = .energized := by simpa using hs
    rw [← Except.ok.inj hcalls]
    exact .autoRun
  · exact .haltCore (by simpa using hs) hcalls
  · obtain rfl : s = .halted := by simpa using hs
    exact .resumeCore hcalls
  · exact .triggerOta (by simpa using hs) hcalls
  · obtain rfl : s = .otaUpdate := by simpa using hs
    rw [← Except.ok.inj hcalls]
    exact .otaCorrupt
  · obtain rfl : s = .otaUpdate := by simpa using hs
    rw [← Except.ok.inj hcalls]
    exact .otaSuccess
  · obtain rfl : s = .failedOta := by simpa using hs
    exact .recoverOta hcalls

/-- What each state says of the core. A halt by probe-rs leaves it running. -/
def Known (fsm : BareMetalStateMachine) (j : Jig) : Prop :=
  match j.state with
  | .powerOff => j.core.power = false
  | .halted => j.core = ⟨true, fsm.swd = some .probeRs⟩
  | _ => j.core = ⟨true, true⟩

theorem foldl_writeMemory {swd : McuTransport} {address : Nat} {data : Bytes}
    {calls : List HardwareCall} (h : swd.writeMemory address data = .ok calls) (c : Core) :
    calls.foldl Core.after c = c := by
  cases swd with
  | probeRs =>
    rw [McuTransport.writeMemory] at h
    split at h
    · cases h
      rfl
    · split at h
      · cases h
      · cases h
        rfl
  | pyOcd connected =>
    cases connected <;> cases h <;> rfl

theorem foldl_powerOff {calls : List HardwareCall} (hpsu : fsm.psu = true)
    (h : hwPowerOff fsm = .ok calls) (c : Core) : calls.foldl Core.after c = ⟨false, false⟩ := by
  rw [hwPowerOff, if_pos hpsu] at h
  cases h
  rfl

theorem foldl_energize {calls : List HardwareCall} {c : Core} (hpsu : fsm.psu = true)
    (h : hwEnergize fsm = .ok calls) (hc : c.power = false) :
    calls.foldl Core.after c = ⟨true, true⟩ := by
  rw [hwEnergize, if_pos hpsu] at h
  cases h
  simp only [List.foldl_cons, List.foldl_nil, Core.after, hc, Bool.false_eq_true, if_false]

theorem foldl_haltCore {calls : List HardwareCall} (hfsm : fsm.Attached)
    (h : hwHaltCore fsm = .ok calls) :
    calls.foldl Core.after ⟨true, true⟩ = ⟨true, fsm.swd = some .probeRs⟩ := by
  rw [hwHaltCore] at h
  rcases hfsm.2 with hswd | hswd <;> rw [hswd] at h <;> cases h <;> rw [hswd] <;> rfl

theorem foldl_resumeCore {calls : List HardwareCall} {running : Bool} (hfsm : fsm.Attached)
    (h : hwResumeCore fsm = .ok calls) :
    calls.foldl Core.after ⟨true, running⟩ = ⟨true, true⟩ := by
  rw [hwResumeCore] at h
  rcases hfsm.2 with hswd | hswd <;> rw [hswd] at h <;> cases h <;> rfl

theorem foldl_reset {swd : McuTransport} :
    swd.reset.foldl Core.after ⟨true, true⟩ = ⟨true, true⟩ := by
  cases swd with
  | probeRs => rfl
  | pyOcd connected => cases connected <;> rfl

theorem foldl_triggerOta {calls : List HardwareCall} (h : hwTriggerOta fsm = .ok calls) :
    calls.foldl Core.after ⟨true, true⟩ = ⟨true, true⟩ := by
  rw [hwTriggerOta] at h
  split at h
  · cases h
    rfl
  · rename_i swd _
    split at h
    · rename_i address value _ _
      cases hw : swd.writeMemory address value with
      | error e =>
        rw [hw] at h
        cases h
      | ok written =>
        rw [hw] at h
        cases h
        rw [List.foldl_append, foldl_writeMemory hw, foldl_reset]
    · cases h
      exact foldl_reset

theorem Known.awake (h : Known fsm j) (hs : j.state = .energized ∨ j.state = .running) :
    j.core = ⟨true, true⟩ := by
  rw [Known] at h
  rcases hs with hs | hs
  all_goals
    rw [hs] at h
    exact h

theorem known_fires {s' : McuState} {calls : List HardwareCall} (hfsm : fsm.Attached)
    (h : Fires fsm j.state t s' calls) (hj : Known fsm j) :
    Known fsm ⟨s', calls.foldl Core.after j.core⟩ := by
  obtain ⟨s, c⟩ := j
  cases h with
  | energize hcalls => exact foldl_energize hfsm.1 hcalls hj
  | powerOff hcalls => exact congrArg Core.power (foldl_powerOff hfsm.1 hcalls c)
  | autoRun => exact hj
  | haltCore hs hcalls =>
    obtain rfl : c = ⟨true, true⟩ := hj.awake (by simpa using hs)
    exact foldl_haltCore hfsm hcalls
  | resumeCore hcalls =>
    cases hj
    exact foldl_resumeCore hfsm hcalls
  | triggerOta hs hcalls =>
    obtain rfl : c = ⟨true, true⟩ := hj.awake (by simpa [or_comm] using hs)
    exact foldl_triggerOta hcalls
  | otaCorrupt => exact hj
  | otaSuccess => exact hj
  | recoverOta hcalls => exact congrArg Core.power (foldl_powerOff hfsm.1 hcalls c)

theorem known_step (hfsm : fsm.Attached) (hj : Known fsm j) (t : Trigger) :
    Known fsm (fsm.step j t) := by
  rw [BareMetalStateMachine.step]
  cases hf : fsm.fire j.state t with
  | error e => exact hj
  | ok fired => exact known_fires hfsm (Fires.of_fire hf) hj

theorem known_run (hfsm : fsm.Attached) (ts : List Trigger) : Known fsm (fsm.run ts) := by
  induction ts using List.reverseRecOn with
  | nil => rfl
  | append_singleton ts t ih =>
    rw [BareMetalStateMachine.run, List.foldl_append]
    exact known_step hfsm ih t

/-- Beside what is known, belief and core match exactly where no halt was left to probe-rs. -/
theorem beliefMatches_iff_of_known (hj : Known fsm j) :
    BeliefMatches j ↔ ¬ (fsm.swd = some .probeRs ∧ j.state = .halted) := by
  obtain ⟨s, c⟩ := j
  constructor
  · rintro hb ⟨hswd, rfl⟩
    have hcore := hb.halted rfl
    rw [show c = _ from hj, hswd] at hcore
    cases hcore
  · intro hne
    constructor
    · rintro rfl
      have hswd : fsm.swd ≠ some .probeRs := fun hswd => hne ⟨hswd, rfl⟩
      rw [show c = _ from hj, decide_eq_false hswd]
    · rintro rfl
      exact hj
    · rintro rfl
      exact hj

theorem halted_of_step (hs : (fsm.step j t).state = .halted) :
    j.state = .halted ∨ (t = .haltCore ∧ j.state ∈ [McuState.energized, .running]) := by
  obtain ⟨s, c⟩ := j
  rw [BareMetalStateMachine.step] at hs
  cases hf : fsm.fire s t with
  | error e =>
    rw [hf] at hs
    exact .inl hs
  | ok fired =>
    rw [hf] at hs
    obtain ⟨s', calls, event⟩ := fired
    obtain rfl : s' = .halted := hs
    cases Fires.of_fire hf with
    | haltCore hs hcalls => exact .inr ⟨rfl, hs⟩

theorem step_haltCore (hs : j.state ∈ [McuState.energized, .running]) :
    (fsm.step j .haltCore).state = .halted := by
  obtain ⟨s, c⟩ := j
  simp only [List.mem_cons, List.not_mem_nil, or_false] at hs
  rcases hs with rfl | rfl <;> rfl

theorem run_append_singleton (ts : List Trigger) (t : Trigger) :
    fsm.run (ts ++ [t]) = fsm.step (fsm.run ts) t := by
  rw [BareMetalStateMachine.run, List.foldl_append]
  rfl

theorem exists_halt {ts : List Trigger} (h : (fsm.run ts).state = .halted) :
    ∃ us, us ++ [.haltCore] <+: ts ∧ (fsm.run us).state ∈ [McuState.energized, .running] := by
  induction ts using List.reverseRecOn with
  | nil => cases h
  | append_singleton ts t ih =>
    rw [run_append_singleton] at h
    rcases halted_of_step h with hbefore | ⟨rfl, hs⟩
    · obtain ⟨us, hus, hs⟩ := ih hbefore
      exact ⟨us, hus.trans (List.prefix_append ts [t]), hs⟩
    · exact ⟨ts, List.prefix_rfl, hs⟩

/-- Over a whole run the belief matches the core exactly if probe-rs is never asked to halt a core
that runs. -/
theorem belief_matches_iff (fsm : BareMetalStateMachine) (hfsm : fsm.Attached)
    (ts : List Trigger) :
    AlwaysMatches fsm ts ↔
      ∀ us, us ++ [.haltCore] <+: ts → fsm.swd = some .probeRs →
        (fsm.run us).state ∉ [McuState.energized, .running] := by
  constructor
  · intro hb us hus hswd hs
    have hmatch := (beliefMatches_iff_of_known (known_run hfsm _)).1 (hb _ hus)
    rw [run_append_singleton] at hmatch
    exact hmatch ⟨hswd, step_haltCore hs⟩
  · intro hnever us hus
    apply (beliefMatches_iff_of_known (known_run hfsm us)).2
    rintro ⟨hswd, hhalted⟩
    obtain ⟨vs, hvs, hs⟩ := exists_halt hhalted
    exact hnever vs (hvs.trans hus) hswd hs

def probeRsJig : BareMetalStateMachine := ⟨true, some .probeRs, some 0x2001FFF0, some [0xEF, 0xBE]⟩

def pyOcdJig : BareMetalStateMachine := ⟨true, some (.pyOcd true), none, none⟩

/-- A firmware update and its recovery by probe-rs, and a halt by pyOCD. -/
theorem belief_matches_without_halt :
    AlwaysMatches probeRsJig
      [.energize, .triggerOta, .otaCorrupt, .recoverOta, .energize, .autoRun] ∧
    AlwaysMatches pyOcdJig [.energize, .haltCore, .resumeCore, .haltCore, .powerOff] :=
  ⟨(belief_matches_iff probeRsJig ⟨rfl, .inl rfl⟩ _).2 fun us hus _ _ => by
    have hmem := hus.subset (List.mem_append_right us (List.mem_singleton_self Trigger.haltCore))
    revert hmem
    decide,
  (belief_matches_iff pyOcdJig ⟨rfl, .inr rfl⟩ _).2 fun _ _ hswd => nomatch hswd⟩

/-- HALTED, and the firmware is executing. -/
theorem probeRs_halted_running :
    ¬ AlwaysMatches probeRsJig [.energize, .haltCore] := by
  intro h
  have hcore := (h _ List.prefix_rfl).halted rfl
  revert hcore
  decide

end

end BareMetal

end MesCore
