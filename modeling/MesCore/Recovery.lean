import MesCore.Brackets
import MesCore.Power

namespace MesCore
set_option autoImplicit true

variable {d : Hardware} (fsm : Station)

def asserts (pin : String) (e : Entry fsmInterface) : Prop :=
  e = did (.gpioSetPin pin true) (.ok ())

/-- The command to let the recovery line go, whatever came of it. -/
def releases (pin : String) (e : Entry fsmInterface) : Prop :=
  ∃ r, e = did (.gpioSetPin pin false) r

/-- Runs that leave the recovery line alone. -/
abbrev pinUntouched (pin : String) : Frame fsmInterface :=
  without fun e => asserts pin e ∨ releases pin e

/-- `_hw_to_recovery` up to its strategy: `false` where the target is in recovery already. -/
def approachRecovery : Fsm d Bool := do
  alignToPhysicalState fsm
  let s ← getState
  if s = .recovery then pure false
  else do
    onlyIf (s ≠ .powerOff) (doPowerOff fsm)
    pure true

/-- The power-up with the strap held, and the latch wait. -/
def holdStrap : Fsm d Bool := do
  doEnergize fsm
  ask (.sleep fsm.cfg.recoveryLatchTimeMs)
  pure true

def enterRecovery (source : DutState) : Fsm d Unit := do
  setState .recovery
  note (.stateChanged source.name DutState.recovery.name Trigger.bootToRecovery.name)

def settleRecovery (source : DutState) : Fsm d Unit := do
  ask (.sleep 2000)
  enterRecovery source

theorem fire_bootToRecovery {pin : String} (hpin : recoveryPin fsm = some pin) (w : World d) :
    fire fsm .bootToRecovery w =
      bracket (arming (approachRecovery fsm) (ask (.gpioSetPin pin true))) (holdStrap fsm)
        (ask (.gpioSetPin pin false)) (settleRecovery w.vars.state)
        (enterRecovery w.vars.state) w := by
  rw [fire, bind_of_ok (getState_apply w)]
  simp only [Trigger.hook, hwToRecovery, routeToRecovery, triggerRecovery, hpin, bracket, arming,
    approachRecovery, holdStrap, settleRecovery, bind_assoc, pure_bind]
  refine congrFun (bind_congr fun _ => bind_congr fun s => ?_) w
  by_cases hs : s = .recovery
  · simp only [if_pos hs, pure_bind]
    rfl
  · simp only [if_neg hs, bind_assoc, pure_bind, ↓reduceIte]
    rfl

section
variable {pin : String}

theorem not_strap_of_made {kind : Call → Bool} (hk : ∀ level, kind (.gpioSetPin pin level) = false)
    (e : Entry fsmInterface) (h : made kind e) : ¬ (asserts pin e ∨ releases pin e) := by
  rintro (rfl | ⟨r, rfl⟩)
  · exact Bool.noConfusion ((hk true).symm.trans h)
  · exact Bool.noConfusion ((hk false).symm.trans h)

theorem Within.unstrapped {kind : Call → Bool} {p : Fsm d α}
    (hk : ∀ level, kind (.gpioSetPin pin level) = false)
    (h : Within (routeFrame (MesCore.made kind)) p) :
    Within (pinUntouched pin) p :=
  h.mono (not_strap_of_made hk) fun _ _ _ => trivial

theorem within_approachRecovery :
    Within (pinUntouched pin) (approachRecovery fsm : Fsm d Bool) := by
  have hprobe : Within (pinUntouched pin) (probeHardwareState fsm : Fsm d DutState) :=
    (within_probe fsm).unstrapped fun _ => rfl
  have hstate : Within (pinUntouched pin) (getState : Fsm d DutState) := fun _ => .rfl
  have halign : Within (pinUntouched pin) (alignToPhysicalState fsm : Fsm d Unit) :=
    hstate.bind fun _ => (Within.pure _).ite
      (hprobe.bind fun _ => .modifyVars _ fun _ => trivial)
  refine halign.bind fun _ => hstate.bind fun _ => .ite (.pure _) ?_
  exact (((within_doPowerOff fsm).unstrapped fun _ => rfl).onlyIf _).bind fun _ => .pure _

theorem within_rest (ms : Nat) :
    Within (pinUntouched pin) (ask (.sleep ms) : Fsm d Unit) := by
  have hsleep : Within (routeFrame (made Call.supplies)) (ask (.sleep ms) : Fsm d Unit) :=
    within_made _ rfl
  exact hsleep.unstrapped fun _ => rfl

theorem within_holdStrap :
    Within (pinUntouched pin) (holdStrap fsm : Fsm d Bool) :=
  ((within_doEnergize fsm).unstrapped fun _ => rfl).bind fun _ =>
    (within_rest _).bind fun _ => .pure _

theorem within_enterRecovery (source : DutState) :
    Within (pinUntouched pin) (enterRecovery source : Fsm d Unit) := by
  refine Within.bind (.modifyVars _ fun _ => trivial) fun _ => .note _ ?_
  rintro (h | ⟨r, h⟩) <;> cases h

theorem within_settleRecovery (source : DutState) :
    Within (pinUntouched pin) (settleRecovery source : Fsm d Unit) :=
  (within_rest _).bind fun _ => within_enterRecovery source

theorem arms_pin : Arms (asserts pin) (ask (.gpioSetPin pin true) : Fsm d Unit) () :=
  Arms.call (I := fsmInterface) (c := .gpioSetPin pin true) fun r => by
    constructor
    · intro h
      cases h
      rfl
    · rintro rfl
      rfl

theorem disarms_pin :
    Disarms (asserts pin) (releases pin) (ask (.gpioSetPin pin false) : Fsm d Unit) := by
  intro w
  have hentry (r : Except Err Unit) :
      (∃ x ∈ [did (.gpioSetPin pin false) r], releases pin x) ∧
        ∀ x ∈ [did (.gpioSetPin pin false) r], ¬ asserts pin x := by
    refine ⟨⟨_, List.mem_singleton.2 rfl, r, rfl⟩, ?_⟩
    intro x hx h
    rw [List.mem_singleton.1 hx] at h
    cases h
  cases hrun : (ask (.gpioSetPin pin false) : Fsm d Unit) w with
  | ok a w' => exact ⟨_, (call_ok hrun).2, hentry _⟩
  | error e w' => exact ⟨_, (call_error hrun).2, hentry _⟩

end

/-- After an assertion of the recovery line comes the command that lets it go. -/
def StrapSettled (seg : List (Entry fsmInterface)) : Prop :=
  ∀ pin ∈ recoveryPin fsm, SwitchedOff (asserts pin) (releases pin) seg

/-- Where the line goes on, the power-up and the latch wait go through. -/
def HoldCompletes (w : World d) : Prop :=
  ∀ pin ∈ recoveryPin fsm, ∀ w₁,
    arming (approachRecovery fsm) (ask (.gpioSetPin pin true)) w = .ok true w₁ →
      ∃ w₂, holdStrap fsm w₁ = .ok true w₂

theorem strapSettled_iff (w : World d) :
    StrapSettled fsm (w.since (World.after (fire fsm .bootToRecovery w))) ↔
      HoldCompletes fsm w := by
  refine forall₂_congr fun pin hpin => ?_
  have harms : Arms (asserts pin)
      (arming (approachRecovery fsm) (ask (.gpioSetPin pin true)) : Fsm d Bool) true :=
    .arming (fun w => (within_approachRecovery fsm w).without_or.1) arms_pin
  rw [fire_bootToRecovery fsm hpin, bracket_settled_iff harms (within_holdStrap fsm) disarms_pin
    (within_settleRecovery _) fun w => (within_enterRecovery _ w).without_or.1]
  refine forall₂_congr fun w₁ hrun => ?_
  -- a run that gets here has just asserted the line
  have hasserted : ∃ e ∈ w.since w₁, asserts pin e := by
    obtain ⟨w₀, happroach, hset⟩ := arming_ok hrun
    have hquiet : Within (pinUntouched pin) (approachRecovery fsm : Fsm d Bool) :=
      within_approachRecovery fsm
    refine ⟨_, World.mem_since_right (hquiet.ok happroach).grows (call_grows hset) ?_, rfl⟩
    rw [call_since hset]
    exact List.mem_singleton.2 rfl
  exact ⟨fun h => h hasserted, fun h _ => h⟩

end MesCore
