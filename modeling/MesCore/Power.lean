import MesCore.Footprints

namespace MesCore
set_option autoImplicit true

/-- The calls of `_do_power_off`. -/
def Call.removes : Call → Bool
  | .psuSetVoltage _ | .psuDisableOutput | .input .unplugPower => true
  | c => c.observes

/-- The calls of `_do_energize`. -/
def Call.supplies : Call → Bool
  | .psuSetVoltage _ | .psuSetCurrent _ | .psuEnableOutput | .input .plugInPower => true
  | c => c.observes

/-- The calls of `_do_apply_bootstrap`. -/
def Call.straps : Call → Bool
  | .gpioSetPin _ _ | .input (.setBootStraps _) => true
  | c => c.observes

/-- Everything a cold boot does after the straps are set. -/
def booting : Entry fsmInterface → Prop
  | .call c _ => c.supplies = true ∨ c.converses = true ∨ c.traps = true
  | .note n => n = .bootCommanded

/-- An entry that took the power from the target. On a bench without a supply the operator who
was asked to unplug it is taken at his word, as the code does. -/
def cutsPower : Entry fsmInterface → Prop
  | .call .psuDisableOutput (.ok _) => True
  | .call (.input .unplugPower) _ => True
  | _ => False

def appliesPower : Entry fsmInterface → Prop
  | .call .psuEnableOutput (.ok _) => True
  | .call (.input .plugInPower) _ => True
  | _ => False

def unpublished : Entry fsmInterface → Prop
  | .note (.stateChanged _ _ _) => False
  | _ => True

section
variable {e : Entry fsmInterface}

theorem unpublished_of_made {kind : Call → Bool} (e : Entry fsmInterface) (h : made kind e) :
    unpublished e := by
  cases e with
  | call c r => trivial
  | note n => exact h.elim

theorem unpublished_of_booting (e : Entry fsmInterface) (h : booting e) : unpublished e := by
  cases e with
  | call c r => trivial
  | note n =>
    have hn : n = .bootCommanded := h
    rw [hn]
    trivial

theorem trapping.booting (h : trapping e) : booting e := by
  cases e with
  | call c r => exact .inr h
  | note n => exact h

theorem made.supplies_booting (h : made Call.supplies e) : booting e := by
  cases e with
  | call c r => exact .inl h
  | note n => exact h.elim

end

variable {d : Hardware} (fsm : Station)

@[reducible] def entryFrame (P : Entry fsmInterface → Prop) : Frame fsmInterface where
  entry := P
  vars _ _ := True
  refl _ := trivial
  trans _ _ := trivial

/-- Runs that leave the state and the medium alone, whatever they do. -/
abbrev anyRoute : Frame fsmInterface := routeFrame fun _ => True

theorem Within.any {P : Entry fsmInterface → Prop} {p : Fsm d α} (h : Within (routeFrame P) p) :
    Within anyRoute p :=
  h.mono (fun _ _ => trivial) fun _ _ h => h

theorem Frame.Rel.entries {P Q : Entry fsmInterface → Prop} {w w' : World d}
    (h : Frame.Rel (routeFrame P) w w') (hPQ : ∀ e, P e → Q e) :
    Frame.Rel (entryFrame Q) w w' :=
  h.mono hPQ fun _ _ _ => trivial

theorem made_of_observing {kind : Call → Bool} (hk : ∀ c, c.observes = true → kind c = true)
    (e : Entry fsmInterface) (h : observing e) : made kind e := by
  cases e with
  | call c r => exact hk c h
  | note n => exact h

theorem removes_of_observes (c : Call) (h : c.observes = true) : c.removes = true := by
  cases c <;> first | exact h | cases h

theorem supplies_of_observes (c : Call) (h : c.observes = true) : c.supplies = true := by
  cases c <;> first | exact h | cases h

theorem Within.made {kind : Call → Bool} {p : Fsm d α} (h : Within observeFrame p)
    (hk : ∀ c, c.observes = true → kind c = true) : Within (routeFrame (MesCore.made kind)) p :=
  h.mono (made_of_observing hk) fun _ _ h => h

theorem within_operatorInput {kind : Call → Bool} (p : OperatorPrompt) (ms : Nat)
    (h : kind (.input p) = true) (hs : kind (.sleep ms) = true) :
    Within (routeFrame (made kind)) (operatorInput p ms : Fsm d Unit) :=
  (within_made _ h).attempt _ fun _ => within_made _ hs

theorem within_dropPower :
    Within (routeFrame (made Call.removes)) (dropPower fsm : Fsm d Unit) := by
  rw [dropPower]
  split
  · exact (within_made _ rfl).bind fun _ => (within_made _ rfl).bind fun _ => within_made _ rfl
  · exact .ite (.fail _) (within_operatorInput _ _ rfl rfl)

theorem within_leaveSession : Within observeFrame (leaveSession : Fsm d Unit) := by
  refine (within_ask _ rfl).bind fun _ => (Within.onlyIf _ (within_ask _ rfl)).bind fun _ => ?_
  exact within_modifyContext _ (by intro; rfl)

theorem within_doPowerOff :
    Within (routeFrame (made Call.removes)) (doPowerOff fsm : Fsm d Unit) :=
  (within_leaveSession.made removes_of_observes).bind fun _ => within_dropPower fsm

theorem within_voltageSetpoint (psu : Psu) :
    Within (routeFrame (made Call.supplies)) (voltageSetpoint psu : Fsm d Unit) := by
  rw [voltageSetpoint]
  split
  · exact within_made _ rfl
  · exact within_made _ rfl
  · exact .pure _

theorem within_currentSetpoint (psu : Psu) :
    Within (routeFrame (made Call.supplies)) (currentSetpoint psu : Fsm d Unit) := by
  rw [currentSetpoint]
  split
  · exact within_made _ rfl
  · exact .pure _

theorem within_measureInrush (psu : Psu) :
    Within (routeFrame (made Call.supplies)) (measureInrush psu : Fsm d Unit) := by
  refine .ite ((within_made _ rfl).bind fun turns => ?_) (within_made _ rfl)
  exact (within_inrushSamples turns).made supplies_of_observes

theorem within_applyPower :
    Within (routeFrame (made Call.supplies)) (applyPower fsm : Fsm d Unit) := by
  rw [applyPower]
  split
  · exact (within_voltageSetpoint _).bind fun _ => (within_currentSetpoint _).bind fun _ =>
      (within_made _ rfl).bind fun _ => within_measureInrush _
  · exact .ite (.fail _) (within_operatorInput _ _ rfl rfl)

theorem within_doEnergize :
    Within (routeFrame (made Call.supplies)) (doEnergize fsm : Fsm d Unit) :=
  (within_applyPower fsm).bind fun _ => within_rebindSerialPort.made supplies_of_observes

theorem within_applyStraps (requested : String) :
    Within (routeFrame (made Call.straps)) (applyStraps fsm requested : Fsm d Unit) := by
  have hpins (pins : List (String × Bool)) :
      Within (routeFrame (made Call.straps)) (setPins pins : Fsm d Unit) := by
    induction pins with
    | nil => exact .pure _
    | cons pin pins ih => exact (within_made _ rfl).bind fun _ => ih
  refine within_getContext.bind fun ctx => .ite (.pure _) (.ite ?_ ?_)
  · rw [strapByGpio]
    split
    · exact (hpins _).bind fun _ => within_made _ rfl
    · exact .pure _
  · exact .ite (.fail _) (within_operatorInput _ _ rfl rfl)

theorem Within.boots {p : Fsm d α} (h : Within (routeFrame trapping) p) :
    Within (routeFrame booting) p :=
  h.mono (fun _ he => he.booting) fun _ _ h => h

theorem within_energize_boots : Within (routeFrame booting) (doEnergize fsm : Fsm d Unit) :=
  (within_doEnergize fsm).mono (fun _ he => he.supplies_booting) fun _ _ h => h

theorem within_coldBootToBootloader :
    Within (routeFrame booting) (coldBootToBootloader fsm : Fsm d Unit) := by
  refine .ite ?_ ?_
  · exact (within_energize_boots fsm).bind fun _ =>
      (within_eventWaitForBootloader fsm true).converse.trap.boots
  · exact (within_energize_boots fsm).bind fun _ =>
      (within_eventWaitForOsShell fsm true).trap.boots.bind fun _ =>
        (within_finalizeOsBoot fsm).converse.trap.boots.bind fun _ =>
          within_setUbootTrapAndReboot.boots.bind fun _ =>
            (within_eventWaitForBootloader fsm false).converse.trap.boots

theorem within_coldBootToOs :
    Within (routeFrame booting) (coldBootToOs fsm : Fsm d Unit) := by
  refine .ite ?_ ?_
  · exact (within_energize_boots fsm).bind fun _ =>
      (within_eventWaitForBootloader fsm true).converse.trap.boots.bind fun _ =>
        (within_eventBootFromBootloaderToOs fsm).trap.boots
  · exact (within_energize_boots fsm).bind fun _ => (within_eventWaitForOsShell fsm true).trap.boots

theorem Within.unpublish {P : Entry fsmInterface → Prop} {p : Fsm d α}
    (h : Within (routeFrame P) p) (hP : ∀ e, P e → unpublished e) :
    Within (routeFrame unpublished) p :=
  h.mono hP fun _ _ h => h

theorem within_rebootEnergized :
    Within (routeFrame unpublished) (rebootEnergized fsm : Fsm d Unit) := by
  rw [rebootEnergized]
  split
  · exact ((within_doSoftReboot fsm).trap.boots.unpublish unpublished_of_booting).bind fun _ =>
      (within_eventWaitForBootloader fsm _).unpublish unpublished_of_made
  · exact ((within_doPowerOff fsm).unpublish unpublished_of_made).bind fun _ =>
      (within_coldBootToBootloader fsm).unpublish unpublished_of_booting

theorem operatorInput_ok {p : OperatorPrompt} {ms : Nat} {w w' : World d}
    (h : operatorInput p ms w = .ok () w') : ∃ r, did (.input p) r ∈ w.since w' := by
  rcases attempt_ok h with h | ⟨e, w₁, h₁, _, h⟩
  · exact ⟨.ok (), by rw [call_since h]; exact List.mem_singleton_self _⟩
  · refine ⟨.error e, World.mem_since_left ⟨_, (call_error h₁).2.symm⟩ (call_grows h) ?_⟩
    rw [World.since_eq (call_error h₁).2]
    exact List.mem_singleton_self _

theorem dropPower_ok {psu : Psu} {w w' : World d} (hp : fsm.psu = some psu)
    (h : dropPower fsm w = .ok () w') :
    did .psuDisableOutput (.ok ()) ∈ w.since w' := by
  rw [dropPower, hp] at h
  obtain ⟨_, w₁, h₁, h⟩ := bind_ok h
  obtain ⟨a, w₂, h₂, h₃⟩ := bind_ok h
  apply World.mem_since_right (call_grows h₁) ((call_grows h₂).trans (call_grows h₃))
  apply World.mem_since_left (call_grows h₂) (call_grows h₃)
  rw [call_since h₂]
  exact List.mem_singleton_self _

theorem doPowerOff_psu_ok {psu : Psu} {w w' : World d} (hp : fsm.psu = some psu)
    (h : doPowerOff fsm w = .ok () w') :
    did .psuDisableOutput (.ok ()) ∈ w.since w' := by
  obtain ⟨_, w₁, h₁, h⟩ := bind_ok h
  exact World.mem_since_right (within_leaveSession.ok h₁).grows
    ((within_dropPower fsm).ok h).grows (dropPower_ok fsm hp h)

theorem doPowerOff_ok {w w' : World d} (h : doPowerOff fsm w = .ok () w') :
    ∃ e ∈ w.since w', cutsPower e := by
  cases hp : fsm.psu with
  | some psu => exact ⟨_, doPowerOff_psu_ok fsm hp h, trivial⟩
  | none =>
    obtain ⟨_, w₁, h₁, h⟩ := bind_ok h
    have hg := ((within_dropPower fsm).ok h).grows
    rw [dropPower, hp] at h
    dsimp only at h
    split at h
    · cases h
    · obtain ⟨r, hr⟩ := operatorInput_ok h
      exact ⟨_, World.mem_since_right (within_leaveSession.ok h₁).grows hg hr, trivial⟩

theorem applyPower_psu_ok {psu : Psu} {w w' : World d} (hp : fsm.psu = some psu)
    (h : applyPower fsm w = .ok () w') :
    did .psuEnableOutput (.ok ()) ∈ w.since w' := by
  rw [applyPower, hp] at h
  obtain ⟨_, w₁, h₁, h⟩ := bind_ok h
  obtain ⟨_, w₂, h₂, h⟩ := bind_ok h
  obtain ⟨a, w₃, h₃, h⟩ := bind_ok h
  have hrest := (within_measureInrush psu).ok h
  have hg := ((within_voltageSetpoint psu).ok h₁).grows.trans
    ((within_currentSetpoint psu).ok h₂).grows
  apply World.mem_since_right hg ((call_grows h₃).trans hrest.grows)
  apply World.mem_since_left (call_grows h₃) hrest.grows
  rw [call_since h₃]
  exact List.mem_singleton_self _

theorem doEnergize_psu_ok {psu : Psu} {w w' : World d} (hp : fsm.psu = some psu)
    (h : doEnergize fsm w = .ok () w') :
    did .psuEnableOutput (.ok ()) ∈ w.since w' := by
  obtain ⟨_, w₁, h₁, h⟩ := bind_ok h
  exact World.mem_since_left ((within_applyPower fsm).ok h₁).grows
    (within_rebindSerialPort.ok h).grows (applyPower_psu_ok fsm hp h₁)

theorem doEnergize_ok {w w' : World d} (h : doEnergize fsm w = .ok () w') :
    ∃ e ∈ w.since w', appliesPower e := by
  cases hp : fsm.psu with
  | some psu => exact ⟨_, doEnergize_psu_ok fsm hp h, trivial⟩
  | none =>
    obtain ⟨_, w₁, h₁, h⟩ := bind_ok h
    have hg := ((within_applyPower fsm).ok h₁).grows
    rw [applyPower, hp] at h₁
    dsimp only at h₁
    split at h₁
    · cases h₁
    · obtain ⟨r, hr⟩ := operatorInput_ok h₁
      exact ⟨_, World.mem_since_left hg (within_rebindSerialPort.ok h).grows hr, trivial⟩

end MesCore
