import MesCore.Straps

namespace MesCore
set_option autoImplicit true

/-- Entries that rebooted, reset or power-cycled the target, or commanded it to boot. -/
def disturbs (fsm : Station) : Entry fsmInterface → Prop
  | .call .psuEnableOutput (.ok _) => True
  | .call .psuDisableOutput (.ok _) => True
  | .call (.input .unplugPower) (.ok _) => True
  | .call (.input .plugInPower) (.ok _) => True
  | .call (.gpioSetPin pin _) (.ok _) => resetPin fsm = some pin
  | .call (.sshSafeRun cmd _ _) _ => cmd = "reboot"
  | .call (.serialSafeRun cmd _ _ _) _ => cmd = "reboot"
  | .call (.serialWriteLine line _) _ => line = "reboot" ∨ line = "boot"
  | .note n => n = .bootCommanded
  | _ => False

instance (fsm : Station) : DecidablePred (disturbs fsm) := fun e => by
  unfold disturbs
  split <;> infer_instance

/-- The state still names a running target that the call has disturbed. -/
def Stale (fsm : Station) {d : Hardware} (w w' : World d) : Prop :=
  (∃ e ∈ w.since w', disturbs fsm e) ∧ w'.vars.state ∈ [DutState.bootloader, .osUserland]

instance (fsm : Station) {d : Hardware} (w w' : World d) : Decidable (Stale fsm w w') :=
  inferInstanceAs (Decidable (_ ∧ _))

/-- The station can take the power away: by its supply, or by asking the operator. -/
def canCutPower (fsm : Station) : Bool := fsm.psu.isSome || !fsm.headless

def canReset (fsm : Station) : Bool := (resetPin fsm).isSome || canCutPower fsm

/-- Whether a trigger that takes its route from `s`, while `active` is the medium, can disturb a
running target and then raise with the state still at `s`. -/
def mayGoStale (fsm : Station) (t : Trigger) (s : DutState) (active : String) : Bool :=
  (s ∈ [DutState.bootloader, .osUserland]) &&
    match t with
    | .powerOff => fsm.psu.isSome
    | .energize medium => medium.getD active ≠ active && canCutPower fsm
    | .bootToBootloader medium =>
      if medium.getD active ≠ active then canCutPower fsm else s = .osUserland
    | .bootToOs _ => s = .bootloader || canReset fsm
    | .bootToRecovery => canCutPower fsm
    | .markDirty => false

variable {d : Hardware} (fsm : Station)

theorem observing.calm (e : Entry fsmInterface) (h : observing e) : ¬ disturbs fsm e := by
  intro hd
  unfold disturbs at hd
  split at hd
  · cases h
  · cases h
  · cases h
  · cases h
  · cases h
  · exact of_decide_eq_true h (hd ▸ List.mem_cons_self ..)
  · exact of_decide_eq_true h (hd ▸ List.mem_cons_self ..)
  · cases h
  · exact h
  · exact hd

theorem observing_calm {w w' : World d} (h : Frame.Rel observeFrame w w') :
    Frame.Rel (entryFrame fun e => ¬ disturbs fsm e) w w' :=
  h.entries (observing.calm fsm)

section
variable {w w' : World d} {e : Err}

theorem call_error_calm {c : Call} (hc : ¬ disturbs fsm (did c (.error e)))
    (h : ask c w = .error e w') : Frame.Rel (entryFrame fun e => ¬ disturbs fsm e) w w' :=
  ⟨⟨_, (call_error h).2, fun x hx => by rw [List.mem_singleton.1 hx]; exact hc⟩, trivial⟩

theorem operatorInput_error_calm {p : OperatorPrompt} {ms : Nat}
    (h : operatorInput p ms w = .error e w') :
    Frame.Rel (entryFrame fun e => ¬ disturbs fsm e) w w' := by
  have hp (e : Err) : ¬ disturbs fsm (did (.input p) (.error e)) := by
    cases p <;> exact id
  rcases attempt_error h with h | ⟨e₁, w₁, h₁, h⟩
  · exact call_error_calm fsm (hp e) h
  · exact (call_error_calm fsm (hp e₁) h₁).trans (call_error_calm fsm id h)

theorem doPowerOff_error_calm (hp : fsm.psu = none) (h : doPowerOff fsm w = .error e w') :
    Frame.Rel (entryFrame fun e => ¬ disturbs fsm e) w w' := by
  rcases bind_error h with h | ⟨_, w₁, h₁, h⟩
  · exact observing_calm fsm (within_leaveSession.error h)
  · refine (observing_calm fsm (within_leaveSession.ok h₁)).trans ?_
    rw [dropPower, hp] at h
    dsimp only at h
    split at h
    · cases h
      exact .rfl
    · exact operatorInput_error_calm fsm h

theorem canCutPower_false (hc : canCutPower fsm = false) :
    fsm.psu = none ∧ fsm.headless = true := by
  rw [canCutPower, Bool.or_eq_false_iff] at hc
  exact ⟨by simpa using hc.1, by simpa using hc.2⟩

theorem doPowerOff_blocked (hc : canCutPower fsm = false) : doPowerOff fsm w ≠ .ok () w' := by
  intro h
  obtain ⟨hp, hh⟩ := canCutPower_false fsm hc
  obtain ⟨_, w₁, _, h⟩ := bind_ok h
  rw [dropPower, hp] at h
  dsimp only at h
  rw [if_pos hh] at h
  cases h

/-- What starts with a power-off that cannot happen raises before it disturbs anything. -/
theorem blocked_calm {k : Unit → Fsm d α} (hc : canCutPower fsm = false)
    (h : (doPowerOff fsm >>= k) w = .error e w') :
    Frame.Rel (entryFrame fun e => ¬ disturbs fsm e) w w' := by
  rcases bind_error h with h | ⟨_, w₁, h₁, _⟩
  · exact doPowerOff_error_calm fsm (canCutPower_false fsm hc).1 h
  · exact absurd h₁ (doPowerOff_blocked fsm hc)

theorem changeStraps_calm {target : String} {k : Unit → Fsm d α} (hc : canCutPower fsm = false)
    (h : (changeStraps fsm target >>= k) w = .error e w') :
    Frame.Rel (entryFrame fun e => ¬ disturbs fsm e) w w' := by
  rcases bind_error h with h | ⟨_, w₁, h₁, _⟩
  · exact blocked_calm fsm hc h
  · obtain ⟨_, w₂, h₂, _⟩ := bind_ok h₁
    exact absurd h₂ (doPowerOff_blocked fsm hc)

theorem resumeOrReset_error_calm (hr : canReset fsm = false) (hs : w.vars.state = .osUserland)
    (h : resumeOrReset fsm w = .error e w') :
    Frame.Rel (entryFrame fun e => ¬ disturbs fsm e) w w' := by
  obtain ⟨hpin, hc⟩ := Bool.or_eq_false_iff.1 hr
  rw [resumeOrReset, bind_of_ok (getState_apply w), if_pos hs] at h
  rcases bind_error h with h | ⟨alive, w₁, h₁, h⟩
  · exact observing_calm fsm (within_tryResumeExistingOs.error h)
  · refine (observing_calm fsm (within_tryResumeExistingOs.ok h₁)).trans ?_
    cases alive with
    | true =>
      rcases bind_error h with h | ⟨_, w₂, _, h⟩
      · exact observing_calm fsm ((within_finalizeOsBoot fsm).error h)
      · cases h
    | false =>
      have hnone : resetPin fsm = none := by simpa using hpin
      rcases bind_error h with h | ⟨_, w₂, _, h⟩
      · rw [doHardwareReset, hnone] at h
        exact blocked_calm fsm hc h
      · cases h

theorem resumeOrReset_ok_true (hr : canReset fsm = false) (hs : w.vars.state = .osUserland)
    {b : Bool} (h : resumeOrReset fsm w = .ok b w') : b = true := by
  obtain ⟨hpin, hc⟩ := Bool.or_eq_false_iff.1 hr
  rcases resumeOrReset_ok fsm h with ⟨hne, _⟩ | ⟨_, ⟨hb, _⟩ | ⟨_, w₁, w₂, _, h₂, _⟩⟩
  · exact absurd hs hne
  · exact hb
  · rcases doHardwareReset_ok fsm h₂ with ⟨hsome, _⟩ | ⟨_, w₃, h₃, _⟩
    · rw [hpin] at hsome
      cases hsome
    · exact absurd h₃ (doPowerOff_blocked fsm hc)

/-- Where the table says so, a route that raises has not disturbed the running target. -/
theorem route_error_calm {t : Trigger} (hs : w.vars.state ∈ [DutState.bootloader, .osUserland])
    (hm : mayGoStale fsm t w.vars.state w.vars.context.activeBootMedium = false)
    (h : t.route fsm w = .error e w') :
    Frame.Rel (entryFrame fun e => ¬ disturbs fsm e) w w' := by
  have hrun : w.vars.state ≠ .powerOff ∧ w.vars.state ≠ .recovery := by
    constructor <;> intro hw <;> simp [hw] at hs
  rw [mayGoStale.eq_def, decide_eq_true hs, Bool.true_and] at hm
  cases t with
  | markDirty => cases h
  | powerOff =>
    have hpsu : fsm.psu = none := by simpa using hm
    rw [Trigger.route, routePowerOff, bind_of_ok (getState_apply w), if_neg hrun.1] at h
    exact doPowerOff_error_calm fsm hpsu h
  | energize medium =>
    rw [Trigger.route, routeEnergize, bind_of_ok (getContext_apply w),
      bind_of_ok (getState_apply w)] at h
    dsimp only at h hm
    split at h
    · rename_i hchange
      have hne : medium.getD w.vars.context.activeBootMedium ≠ w.vars.context.activeBootMedium :=
        hchange.resolve_right hrun.2
      have hc : canCutPower fsm = false := by simpa [hne] using hm
      exact changeStraps_calm fsm hc h
    · rw [if_pos (by simp_all)] at h
      cases h
  | bootToBootloader medium =>
    rw [Trigger.route, routeBootToBootloader, bind_of_ok (getContext_apply w),
      bind_of_ok (getState_apply w)] at h
    dsimp only at h hm
    split at h
    · rename_i hchange
      have hne : medium.getD w.vars.context.activeBootMedium ≠ w.vars.context.activeBootMedium :=
        hchange.resolve_right hrun.2
      rw [if_pos hne] at hm
      exact changeStraps_calm fsm hm h
    · rename_i hkeep
      rw [if_neg (fun hne => hkeep (.inl hne))] at hm
      have hboot : w.vars.state = .bootloader := by
        simp only [List.mem_cons, List.not_mem_nil, or_false] at hs
        exact hs.resolve_right (of_decide_eq_false hm)
      rw [if_pos hboot] at h
      cases h
  | bootToOs medium =>
    obtain ⟨hboot, hr⟩ := Bool.or_eq_false_iff.1 hm
    have hos : w.vars.state = .osUserland := by
      simp only [List.mem_cons, List.not_mem_nil, or_false] at hs
      exact hs.resolve_left (of_decide_eq_false hboot)
    rw [Trigger.route, routeBootToOs, bind_of_ok (getContext_apply w)] at h
    rcases bind_error h with h | ⟨b, w₁, h₁, h⟩
    · exact resumeOrReset_error_calm fsm hr hos h
    · rw [resumeOrReset_ok_true fsm hr hos h₁] at h
      cases h
  | bootToRecovery =>
    rw [Trigger.route, routeToRecovery, bind_of_ok (getState_apply w), if_neg hrun.2,
      decide_eq_true hrun.1] at h
    exact blocked_calm fsm hm h

end

theorem fire_error_not_stale {t : Trigger} {w w' : World d} {e : Err}
    (hm : mayGoStale fsm t (routingState fsm w) w.vars.context.activeBootMedium = false)
    (h : fire fsm t w = .error e w') : ¬ Stale fsm w w' := by
  rintro ⟨⟨x, hx, hd⟩, hs⟩
  have ht : t ≠ .markDirty := by
    rintro rfl
    cases fire_error fsm h
  obtain ⟨s, hobs⟩ := align_observes fsm w
  have hcalm : Frame.Rel (entryFrame fun e => ¬ disturbs fsm e) w (aligned fsm w) :=
    ⟨(observing_calm fsm hobs).1, trivial⟩
  rcases hook_error fsm ht (fire_error fsm h) with ⟨_, hw⟩ | ⟨w₁, _, hw, hroute⟩
  · rw [hw] at hcalm
    exact hcalm.since x hx hd
  · rw [routingState, hw] at hm
    rw [hw] at hcalm hobs
    rcases ((within_route fsm t).error hroute).2 with hkept | hdown
    · rw [hkept] at hs
      rw [← hobs.2.2] at hm
      exact (hcalm.trans (route_error_calm fsm hs hm hroute)).since x hx hd
    · simp only [List.mem_cons, List.not_mem_nil, or_false] at hdown
      rcases hdown with hdown | hdown <;> simp [hdown] at hs

def strikes : Call → Bool
  | .psuEnableOutput | .psuDisableOutput | .input _ | .gpioSetPin _ _ | .serialRawWrite _ => true
  | .sshSafeRun cmd _ _ | .serialSafeRun cmd _ _ _ => cmd = "reboot"
  | _ => false

def placate : (c : Call) → c.Ans
  | .sshIsConnected => true
  | c => (default : c.Ans)

/-- Hardware that plays along until the target is disturbed; from then on every call is
interrupted. -/
def saboteur : Hardware where
  State := Bool
  respond c struck :=
    if struck then (.error .keyboardInterrupt, true) else (.ok (placate c), strikes c)

/-- The saboteur is at work, the target was disturbed, and the state is still `s`. -/
def Struck (s : DutState) (w : World saboteur) : Prop :=
  w.dev = true ∧ w.vars.state = s ∧ ∃ x ∈ w.trace, disturbs fsm x

section
variable {s : DutState} {w : World saboteur}

theorem wp_ask_alive {c : Call} {Q : c.Ans → World saboteur → Prop}
    {E : Err → World saboteur → Prop} (hw : w.dev = false) : wp (ask c) Q E w ↔
      Q (placate c) { w with dev := strikes c, trace := w.trace ++ [did c (.ok (placate c))] } := by
  obtain ⟨vars, struck, trace⟩ := w
  cases hw
  exact Iff.rfl

theorem Struck.ask {c : Call} {Q : c.Ans → World saboteur → Prop} (h : Struck fsm s w) :
    wp (ask c) Q (fun _ => Struck fsm s) w := by
  obtain ⟨hw, hs, x, hx, hd⟩ := h
  obtain ⟨vars, struck, trace⟩ := w
  cases hw
  exact ⟨rfl, hs, x, List.mem_append_left _ hx, hd⟩

theorem Struck.operatorInput {p : OperatorPrompt} {ms : Nat} {Q : Unit → World saboteur → Prop}
    (h : Struck fsm s w) : wp (operatorInput p ms) Q (fun _ => Struck fsm s) w := by
  rw [MesCore.operatorInput, wp_attempt]
  refine (Struck.ask fsm h).mono (fun _ _ h => h) fun e w' h' => ?_
  split
  · exact h'.ask fsm
  · exact h'

theorem Struck.doEnergize {Q : Unit → World saboteur → Prop} (h : Struck fsm s w) :
    wp (doEnergize fsm) Q (fun _ => Struck fsm s) w := by
  rw [MesCore.doEnergize, wp_bind, applyPower]
  split
  · rw [wp_bind, voltageSetpoint]
    have hcurrent (psu : Psu) {Q : Unit → World saboteur → Prop}
        (hQ : ∀ w, Struck fsm s w → Q () w) :
        wp (currentSetpoint psu) Q (fun _ => Struck fsm s) w := by
      rw [currentSetpoint]
      split
      · exact h.ask fsm
      · exact hQ w h
    split
    · exact h.ask fsm
    · exact h.ask fsm
    · rw [wp_pure, wp_bind]
      refine hcurrent _ fun w' h' => ?_
      rw [wp_bind]
      exact h'.ask fsm
  · split
    · exact h
    · exact h.operatorInput fsm

theorem Struck.setPins {pins : List (String × Bool)} (h : Struck fsm s w) :
    wp (setPins pins) (fun _ => Struck fsm s) (fun _ => Struck fsm s) w := by
  cases pins with
  | nil => exact h
  | cons pin pins =>
    rw [MesCore.setPins, wp_bind]
    exact h.ask fsm

theorem Struck.applyStraps {medium : String} (h : Struck fsm s w) :
    wp (applyStraps fsm medium) (fun _ => Struck fsm s) (fun _ => Struck fsm s) w := by
  rw [MesCore.applyStraps, wp_bind, wp_getContext]
  split
  · exact h
  · split
    · rw [strapByGpio]
      split
      · rw [wp_bind]
        exact (Struck.setPins fsm h).mono (fun _ _ h' => h'.ask fsm) fun _ _ h' => h'
      · exact h
    · rw [strapByHand]
      split
      · exact h
      · exact h.operatorInput fsm

theorem Struck.doApplyBootstrap {medium : String} (h : Struck fsm s w) :
    wp (doApplyBootstrap fsm medium) (fun _ => Struck fsm s) (fun _ => Struck fsm s) w := by
  rw [MesCore.doApplyBootstrap, wp_bind]
  refine (h.applyStraps fsm).mono (fun _ w' h' => ?_) fun _ _ h' => h'
  obtain ⟨hw, hs, x, hx, hd⟩ := h'
  exact ⟨hw, hs, x, List.mem_append_left _ hx, hd⟩

theorem leaveSession_alive {Q : Unit → World saboteur → Prop} {E : Err → World saboteur → Prop}
    (hw : w.dev = false) (hQ : ∀ w' : World saboteur, w'.dev = false →
      w'.vars.state = w.vars.state → Q () w') : wp leaveSession Q E w := by
  rw [leaveSession, wp_bind, wp_ask_alive hw, wp_bind]
  change wp (ask .sshDisconnect) _ _ _
  rw [wp_ask_alive rfl, wp_modifyContext]
  exact hQ _ rfl rfl

theorem doPowerOff_struck (hw : w.dev = false) (hc : canCutPower fsm = true) :
    wp (doPowerOff fsm) (fun _ => Struck fsm w.vars.state) (fun _ => Struck fsm w.vars.state)
      w := by
  rw [doPowerOff, wp_bind]
  refine leaveSession_alive hw fun w' hw' hs => ?_
  rw [dropPower]
  split
  · rw [wp_bind, wp_ask_alive hw', wp_bind, wp_ask_alive rfl]
    refine Struck.ask fsm ⟨rfl, hs, _, List.mem_append_right _ (List.mem_singleton_self _), ?_⟩
    trivial
  · rename_i hnone
    rw [if_neg (by simpa [canCutPower, hnone] using hc), operatorInput, wp_attempt,
      wp_ask_alive hw']
    exact ⟨rfl, hs, _, List.mem_append_right _ (List.mem_singleton_self _), trivial⟩

theorem doPowerOff_psu_struck (hw : w.dev = false) (hp : fsm.psu.isSome = true) :
    wp (doPowerOff fsm) (fun _ _ => False) (fun _ => Struck fsm w.vars.state) w := by
  obtain ⟨psu, hp⟩ := Option.isSome_iff_exists.1 hp
  rw [doPowerOff, wp_bind]
  refine leaveSession_alive hw fun w' hw' hs => ?_
  rw [dropPower, hp, wp_bind, wp_ask_alive hw', wp_bind, wp_ask_alive rfl]
  refine Struck.ask fsm ⟨rfl, hs, _, List.mem_append_right _ (List.mem_singleton_self _), ?_⟩
  trivial

theorem changeStraps_struck {target : String} (hw : w.dev = false)
    (hc : canCutPower fsm = true) : wp (changeStraps fsm target)
      (fun _ => Struck fsm w.vars.state) (fun _ => Struck fsm w.vars.state) w := by
  rw [changeStraps, wp_bind]
  refine (doPowerOff_struck fsm hw hc).mono (fun _ w₁ h₁ => ?_) fun _ _ h => h
  rw [wp_bind]
  refine (h₁.doApplyBootstrap fsm).mono (fun _ w₂ h₂ => ?_) fun _ _ h => h
  exact h₂

theorem coldBootToBootloader_struck {s : DutState} (h : Struck fsm s w) :
    wp (coldBootToBootloader fsm) (fun _ _ => False) (fun _ => Struck fsm s) w := by
  rw [coldBootToBootloader]
  split
  · rw [wp_bind]
    exact h.doEnergize fsm
  · rw [wp_bind]
    exact h.doEnergize fsm

theorem asyncRebootDut_struck (hw : w.dev = false) :
    wp asyncRebootDut (fun _ _ => False) (fun _ => Struck fsm w.vars.state) w := by
  rw [asyncRebootDut, wp_bind, wp_attempt, wp_bind, transportSafeRun, wp_bind, wp_ask_alive hw]
  change wp (ask (.sshSafeRun "reboot" 2000 false)) _ _ _
  rw [wp_ask_alive rfl, wp_pure, wp_bind]
  refine Struck.ask fsm ⟨rfl, rfl, _, List.mem_append_right _ (List.mem_singleton_self _), ?_⟩
  rfl

theorem rebootFromOs_struck (hw : w.dev = false) :
    wp (rebootFromOs fsm) (fun _ _ => False) (fun _ => Struck fsm w.vars.state) w := by
  rw [rebootFromOs]
  split
  · exact asyncRebootDut_struck fsm hw
  · have hrun {cmd : String} {timeoutMs : Nat} {w : World saboteur} (hcmd : cmd ≠ "reboot")
        (hw : w.dev = false) {Q : CommandResult → World saboteur → Prop}
        {E : Err → World saboteur → Prop} (hQ : ∀ r w', w'.dev = false →
          w'.vars.state = w.vars.state → Q r w') :
    wp (transportSafeRun cmd timeoutMs true) Q E w := by
      rw [transportSafeRun, wp_bind, wp_ask_alive hw]
      change wp (ask (.sshSafeRun cmd timeoutMs true)) _ _ _
      rw [wp_ask_alive rfl]
      exact hQ _ _ (decide_eq_false hcmd) rfl
    rw [setUbootTrapAndReboot, wp_bind]
    refine hrun (by decide) hw fun _ w₁ hw₁ hs₁ => ?_
    rw [wp_bind]
    refine hrun (by decide) hw₁ fun _ w₂ hw₂ hs₂ => ?_
    rw [← hs₁, ← hs₂]
    exact asyncRebootDut_struck fsm hw₂

theorem eventBootFromBootloaderToOs_struck {s : DutState} (hw : w.dev = false)
    (hs : w.vars.state = s) :
    wp (eventBootFromBootloaderToOs fsm) (fun _ _ => False) (fun _ => Struck fsm s) w := by
  rw [eventBootFromBootloaderToOs, wp_bind, wp_ask_alive hw, wp_bind, wp_ask_alive rfl, wp_bind,
    wp_note, eventWaitForOsShell, wp_bind, overStream, wp_bind]
  refine wp_onlyIf nofun fun _ => ?_
  rw [wp_bind]
  refine Struck.ask fsm ⟨rfl, hs, _, List.mem_append_right _ (List.mem_singleton_self _), ?_⟩
  rfl

theorem resumeBootloaderToOs_struck (hw : w.dev = false) :
    wp (resumeBootloaderToOs fsm) (fun _ _ => False) (fun _ => Struck fsm w.vars.state) w := by
  rw [resumeBootloaderToOs]
  split
  · exact eventBootFromBootloaderToOs_struck fsm hw rfl
  · rw [restoreUbootTrap, wp_bind, wp_bind, wp_ask_alive hw, wp_bind, wp_ask_alive (by rfl),
      wp_bind, wp_ask_alive (by rfl), wp_pure]
    exact eventBootFromBootloaderToOs_struck fsm (by rfl) rfl

theorem tryResumeExistingOs_alive {Q : Bool → World saboteur → Prop}
    {E : Err → World saboteur → Prop} (hw : w.dev = false) (hQ : ∀ w' : World saboteur,
      w'.dev = false → w'.vars.state = w.vars.state → Q false w') :
    wp tryResumeExistingOs Q E w := by
  rw [tryResumeExistingOs, wp_bind, sshHeartbeat, wp_attempt, wp_bind, connectSshWithRetry, retry,
    wp_attempt, wp_ask_alive hw, wp_bind, wp_ask_alive rfl, wp_pure]
  change wp (ask .serialIsConnected >>= _) _ _ _
  rw [wp_bind, wp_ask_alive (by rfl)]
  exact hQ _ rfl rfl

theorem doHardwareReset_struck (hw : w.dev = false) (hr : canReset fsm = true)
    (hs : w.vars.state ≠ .powerOff) :
    wp (doHardwareReset fsm) (fun _ _ => False) (fun _ => Struck fsm w.vars.state) w := by
  rw [doHardwareReset]
  split
  · rename_i pin hpin
    rw [wp_bind, wp_getState, if_neg hs, pulseResetPin, wp_bind, wp_ask_alive hw, wp_bind]
    exact Struck.ask fsm ⟨rfl, rfl, _, List.mem_append_right _ (List.mem_singleton_self _), hpin⟩
  · rename_i hpin
    rw [wp_bind]
    have hc : canCutPower fsm = true := by simpa [canReset, hpin] using hr
    exact (doPowerOff_struck fsm hw hc).mono (fun _ _ h => h.doEnergize fsm) fun _ _ h => h

/-- Where the table says so, the saboteur disturbs the target and the state goes stale. -/
theorem route_struck {t : Trigger} (hw : w.dev = false)
    (hm : mayGoStale fsm t w.vars.state w.vars.context.activeBootMedium = true) :
    wp (t.route fsm) (fun _ _ => False) (fun _ => Struck fsm w.vars.state) w := by
  rw [mayGoStale.eq_def, Bool.and_eq_true, decide_eq_true_eq] at hm
  obtain ⟨hs, hm⟩ := hm
  have hrun : w.vars.state ≠ .powerOff ∧ w.vars.state ≠ .recovery := by
    constructor <;> intro hw <;> simp [hw] at hs
  cases t with
  | markDirty => cases hm
  | powerOff =>
    rw [Trigger.route, routePowerOff, wp_bind, wp_getState, if_neg hrun.1]
    exact doPowerOff_psu_struck fsm hw hm
  | energize medium =>
    obtain ⟨hne, hc⟩ := (Bool.and_eq_true ..).mp hm
    rw [Trigger.route, routeEnergize, wp_bind, wp_getContext, wp_bind, wp_getState,
      if_pos (.inl (of_decide_eq_true hne)), wp_bind]
    exact (changeStraps_struck fsm hw hc).mono (fun _ _ h => h.doEnergize fsm) fun _ _ h => h
  | bootToBootloader medium =>
    rw [Trigger.route, routeBootToBootloader, wp_bind, wp_getContext, wp_bind, wp_getState]
    by_cases hne : medium.getD w.vars.context.activeBootMedium ≠ w.vars.context.activeBootMedium
    · dsimp only at hm
      rw [if_pos hne] at hm
      rw [if_pos (.inl hne), wp_bind]
      exact (changeStraps_struck fsm hw hm).mono (fun _ _ h => coldBootToBootloader_struck fsm h)
        fun _ _ h => h
    · dsimp only at hm
      rw [if_neg hne, decide_eq_true_eq] at hm
      rw [if_neg (by simp [hm, not_not.1 hne]), if_neg (by simp [hm]), if_pos hm, wp_bind]
      exact (rebootFromOs_struck fsm hw).mono (fun _ _ h => h.elim) fun _ _ h => h
  | bootToOs medium =>
    rw [Trigger.route, routeBootToOs, wp_bind, wp_getContext, wp_bind, resumeOrReset, wp_bind,
      wp_getState]
    by_cases hos : w.vars.state = .osUserland
    · have hr : canReset fsm = true := by simpa [hos] using hm
      rw [if_pos hos, wp_bind]
      refine tryResumeExistingOs_alive hw fun w₁ hw₁ hs₁ => ?_
      rw [if_neg Bool.false_ne_true, wp_bind, ← hs₁]
      exact (doHardwareReset_struck fsm hw₁ hr (by rw [hs₁]; exact hrun.1)).mono
        (fun _ _ h => h.elim) fun _ _ h => h
    · have hboot : w.vars.state = .bootloader := by
        simp only [List.mem_cons, List.not_mem_nil, or_false] at hs
        exact hs.resolve_right hos
      rw [if_neg hos, wp_pure, if_neg Bool.false_ne_true, wp_bind, hotLoginOrReset, wp_bind,
        wp_getState, if_neg (by simp [hboot]), wp_pure, if_neg Bool.false_ne_true,
        coldBootOrResume, wp_bind, wp_getState, if_neg (by simp [hboot]), if_pos hboot, wp_bind]
      exact (resumeBootloaderToOs_struck fsm hw).mono (fun _ _ h => h.elim) fun _ _ h => h
  | bootToRecovery =>
    rw [Trigger.route, routeToRecovery, wp_bind, wp_getState, if_neg hrun.2, decide_eq_true hrun.1,
      wp_bind]
    change wp (doPowerOff fsm) _ _ _
    refine (doPowerOff_struck fsm hw hm).mono (fun _ w₁ h₁ => ?_) fun _ _ h => h
    rw [wp_bind, triggerRecovery]
    split
    · rw [wp_bind]
      exact h₁.ask fsm
    · split
      · exact h₁
      · rw [wp_bind, wp_attempt]
        refine (Struck.ask fsm h₁).mono (fun _ _ h => h) fun e w₂ h₂ => ?_
        split
        · rw [wp_pure]
          exact h₂.doEnergize fsm
        · exact h₂

end

/-- The saboteur lets the machine believe that a running target is where it says. -/
theorem saboteur_aligned {s : DutState} (active : String)
    (hs : s ∈ [DutState.bootloader, .osUserland]) :
    ∃ w₁ : World saboteur,
      alignToPhysicalState fsm false ⟨{ state := s, context := { activeBootMedium := active } },
        false, []⟩ = .ok () w₁ ∧ w₁.dev = false ∧ w₁.vars.state = s ∧
      w₁.vars.context.activeBootMedium = active := by
  rw [alignToPhysicalState, bind_of_ok (getState_apply _)]
  dsimp only
  by_cases htrust : trustsState fsm s = true
  · rw [htrust]
    exact ⟨_, rfl, rfl, rfl, rfl⟩
  · have hos : s = .osUserland ∧ fsm.psu = none := by
      simp only [List.mem_cons, List.not_mem_nil, or_false] at hs
      rcases hs with rfl | rfl <;> simp_all [trustsState]
    obtain ⟨rfl, hp⟩ := hos
    rw [Bool.eq_false_iff.2 htrust, probeHardwareState, probePower, hp]
    exact ⟨_, rfl, rfl, rfl, rfl⟩

/-- The triggers, routing states and stations that never go stale, whatever the hardware does. -/
theorem never_stale_iff (t : Trigger) (s : DutState) (active : String) :
    (∀ (d : Hardware) (w w' : World d) (e : Err), routingState fsm w = s →
        w.vars.context.activeBootMedium = active → fire fsm t w = .error e w' →
        ¬ Stale fsm w w') ↔ mayGoStale fsm t s active = false := by
  constructor
  · intro hall
    by_contra hm
    rw [Bool.not_eq_false] at hm
    have hs : s ∈ [DutState.bootloader, .osUserland] := by
      rw [mayGoStale.eq_def, Bool.and_eq_true, decide_eq_true_eq] at hm
      exact hm.1
    have ht : t ≠ .markDirty := by
      rintro rfl
      simp [mayGoStale] at hm
    obtain ⟨w₁, ha, hdev, hstate, hact⟩ := saboteur_aligned fsm active hs
    rw [← hstate, ← hact] at hm
    have hstruck := route_struck fsm hdev hm
    cases hroute : t.route fsm w₁ with
    | ok a w' => exact hstruck.ok hroute
    | error e w' =>
      obtain ⟨_, hw', x, hx, hd⟩ := hstruck.error hroute
      have hfire := fire_of_hook_error fsm
        (by rw [Trigger.hook_eq fsm ht, bind_of_ok ha, hroute])
      refine hall saboteur _ w' e ?_ rfl hfire ⟨⟨x, hx, hd⟩, ?_⟩
      · rw [routingState, aligned, ha, World.after_ok, hstate]
      · rw [hw', hstate]
        exact hs
  · intro hm d w w' e hs hact h
    rw [← hs, ← hact] at hm
    exact fire_error_not_stale fsm hm h

/-- The OS is rebooted on the way to the bootloader, which never shows up; the machine still
says `OS_USERLAND`. -/
theorem bootToBootloader_goes_stale :
    ∃ (w₁ w₂ : World liveTarget) (e : Err),
      fire quietSupply (.bootToOs none) ⟨{}, (), []⟩ = .ok () w₁ ∧
      fire quietSupply (.bootToBootloader none) w₁ = .error e w₂ ∧ Stale quietSupply w₁ w₂ := by
  let w₀ : World liveTarget := ⟨{}, (), []⟩
  let w₁ := World.after (fire quietSupply (.bootToOs none) w₀)
  have h : (match fire quietSupply (.bootToBootloader none) w₁ with
      | .error _ w₂ => decide (Stale quietSupply w₁ w₂)
      | .ok _ _ => false) = true := by decide +kernel
  split at h
  · exact ⟨w₁, _, _, rfl, ‹_›, of_decide_eq_true h⟩
  · cases h

end MesCore
