import MesCore.Power

namespace MesCore
set_option autoImplicit true

variable {d : Hardware} (fsm : Station)

def World.withState (w : World d) (s : DutState) : World d :=
  { w with vars := { w.vars with state := s } }

@[simp] theorem World.withState_state (w : World d) (s : DutState) :
    (w.withState s).vars.state = s := rfl

@[simp] theorem World.withState_trace (w : World d) (s : DutState) :
    (w.withState s).trace = w.trace := rfl

theorem getContext_apply (w : World d) : getContext w = .ok w.vars.context w := rfl

theorem wp_getState {Q : DutState → World d → Prop} {E : Err → World d → Prop} {w : World d} :
    wp getState Q E w ↔ Q w.vars.state w := Iff.rfl

theorem wp_getContext {Q : DeviceContext → World d → Prop} {E : Err → World d → Prop}
    {w : World d} : wp getContext Q E w ↔ Q w.vars.context w := Iff.rfl

theorem wp_modifyContext {Q : Unit → World d → Prop} {E : Err → World d → Prop} {w : World d}
    (f : DeviceContext → DeviceContext) : wp (modifyContext f) Q E w ↔
      Q () { w with vars := { w.vars with context := f w.vars.context } } := Iff.rfl

def aligned (w : World d) : World d := World.after (alignToPhysicalState fsm false w)

def routingState (w : World d) : DutState := (aligned fsm w).vars.state

theorem align_ok {w w' : World d} (h : alignToPhysicalState fsm false w = .ok () w') :
    (trustsState fsm w.vars.state = true ∧ w' = w) ∨
      (trustsState fsm w.vars.state = false ∧ ∃ s w₁, probeHardwareState fsm w = .ok s w₁ ∧
        w' = w₁.withState s) := by
  obtain ⟨s, w₀, hs, h⟩ := bind_ok h
  cases hs
  cases ht : trustsState fsm w.vars.state with
  | true =>
    rw [ht] at h
    cases h
    exact .inl ⟨rfl, rfl⟩
  | false =>
    rw [ht] at h
    obtain ⟨s, w₁, h₁, h⟩ := bind_ok h
    cases h
    exact .inr ⟨rfl, s, w₁, h₁, rfl⟩

theorem align_error {w w' : World d} {e : Err}
    (h : alignToPhysicalState fsm false w = .error e w') :
    probeHardwareState fsm w = .error e w' := by
  rcases bind_error h with h | ⟨s, w₀, hs, h⟩
  · cases h
  · cases hs
    cases ht : trustsState fsm w.vars.state with
    | true =>
      rw [ht] at h
      cases h
    | false =>
      rw [ht] at h
      rcases bind_error h with h | ⟨s, w₁, h₁, h⟩
      · exact h
      · cases h

theorem align_observes (w : World d) :
    ∃ s, Frame.Rel observeFrame w ((aligned fsm w).withState s) := by
  rw [aligned]
  cases h : alignToPhysicalState fsm false w with
  | ok a w' =>
    rcases align_ok fsm h with ⟨_, rfl⟩ | ⟨_, s, w₁, h₁, rfl⟩
    · exact ⟨w'.vars.state, .rfl⟩
    · exact ⟨w₁.vars.state, (within_probe fsm).ok h₁⟩
  | error e w' =>
    exact ⟨w'.vars.state, (within_probe fsm).error (align_error fsm h)⟩

/-- A reset pulses the reset line or, without one, takes the power away and gives it back. -/
theorem doHardwareReset_ok {w w' : World d} (h : doHardwareReset fsm w = .ok () w') :
    ((resetPin fsm).isSome = true ∧ Frame.Rel (routeFrame (made Call.straps)) w w') ∨
      (resetPin fsm = none ∧ ∃ w₁, doPowerOff fsm w = .ok () w₁ ∧
        doEnergize fsm w₁ = .ok () w') := by
  rw [doHardwareReset] at h
  cases hpin : resetPin fsm with
  | some pin =>
    rw [hpin] at h
    have hpulse : Within (routeFrame (made Call.straps)) (pulseResetPin pin : Fsm d Unit) :=
      (within_made _ rfl).bind fun _ => (within_made _ rfl).bind fun _ =>
        (within_made _ rfl).bind fun _ => within_made _ rfl
    exact .inl ⟨rfl, (within_getState.bind fun _ => .ite (.pure _) hpulse).ok h⟩
  | none =>
    rw [hpin] at h
    obtain ⟨_, w₁, h₁, h⟩ := bind_ok h
    exact .inr ⟨rfl, w₁, h₁, h⟩

theorem resumeOrReset_ok {w w' : World d} {b : Bool} (h : resumeOrReset fsm w = .ok b w') :
    (w.vars.state ≠ .osUserland ∧ b = false ∧ w' = w) ∨
      (w.vars.state = .osUserland ∧
        ((b = true ∧ ∃ w₁, tryResumeExistingOs w = .ok true w₁ ∧
            finalizeOsBoot fsm w₁ = .ok () w') ∨
          (b = false ∧ ∃ w₁ w₂, tryResumeExistingOs w = .ok false w₁ ∧
            doHardwareReset fsm w₁ = .ok () w₂ ∧ w' = w₂.withState .energized))) := by
  obtain ⟨s, w₀, hs, h⟩ := bind_ok h
  cases hs
  split at h
  · rename_i hos
    refine .inr ⟨hos, ?_⟩
    obtain ⟨alive, w₁, h₁, h⟩ := bind_ok h
    cases alive with
    | true =>
      obtain ⟨_, w₂, h₂, h⟩ := bind_ok h
      cases h
      exact .inl ⟨rfl, w₁, h₁, h₂⟩
    | false =>
      obtain ⟨_, w₂, h₂, h⟩ := bind_ok h
      cases h
      exact .inr ⟨rfl, w₁, w₂, h₁, h₂, rfl⟩
  · cases h
    exact .inl ⟨‹_›, rfl, rfl⟩

theorem hotLoginOrReset_ok {w w' : World d} {b : Bool} (h : hotLoginOrReset fsm w = .ok b w') :
    (w.vars.state ≠ .energized ∧ b = false ∧ w' = w) ∨
      (w.vars.state = .energized ∧
        ((b = true ∧ tryHotLogin fsm w = .ok true w') ∨
          (b = false ∧ ∃ w₁ w₂, tryHotLogin fsm w = .ok false w₁ ∧
            doHardwareReset fsm w₁ = .ok () w₂ ∧ w' = w₂.withState .dirty))) := by
  obtain ⟨s, w₀, hs, h⟩ := bind_ok h
  cases hs
  split at h
  · rename_i hen
    refine .inr ⟨hen, ?_⟩
    obtain ⟨reached, w₁, h₁, h⟩ := bind_ok h
    cases reached with
    | true =>
      cases h
      exact .inl ⟨rfl, h₁⟩
    | false =>
      obtain ⟨_, w₂, h₂, h⟩ := bind_ok h
      cases h
      exact .inr ⟨rfl, w₁, w₂, h₁, h₂, rfl⟩
  · cases h
    exact .inl ⟨‹_›, rfl, rfl⟩

theorem coldBootOrResume_ok {target : String} {w w' : World d}
    (h : coldBootOrResume fsm target w = .ok () w') :
    (w.vars.state ∈ [DutState.recovery, .dirty] ∧ ∃ w₁, doPowerOff fsm w = .ok () w₁ ∧
        strapAndBootOs fsm target w₁ = .ok () w') ∨
      (w.vars.state = .powerOff ∧ strapAndBootOs fsm target w = .ok () w') ∨
      (w.vars.state = .bootloader ∧ ∃ w₁, resumeBootloaderToOs fsm w = .ok () w₁ ∧
        finalizeOsBoot fsm w₁ = .ok () w') ∨
      (w.vars.state ∉ [DutState.recovery, .dirty, .powerOff, .bootloader] ∧ w' = w) := by
  obtain ⟨s, w₀, hs, h⟩ := bind_ok h
  cases hs
  split at h
  · rename_i hcold
    by_cases hoff : w.vars.state = .powerOff
    · rw [hoff] at h
      exact .inr (.inl ⟨hoff, h⟩)
    · have hon : w.vars.state ∈ [DutState.recovery, .dirty] := by simp_all
      rw [show decide (w.vars.state ≠ .powerOff) = true by simpa using hoff] at h
      obtain ⟨_, w₁, h₁, h⟩ := bind_ok h
      exact .inl ⟨hon, w₁, h₁, h⟩
  · rename_i hcold
    split at h
    · obtain ⟨_, w₁, h₁, h⟩ := bind_ok h
      exact .inr (.inr (.inl ⟨‹_›, w₁, h₁, h⟩))
    · cases h
      refine .inr (.inr (.inr ⟨?_, rfl⟩))
      simp_all

theorem routeBootToOs_ok {medium : Option String} {w w' : World d}
    (h : routeBootToOs fsm medium w = .ok () w') :
    resumeOrReset fsm w = .ok true w' ∨
      ∃ w₁, resumeOrReset fsm w = .ok false w₁ ∧
        (hotLoginOrReset fsm w₁ = .ok true w' ∨
          ∃ w₂, hotLoginOrReset fsm w₁ = .ok false w₂ ∧
            coldBootOrResume fsm (medium.getD w.vars.context.activeBootMedium) w₂ = .ok () w') := by
  obtain ⟨ctx, w₀, hc, h⟩ := bind_ok h
  cases hc
  obtain ⟨resumed, w₁, h₁, h⟩ := bind_ok h
  cases resumed with
  | true =>
    cases h
    exact .inl h₁
  | false =>
    refine .inr ⟨w₁, h₁, ?_⟩
    obtain ⟨loggedIn, w₂, h₂, h⟩ := bind_ok h
    cases loggedIn with
    | true =>
      cases h
      exact .inl h₂
    | false => exact .inr ⟨w₂, h₂, h⟩

theorem hook_ok {t : Trigger} (ht : t ≠ .markDirty) {w w' : World d}
    (h : t.hook fsm w = .ok () w') :
    ∃ w₁, alignToPhysicalState fsm false w = .ok () w₁ ∧ aligned fsm w = w₁ ∧
      t.route fsm w₁ = .ok () w' := by
  rw [Trigger.hook_eq fsm ht] at h
  obtain ⟨_, w₁, h₁, h⟩ := bind_ok h
  exact ⟨w₁, h₁, by rw [aligned, h₁, World.after_ok], h⟩

theorem hook_error {t : Trigger} (ht : t ≠ .markDirty) {w w' : World d} {e : Err}
    (h : t.hook fsm w = .error e w') :
    (alignToPhysicalState fsm false w = .error e w' ∧ aligned fsm w = w') ∨
      ∃ w₁, alignToPhysicalState fsm false w = .ok () w₁ ∧ aligned fsm w = w₁ ∧
        t.route fsm w₁ = .error e w' := by
  rw [Trigger.hook_eq fsm ht] at h
  rcases bind_error h with h | ⟨_, w₁, h₁, h⟩
  · exact .inl ⟨h, by rw [aligned, h, World.after_error]⟩
  · exact .inr ⟨w₁, h₁, by rw [aligned, h₁, World.after_ok], h⟩

theorem resumeOrReset_energized {w w' : World d} (hs : w.vars.state = .osUserland)
    (h : resumeOrReset fsm w = .ok false w') : w'.vars.state = .energized := by
  rcases resumeOrReset_ok fsm h with ⟨ho, _⟩ | ⟨_, ⟨hb, _⟩ | ⟨_, v, v', _, _, rfl⟩⟩
  · exact absurd hs ho
  · cases hb
  · rfl

theorem hotLoginOrReset_dirty {w w' : World d} (hs : w.vars.state = .energized)
    (h : hotLoginOrReset fsm w = .ok false w') : w'.vars.state = .dirty := by
  rcases hotLoginOrReset_ok fsm h with ⟨he, _⟩ | ⟨_, ⟨hb, _⟩ | ⟨_, v, v', _, _, rfl⟩⟩
  · exact absurd hs he
  · cases hb
  · rfl

def untrapped : Entry fsmInterface → Prop
  | .call c _ => c.traps = false
  | .note _ => True

def ordinary : Entry fsmInterface → Prop
  | .call c _ => c.traps = false
  | .note (.stateChanged _ _ _) => False
  | .note _ => True

theorem ordinary.untrapped (e : Entry fsmInterface) (h : ordinary e) : untrapped e := by
  cases e with
  | call c r => exact h
  | note n => trivial

theorem ordinary.unpublished (e : Entry fsmInterface) (h : ordinary e) : unpublished e := by
  cases e with
  | call c r => trivial
  | note n => cases n with
    | stateChanged old new t => exact h
    | bootstrapApplied medium => trivial
    | bootCommanded => trivial

theorem ordinary_of_conversing (e : Entry fsmInterface) (h : conversing e) : ordinary e := by
  cases e with
  | note n =>
    have hn : n = .bootCommanded := h
    rw [hn]
    trivial
  | call c r =>
    have hc : c.converses = true := h
    cases c <;> first | rfl | exact decide_eq_false (of_decide_eq_true hc)

theorem ordinary_of_observing (e : Entry fsmInterface) (h : observing e) : ordinary e :=
  ordinary_of_conversing e (conversing_of_observing e h)

/-- The calls of a kind, if those that do not just observe are no trap either. -/
theorem ordinary_of_made {kind : Call → Bool}
    (hk : ∀ c, kind c = true → c.observes = true ∨ c.traps = false) (e : Entry fsmInterface)
    (h : made kind e) : ordinary e := by
  cases e with
  | note n => exact h.elim
  | call c r =>
    rcases hk c h with hc | hc
    · exact ordinary_of_observing (.call c r) hc
    · exact hc

theorem ordinary_of_removes : ∀ e, made Call.removes e → ordinary e :=
  ordinary_of_made fun c hc => by cases c <;> first | exact .inr rfl | exact .inl hc

theorem ordinary_of_supplies : ∀ e, made Call.supplies e → ordinary e :=
  ordinary_of_made fun c hc => by cases c <;> first | exact .inr rfl | exact .inl hc

theorem ordinary_of_straps : ∀ e, made Call.straps e → ordinary e :=
  ordinary_of_made fun c hc => by cases c <;> first | exact .inr rfl | exact .inl hc

theorem untrapped_of_conversing (e : Entry fsmInterface) (h : conversing e) : untrapped e :=
  (ordinary_of_conversing e h).untrapped

theorem untrapped_of_observing (e : Entry fsmInterface) (h : observing e) : untrapped e :=
  (ordinary_of_observing e h).untrapped

theorem untrapped_of_removes (e : Entry fsmInterface) (h : made Call.removes e) : untrapped e :=
  (ordinary_of_removes e h).untrapped

theorem untrapped_of_supplies (e : Entry fsmInterface) (h : made Call.supplies e) :
    untrapped e :=
  (ordinary_of_supplies e h).untrapped

/-- Runs that keep the state or, on the way down, put it at `ENERGIZED` or `DIRTY`. -/
@[reducible] def demoteFrame (P : Entry fsmInterface → Prop) : Frame fsmInterface where
  entry := P
  vars u v := v.state = u.state ∨ v.state ∈ [DutState.energized, .dirty]
  refl _ := .inl rfl
  trans h h' := by
    rcases h' with h' | h'
    · rw [h']
      exact h
    · exact .inr h'

abbrev untrappedFrame : Frame fsmInterface := demoteFrame untrapped

theorem Within.demote {P Q : Entry fsmInterface → Prop} {p : Fsm d α}
    (h : Within (routeFrame P) p) (hPQ : ∀ e, P e → Q e) : Within (demoteFrame Q) p :=
  h.mono hPQ fun _ _ h => .inl h.1

theorem within_setState_demote {P : Entry fsmInterface → Prop} {s : DutState}
    (h : s ∈ [DutState.energized, .dirty]) : Within (demoteFrame P) (setState s : Fsm d Unit) :=
  .modifyVars _ fun _ => .inr h

theorem within_setMedium {P : Entry fsmInterface → Prop} (medium : String) :
    Within (demoteFrame P)
      (modifyContext fun c => { c with activeBootMedium := medium } : Fsm d Unit) :=
  .modifyVars _ fun _ => .inl rfl

theorem within_doApplyBootstrap (medium : String) :
    Within (demoteFrame ordinary) (doApplyBootstrap fsm medium : Fsm d Unit) :=
  ((within_applyStraps fsm medium).demote ordinary_of_straps).bind fun _ =>
    Within.note (I := fsmInterface) _ trivial

theorem within_powerOff_demote : Within (demoteFrame ordinary) (doPowerOff fsm : Fsm d Unit) :=
  (within_doPowerOff fsm).demote ordinary_of_removes

theorem within_energize_demote : Within (demoteFrame ordinary) (doEnergize fsm : Fsm d Unit) :=
  (within_doEnergize fsm).demote ordinary_of_supplies

theorem within_finalize_demote : Within (demoteFrame ordinary) (finalizeOsBoot fsm : Fsm d Unit) :=
  (within_finalizeOsBoot fsm).demote ordinary_of_observing

theorem within_changeStraps (target : String) :
    Within (demoteFrame ordinary) (changeStraps fsm target : Fsm d Unit) :=
  (within_powerOff_demote fsm).bind fun _ => (within_doApplyBootstrap fsm target).bind fun _ =>
    within_setMedium target

theorem within_doHardwareReset :
    Within (demoteFrame ordinary) (doHardwareReset fsm : Fsm d Unit) := by
  rw [doHardwareReset]
  split
  · rename_i pin _
    have hpulse : Within (routeFrame (made Call.straps)) (pulseResetPin pin : Fsm d Unit) :=
      (within_made _ rfl).bind fun _ => (within_made _ rfl).bind fun _ =>
        (within_made _ rfl).bind fun _ => within_made _ rfl
    exact within_getState.bind fun _ => .ite (.pure _) (hpulse.demote ordinary_of_straps)
  · exact (within_powerOff_demote fsm).bind fun _ => within_energize_demote fsm

theorem within_resumeOrReset : Within (demoteFrame ordinary) (resumeOrReset fsm : Fsm d Bool) := by
  refine within_getState.bind fun s => .ite ?_ (.pure _)
  refine (within_tryResumeExistingOs.demote ordinary_of_observing).bind fun _ => .ite ?_ ?_
  · exact (within_finalize_demote fsm).bind fun _ => .pure _
  · exact (within_doHardwareReset fsm).bind fun _ =>
      (within_setState_demote (by decide)).bind fun _ => .pure _

theorem within_hotLoginOrReset :
    Within (demoteFrame ordinary) (hotLoginOrReset fsm : Fsm d Bool) := by
  refine within_getState.bind fun s => .ite ?_ (.pure _)
  refine ((within_tryHotLogin fsm).demote ordinary_of_conversing).bind fun _ => .ite (.pure _) ?_
  exact (within_doHardwareReset fsm).bind fun _ =>
    (within_setState_demote (by decide)).bind fun _ => .pure _

theorem within_coldBootToOs_demote :
    Within (demoteFrame ordinary) (coldBootToOs fsm : Fsm d Unit) := by
  refine .ite ?_ ?_
  · exact (within_energize_demote fsm).bind fun _ =>
      ((within_eventWaitForBootloader fsm true).demote ordinary_of_observing).bind fun _ =>
        (within_eventBootFromBootloaderToOs fsm).demote ordinary_of_conversing
  · exact (within_energize_demote fsm).bind fun _ =>
      (within_eventWaitForOsShell fsm true).demote ordinary_of_conversing

theorem within_strapAndBootOs (target : String) :
    Within (demoteFrame ordinary) (strapAndBootOs fsm target : Fsm d Unit) :=
  (within_doApplyBootstrap fsm target).bind fun _ => (within_setMedium target).bind fun _ =>
    (within_coldBootToOs_demote fsm).bind fun _ => within_finalize_demote fsm

theorem within_coldBootOrResume (target : String) :
    Within (demoteFrame ordinary) (coldBootOrResume fsm target : Fsm d Unit) := by
  refine within_getState.bind fun s => .ite ?_ (.ite ?_ (.pure _))
  · exact (Within.onlyIf _ (within_powerOff_demote fsm)).bind fun _ =>
      within_strapAndBootOs fsm target
  · exact ((within_resumeBootloaderToOs fsm).demote ordinary_of_conversing).bind fun _ =>
      within_finalize_demote fsm

theorem within_triggerRecovery :
    Within (demoteFrame ordinary) (triggerRecovery fsm : Fsm d Unit) := by
  have hask (c : Call) (h : c.traps = false) :
      Within (demoteFrame ordinary) (ask c : Fsm d c.Ans) :=
    .call (I := fsmInterface) c fun _ => h
  rw [triggerRecovery]
  split
  · exact (hask _ rfl).bind fun _ => (within_energize_demote fsm).bind fun _ =>
      (hask _ rfl).bind fun _ => hask _ rfl
  · exact .ite (.fail _) (Within.bind (.attempt (hask _ rfl) _ fun _ => .pure _) fun _ =>
      within_energize_demote fsm)

theorem within_route_ordinary {t : Trigger} (ht : ∀ medium, t ≠ .bootToBootloader medium) :
    Within (demoteFrame ordinary) (t.route fsm : Fsm d Unit) := by
  cases t with
  | powerOff => exact within_getState.bind fun _ => .ite (.pure _) (within_powerOff_demote fsm)
  | energize medium =>
    refine within_getContext.bind fun _ => within_getState.bind fun _ => .ite ?_ (.ite (.pure _) ?_)
    · exact (within_changeStraps fsm _).bind fun _ => within_energize_demote fsm
    · exact (within_doApplyBootstrap fsm _).bind fun _ => (within_setMedium _).bind fun _ =>
        within_energize_demote fsm
  | bootToBootloader medium => exact absurd rfl (ht medium)
  | bootToOs medium =>
    refine within_getContext.bind fun _ =>
      (within_resumeOrReset fsm).bind fun _ => .ite (.pure _) ?_
    exact (within_hotLoginOrReset fsm).bind fun _ => .ite (.pure _) (within_coldBootOrResume fsm _)
  | bootToRecovery =>
    refine within_getState.bind fun _ => .ite (.pure _) ?_
    refine (Within.onlyIf _ (within_powerOff_demote fsm)).bind fun _ => ?_
    exact (within_triggerRecovery fsm).bind fun _ => .call (I := fsmInterface) _ fun _ => rfl
  | markDirty => exact .pure _

theorem within_route_untrapped {t : Trigger} (ht : ∀ medium, t ≠ .bootToBootloader medium) :
    Within untrappedFrame (t.route fsm : Fsm d Unit) :=
  (within_route_ordinary fsm ht).mono ordinary.untrapped fun _ _ h => h

theorem within_route_unpublished (t : Trigger) :
    Within (demoteFrame unpublished) (t.route fsm : Fsm d Unit) := by
  by_cases ht : ∀ medium, t ≠ .bootToBootloader medium
  · exact (within_route_ordinary fsm ht).mono ordinary.unpublished fun _ _ h => h
  · obtain ⟨medium, ht⟩ := not_forall.1 ht
    rw [not_not.1 ht]
    refine within_getContext.bind fun _ => within_getState.bind fun _ => .ite ?_ (.ite (.pure _)
      (.ite ?_ (.ite ?_ ?_)))
    · refine Within.bind ?_ fun _ =>
        (within_coldBootToBootloader fsm).demote unpublished_of_booting
      exact (within_changeStraps fsm _).mono ordinary.unpublished fun _ _ h => h
    · refine Within.bind ?_ fun _ =>
        (within_eventWaitForBootloader fsm _).demote unpublished_of_made
      exact (within_rebootFromOs fsm).boots.demote unpublished_of_booting
    · exact (within_rebootEnergized fsm).demote fun _ h => h
    · exact (within_coldBootToBootloader fsm).demote unpublished_of_booting

/-- No route moves the state on its own, except down to `ENERGIZED` or `DIRTY`. -/
theorem within_route (t : Trigger) :
    Within (demoteFrame fun _ => True) (t.route fsm : Fsm d Unit) :=
  (within_route_unpublished fsm t).mono (fun _ _ => trivial) fun _ _ h => h

end MesCore
