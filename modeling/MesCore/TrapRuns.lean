import MesCore.Trap
import MesCore.TrapRecovery

namespace MesCore
set_option autoImplicit true

/-- What a state of the machine says about the board and the port. `OS_USERLAND` may be wrong:
after a reboot into the trap that a closed port did not show. `POWER_OFF` may be wrong: after a
cold boot that ran into the trap. -/
def Settled : DutState → Place → Bool → Prop
  | .dirty, _, _ => True
  | .powerOff, pl, _ => pl ≠ .linux
  | .energized, pl, _ | .osUserland, pl, _ => pl.isOn = true
  | .bootloader, pl, o => pl = .uboot ∧ o = true
  | .recovery, _, _ | .custom _, _, _ => False

def alignedState (fsm : Station) (st : DutState) (pl : Place) : DutState :=
  if trustsState fsm st then st else pl.seen

/-- What is known once the state is aligned. -/
structure Aligned (fsm : Station) (st : DutState) (pl : Place) (o : Bool) : Prop where
  settled : Settled st pl o
  notDirty : st ≠ .dirty
  supplied : st = .energized → fsm.psu.isSome = true

namespace IdealBoard
variable {fsm : Station} {B : IdealBoard fsm} {st : DutState} {pl : Place} {o : Bool}
  {w : World B.hardware}

variable (B) in
/-- The machine and the board agree. -/
def Good (w : World B.hardware) : Prop := ∃ st pl o, Settled st pl o ∧ B.At st pl o w

theorem At.good (h : B.At st pl o w) (hs : Settled st pl o) : B.Good w := ⟨st, pl, o, hs, h⟩

theorem settled_seen (pl : Place) (o : Bool) : Settled pl.seen pl (o || pl = .uboot) := by
  cases pl with
  | off trapped => exact Place.noConfusion
  | linux => rfl
  | uboot => exact ⟨rfl, by simp⟩

theorem At.aligned (h : B.At st pl o w) (hs : Settled st pl o) :
    wp (MesCore.alignToPhysicalState fsm false) (fun _ w' => ∃ o',
      Aligned fsm (alignedState fsm st pl) pl o' ∧
        B.At (alignedState fsm st pl) pl o' w') never w := by
  refine h.alignToPhysicalState.mono (fun _ w₁ h₁ => ?_) fun _ _ he => he
  rw [alignedState]
  rcases h₁ with ⟨htrust, h₁⟩ | ⟨htrust, h₁⟩
  · rw [htrust, if_pos rfl]
    refine ⟨o, ⟨hs, ?_, ?_⟩, h₁⟩
    · rintro rfl
      simp [trustsState] at htrust
    · rintro rfl
      simpa [trustsState] using htrust
  · rw [htrust, if_neg Bool.false_ne_true]
    refine ⟨_, ⟨settled_seen pl o, ?_, ?_⟩, h₁⟩
    · cases pl <;> (intro h; cases h)
    · cases pl <;> (intro h; cases h)

theorem At.routePowerOff (h : B.At st pl o w) (ha : Aligned fsm st pl o) : wp (routePowerOff fsm)
    (fun _ w' => ∃ st' pl', Settled .powerOff pl' o ∧ B.At st' pl' o w') never w := by
  rw [MesCore.routePowerOff, wp_bind, wp_getState, h.state]
  split
  · rename_i hoff
    rw [hoff] at ha h
    exact ⟨_, pl, ha.settled, h⟩
  · refine h.doPowerOff.mono (fun _ w₁ h₁ => ⟨st, pl.cut, ?_, h₁⟩) fun _ _ he => he
    rcases pl with (_ | _) | _ | _ <;> (intro h; cases h)

theorem At.changeStraps (h : B.At st pl o w) (target : String) :
    wp (changeStraps fsm target) (fun _ w' => B.At st pl.cut o w') never w := by
  apply h.doPowerOff.bind
  intro _ w₁ h₁
  apply ((keeps_doApplyBootstrap _).keep h₁).bind
  exact fun _ w₂ h₂ => (Keeps.modifyContext _).keep h₂

theorem At.routeEnergize (h : B.At st pl o w) (ha : Aligned fsm st pl o) (medium : Option String) :
    wp (routeEnergize fsm medium)
      (fun _ w' => ∃ pl' o', Settled .energized pl' o' ∧ B.At st pl' o' w') never w := by
  rw [MesCore.routeEnergize, wp_bind, wp_getContext, wp_bind, wp_getState, h.state]
  dsimp only
  split
  · apply (h.changeStraps _).bind
    intro _ w₁ h₁
    exact h₁.doEnergize.mono (fun _ _ h₂ => ⟨_, _, Place.powered_isOn _, h₂⟩) fun _ _ he => he
  · split
    · rename_i hon
      refine ⟨pl, o, ?_, h⟩
      have hs := ha.settled
      simp only [List.mem_cons, List.not_mem_nil, or_false] at hon
      rcases hon with rfl | rfl | rfl
      · exact hs
      · exact hs.1 ▸ rfl
      · exact hs
    · apply ((keeps_doApplyBootstrap _).keep h).bind
      intro _ w₁ h₁
      apply ((Keeps.modifyContext _).keep h₁).bind
      intro _ w₂ h₂
      exact h₂.doEnergize.mono (fun _ _ h₃ => ⟨_, _, Place.powered_isOn _, h₃⟩) fun _ _ he => he

theorem settled_uboot {st : DutState} (hs : Settled st pl o) : Settled st .uboot true := by
  cases st with
  | dirty => trivial
  | powerOff =>
    intro h
    cases h
  | energized => rfl
  | osUserland => rfl
  | bootloader => exact ⟨rfl, rfl⟩
  | recovery => exact hs
  | custom name => exact hs

theorem At.routeBootToBootloader (h : B.At st pl o w) (ha : Aligned fsm st pl o)
    (medium : Option String) : wp (routeBootToBootloader fsm medium)
      (fun _ w' => B.At st .uboot true w') (fun _ => B.Good) w := by
  have hcold {pl' : Place} {o' : Bool} {w : World B.hardware} (h : B.At st pl' o' w) :
      wp (MesCore.coldBootToBootloader fsm) (fun _ w' => B.At st .uboot true w')
        (fun _ => B.Good) w :=
    h.coldBootToBootloader.mono (fun _ _ h' => h') fun _ _ h' => h'.good (settled_uboot ha.settled)
  rw [MesCore.routeBootToBootloader, wp_bind, wp_getContext, wp_bind, wp_getState, h.state]
  dsimp only
  split
  · apply (h.changeStraps _).succeeds.bind
    exact fun _ w₁ h₁ => hcold h₁
  · split
    · rename_i hboot
      rw [hboot] at h ha ⊢
      obtain ⟨hpl, ho⟩ := ha.settled
      rwa [hpl, ho] at h
    · split
      · rename_i hos
        rw [hos] at h ha ⊢
        rw [rebootFromOs, B.autobootDisabled, if_neg Bool.false_ne_true]
        cases pl with
        | off trapped => cases ha.settled
        | linux =>
          apply wp.bind (h.setTrap.mono (fun _ _ h₁ => h₁) fun _ _ he => he.2.good rfl)
          rintro _ w₁ ⟨h₁, hboot⟩
          exact (h₁.eventWaitForBootloader hboot).mono (fun _ _ h₂ => h₂)
            fun _ _ he => he.2.good rfl
        | uboot =>
          apply wp.bind (h.setTrap_trapped.mono (fun _ _ hf => hf) fun _ _ he => he.good rfl)
          exact fun _ _ hf => hf.elim
      · split
        · rename_i henergized
          obtain ⟨psu, hpsu⟩ := Option.isSome_iff_exists.1 (ha.supplied henergized)
          rw [rebootEnergized, hpsu]
          apply h.doPowerOff.succeeds.bind
          exact fun _ w₁ h₁ => hcold h₁
        · exact hcold h

theorem At.setState (h : B.At st pl o w) (st' : DutState) :
    wp (setState st') (fun _ w' => B.At st' pl o w') never w := ⟨rfl, h.stands, h.port⟩

theorem At.strapAndBootOs (h : B.At st (.off false) o w) (target : String) :
    wp (strapAndBootOs fsm target) (fun _ w' => B.At st .linux true w') never w := by
  apply ((keeps_doApplyBootstrap _).keep h).bind
  intro _ w₁ h₁
  apply ((Keeps.modifyContext _).keep h₁).bind
  intro _ w₂ h₂
  apply (h₂.coldBootToOs rfl).bind
  exact fun _ w₃ h₃ => h₃.finalizeOsBoot

theorem At.routeBootToOs_cold {Q : Unit → World B.hardware → Prop}
    {E : Err → World B.hardware → Prop} (h : B.At st pl o w) (hos : st ≠ .osUserland)
    (hon : st ≠ .energized) (medium : Option String)
    (hcold : ∀ {w} target, B.At st pl o w → wp (coldBootOrResume fsm target) Q E w) :
    wp (routeBootToOs fsm medium) Q E w := by
  rw [MesCore.routeBootToOs, wp_bind, wp_getContext]
  apply wp.bind (R := fun resumed w' => resumed = false ∧ B.At st pl o w')
  · rw [resumeOrReset, wp_bind, wp_getState, h.state, if_neg hos]
    exact ⟨rfl, h⟩
  · rintro resumed w₁ ⟨rfl, h₁⟩
    apply wp.bind (R := fun loggedIn w' => loggedIn = false ∧ B.At st pl o w')
    · rw [hotLoginOrReset, wp_bind, wp_getState, h₁.state, if_neg hon]
      exact ⟨rfl, h₁⟩
    · rintro loggedIn w₂ ⟨rfl, h₂⟩
      exact hcold _ h₂

/-- A boot to the OS gets there, unless it starts with the trap in flash and not at the prompt
of U-Boot. -/
theorem At.routeBootToOs (h : B.At st pl o w) (ha : Aligned fsm st pl o)
    (htrap : pl.isTrapped = true → st = .bootloader) (medium : Option String) :
    wp (routeBootToOs fsm medium)
      (fun _ w' => ∃ st' o', B.At st' .linux o' w') never w := by
  have hs := ha.settled
  have hdone {st : DutState} {o : Bool} {w : World B.hardware} {p : Fsm B.hardware Unit}
      (hp : wp p (fun _ w' => B.At st .linux o w') never w) :
      wp p (fun _ w' => ∃ st' o', B.At st' .linux o' w') never w :=
    hp.mono (fun _ _ h' => ⟨_, _, h'⟩) fun _ _ he => he
  cases st with
  | osUserland =>
    cases pl with
    | off trapped => cases hs
    | uboot => cases htrap rfl
    | linux =>
      rw [MesCore.routeBootToOs, wp_bind, wp_getContext]
      apply wp.bind (R := fun resumed w' => resumed = true ∧ B.At .osUserland .linux o w')
      · rw [resumeOrReset, wp_bind, wp_getState, h.state, if_pos rfl]
        apply h.tryResumeExistingOs.bind
        rintro alive w₁ ⟨rfl, h₁⟩
        apply h₁.finalizeOsBoot.bind
        exact fun _ w₂ h₂ => ⟨rfl, h₂⟩
      · rintro resumed w₁ ⟨rfl, h₁⟩
        exact ⟨_, _, h₁⟩
  | energized =>
    cases pl with
    | off trapped => cases hs
    | uboot => cases htrap rfl
    | linux =>
      rw [MesCore.routeBootToOs, wp_bind, wp_getContext]
      apply wp.bind (R := fun resumed w' => resumed = false ∧ B.At .energized .linux o w')
      · rw [resumeOrReset, wp_bind, wp_getState, h.state, if_neg (by decide)]
        exact ⟨rfl, h⟩
      · rintro resumed w₁ ⟨rfl, h₁⟩
        apply wp.bind (R := fun (loggedIn : Bool) w' =>
          B.At (if loggedIn then .energized else .dirty) .linux o w')
        · rw [hotLoginOrReset, wp_bind, wp_getState, h₁.state, if_pos rfl]
          apply h₁.tryHotLogin.bind
          intro reached w₂ h₂
          cases reached with
          | true => exact h₂
          | false =>
            apply (h₂.doHardwareReset rfl).bind
            intro _ w₃ h₃
            exact h₃.setState .dirty
        · intro loggedIn w₂ h₂
          cases loggedIn with
          | true => exact ⟨_, _, h₂⟩
          | false =>
            change B.At .dirty .linux o w₂ at h₂
            change wp (coldBootOrResume fsm _) _ _ _
            rw [coldBootOrResume, wp_bind, wp_getState, h₂.state, if_pos (by decide)]
            apply h₂.doPowerOff.bind
            exact fun _ w₃ h₃ => hdone (h₃.strapAndBootOs _)
  | bootloader =>
    obtain ⟨rfl, rfl⟩ := hs
    apply h.routeBootToOs_cold (by decide) (by decide)
    intro w₁ target h₁
    rw [coldBootOrResume, wp_bind, wp_getState, h₁.state, if_neg (by decide), if_pos rfl]
    apply h₁.resumeBootloaderToOs.bind
    exact fun _ w₂ h₂ => hdone h₂.finalizeOsBoot
  | powerOff =>
    have hpl : pl = .off false := by
      rcases pl with (_ | _) | _ | _
      · rfl
      · cases htrap rfl
      · exact (hs rfl).elim
      · cases htrap rfl
    subst hpl
    apply h.routeBootToOs_cold (by decide) (by decide)
    intro w₁ target h₁
    rw [coldBootOrResume, wp_bind, wp_getState, h₁.state, if_pos (by decide)]
    exact hdone (h₁.strapAndBootOs _)
  | dirty => exact (ha.notDirty rfl).elim
  | recovery => exact hs.elim
  | custom name => exact hs.elim

section
variable {E : Err → World B.hardware → Prop}

theorem At.strapAndBootOs_trapped (h : B.At st pl o w) (hpl : pl.powered = .uboot)
    (target : String) :
    wp (MesCore.strapAndBootOs fsm target) (fun _ _ => False) (fun _ _ => True) w := by
  apply ((keeps_doApplyBootstrap _).keep h).succeeds.bind
  intro _ w₁ h₁
  apply ((Keeps.modifyContext _).keep h₁).succeeds.bind
  intro _ w₂ h₂
  rw [wp_bind, MesCore.coldBootToOs, B.autobootDisabled, if_neg Bool.false_ne_true]
  apply h₂.doEnergize.succeeds.bind
  intro _ w₃ h₃
  rw [hpl] at h₃
  exact (h₃.eventWaitForOsShell_trapped true).mono (fun _ _ hf => hf.elim) fun _ _ _ => trivial

theorem At.tryHotLogin_trapped (h : B.At st .uboot o w) : wp (MesCore.tryHotLogin fsm)
    (fun reached w' => reached = false ∧ B.At st .uboot o w') never w := by
  rw [MesCore.tryHotLogin, wp_attempt, wp_bind]
  refine (h.eventWaitForOsShell_trapped false).mono (fun _ _ hf => hf.elim) fun e w₁ h₁ => ?_
  rw [if_pos h₁.1]
  exact ⟨rfl, h₁.2⟩

theorem At.tryResumeExistingOs_trapped (h : B.At st .uboot o w) : wp MesCore.tryResumeExistingOs
    (fun alive w' => alive = false ∧ B.At st .uboot o w') (fun _ _ => True) w := by
  have hconnect {w : World B.hardware} (h : B.At st .uboot o w) : wp (MesCore.ask .sshConnect)
      (fun _ _ => False) (fun e w' => e.isException = true ∧ B.At st .uboot o w') w := by
    have hm : w.dev.board.mode ≠ .linux := by
      intro hm
      cases h.stands.linux_iff.1 hm
    have hr : B.respond .sshConnect w.dev =
        (.error (.transportConnectionError "SSH is down."), w.dev) := if_neg hm
    exact wp_ask_error hr ⟨rfl, h.state, h.stands, h.port⟩
  have hretry : wp connectSshWithRetry (fun _ _ => False)
      (fun e w' => e.isException = true ∧ B.At st .uboot o w') w :=
    wp.retry (fun _ => hconnect) (fun _ h' => h'.aside rfl) 9 h
  rw [MesCore.tryResumeExistingOs]
  apply wp.bind (R := fun alive w' => alive = false ∧ B.At st .uboot o w')
  · rw [sshHeartbeat, wp_attempt, wp_bind]
    refine hretry.mono (fun _ _ hf => hf.elim) fun e w₁ h₁ => ?_
    rw [if_pos h₁.1]
    exact ⟨rfl, h₁.2⟩
  · rintro alive w₁ ⟨rfl, h₁⟩
    apply h₁.serialIsConnected.bind
    rintro connected w₂ ⟨h₂, hc, hd₂⟩
    cases connected with
    | false => exact ⟨rfl, h₂⟩
    | true =>
      have hp₂ : w₂.dev.port = true := by
        rw [hd₂, ← hc]
      have hr : B.respond (.serialSafeRun heartbeatCmd none 2000 false) w₂.dev =
          (.error (.transportTimeoutError heartbeatCmd), w₂.dev) :=
        serialRun_lost (congrArg Board.mode h₂.stands.1) hp₂ heartbeatCmd
      rw [if_pos rfl, wp_bind, wp_attempt, wp_bind]
      exact wp_ask_error hr trivial

/-- With the trap in flash a boot to the OS fails, unless it starts at the prompt of U-Boot. -/
theorem At.routeBootToOs_trapped (h : B.At st pl o w) (ha : Aligned fsm st pl o)
    (htrap : pl.isTrapped = true) (hst : st ≠ .bootloader) (medium : Option String) :
    wp (MesCore.routeBootToOs fsm medium) (fun _ _ => False) (fun _ _ => True) w := by
  have hs := ha.settled
  have hpl : pl.powered = .uboot := by
    rcases pl with (_ | _) | _ | _
    · cases htrap
    · rfl
    · cases htrap
    · rfl
  have hdirty {o : Bool} {w : World B.hardware} (h : B.At .dirty .uboot o w) (target : String) :
      wp (coldBootOrResume fsm target) (fun _ _ => False) (fun _ _ => True) w := by
    rw [coldBootOrResume, wp_bind, wp_getState, h.state, if_pos (by decide)]
    apply h.doPowerOff.succeeds.bind
    exact fun _ w₁ h₁ => h₁.strapAndBootOs_trapped rfl target
  have hlogin {o : Bool} {w : World B.hardware} (h : B.At .energized .uboot o w) :
      wp (hotLoginOrReset fsm) (fun loggedIn w' => loggedIn = false ∧ B.At .dirty .uboot o w')
        never w := by
    rw [hotLoginOrReset, wp_bind, wp_getState, h.state, if_pos rfl]
    apply h.tryHotLogin_trapped.bind
    rintro reached w₁ ⟨rfl, h₁⟩
    apply (h₁.doHardwareReset rfl).bind
    intro _ w₂ h₂
    exact ⟨rfl, h₂.setState .dirty⟩
  have hrest {o : Bool} {w : World B.hardware} (h : B.At .energized .uboot o w) (target : String) :
      wp (do
        let loggedIn ← hotLoginOrReset fsm
        if loggedIn then pure () else coldBootOrResume fsm target)
        (fun _ _ => False) (fun _ _ => True) w := by
    apply (hlogin h).succeeds.bind
    rintro loggedIn w₁ ⟨rfl, h₁⟩
    exact hdirty h₁ target
  cases st with
  | osUserland =>
    cases pl with
    | off trapped => cases hs
    | linux => cases htrap
    | uboot =>
      rw [MesCore.routeBootToOs, wp_bind, wp_getContext]
      apply wp.bind (R := fun resumed w' => resumed = false ∧ B.At .energized .uboot o w')
      · rw [resumeOrReset, wp_bind, wp_getState, h.state, if_pos rfl]
        apply h.tryResumeExistingOs_trapped.bind
        rintro alive w₁ ⟨rfl, h₁⟩
        apply (h₁.doHardwareReset rfl).succeeds.bind
        intro _ w₂ h₂
        exact ⟨rfl, h₂.setState .energized⟩
      · rintro resumed w₁ ⟨rfl, h₁⟩
        exact hrest h₁ _
  | energized =>
    cases pl with
    | off trapped => cases hs
    | linux => cases htrap
    | uboot =>
      rw [MesCore.routeBootToOs, wp_bind, wp_getContext]
      apply wp.bind (R := fun resumed w' => resumed = false ∧ B.At .energized .uboot o w')
      · rw [resumeOrReset, wp_bind, wp_getState, h.state, if_neg (by decide)]
        exact ⟨rfl, h⟩
      · rintro resumed w₁ ⟨rfl, h₁⟩
        exact hrest h₁ _
  | bootloader => exact (hst rfl).elim
  | powerOff =>
    apply h.routeBootToOs_cold (by decide) (by decide)
    intro w₁ target h₁
    rw [coldBootOrResume, wp_bind, wp_getState, h₁.state, if_pos (by decide)]
    exact h₁.strapAndBootOs_trapped hpl target
  | dirty => exact (ha.notDirty rfl).elim
  | recovery => exact hs.elim
  | custom name => exact hs.elim

end

variable (B) in
/-- Where a boot to the OS gets rid of the trap: it is not in flash, or the machine knows that the
board waits at the prompt of U-Boot, or will find it there. -/
def Restorable (w : World B.hardware) : Prop :=
  w.dev.board.flash.bootcmd = some trapString → w.vars.state = .bootloader ∨
    (trustsState fsm w.vars.state = false ∧ w.dev.board.mode ≠ .off)

instance (w : World B.hardware) : Decidable (B.Restorable w) :=
  inferInstanceAs (Decidable (_ → _))

theorem At.restorable_iff (h : B.At st pl o w) :
    B.Restorable w ↔ (pl.isTrapped = true → alignedState fsm st pl = .bootloader) := by
  rw [Restorable, h.stands.trapped_iff, h.state, alignedState, ne_eq, h.stands.off_iff]
  apply imp_congr_right
  intro htrap
  constructor
  · rintro (rfl | ⟨htrust, hon⟩)
    · rw [if_pos (by simp [trustsState])]
    · rw [htrust, if_neg Bool.false_ne_true]
      cases pl with
      | off trapped => exact (hon rfl).elim
      | linux => cases htrap
      | uboot => rfl
  · intro hboot
    cases htrust : trustsState fsm st with
    | true =>
      rw [htrust, if_pos rfl] at hboot
      exact .inl hboot
    | false =>
      rw [htrust, if_neg Bool.false_ne_true] at hboot
      refine .inr ⟨rfl, fun hoff => ?_⟩
      cases pl with
      | off trapped => cases hboot
      | linux => cases htrap
      | uboot => cases hoff

section
variable {E : Err → World B.hardware → Prop} {t : Trigger}

theorem wp_fire {R : Place → Bool → Prop} (h : wp (t.hook fsm)
    (fun _ w' => ∃ st' pl' o', R pl' o' ∧ B.At st' pl' o' w') E w) :
    wp (fire fsm t) (fun _ w' => ∃ pl' o', R pl' o' ∧ B.At t.dest pl' o' w') E w := by
  rw [fire, wp_bind, wp_getState]
  apply h.bind
  rintro _ w₁ ⟨st', pl', o', hR, h₁⟩
  exact ⟨pl', o', hR, rfl, h₁.stands, h₁.port⟩

theorem At.fire_bootToOs (h : B.At st pl o w) (hs : Settled st pl o) (hr : B.Restorable w)
    (medium : Option String) : wp (fire fsm (.bootToOs medium))
      (fun _ w' => ∃ pl' o', pl' = .linux ∧ B.At .osUserland pl' o' w') never w := by
  apply wp_fire (t := .bootToOs medium)
  apply (h.aligned hs).bind
  rintro _ w₁ ⟨o₁, ha, h₁⟩
  exact (h₁.routeBootToOs ha (h.restorable_iff.1 hr) medium).mono
    (by rintro _ _ ⟨st', o', h'⟩; exact ⟨st', .linux, o', rfl, h'⟩) fun _ _ he => he

theorem At.fire_bootToOs_trapped (h : B.At st pl o w) (hs : Settled st pl o)
    (hr : ¬ B.Restorable w) (medium : Option String) :
    wp (fire fsm (.bootToOs medium)) (fun _ _ => False) (fun _ _ => True) w := by
  obtain ⟨htrap, hst⟩ := Classical.not_imp.1 (mt h.restorable_iff.2 hr)
  rw [fire, wp_bind, wp_getState]
  apply wp.bind (R := fun _ _ => False)
  · apply (h.aligned hs).succeeds.bind
    rintro _ w₁ ⟨o₁, ha, h₁⟩
    exact h₁.routeBootToOs_trapped ha htrap hst medium
  · exact fun _ _ hf => hf.elim

/-- The step: a trigger that raises leaves the machine and the board in agreement, too. -/
theorem Good.fire (hw : B.Good w) (ht : t ≠ .bootToRecovery)
    (hr : ∀ medium, t = .bootToOs medium → B.Restorable w) :
    B.Good (World.after (fire fsm t w)) := by
  obtain ⟨st, pl, o, hs, h⟩ := hw
  have hgood {w : World B.hardware} {st : DutState} :
      (∃ pl o, Settled st pl o ∧ B.At st pl o w) → B.Good w := by
    rintro ⟨pl, o, hs, h⟩
    exact ⟨st, pl, o, hs, h⟩
  apply wp.after
  cases t with
  | powerOff =>
    refine (wp_fire (R := Settled .powerOff) (E := fun _ => B.Good) ?_).mono
      (fun _ _ h' => hgood h') fun _ _ he => he
    apply (h.aligned hs).succeeds.bind
    rintro _ w₁ ⟨o₁, ha, h₁⟩
    exact (h₁.routePowerOff ha).succeeds.mono
      (by rintro _ _ ⟨st', pl', hs', h'⟩; exact ⟨st', pl', o₁, hs', h'⟩) fun _ _ he => he
  | energize medium =>
    refine (wp_fire (R := Settled .energized) (E := fun _ => B.Good) ?_).mono
      (fun _ _ h' => hgood h') fun _ _ he => he
    apply (h.aligned hs).succeeds.bind
    rintro _ w₁ ⟨o₁, ha, h₁⟩
    exact (h₁.routeEnergize ha medium).succeeds.mono
      (by rintro _ _ ⟨pl', o', hs', h'⟩; exact ⟨_, pl', o', hs', h'⟩) fun _ _ he => he
  | bootToBootloader medium =>
    refine (wp_fire (R := Settled .bootloader) (E := fun _ => B.Good) ?_).mono
      (fun _ _ h' => hgood h') fun _ _ he => he
    apply (h.aligned hs).succeeds.bind
    rintro _ w₁ ⟨o₁, ha, h₁⟩
    exact (h₁.routeBootToBootloader ha medium).mono
      (fun _ _ h' => ⟨_, .uboot, true, ⟨rfl, rfl⟩, h'⟩) fun _ _ he => he
  | bootToOs medium =>
    refine (h.fire_bootToOs hs (hr medium rfl) medium).succeeds.mono (fun _ w₁ h₁ => ?_)
      fun _ _ he => he
    obtain ⟨pl', o', rfl, h₁⟩ := h₁
    exact h₁.good rfl
  | bootToRecovery => exact (ht rfl).elim
  | markDirty =>
    refine (wp_fire (R := Settled .dirty) (E := fun _ => B.Good) ?_).mono
      (fun _ _ h' => hgood h') fun _ _ he => he
    exact ⟨st, pl, o, trivial, h⟩

end

variable (B) in
/-- Runs of the machine on a board that starts without the trap, without power or on Linux, in
which every boot to the OS can get rid of the trap. -/
inductive TrapRun : World B.hardware → Prop
  | start (s : BoardState) : s.board.flash.bootcmd = some B.orig →
      s.board.mode = .off ∨ s.board.mode = .linux → s.ssh = false → TrapRun ⟨{}, s, []⟩
  | step {w : World B.hardware} (t : Trigger) : TrapRun w → t ≠ .bootToRecovery →
      (∀ medium, t = .bootToOs medium → B.Restorable w) → TrapRun (World.after (fire fsm t w))

theorem TrapRun.good (h : B.TrapRun w) : B.Good w := by
  induction h with
  | start s hflash hmode hssh =>
    rcases hmode with hoff | hlinux
    · exact ⟨.dirty, .off false, false, trivial, rfl, ⟨hoff, hssh, hflash⟩, by intro h; cases h⟩
    · exact ⟨.dirty, .linux, false, trivial, rfl, ⟨hlinux, hflash⟩, by intro h; cases h⟩
  | step t hw ht hr ih => exact ih.fire ht hr

/-- In these runs a boot to the OS returns, with the board on Linux and its own boot command in
flash, exactly where the trap can be got rid of. -/
theorem bootToOs_restores_iff (h : B.TrapRun w) (medium : Option String) :
    (∃ w', fire fsm (.bootToOs medium) w = .ok () w' ∧ w'.dev.board.mode = .linux ∧
      w'.dev.board.flash.bootcmd = some B.orig) ↔ B.Restorable w := by
  obtain ⟨st, pl, o, hs, hat⟩ := h.good
  constructor
  · rintro ⟨w', hok, _⟩
    by_contra hr
    exact (hat.fire_bootToOs_trapped hs hr medium).ok hok
  · intro hr
    obtain ⟨_, w', hok, _, _, rfl, h'⟩ := (hat.fire_bootToOs hs hr medium).returns
    exact ⟨w', hok, h'.stands.1, h'.stands.2⟩

end IdealBoard

def sampleTexts : List Bytes := [ascii "MES Framework Trap\r\n=> ", ascii "\r\n=> "]

theorem sampleTexts_line {c : Bytes} (hc : c ∈ sampleTexts) {buf : List Char}
    (hbuf : buf ∈ ["".toList, "=> ".toList]) :
    lineBuffer buf [c] ∈ ["".toList, "=> ".toList] ∧
      panicSearch (encodeUtf8 (buf ++ sanitise c)) = false ∧
      ¬ ascii "root@" <:+: encodeUtf8 (buf ++ sanitise c) := by
  have hall : ∀ c ∈ sampleTexts, ∀ buf ∈ ["".toList, "=> ".toList],
      lineBuffer buf [c] ∈ ["".toList, "=> ".toList] ∧
        panicSearch (encodeUtf8 (buf ++ sanitise c)) = false ∧
        ¬ ascii "root@" <:+: encodeUtf8 (buf ++ sanitise c) := by
    decide +kernel
  exact hall c hc buf hbuf

theorem sampleTexts_lines {cs : List Bytes} (hcs : ∀ c ∈ cs, c ∈ sampleTexts) {buf : List Char}
    (hbuf : buf ∈ ["".toList, "=> ".toList]) : lineBuffer buf cs ∈ ["".toList, "=> ".toList] := by
  induction cs generalizing buf with
  | nil => exact hbuf
  | cons c cs ih =>
    have hline := (sampleTexts_line (hcs c (List.mem_cons_self ..)) hbuf).1
    exact ih (fun b hb => hcs b (List.mem_cons_of_mem _ hb)) hline

def sampleBoard : IdealBoard trapBench where
  orig := "run distro_bootcmd"
  linuxBoot := ascii "Starting kernel ...\r\nroot@board:~# "
  shell := ascii "\r\nroot@board:~# "
  trapBoot := ascii "MES Framework Trap\r\n=> "
  uboot := ascii "\r\n=> "
  draw := 1
  turns := 3
  samples := 0
  autobootDisabled := rfl
  powered := .inl rfl
  strapped := .inr rfl
  bootCmd_oneLine := by decide
  orig_ne_trap := by decide
  draws := by decide +kernel
  time := by decide
  printed := by decide +kernel
  shell_shown := by decide +kernel
  uboot_prompt := by decide +kernel
  uboot_shown := by decide +kernel
  uboot_quiet cs c h := by
    have hbuf := sampleTexts_lines (fun b hb => h b (List.mem_append_left _ hb))
      (List.mem_cons_self ..)
    exact (sampleTexts_line (h c (List.mem_append_right _ (List.mem_singleton_self _))) hbuf).2

def sampleStart : World sampleBoard.hardware := ⟨{}, { board := offBoard }, []⟩

def sampleTrapped : World sampleBoard.hardware :=
  World.after (fire trapBench (.bootToBootloader none) sampleStart)

def samplePowerLost : World sampleBoard.hardware :=
  World.after (fire trapBench .powerOff sampleTrapped)

theorem sampleStart_run : sampleBoard.TrapRun sampleStart := .start _ rfl (.inl rfl) rfl

theorem sampleTrapped_run : sampleBoard.TrapRun sampleTrapped :=
  sampleStart_run.step _ (by decide) (by intro _ h; cases h)

theorem sampleTrapped_restored : ∃ w', fire trapBench (.bootToOs none) sampleTrapped = .ok () w' ∧
    w'.dev.board.mode = .linux ∧ w'.dev.board.flash.bootcmd = some "run distro_bootcmd" :=
  (IdealBoard.bootToOs_restores_iff sampleTrapped_run none).2 (by decide +kernel)

/-- The power goes while the trap is in flash, and the board does not come back. -/
theorem powerOff_strands : sampleBoard.TrapRun samplePowerLost ∧
    ∀ w', fire trapBench (.bootToOs none) samplePowerLost ≠ .ok () w' := by
  refine ⟨sampleTrapped_run.step .powerOff (by decide) (by intro _ h; cases h), fun w' h => ?_⟩
  have hfails : returned (fire trapBench (.bootToOs none) samplePowerLost) = false := by
    decide +kernel
  rw [h] at hfails
  cases hfails

end MesCore
