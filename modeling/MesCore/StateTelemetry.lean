import MesCore.BootRoutes
import MesCore.Orchestrator
import MesCore.TeziProvision

namespace MesCore
set_option autoImplicit true

namespace StateTelemetry

def published (trace : List (Entry fsmInterface)) : List (String × String) :=
  trace.filterMap fun
    | .note (.stateChanged oldState newState _) => some (oldState, newState)
    | _ => none

/-- The events lead from one state to the other, each on from where the one before it led. -/
def Linked (start : String) : List (String × String) → String → Prop
  | [], current => start = current
  | (oldState, newState) :: events, current => start = oldState ∧ Linked newState events current

variable {d : Hardware} (fsm : Station)

/-- The published events tell how the machine got from its initial state to its current one. -/
def Told (w : World d) : Prop := Linked "DIRTY" (published w.trace) w.vars.state.name

/-- What happens to the machine: a trigger, whoever issues it, the heartbeat that the orchestrator
asks for, and the success that the TEZI provisioner reports. -/
inductive Act
  | trigger (t : Trigger)
  | heartbeat
  | reportFlashSuccess

def Act.run : Act → World d → World d
  | .trigger t, w => World.after (fire fsm t w)
  | .heartbeat, w => World.after (verifyHeartbeat w)
  | .reportFlashSuccess, w => w.withState .energized

def runActs (w : World d) (acts : List Act) : World d := acts.foldl (fun w a => a.run fsm w) w

/-- A trigger that raises has been routed from the state it found, and no reply has moved the
machine since; a flash succeeds in `ENERGIZED` only. -/
def Act.Steady (w : World d) : Act → Prop
  | .trigger t => ∀ e w', fire fsm t w = .error e w' →
      (stateLeft fsm t (routingState fsm w) (w.since w')).name = w.vars.state.name
  | .heartbeat => True
  | .reportFlashSuccess => w.vars.state.name = "ENERGIZED"

section
variable {fsm} {w w' : World d} {start current oldState newState : String}
  {events : List (String × String)}

theorem linked_snoc : Linked start (events ++ [(oldState, newState)]) current ↔
    Linked start events oldState ∧ newState = current := by
  induction events generalizing start with
  | nil => exact Iff.rfl
  | cons e events ih =>
    obtain ⟨o, n⟩ := e
    rw [List.cons_append, Linked, Linked, ih, and_assoc]

theorem Linked.unique {current' : String} (h : Linked start events current)
    (h' : Linked start events current') : current = current' := by
  induction events generalizing start with
  | nil => exact h.symm.trans h'
  | cons e events ih => exact ih h.2 h'.2

theorem published_append (s t : List (Entry fsmInterface)) :
    published (s ++ t) = published s ++ published t := List.filterMap_append

theorem published_none {s : List (Entry fsmInterface)} (h : ∀ e ∈ s, unpublished e) :
    published s = [] := by
  rw [published, List.filterMap_eq_nil_iff]
  intro e he
  cases e with
  | call c r => rfl
  | note n => cases n with
    | stateChanged oldState newState t => exact (h _ he).elim
    | bootstrapApplied medium => rfl
    | bootCommanded => rfl

theorem published_frame {F : Frame fsmInterface} (h : Frame.Rel F w w')
    (hF : ∀ e, F.entry e → unpublished e) : published w'.trace = published w.trace := by
  obtain ⟨⟨seg, hseg, hentries⟩, -⟩ := h
  rw [hseg, published_append, published_none fun e he => hF e (hentries e he), List.append_nil]

theorem align_published (fsm : Station) (w : World d) :
    published (aligned fsm w).trace = published w.trace := by
  obtain ⟨s, hs⟩ := align_observes fsm w
  have hp := published_frame hs unpublished_of_made
  rwa [World.withState_trace] at hp

theorem hook_published (fsm : Station) (t : Trigger) (w : World d) :
    published (World.after (t.hook fsm w)).trace = published w.trace := by
  by_cases ht : t = .markDirty
  · subst ht
    rfl
  · have halign := align_published fsm w
    cases h : t.hook fsm w with
    | ok a w' =>
      obtain ⟨w₁, -, hw, hroute⟩ := hook_ok fsm ht h
      rw [hw] at halign
      exact (published_frame ((within_route_unpublished fsm t).ok hroute) fun _ h => h).trans halign
    | error e w' =>
      obtain ⟨-, hw⟩ | ⟨w₁, -, hw, hroute⟩ := hook_error fsm ht h
      · rwa [hw] at halign
      · rw [hw] at halign
        exact (published_frame ((within_route_unpublished fsm t).error hroute)
          fun _ h => h).trans halign

/-- A trigger that returns publishes the way from where it started to where it leads. -/
theorem trigger_ok {t : Trigger} {w₁ : World d} (h : t.hook fsm w = .ok () w₁) :
    published (Act.run fsm (.trigger t) w).trace =
        published w.trace ++ [(w.vars.state.name, t.dest.name)] ∧
      (Act.run fsm (.trigger t) w).vars.state.name = t.dest.name := by
  have hhook := hook_published fsm t w
  rw [h, World.after_ok] at hhook
  have hrun : Act.run fsm (.trigger t) w = World.after (fire fsm t w) := rfl
  rw [hrun, fire_of_hook_ok fsm h, World.after_ok]
  refine ⟨?_, rfl⟩
  rw [published_append, hhook]
  rfl

theorem trigger_error {t : Trigger} {w₁ : World d} {e : Err} (h : t.hook fsm w = .error e w₁) :
    Act.run fsm (.trigger t) w = w₁ ∧ published w₁.trace = published w.trace := by
  have hhook := hook_published fsm t w
  rw [h, World.after_error] at hhook
  have hrun : Act.run fsm (.trigger t) w = World.after (fire fsm t w) := rfl
  rw [hrun, fire_of_hook_error fsm h, World.after_error]
  exact ⟨rfl, hhook⟩

theorem Told.congr (h : Told w) (hp : published w'.trace = published w.trace) :
    Told w' ↔ w'.vars.state.name = w.vars.state.name := by
  rw [Told, hp]
  constructor
  · exact fun h' => h'.unique h
  · intro hs
    rw [hs]
    exact h

/-- From a state that is told, a step is told exactly if it is a steady one. -/
theorem told_step (fsm : Station) (h : Told w) (a : Act) : Told (a.run fsm w) ↔ a.Steady fsm w := by
  cases a with
  | trigger t =>
    cases hhook : t.hook fsm w with
    | ok u w₁ =>
      obtain ⟨hp, hs⟩ := trigger_ok hhook
      refine iff_of_true ?_ ?_
      · rw [Told, hp, hs, linked_snoc]
        exact ⟨h, rfl⟩
      · intro e w' hraised
        rw [fire_error fsm hraised] at hhook
        cases hhook
    | error e w₁ =>
      obtain ⟨hrun, hp⟩ := trigger_error hhook
      have hfire := fire_of_hook_error fsm hhook
      rw [hrun, h.congr hp, ← fire_left fsm hfire]
      constructor
      · intro hs e' w' hraised
        rw [hfire] at hraised
        cases hraised
        exact hs
      · exact fun hs => hs e w₁ hfire
  | heartbeat =>
    have hframe : Frame.Rel observeFrame w (Act.run fsm .heartbeat w) := within_verifyHeartbeat w
    rw [h.congr (published_frame hframe unpublished_of_made), hframe.2.1]
    exact ⟨fun _ => trivial, fun _ => rfl⟩
  | reportFlashSuccess =>
    have hp : published (Act.run fsm .reportFlashSuccess w).trace = published w.trace := rfl
    rw [h.congr hp]
    exact ⟨Eq.symm, Eq.symm⟩

theorem runActs_append (w : World d) (pre post : List Act) :
    runActs fsm w (pre ++ post) = runActs fsm (runActs fsm w pre) post :=
  List.foldl_append

theorem told_initial {s : d.State} : Told (⟨{}, s, []⟩ : World d) := rfl

/-- Every state on the way of a run from a told state is told exactly if every step is steady. -/
theorem told_run (h : Told w) (acts : List Act) :
    (∀ pre post, acts = pre ++ post → Told (runActs fsm w pre)) ↔
      ∀ pre a post, acts = pre ++ a :: post → a.Steady fsm (runActs fsm w pre) := by
  induction acts generalizing w with
  | nil =>
    constructor
    · intro _ pre a post hacts
      exact (List.append_ne_nil_of_right_ne_nil pre (List.cons_ne_nil a post) hacts.symm).elim
    · intro _ pre post hacts
      rw [(List.append_eq_nil_iff.mp hacts.symm).1]
      exact h
  | cons a acts ih =>
    have hstep := told_step fsm h a
    constructor
    · intro htold pre b post hacts
      have ha : Told (a.run fsm w) := htold [a] acts rfl
      cases pre with
      | nil =>
        obtain ⟨rfl, -⟩ := List.cons.inj hacts
        exact hstep.mp ha
      | cons c pre =>
        obtain ⟨rfl, hrest⟩ := List.cons.inj hacts
        exact (ih ha).mp (fun p q hp => htold (a :: p) q (congrArg (a :: ·) hp)) pre b post hrest
    · intro hsteady pre post hacts
      cases pre with
      | nil => exact h
      | cons c pre =>
        obtain ⟨rfl, hrest⟩ := List.cons.inj hacts
        have ha : Told (a.run fsm w) := hstep.mpr (hsteady [] a acts rfl)
        exact (ih ha).mpr (fun p b q hp => hsteady (a :: p) b q (congrArg (a :: ·) hp)) pre post
          hrest

/-- The program comes to a sequence of acts. -/
def Issues (fsm : Station) (p : Fsm d α) : Prop :=
  ∀ w, ∃ acts, World.after (p w) = runActs fsm w acts

theorem Issues.pure (a : α) : Issues fsm (pure a : Fsm d α) := fun _ => ⟨[], rfl⟩

theorem Issues.bind {p : Fsm d α} {k : α → Fsm d β} (hp : Issues fsm p)
    (hk : ∀ a, Issues fsm (k a)) : Issues fsm (p >>= k) := by
  intro w
  obtain ⟨acts, hacts⟩ := hp w
  cases h : p w with
  | ok a w₁ =>
    obtain ⟨acts₁, hacts₁⟩ := hk a w₁
    rw [h, World.after_ok] at hacts
    refine ⟨acts ++ acts₁, ?_⟩
    rw [bind_of_ok h, hacts₁, runActs_append, hacts]
  | error e w₁ =>
    rw [h, World.after_error] at hacts
    refine ⟨acts, ?_⟩
    rw [bind_of_error h, World.after_error, hacts]

theorem Issues.ite {c : Prop} [Decidable c] {p q : Fsm d α} (hp : Issues fsm p)
    (hq : Issues fsm q) : Issues fsm (if c then p else q) := by
  split
  · exact hp
  · exact hq

theorem issues_fire (t : Trigger) :
    Issues fsm ((baseMachine fsm).fire t.name t.medium : Fsm d Unit) := by
  intro w
  by_cases haccepts : (baseMachine fsm : Machine d).Accepts t.name w.vars.state
  · refine ⟨[.trigger t], ?_⟩
    rw [Machine.fire_eq fsm (baseMachine_keepsTriggers fsm) t haccepts]
    rfl
  · refine ⟨[], ?_⟩
    have hnone : (baseMachine fsm : Machine d).transitions.find?
        (fun x => x.trigger = t.name ∧ x.source = w.vars.state) = none := by
      rw [List.find?_eq_none]
      intro x hx hmatch
      obtain ⟨htrigger, hsource⟩ := of_decide_eq_true hmatch
      exact haccepts ⟨x, hx, htrigger, hsource⟩
    rw [Machine.fire, bind_of_ok (getState_apply w), hnone]
    rfl

theorem issues_enforcePhysicalState (marker : Option (List (Option MarkerArg))) :
    Issues fsm (enforcePhysicalState (baseMachine fsm) marker : Fsm d Unit) := by
  have hheartbeat : Issues fsm (verifyHeartbeat : Fsm d Bool) := fun w => ⟨[.heartbeat], rfl⟩
  have hstate : Issues fsm (getState : Fsm d DutState) := fun w => ⟨[], rfl⟩
  cases marker with
  | none => exact .pure ()
  | some args =>
    refine hstate.bind fun s => .ite (.ite ?_ (.pure ())) ?_
    · refine hheartbeat.bind fun alive => .ite (.pure ()) ?_
      exact (issues_fire .markDirty).bind fun _ => issues_fire (.bootToOs none)
    · exact .ite (issues_fire .powerOff) (.ite (issues_fire (.energize none))
        (.ite (issues_fire (.bootToBootloader none)) (.ite (issues_fire (.bootToOs none))
          (.pure ()))))

theorem provision_acts (startedAt : ℚ) (successPrompt : String)
    (turns : List UuuTeziProvisioner.Turn) (ending : UuuTeziProvisioner.Ending) (w : World d) :
    ∃ acts, w.withState (((UuuTeziProvisioner.provision (some w.vars.state) startedAt successPrompt
      turns ending).fsm).getD w.vars.state) = runActs fsm w acts := by
  unfold UuuTeziProvisioner.provision
  split
  · exact ⟨[.reportFlashSuccess], rfl⟩
  · exact ⟨[], rfl⟩
  · exact ⟨[], rfl⟩
  · cases ending with
    | timeout => exact ⟨[], rfl⟩
    | raised => exact ⟨[], rfl⟩

end

/-- The events of a run from construction on tell every state of the machine exactly if no trigger
raises with the machine moved and no flash moves it; an orchestrator call and a flash are such
runs. -/
theorem told_iff (s : d.State) (acts : List Act) :
    (∀ marker (w : World d), ∃ acts,
      World.after (enforcePhysicalState (baseMachine fsm) marker w) = runActs fsm w acts) ∧
    (∀ startedAt successPrompt turns ending (w : World d), ∃ acts,
      w.withState (((UuuTeziProvisioner.provision (some w.vars.state) startedAt successPrompt
        turns ending).fsm).getD w.vars.state) = runActs fsm w acts) ∧
    ((∀ pre post, acts = pre ++ post → Told (runActs fsm ⟨{}, s, []⟩ pre : World d)) ↔
      ∀ pre a post, acts = pre ++ a :: post →
        a.Steady fsm (runActs fsm ⟨{}, s, []⟩ pre : World d)) :=
  ⟨issues_enforcePhysicalState, provision_acts, told_run told_initial acts⟩

/-- A bench that every call succeeds on and no target answers at. -/
def silentBench : Hardware := steady fun _ => .ok default

def flashed : World silentBench :=
  let w : World silentBench := runActs {} ⟨{}, (), []⟩ [.trigger .bootToRecovery]
  w.withState (((UuuTeziProvisioner.provision (some w.vars.state) 0 ""
    [UuuTeziProvisioner.turnOf "login:"] .timeout).fsm).getD w.vars.state)

/-- A boot that is given up once the alignment has heard nothing. -/
def givenUp : World silentBench :=
  runActs {} ⟨{}, (), []⟩ [.trigger .markDirty, .trigger (.bootToOs none)]

/-- The flash ends in `ENERGIZED`, and the boot in `POWER_OFF`: neither is published. -/
theorem untold : ¬ Told flashed ∧ ¬ Told givenUp := by
  have hflashed : published flashed.trace = [("DIRTY", "RECOVERY")] ∧
      flashed.vars.state = .energized := by decide +kernel
  have hgivenUp : published givenUp.trace = [("DIRTY", "DIRTY")] ∧
      givenUp.vars.state = .powerOff := by decide +kernel
  constructor
  · rw [Told, hflashed.1, hflashed.2]
    rintro ⟨-, hlast⟩
    have hne : "RECOVERY" ≠ "ENERGIZED" := by decide
    exact hne hlast
  · rw [Told, hgivenUp.1, hgivenUp.2]
    rintro ⟨-, hlast⟩
    have hne : "DIRTY" ≠ "POWER_OFF" := by decide
    exact hne hlast

end StateTelemetry

end MesCore
