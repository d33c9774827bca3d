import MesCore.OsEvidence

namespace MesCore
set_option autoImplicit true

/-- What stands in a `requires_state` marker: a state of an enumeration, or its name. -/
inductive MarkerArg
  | member (s : DutState)
  | text (name : String)

def MarkerArg.stateName : MarkerArg → String
  | .member s => s.name
  | .text name => name

/-- `_resolve_target_state_name`. The first argument may be missing, or `None`. -/
def resolveTargetStateName (args : List (Option MarkerArg)) : String :=
  match args.head?.join with
  | some target => target.stateName
  | none => "OS_USERLAND"

variable {d : Hardware} (fsm : Station)

/-- The board is said to run its OS already: a heartbeat, or a reboot. -/
def confirmOs (m : Machine d) : Fsm d Unit := do
  let alive ← verifyHeartbeat
  if alive then pure ()
  else do
    m.fire "mark_dirty" none
    m.fire "boot_to_os" none

/-- The chain of `elif`s, which has no `else`. -/
def enterState (m : Machine d) (target : String) : Fsm d Unit :=
  if target = "POWER_OFF" then m.fire "power_off" none
  else if target = "ENERGIZED" then m.fire "energize" none
  else if target = "BOOTLOADER" then m.fire "boot_to_bootloader" none
  else if target = "OS_USERLAND" then m.fire "boot_to_os" none
  else pure ()

/-- `enforce_physical_state` up to its `yield`, with the arguments of the marker if there is
one. -/
def enforcePhysicalState (m : Machine d) (marker : Option (List (Option MarkerArg))) :
    Fsm d Unit :=
  match marker with
  | none => pure ()
  | some args => do
    let target := resolveTargetStateName args
    let s ← getState
    if s.name = target then
      if target = "OS_USERLAND" then confirmOs m else pure ()
    else enterState m target

/-- What a test relies on when its body starts. -/
def Honoured (target : String) (w w' : World d) : Prop :=
  w'.vars.state.name = target ∧ (target = "OS_USERLAND" → OsEvidence fsm (w.since w'))

/-- A transition is registered for the trigger in this state. -/
def Machine.Accepts (m : Machine d) (trigger : String) (s : DutState) : Prop :=
  ∃ t ∈ m.transitions, t.trigger = trigger ∧ t.source = s

/-- The chain of `elif`s has a branch for the target, or none is needed; and `boot_to_os` is not
fired in a state of a subclass that its routing falls through. -/
def Routed (m : Machine d) (target : String) (s : DutState) : Prop :=
  (s.name = target ∨ target ∈ ["POWER_OFF", "ENERGIZED", "BOOTLOADER", "OS_USERLAND"]) ∧
    ¬ (target = "OS_USERLAND" ∧ s.name ≠ target ∧ (∃ n, s = .custom n) ∧ fsm.psu.isSome ∧
      m.Accepts "boot_to_os" s)

/-- A subclass may register the triggers of the base class for its own states, with the
destination and the hook they have there. -/
def Registration.keepsTriggers : Registration d → Prop
  | .state _ => True
  | .transition trigger _ dest before =>
    ∀ t : Trigger, trigger = t.name → dest = t.dest ∧ before t.medium = t.hook fsm

/-- The transitions under a base trigger's name do what the base trigger does. -/
def Machine.KeepsTriggers (m : Machine d) : Prop :=
  ∀ x ∈ m.transitions, ∀ t : Trigger, x.trigger = t.name →
    x.dest = t.dest ∧ x.before t.medium = t.hook fsm

theorem Machine.KeepsTriggers.add {m : Machine d} {trigger : String} {source : Source}
    {dest : DutState} {before : Option String → Fsm d Unit} (hm : m.KeepsTriggers fsm)
    (hb : ∀ t : Trigger, trigger = t.name → dest = t.dest ∧ before t.medium = t.hook fsm) :
    (m.addTransition trigger source dest before).KeepsTriggers fsm := by
  intro x hx
  rcases List.mem_append.1 hx with hx | hx
  · exact hm x hx
  · obtain ⟨s, _, rfl⟩ := List.mem_map.1 hx
    exact hb

theorem Machine.KeepsTriggers.register {m : Machine d} {r : Registration d}
    (hm : m.KeepsTriggers fsm) (hr : r.keepsTriggers fsm) : (m.register r).KeepsTriggers fsm := by
  cases r with
  | state name => exact hm
  | transition trigger source dest before => exact Machine.KeepsTriggers.add fsm hm hr

theorem Trigger.dest_of_name {t u : Trigger} (h : t.name = u.name) : t.dest = u.dest := by
  cases t <;> cases u <;> first | rfl | simp [Trigger.name] at h

theorem Machine.KeepsTriggers.addBase {m : Machine d} (hm : m.KeepsTriggers fsm) (u : Trigger)
    (before : Option String → Fsm d Unit)
    (hb : ∀ t : Trigger, u.name = t.name → before t.medium = t.hook fsm) :
    (m.addTransition u.name .wildcard u.dest before).KeepsTriggers fsm := by
  apply hm.add fsm
  intro t ht
  exact ⟨Trigger.dest_of_name ht, hb t ht⟩

theorem baseMachine_keepsTriggers : (baseMachine fsm : Machine d).KeepsTriggers fsm := by
  have hnil : ({ states := baseStates, transitions := [] } : Machine d).KeepsTriggers fsm := by
    intro x hx
    cases hx
  have hoff := hnil.addBase fsm .powerOff (fun _ => hwPowerOff fsm) (by
    intro t ht
    cases t <;> first | rfl | simp [Trigger.name] at ht)
  have hon := hoff.addBase fsm (.energize none) (hwEnergize fsm) (by
    intro t ht
    cases t <;> first | rfl | simp [Trigger.name] at ht)
  have hboot := hon.addBase fsm (.bootToBootloader none) (hwBootToBootloader fsm) (by
    intro t ht
    cases t <;> first | rfl | simp [Trigger.name] at ht)
  have hos := hboot.addBase fsm (.bootToOs none) (hwBootToOs fsm) (by
    intro t ht
    cases t <;> first | rfl | simp [Trigger.name] at ht)
  have hrecovery := hos.addBase fsm .bootToRecovery (fun _ => hwToRecovery fsm) (by
    intro t ht
    cases t <;> first | rfl | simp [Trigger.name] at ht)
  apply hrecovery.addBase fsm .markDirty
  intro t ht
  cases t <;> first | rfl | simp [Trigger.name] at ht

theorem customMachine_keepsTriggers {regs : List (Registration d)}
    (hregs : ∀ r ∈ regs, r.keepsTriggers fsm) : (customMachine fsm regs).KeepsTriggers fsm := by
  have hfold (m : Machine d) (hm : m.KeepsTriggers fsm) :
      (regs.foldl Machine.register m).KeepsTriggers fsm := by
    induction regs generalizing m with
    | nil => exact hm
    | cons r regs ih =>
      apply ih
      · intro r' hr'
        exact hregs r' (List.mem_cons_of_mem _ hr')
      · exact hm.register fsm (hregs r (List.mem_cons_self ..))
  exact hfold _ (baseMachine_keepsTriggers fsm)

theorem Machine.fire_eq {m : Machine d} (hm : m.KeepsTriggers fsm) (t : Trigger) {w : World d}
    (ha : m.Accepts t.name w.vars.state) : m.fire t.name t.medium w = MesCore.fire fsm t w := by
  rw [Machine.fire, bind_of_ok (getState_apply w), MesCore.fire, bind_of_ok (getState_apply w)]
  cases hf : m.transitions.find? fun x => x.trigger = t.name ∧ x.source = w.vars.state with
  | none =>
    obtain ⟨x, hx, htrigger, hsource⟩ := ha
    have hno := List.find?_eq_none.1 hf x hx
    simp [htrigger, hsource] at hno
  | some x =>
    have hx := List.find?_some hf
    simp only [decide_eq_true_eq] at hx
    obtain ⟨hdest, hbefore⟩ := hm x (List.mem_of_find?_eq_some hf) t hx.1
    dsimp only
    rw [hdest, hbefore]

theorem Machine.fire_accepts {m : Machine d} {trigger : String} {medium : Option String}
    {w w' : World d} (h : m.fire trigger medium w = .ok () w') :
    m.Accepts trigger w.vars.state := by
  obtain ⟨t, ht, htrigger, hsource, _⟩ := Machine.fire_ok h
  exact ⟨t, ht, htrigger, hsource⟩

theorem Machine.fire_base {m : Machine d} (hm : m.KeepsTriggers fsm) (t : Trigger)
    {w w' : World d} (h : m.fire t.name t.medium w = .ok () w') :
    MesCore.fire fsm t w = .ok () w' := by
  rw [← Machine.fire_eq fsm hm t (Machine.fire_accepts h)]
  exact h

theorem fire_state {t : Trigger} {w w' : World d} (h : fire fsm t w = .ok () w') :
    w'.vars.state = t.dest := by
  obtain ⟨w₁, _, hv, _⟩ := fire_ok fsm h
  rw [hv]

/-- A base `boot_to_os` that returns rests on evidence, unless its routing falls through. -/
theorem fire_bootToOs_evidence {medium : Option String} {w w' : World d}
    (h : fire fsm (.bootToOs medium) w = .ok () w')
    (hc : ¬ ((∃ n, w.vars.state = .custom n) ∧ fsm.psu.isSome)) : OsEvidence fsm (w.since w') := by
  obtain ⟨w₁, h₁, _, htr⟩ := fire_ok fsm h
  exact (hwBootToOs_evidence fsm h₁ hc).widen fsm
    (World.since_infix (List.prefix_refl _) (hwBootToOs_grows fsm h₁) ⟨_, htr.symm⟩)

theorem within_reconnectSsh : Within observeFrame (reconnectSsh : Fsm d Unit) :=
  (within_ask _ rfl).bind fun _ => .onlyIf _ (.attempt (within_ask _ rfl) _ fun _ => .pure _)

theorem within_transportIsConnected : Within observeFrame (transportIsConnected : Fsm d Bool) :=
  (within_ask _ rfl).bind fun _ => .ite (within_ask _ rfl) (within_ask _ rfl)

theorem within_verifyHeartbeat : Within observeFrame (verifyHeartbeat : Fsm d Bool) := by
  have hcmd : heartbeatCmd ∉ ["reboot", trapBackupCmd, trapCmd] := by decide
  have hrun :
      Within observeFrame (transportSafeRun heartbeatCmd 5000 false : Fsm d CommandResult) :=
    (within_ask _ rfl).bind fun _ => .ite (within_ask (.sshSafeRun _ _ _) (decide_eq_true hcmd))
      (within_serialRun _ _ _ _ hcmd)
  apply within_getState.bind
  intro s
  apply (Within.onlyIf _ within_reconnectSsh).bind
  intro _
  apply within_transportIsConnected.bind
  intro connected
  exact .ite (.attempt (hrun.bind fun _ => .pure _) _ fun _ => .pure _) (.pure _)

theorem transportSafeRun_ok {cmd : String} {timeoutMs : Nat} {check : Bool} {w w' : World d}
    {res : CommandResult} (h : transportSafeRun cmd timeoutMs check w = .ok res w') :
    did (.sshSafeRun cmd timeoutMs check) (.ok res) ∈ w.since w' ∨
      did (.serialSafeRun cmd none timeoutMs check) (.ok res) ∈ w.since w' := by
  obtain ⟨connected, w₁, h₁, h⟩ := bind_ok h
  cases connected with
  | true =>
    left
    apply World.mem_since_right (call_grows h₁) (call_grows h)
    rw [call_since h]
    exact List.mem_singleton_self _
  | false =>
    right
    apply World.mem_since_right (call_grows h₁) (call_grows h)
    rw [call_since h]
    exact List.mem_singleton_self _

theorem verifyHeartbeat_true {w w' : World d} (h : verifyHeartbeat w = .ok true w') :
    HeartbeatAnswered (w.since w') := by
  obtain ⟨s, w₁, h₁, h⟩ := bind_ok h
  obtain ⟨_, w₂, h₂, h⟩ := bind_ok h
  obtain ⟨connected, w₃, h₃, h⟩ := bind_ok h
  have hg := (within_getState.ok (F := observeFrame) h₁).grows.trans
    (((Within.onlyIf _ within_reconnectSsh).ok h₂).grows.trans
      (within_transportIsConnected.ok h₃).grows)
  cases connected with
  | false => cases h
  | true =>
    rcases attempt_ok h with h | ⟨e, w₄, _, _, h⟩
    · obtain ⟨res, w₄, h₄, h⟩ := bind_ok h
      obtain ⟨hseen, rfl⟩ := pure_ok h
      have hanswer : HeartbeatAnswered (w₃.since w₄) := by
        rcases transportSafeRun_ok h₄ with hm | hm
        · exact .inl ⟨_, _, res, hm, hseen⟩
        · exact .inr ⟨_, _, _, res, hm, hseen⟩
      have hrun : w₃.trace <+: w₄.trace := by
        obtain ⟨ssh, v, hv, h₄⟩ := bind_ok h₄
        cases ssh with
        | true => exact (call_grows hv).trans (call_grows h₄)
        | false => exact (call_grows hv).trans (call_grows h₄)
      exact hanswer.widen (World.since_infix hg hrun (List.prefix_refl _))
    · cases h

section
variable {m : Machine d} {target : String} {w w' : World d}

theorem confirmOs_ok (hm : m.KeepsTriggers fsm) (hs : w.vars.state.name = "OS_USERLAND")
    (h : confirmOs m w = .ok () w') : Honoured fsm "OS_USERLAND" w w' := by
  obtain ⟨alive, w₁, h₁, h⟩ := bind_ok h
  have hrel := within_verifyHeartbeat.ok h₁
  cases alive with
  | true =>
    cases h
    constructor
    · rw [hrel.2.1]
      exact hs
    · intro _
      exact .inr (verifyHeartbeat_true h₁)
  | false =>
    obtain ⟨_, w₂, h₂, h₃⟩ := bind_ok h
    have hdirty := Machine.fire_base fsm hm .markDirty h₂
    have hboot := Machine.fire_base fsm hm (.bootToOs none) h₃
    have hstate := fire_state fsm hdirty
    constructor
    · rw [fire_state fsm hboot]
      rfl
    · intro _
      obtain ⟨v, hv, _, htr⟩ := fire_ok fsm hdirty
      cases hv
      obtain ⟨u, hu, _, hend⟩ := fire_ok fsm hboot
      have hlive : OsEvidence fsm (w₂.since w') := by
        apply fire_bootToOs_evidence fsm hboot
        intro hcontra
        obtain ⟨⟨n, hn⟩, _⟩ := hcontra
        rw [hstate] at hn
        cases hn
      apply hlive.widen fsm
      exact World.since_infix (hrel.grows.trans ⟨_, htr.symm⟩)
        ((hwBootToOs_grows fsm hu).trans ⟨_, hend.symm⟩) (List.prefix_refl _)

theorem enterState_trigger
    (ht : target ∈ ["POWER_OFF", "ENERGIZED", "BOOTLOADER", "OS_USERLAND"]) :
    ∃ t : Trigger, t.dest.name = target ∧ (target = "OS_USERLAND" → t = .bootToOs none) ∧
      enterState m target = m.fire t.name t.medium := by
  simp only [List.mem_cons, List.not_mem_nil, or_false] at ht
  rcases ht with rfl | rfl | rfl | rfl
  · exact ⟨.powerOff, rfl, by simp, rfl⟩
  · exact ⟨.energize none, rfl, by simp, rfl⟩
  · exact ⟨.bootToBootloader none, rfl, by simp, rfl⟩
  · exact ⟨.bootToOs none, rfl, fun _ => rfl, rfl⟩

theorem enterState_unnamed
    (ht : target ∉ ["POWER_OFF", "ENERGIZED", "BOOTLOADER", "OS_USERLAND"]) :
    (enterState m target : Fsm d Unit) = pure () := by
  simp only [List.mem_cons, List.not_mem_nil, or_false, not_or] at ht
  obtain ⟨hoff, hon, hboot, hos⟩ := ht
  rw [enterState, if_neg hoff, if_neg hon, if_neg hboot, if_neg hos]

/-- A trigger of the chain that returns leaves the machine where the test wants it. -/
theorem enterState_ok (hm : m.KeepsTriggers fsm)
    (ht : target ∈ ["POWER_OFF", "ENERGIZED", "BOOTLOADER", "OS_USERLAND"])
    (hc : target = "OS_USERLAND" →
      ¬ ((∃ n, w.vars.state = .custom n) ∧ fsm.psu.isSome ∧ m.Accepts "boot_to_os" w.vars.state))
    (h : enterState m target w = .ok () w') : Honoured fsm target w w' := by
  obtain ⟨t, hname, hos, heq⟩ := enterState_trigger (m := m) ht
  rw [heq] at h
  have hbase := Machine.fire_base fsm hm t h
  constructor
  · rw [fire_state fsm hbase]
    exact hname
  · intro htarget
    cases hos htarget
    apply fire_bootToOs_evidence fsm hbase
    intro hcustom
    exact hc htarget ⟨hcustom.1, hcustom.2, Machine.fire_accepts h⟩

/-- The routing of `boot_to_os` falls through: the trigger returns without a word from the
target. -/
theorem fire_bootToOs_blank (hm : m.KeepsTriggers fsm) {n : String}
    (hn : w.vars.state = .custom n) (hp : fsm.psu.isSome = true)
    (ha : m.Accepts "boot_to_os" w.vars.state) :
    ∃ w', m.fire "boot_to_os" none w = .ok () w' ∧ ¬ OsEvidence fsm (w.since w') := by
  have hrun := fire_of_hook_ok fsm (t := .bootToOs none) (hwBootToOs_custom fsm hn hp)
  rw [← Machine.fire_eq fsm hm (.bootToOs none) ha] at hrun
  refine ⟨_, hrun, ?_⟩
  rw [World.since_eq rfl]
  exact OsEvidence.not_note fsm _

end

theorem enforcePhysicalState_there {m : Machine d} {args : List (Option MarkerArg)} {w : World d}
    (hs : w.vars.state.name = resolveTargetStateName args) :
    enforcePhysicalState m (some args) w =
      (if resolveTargetStateName args = "OS_USERLAND" then confirmOs m else pure ()) w := by
  rw [enforcePhysicalState, bind_of_ok (getState_apply w), if_pos hs]

theorem enforcePhysicalState_elsewhere {m : Machine d} {args : List (Option MarkerArg)}
    {w : World d} (hs : w.vars.state.name ≠ resolveTargetStateName args) :
    enforcePhysicalState m (some args) w = enterState m (resolveTargetStateName args) w := by
  rw [enforcePhysicalState, bind_of_ok (getState_apply w), if_neg hs]

/-- The marker is honoured in every run that reaches the test body exactly if its target is
routed. -/
theorem requiresState_honoured_iff {regs : List (Registration d)}
    (hregs : ∀ r ∈ regs, r.keepsTriggers fsm) (args : List (Option MarkerArg)) (w : World d) :
    (∀ w', enforcePhysicalState (customMachine fsm regs) (some args) w = .ok () w' →
        Honoured fsm (resolveTargetStateName args) w w') ↔
      Routed fsm (customMachine fsm regs) (resolveTargetStateName args) w.vars.state := by
  have hm := customMachine_keepsTriggers fsm hregs
  by_cases hs : w.vars.state.name = resolveTargetStateName args
  · rw [enforcePhysicalState_there hs]
    apply iff_of_true
    · intro w' h
      split at h
      · rename_i hos
        rw [hos] at hs ⊢
        exact confirmOs_ok fsm hm hs h
      · rename_i hos
        cases h
        exact ⟨hs, fun htarget => absurd htarget hos⟩
    · exact ⟨.inl hs, fun hcontra => hcontra.2.1 hs⟩
  · rw [enforcePhysicalState_elsewhere hs]
    by_cases ht : resolveTargetStateName args ∈
        ["POWER_OFF", "ENERGIZED", "BOOTLOADER", "OS_USERLAND"]
    · constructor
      · intro hall
        refine ⟨.inr ht, ?_⟩
        intro hcontra
        obtain ⟨hos, _, ⟨n, hn⟩, hp, ha⟩ := hcontra
        obtain ⟨w', hrun, hblank⟩ := fire_bootToOs_blank fsm hm hn hp ha
        rw [hos] at hall
        exact hblank ((hall w' hrun).2 rfl)
      · intro hrouted w' h
        apply enterState_ok fsm hm ht _ h
        intro hos hcontra
        exact hrouted.2 ⟨hos, hs, hcontra.1, hcontra.2.1, hcontra.2.2⟩
    · rw [enterState_unnamed ht]
      apply iff_of_false
      · intro hall
        exact hs (hall w rfl).1
      · intro hrouted
        rcases hrouted.1 with h | h
        · exact hs h
        · exact ht h

/-- The runs that fail: `requires_state(DutState.RECOVERY)` is passed over in silence, and a
subclass's own state is left for `OS_USERLAND` without a word from the target. -/
theorem requiresState_ignored :
    (∃ w' : World liveTarget,
      enforcePhysicalState (baseMachine { psu := some {} }) (some [some (.member .recovery)])
        ⟨{ state := .osUserland }, (), []⟩ = .ok () w' ∧ w'.vars.state.name ≠ "RECOVERY") ∧
    ∃ w w' : World liveTarget, w.vars.state = .custom "LAB" ∧
      enforcePhysicalState (customMachine { psu := some {} } labStation)
        (some [some (.member .osUserland)]) w = .ok () w' ∧
      ¬ OsEvidence { psu := some {} } (w.since w') :=
  ⟨⟨_, rfl, by decide⟩, ⟨{ state := .custom "LAB" }, (), []⟩, _, rfl, rfl,
    OsEvidence.not_note _ _⟩

theorem labStation_keepsTriggers : ∀ r ∈ labStation, r.keepsTriggers { psu := some {} } := by
  intro r hr
  simp only [labStation, List.mem_cons, List.not_mem_nil, or_false] at hr
  rcases hr with rfl | rfl | rfl
  · trivial
  · intro t ht
    cases t <;> simp [Trigger.name] at ht
  · intro t ht
    cases t <;> first | exact ⟨rfl, rfl⟩ | simp [Trigger.name] at ht

theorem requiresState_honoured_live :
    ∃ w w' : World liveTarget, w.vars.state = .osUserland ∧
      enforcePhysicalState (customMachine { psu := some {} } labStation)
        (some [some (.text "OS_USERLAND")]) w = .ok () w' ∧
      Honoured { psu := some {} } "OS_USERLAND" w w' := by
  obtain ⟨w', h⟩ : ∃ w' : World liveTarget,
    enforcePhysicalState (customMachine { psu := some {} } labStation)
      (some [some (.text "OS_USERLAND")]) ⟨{ state := .osUserland }, (), []⟩ = .ok () w' :=
    ⟨_, rfl⟩
  refine ⟨_, w', rfl, h, ?_⟩
  apply (requiresState_honoured_iff _ labStation_keepsTriggers _ _).2 _ w' h
  exact ⟨.inl rfl, fun hcontra => hcontra.2.1 rfl⟩

end MesCore
