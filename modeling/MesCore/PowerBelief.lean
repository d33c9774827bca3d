import MesCore.Staleness

namespace MesCore
set_option autoImplicit true

/-- What the supply was told: on, whether or not the call came back, or off. -/
def outputCommand : Entry fsmInterface → Option Bool
  | .call .psuEnableOutput _ => some true
  | .call .psuDisableOutput (.ok _) => some false
  | _ => none

def lastOutput (trace : List (Entry fsmInterface)) : Option Bool :=
  (trace.filterMap outputCommand).getLast?

def unpowered (e : Entry fsmInterface) : Prop := outputCommand e ≠ some true

theorem made.unpowered {kind : Call → Bool} (hk : kind .psuEnableOutput = false)
    (e : Entry fsmInterface) (h : made kind e) : unpowered e := by
  intro ho
  unfold outputCommand at ho
  split at ho
  · exact Bool.false_ne_true (hk.symm.trans h)
  · cases ho
  · cases ho

theorem observing.outputCommand (e : Entry fsmInterface) (h : observing e) :
    outputCommand e = none := by
  unfold MesCore.outputCommand
  split
  · cases h
  · cases h
  · rfl

theorem lastOutput_append_none {tr seg : List (Entry fsmInterface)}
    (h : ∀ e ∈ seg, outputCommand e = none) : lastOutput (tr ++ seg) = lastOutput tr := by
  rw [lastOutput, List.filterMap_append, List.filterMap_eq_nil_iff.2 h, List.append_nil]
  rfl

theorem filterMap_unpowered {seg : List (Entry fsmInterface)} (h : ∀ e ∈ seg, unpowered e) :
    ∀ b ∈ seg.filterMap outputCommand, b = false := by
  intro b hb
  obtain ⟨e, he, ho⟩ := List.mem_filterMap.1 hb
  cases b with
  | false => rfl
  | true => exact absurd ho (h e he)

/-- After a stretch without a command to switch on, the output is off if it was off before. -/
theorem lastOutput_append_unpowered {tr seg : List (Entry fsmInterface)}
    (h : ∀ e ∈ seg, unpowered e) (ho : lastOutput tr = some false) :
    lastOutput (tr ++ seg) = some false := by
  rw [lastOutput, List.filterMap_append, List.getLast?_append]
  cases hl : (seg.filterMap outputCommand).getLast? with
  | none => exact ho
  | some b => rw [filterMap_unpowered h b (List.mem_of_getLast? hl)]; rfl

theorem lastOutput_append_off {tr seg : List (Entry fsmInterface)}
    (h : ∀ e ∈ seg, unpowered e) (hm : did .psuDisableOutput (.ok ()) ∈ seg) :
    lastOutput (tr ++ seg) = some false := by
  rw [lastOutput, List.filterMap_append, List.getLast?_append]
  have hmem : false ∈ seg.filterMap outputCommand := List.mem_filterMap.2 ⟨_, hm, rfl⟩
  cases hl : (seg.filterMap outputCommand).getLast? with
  | none =>
    rw [List.getLast?_eq_none_iff.1 hl] at hmem
    cases hmem
  | some b => rw [filterMap_unpowered h b (List.mem_of_getLast? hl)]; rfl

variable {d : Hardware} (fsm : Station)

theorem lastOutput_aligned (w : World d) :
    lastOutput (aligned fsm w).trace = lastOutput w.trace := by
  obtain ⟨s, hobs⟩ := align_observes fsm w
  have htr := World.trace_since hobs.grows
  rw [World.withState_trace] at htr
  rw [htr]
  exact lastOutput_append_none fun e he => observing.outputCommand e (hobs.since e he)

/-- A `power_off` that returns leaves the output off unless it believed the target off already,
in which case the output stays as it was. -/
theorem powerOff_lastOutput {w w' : World d} (hp : fsm.psu.isSome = true)
    (h : fire fsm .powerOff w = .ok () w') :
    (routingState fsm w = .powerOff → lastOutput w'.trace = lastOutput w.trace) ∧
      (routingState fsm w ≠ .powerOff → lastOutput w'.trace = some false) := by
  obtain ⟨psu, hp⟩ := Option.isSome_iff_exists.1 hp
  obtain ⟨v', hhook, _, htr⟩ := fire_ok fsm h
  obtain ⟨v, ha, hv, hroute⟩ := hook_ok fsm (by rintro ⟨⟩) hhook
  have hlast := lastOutput_aligned fsm w
  rw [htr, lastOutput_append_none (by intro e he; rw [List.mem_singleton.1 he]; rfl)]
  rw [routingState, hv]
  rw [hv] at hlast
  rw [Trigger.route, routePowerOff, bind_of_ok (getState_apply v)] at hroute
  constructor
  · intro hoff
    rw [if_pos hoff] at hroute
    cases hroute
    exact hlast
  · intro hon
    rw [if_neg hon] at hroute
    have hr := (within_doPowerOff fsm).ok hroute
    rw [World.trace_since hr.grows]
    exact lastOutput_append_off (fun e he => made.unpowered rfl e (hr.since e he))
      (doPowerOff_psu_ok fsm hp hroute)

/-- What keeps the belief `POWER_OFF` true over a step: a probe only reports it of a target whose
output is off, and a trigger that leaves it behind does not raise once it has switched on. -/
def StepHonest (t : Trigger) (w : World d) : Prop :=
  (trustsState fsm w.vars.state = false → routingState fsm w = .powerOff →
      lastOutput w.trace = some false) ∧
    (routingState fsm w = .powerOff → ∀ e w', fire fsm t w = .error e w' →
      ∀ x ∈ w.since w', unpowered x)

/-- The worlds that runs of honest steps reach from construction. -/
inductive HonestRun : World d → Prop
  | init (s : d.State) : HonestRun ⟨{}, s, []⟩
  | step (t : Trigger) : HonestRun w → StepHonest fsm t w →
      HonestRun (World.after (fire fsm t w))

/-- Where the machine says `POWER_OFF`, the supply was last told to switch off. -/
def Belief (w : World d) : Prop := w.vars.state = .powerOff → lastOutput w.trace = some false

theorem Belief.routing {t : Trigger} {w : World d} (hb : Belief w) (hs : StepHonest fsm t w)
    (ho : routingState fsm w = .powerOff) : lastOutput w.trace = some false := by
  cases htrust : trustsState fsm w.vars.state with
  | false => exact hs.1 htrust ho
  | true =>
    have halign : alignToPhysicalState fsm false w = .ok () w := by
      rw [alignToPhysicalState, bind_of_ok (getState_apply w), htrust]
      rfl
    rw [routingState, aligned, halign] at ho
    exact hb ho

theorem Belief.step {t : Trigger} {w : World d} (hp : fsm.psu.isSome = true) (hb : Belief w)
    (hs : StepHonest fsm t w) : Belief (World.after (fire fsm t w)) := by
  have hroute := hb.routing fsm hs
  cases h : fire fsm t w with
  | ok a w' =>
    obtain ⟨v', _, hvars, _⟩ := fire_ok fsm h
    intro hoff
    rw [World.after_ok, hvars] at hoff
    have ht : t = .powerOff := by
      cases t <;> first | rfl | cases hoff
    subst ht
    obtain ⟨hkept, hcut⟩ := powerOff_lastOutput fsm hp h
    by_cases ho : routingState fsm w = .powerOff
    · exact (hkept ho).trans (hroute ho)
    · exact hcut ho
  | error e w' =>
    intro hoff
    rw [World.after_error] at hoff ⊢
    have ht : t ≠ .markDirty := by
      rintro rfl
      cases fire_error fsm h
    obtain ⟨s, hobs⟩ := align_observes fsm w
    have hg : w.trace <+: (aligned fsm w).trace := hobs.grows
    have hboth : routingState fsm w = .powerOff ∧ w.trace <+: w'.trace := by
      rcases hook_error fsm ht (fire_error fsm h) with ⟨_, hw⟩ | ⟨w₁, _, hw, herr⟩
      · rw [routingState, hw]
        rw [hw] at hg
        exact ⟨hoff, hg⟩
      · have hr := (within_route fsm t).error herr
        rw [hw] at hg
        refine ⟨?_, hg.trans hr.grows⟩
        rcases hr.2 with hkept | hdown
        · rw [routingState, hw, ← hkept, hoff]
        · simp [hoff] at hdown
    rw [World.trace_since hboth.2]
    exact lastOutput_append_unpowered (hs.2 hboth.1 e w' h) (hroute hboth.1)

theorem HonestRun.belief {w : World d} (hp : fsm.psu.isSome = true) (h : HonestRun fsm w) :
    Belief w := by
  induction h with
  | init s =>
    intro hoff
    cases hoff
  | step t _ hs ih => exact ih.step fsm hp hs

/-- `power_off` leaves the output off exactly where its belief `POWER_OFF` is true, and in a run
of honest steps it always is. -/
theorem powerOff_sound (hp : fsm.psu.isSome = true) :
    (∀ w w' : World d, fire fsm .powerOff w = .ok () w' →
      (lastOutput w'.trace = some false ↔
        (routingState fsm w = .powerOff → lastOutput w.trace = some false))) ∧
      ∀ w w' : World d, HonestRun fsm w → StepHonest fsm .powerOff w →
        fire fsm .powerOff w = .ok () w' → lastOutput w'.trace = some false := by
  have hiff (w w' : World d) (h : fire fsm .powerOff w = .ok () w') :
      lastOutput w'.trace = some false ↔
        (routingState fsm w = .powerOff → lastOutput w.trace = some false) := by
    obtain ⟨hkept, hcut⟩ := powerOff_lastOutput fsm hp h
    constructor
    · intro hoff ho
      rw [← hkept ho, hoff]
    · intro hb
      by_cases ho : routingState fsm w = .powerOff
      · exact (hkept ho).trans (hb ho)
      · exact hcut ho
  refine ⟨hiff, fun w w' hrun hs h => (hiff w w' h).2 ?_⟩
  exact (hrun.belief fsm hp).routing fsm hs

/-- A target that is silent on every channel; the run is interrupted while its current settles. -/
def silentTarget : Hardware := steady fun
  | .serialIsConnected => .ok true
  | .sleep 1000 => .error .keyboardInterrupt
  | c => .ok (default : c.Ans)

/-- `energize` switches on and is interrupted; the machine still says `POWER_OFF`, and `power_off`
returns with the output on. -/
theorem powerOff_keeps_output_on :
    ∃ (w₁ w₂ : World silentTarget) (e : Err),
      fire quietSupply (.energize none) ⟨{}, (), []⟩ = .error e w₁ ∧
      fire quietSupply .powerOff w₁ = .ok () w₂ ∧ lastOutput w₂.trace = some true := by
  have h : (match fire quietSupply (.energize none) (⟨{}, (), []⟩ : World silentTarget) with
      | .ok _ _ => false
      | .error _ w₁ =>
        match fire quietSupply .powerOff w₁ with
        | .ok _ w₂ => decide (lastOutput w₂.trace = some true)
        | .error _ _ => false) = true := by decide +kernel
  split at h
  · cases h
  · rename_i e w₁ herr
    split at h
    · rename_i w₂ hoff
      exact ⟨w₁, w₂, e, herr, hoff, of_decide_eq_true h⟩
    · cases h

theorem powerOff_sound_live :
    ∃ w₁ w₂ : World liveTarget, fire quietSupply (.bootToOs none) ⟨{}, (), []⟩ = .ok () w₁ ∧
      fire quietSupply .powerOff w₁ = .ok () w₂ ∧ lastOutput w₂.trace = some false := by
  let w₁ : World liveTarget := World.after (fire quietSupply (.bootToOs none) ⟨{}, (), []⟩)
  let w₂ : World liveTarget := World.after (fire quietSupply .powerOff w₁)
  have h : fire quietSupply .powerOff w₁ = .ok () w₂ := rfl
  refine ⟨w₁, w₂, rfl, h, ((powerOff_sound quietSupply rfl).1 w₁ w₂ h).2 fun ho => ?_⟩
  cases ho

end MesCore
