import MesCore.Occurrence
import MesCore.Sweep

namespace MesCore
set_option autoImplicit true

namespace DPS150

/-- What a packet asks of the output stage. -/
inductive Event
  | setpoint (axis : Axis) (value : ℚ)
  | output (on sent : Bool)
  deriving DecidableEq

/-- A setpoint counts as programmed as soon as it is written, an output command as sent where the
write returns. -/
def event? : Entry dpsInterface → Option Event
  | .call (.write ⟨0xB1, 0xC1, .float value⟩) _ => some (.setpoint .voltage value)
  | .call (.write ⟨0xB1, 0xC2, .float value⟩) _ => some (.setpoint .current value)
  | .call (.write ⟨0xB1, 0xDB, .raw [on]⟩) (.ok _) => some (.output (on != 0) true)
  | .call (.write ⟨0xB1, 0xDB, .raw [on]⟩) (.error _) => some (.output (on != 0) false)
  | _ => none

section
variable {text : RatText} {psu : Limits} {axis : Axis} {s : Accepted psu axis} {d : Bench}

theorem emits_sleep (seconds : ℚ) :
    Emits event? (call (I := dpsInterface) (.sleep seconds) : DpsProg d Unit) [] :=
  .call _ fun _ => rfl

theorem emits_readWaiting (size : Nat) : Emits (d := d) event? (readWaiting size) [] := by
  rw [readWaiting]
  apply (Emits.call _ fun _ => rfl).bind
  intro waiting
  exact .call _ fun _ => rfl

theorem emits_readState : Emits (d := d) event? readState [] := by
  rw [readState, sendAndRecv]
  apply Emits.bind
  · apply (Emits.call _ fun _ => rfl).bind
    exact fun _ => (emits_sleep 1).bind fun _ => emits_readWaiting 256
  · intro resp
    apply (emits_sleep _).bind
    intro _
    apply (emits_readWaiting 0).bind
    intro extra
    split
    · exact .pure _
    · exact .fail _

theorem emits_setPoint {value : ℚ} (h : value ∈ Set.Icc 0 (axis.limit psu)) :
    Emits (d := d) event? (setPoint text psu axis value) [.setpoint axis value] := by
  have hrange : ¬ (value < 0 ∨ axis.limit psu < value) := by
    rw [not_or, not_lt, not_lt]
    exact h
  rw [setPoint, if_neg hrange, send]
  apply Emits.bind
  · apply Emits.call
    intro r
    cases axis <;> rfl
  · exact fun _ => emits_sleep cmdDelay

theorem emits_turn (stepIdx : Nat) (v : ℚ) :
    Emits (d := d) event? (turn text s stepIdx v) [.setpoint axis (axis.clamped psu v)] := by
  rw [turn]
  apply (emits_setPoint (s.clamped_mem v)).bind
  intro _
  apply (emits_sleep _).bind
  intro _
  apply emits_readState.bind
  intro state
  cases state with
  | none => exact .pure _
  | some state =>
    dsimp only
    split
    · exact (Emits.call _ fun _ => rfl).bind fun _ => .pure _
    · exact .pure _

def events (t : DpsHistory) : List Event := t.filterMap event?

@[simp] theorem events_append (t t' : DpsHistory) : events (t ++ t') = events t ++ events t' :=
  List.filterMap_append

/-- What the loop programs in all, if nothing breaks it off. -/
def Accepted.program (s : Accepted psu axis) (v : ℚ) : List Event :=
  (s.points v).map fun x => .setpoint axis (axis.clamped psu x)

theorem leaves_sweepLoop (stepIdx : Nat) (v : ℚ) (results : List Reading) :
    Leaves (d := d) (sweepLoop text s stepIdx v results) (fun _ seg => events seg <+: s.program v)
      fun _ seg => events seg <+: s.program v := by
  rw [Accepted.program]
  induction v using Accepted.points.induct s generalizing stepIdx results with
  | case1 v h ih =>
    rw [sweepLoop, dif_pos h, Accepted.points, dif_pos h, List.map_cons]
    have hturn : Leaves (d := d) (turn text s stepIdx v)
        (fun _ seg => events seg = [.setpoint axis (axis.clamped psu v)])
        fun _ seg => events seg <+:
          .setpoint axis (axis.clamped psu v) ::
            (s.points (s.next v)).map fun x => .setpoint axis (axis.clamped psu x) := by
      apply (emits_turn stepIdx v).mono
      · exact fun _ _ hseg => hseg
      · intro e seg hseg
        rw [events, hseg]
        exact List.prefix_append _ _
    apply hturn.bind
    intro b seg hseg
    have hrest : ∀ t : DpsHistory, events t <+:
        (s.points (s.next v)).map (fun x => Event.setpoint axis (axis.clamped psu x)) →
        events (seg ++ t) <+: .setpoint axis (axis.clamped psu v) ::
            (s.points (s.next v)).map fun x => .setpoint axis (axis.clamped psu x) := by
      intro t ht
      rw [events_append, hseg]
      exact List.cons_prefix_cons.2 ⟨rfl, ht⟩
    dsimp only
    split
    · exact .pure (hrest [] List.nil_prefix)
    · exact (ih _ _).mono (fun _ t ht => hrest t ht) fun _ t ht => hrest t ht
  | case2 v h =>
    rw [sweepLoop, dif_neg h]
    exact .pure List.nil_prefix

def Accepted.setup (s : Accepted psu axis) : List Event :=
  [.setpoint axis.other s.fixed, .setpoint axis s.start]

/-- The delay behind a packet that has enabled the output raises. -/
def Interrupted (t : DpsHistory) : Prop :=
  ∃ e, [.call (.write ⟨cmdWrite, regWOutput, .raw [1]⟩) (.ok ()),
    .call (.sleep cmdDelay) (.error e)] <:+: t

/-- The write of a packet that disables the output raises. -/
def OffLost (t : DpsHistory) : Prop :=
  ∃ e, .call (.write ⟨cmdWrite, regWOutput, .raw [0]⟩) (.error e) ∈ t

/-- The ways a sweep can go, once its arguments are accepted. -/
inductive Outcome (s : Accepted psu axis) (t : DpsHistory) : Prop
  | unpowered (h : events t <+: s.setup)
  | refused (h : events t = s.setup ++ [.output true false])
  | interrupted (h : events t = s.setup ++ [.output true true]) (hint : Interrupted t)
  | swept (ps : List Event) (off : Bool) (hps : ps <+: s.program s.start)
      (h : events t = s.setup ++ .output true true :: ps ++ [.output false off])
      (hint : ¬ Interrupted t) (hoff : OffLost t ↔ off = false)

theorem leaves_outputOff :
    Leaves (d := d) outputOff
      (fun _ seg => ∃ off, events seg = [.output false off] ∧ (OffLost seg ↔ off = false))
      fun _ seg => ∃ off, events seg = [.output false off] ∧ (OffLost seg ↔ off = false) := by
  rw [outputOff, writeByte, send]
  apply Leaves.bind_call
  · intro e
    exact ⟨false, rfl, iff_of_true ⟨e, List.mem_singleton_self _⟩ rfl⟩
  · intro _
    have hsent (r : Except DpsErr Unit) :
        ¬ OffLost [.call (.write ⟨cmdWrite, regWOutput, .raw [0]⟩) (.ok ()),
          .call (.sleep cmdDelay) r] := by
      intro h
      obtain ⟨e, he⟩ := h
      simp at he
    apply Leaves.call
    · exact fun _ => ⟨true, rfl, iff_of_false (hsent _) (by decide)⟩
    · exact fun _ => ⟨true, rfl, iff_of_false (hsent _) (by decide)⟩

theorem leaves_outputOn :
    Leaves (d := d) outputOn
      (fun _ seg => seg = [.call (.write ⟨cmdWrite, regWOutput, .raw [1]⟩) (.ok ()),
        .call (.sleep cmdDelay) (.ok ())])
      fun _ seg => events seg = [.output true false] ∨ ∃ e,
        seg = [.call (.write ⟨cmdWrite, regWOutput, .raw [1]⟩) (.ok ()),
          .call (.sleep cmdDelay) (.error e)] := by
  rw [outputOn, writeByte, send]
  apply Leaves.bind_call
  · exact fun e => .inl rfl
  · intro _
    apply Leaves.call
    · exact fun _ => rfl
    · exact fun e => .inr ⟨e, rfl⟩

theorem mem_events {e : Entry dpsInterface} {ev : Event} (he : event? e = some ev) (h : e ∈ t) :
    ev ∈ events t := List.mem_filterMap.2 ⟨e, h, he⟩

theorem interrupted_enabled (h : Interrupted t) : .output true true ∈ events t := by
  obtain ⟨e, he⟩ := h
  exact mem_events rfl (he.subset (List.mem_cons_self ..))

theorem offLost_disabled (h : OffLost t) : .output false false ∈ events t := by
  obtain ⟨e, he⟩ := h
  exact mem_events rfl he

theorem offLost_append (t t' : DpsHistory) : OffLost (t ++ t') ↔ OffLost t ∨ OffLost t' := by
  unfold OffLost
  simp only [List.mem_append, exists_or]

theorem output_notMem_setup (s : Accepted psu axis) (on sent : Bool) :
    .output on sent ∉ s.setup := by
  simp [Accepted.setup]

theorem output_notMem_program {ps : List Event} (h : ps <+: s.program v) (on sent : Bool) :
    .output on sent ∉ ps := by
  intro hmem
  obtain ⟨x, -, hx⟩ := List.mem_map.1 (h.subset hmem)
  cases hx

/-- A sweep whose output has been enabled, and whose loop has come to its end in some way. -/
theorem outcome_swept {t ps off : DpsHistory} {b : Bool} (ht : events t = s.setup)
    (hps : events ps <+: s.program s.start) (hoff : events off = [.output false b])
    (hlost : OffLost off ↔ b = false) :
    Outcome s (t ++ ([.call (.write ⟨cmdWrite, regWOutput, .raw [1]⟩) (.ok ()),
        .call (.sleep cmdDelay) (.ok ())] ++ (ps ++ off))) := by
  apply Outcome.swept (events ps) b hps
  · rw [events_append, events_append, events_append, ht, hoff]
    rfl
  · intro h
    obtain ⟨e, he⟩ := h
    have hnext := infix_pair ?_ ?_ he
    · obtain ⟨hsleep, -⟩ := List.cons_prefix_cons.1 hnext
      cases hsleep
    · intro hmem
      exact output_notMem_setup s true true (ht ▸ mem_events rfl hmem)
    · intro hmem
      have hev : Event.output true true ∈
          events (.call (.sleep cmdDelay) (.ok ()) :: (ps ++ off)) := mem_events rfl hmem
      change _ ∈ events (ps ++ off) at hev
      rw [events_append, hoff, List.mem_append] at hev
      rcases hev with hev | hev
      · exact output_notMem_program hps true true hev
      · simp at hev
  · rw [offLost_append, offLost_append, offLost_append, ← hlost]
    have hfirst : ¬ OffLost t := fun h =>
      output_notMem_setup s false false (ht ▸ offLost_disabled h)
    have hloop : ¬ OffLost ps := fun h => output_notMem_program hps _ _ (offLost_disabled h)
    have hon : ¬ OffLost [.call (.write ⟨cmdWrite, regWOutput, .raw [1]⟩) (.ok ()),
        .call (.sleep cmdDelay) (.ok ())] := by
      intro h
      have hev : Event.output false false ∈ [Event.output true true] := offLost_disabled h
      simp at hev
    rw [or_iff_right hfirst, or_iff_right hon, or_iff_right hloop]

theorem outcome_runSweep (text : RatText) (s : Accepted psu axis) :
    Leaves (d := d) (runSweep text s) (fun _ seg => Outcome s seg) fun _ seg => Outcome s seg := by
  rw [runSweep]
  apply Leaves.bind (Q := fun _ seg => events seg = [.setpoint axis.other s.fixed])
  · apply (emits_setPoint s.fixed_mem).mono
    · exact fun _ _ hseg => hseg
    · intro e seg hseg
      apply Outcome.unpowered
      rw [events, hseg]
      exact List.prefix_append _ _
  intro _ t₁ ht₁
  apply Leaves.bind (Q := fun _ seg => events seg = [.setpoint axis s.start])
  · apply (emits_setPoint s.start_mem).mono
    · exact fun _ _ hseg => hseg
    · intro e seg hseg
      apply Outcome.unpowered
      rw [events_append, ht₁, events, hseg]
      exact List.prefix_rfl
  intro _ t₂ ht₂
  have hsetup : events (t₁ ++ t₂) = s.setup := by
    rw [events_append, ht₁, ht₂]
    rfl
  simp only [← List.append_assoc]
  generalize t₁ ++ t₂ = t at hsetup
  apply Leaves.bind (leaves_outputOn.mono (fun _ _ hseg => hseg) _)
  · intro _ on hon
    subst hon
    have hend : ∀ ps, events ps <+: s.program s.start → Leaves (d := d) outputOff
        (fun _ off => Outcome s (t ++ ([.call (.write ⟨cmdWrite, regWOutput, .raw [1]⟩) (.ok ()),
          .call (.sleep cmdDelay) (.ok ())] ++ (ps ++ off))))
        fun _ off => Outcome s (t ++ ([.call (.write ⟨cmdWrite, regWOutput, .raw [1]⟩) (.ok ()),
          .call (.sleep cmdDelay) (.ok ())] ++ (ps ++ off))) := by
      intro ps hps
      apply leaves_outputOff.mono
      · intro _ off hoff
        obtain ⟨b, hoff, hlost⟩ := hoff
        exact outcome_swept hsetup hps hoff hlost
      · intro _ off hoff
        obtain ⟨b, hoff, hlost⟩ := hoff
        exact outcome_swept hsetup hps hoff hlost
    exact (leaves_sweepLoop 0 s.start []).ensuring (fun _ ps hps => hend ps hps)
      fun _ ps hps => hend ps hps
  · intro e on hon
    rcases hon with hon | hon
    · apply Outcome.refused
      rw [events_append, hsetup, hon]
    · obtain ⟨e, rfl⟩ := hon
      apply Outcome.interrupted
      · rw [events_append, hsetup]
        rfl
      · exact ⟨e, (List.suffix_append t _).isInfix⟩

def Event.sent? : Event → Option Bool
  | .output on true => some on
  | _ => none

def Event.value? (axis : Axis) : Event → Option ℚ
  | .setpoint a value => if a = axis then some value else none
  | _ => none

def outputs (t : DpsHistory) : List Bool := (events t).filterMap Event.sent?

def setpoints (axis : Axis) (t : DpsHistory) : List ℚ := (events t).filterMap (Event.value? axis)

/-- What a sweep with these arguments owes to the board. -/
structure SweepSafe (s : Accepted psu axis) (t : DpsHistory) : Prop where
  steps : ((setpoints axis t).length : Int) ≤ ⌊|s.stop - s.start| / s.step + 1 / 100⌋ + 2
  inRange : ∀ a, ∀ v ∈ setpoints a t, v ∈ Set.Icc 0 (a.limit psu)
  off : true ∈ outputs t → (outputs t).getLast? = some false

theorem sent_program {ps : List Event} (h : ps <+: s.program v) :
    ps.filterMap Event.sent? = [] := by
  rw [List.filterMap_eq_nil_iff]
  intro ev hev
  obtain ⟨x, -, rfl⟩ := List.mem_map.1 (h.subset hev)
  rfl

theorem sent_setup {ps : List Event} (h : ps <+: s.setup) : ps.filterMap Event.sent? = [] :=
  List.prefix_nil.1 (h.filterMap Event.sent?)

theorem Outcome.off_iff {t : DpsHistory} (h : Outcome s t) :
    (true ∈ outputs t → (outputs t).getLast? = some false) ↔ ¬ Interrupted t ∧ ¬ OffLost t := by
  cases h with
  | unpowered h =>
    have hoff : outputs t = [] := sent_setup h
    rw [hoff]
    refine iff_of_true (fun h => by cases h) ⟨fun hint => ?_, fun hlost => ?_⟩
    · exact output_notMem_setup s _ _ (h.subset (interrupted_enabled hint))
    · exact output_notMem_setup s _ _ (h.subset (offLost_disabled hlost))
  | refused h =>
    have hoff : outputs t = [] := by
      rw [outputs, h, List.filterMap_append, sent_setup List.prefix_rfl]
      rfl
    rw [hoff]
    refine iff_of_true (fun h => by cases h) ⟨fun hint => ?_, fun hlost => ?_⟩
    · have hev := interrupted_enabled hint
      rw [h, List.mem_append, or_iff_right (output_notMem_setup s _ _)] at hev
      simp at hev
    · have hev := offLost_disabled hlost
      rw [h, List.mem_append, or_iff_right (output_notMem_setup s _ _)] at hev
      simp at hev
  | interrupted h hint =>
    have hon : outputs t = [true] := by
      rw [outputs, h, List.filterMap_append, sent_setup List.prefix_rfl]
      rfl
    rw [hon]
    exact iff_of_false (by simp) fun h => h.1 hint
  | swept ps off hps h hint hlost =>
    have hout : outputs t = true :: [Event.output false off].filterMap Event.sent? := by
      rw [outputs, h, List.append_assoc, List.filterMap_append, sent_setup List.prefix_rfl,
        List.cons_append, List.nil_append, List.filterMap_cons_some (by rfl), List.filterMap_append,
        sent_program hps, List.nil_append]
    rw [hout, hlost]
    cases off with
    | false =>
      refine iff_of_false (fun h => ?_) (by simp)
      cases h (List.mem_cons_self ..)
    | true => exact iff_of_true (fun _ => rfl) ⟨hint, by simp⟩

theorem Outcome.setpoints_prefix {t : DpsHistory} (h : Outcome s t) (a : Axis) :
    setpoints a t <+: (s.setup ++ s.program s.start).filterMap (Event.value? a) := by
  rw [List.filterMap_append]
  cases h with
  | unpowered h => exact (h.filterMap (Event.value? a)).trans (List.prefix_append _ _)
  | refused h =>
    rw [setpoints, h, List.filterMap_append]
    exact (List.prefix_append_right_inj _).2 List.nil_prefix
  | interrupted h =>
    rw [setpoints, h, List.filterMap_append]
    exact (List.prefix_append_right_inj _).2 List.nil_prefix
  | swept ps off hps h =>
    rw [setpoints, h, List.append_assoc, List.filterMap_append]
    apply (List.prefix_append_right_inj _).2
    rw [List.cons_append, List.filterMap_cons_none (by rfl), List.filterMap_append]
    change ps.filterMap (Event.value? a) ++ [] <+: _
    rw [List.append_nil]
    exact hps.filterMap (Event.value? a)

theorem Outcome.programmed {t : DpsHistory} {a : Axis} {x : ℚ} (h : Outcome s t)
    (hx : x ∈ setpoints a t) :
    (a = axis.other ∧ x = s.fixed) ∨
      (a = axis ∧ (x = s.start ∨ ∃ v ∈ s.points s.start, x = axis.clamped psu v)) := by
  obtain ⟨ev, hev, hvalue⟩ := List.mem_filterMap.1 ((h.setpoints_prefix a).subset hx)
  rw [List.mem_append] at hev
  rcases hev with hev | hev
  · simp only [Accepted.setup, List.mem_cons, List.not_mem_nil, or_false] at hev
    rcases hev with rfl | rfl
    · simp only [Event.value?, Option.ite_none_right_eq_some, Option.some.injEq] at hvalue
      exact .inl ⟨hvalue.1.symm, hvalue.2.symm⟩
    · simp only [Event.value?, Option.ite_none_right_eq_some, Option.some.injEq] at hvalue
      exact .inr ⟨hvalue.1.symm, .inl hvalue.2.symm⟩
  · obtain ⟨v, hv, rfl⟩ := List.mem_map.1 hev
    simp only [Event.value?, Option.ite_none_right_eq_some, Option.some.injEq] at hvalue
    exact .inr ⟨hvalue.1.symm, .inr ⟨v, hv, hvalue.2.symm⟩⟩

theorem Outcome.length_setpoints {t : DpsHistory} (h : Outcome s t) :
    ((setpoints axis t).length : Int) ≤ ⌊|s.stop - s.start| / s.step + 1 / 100⌋ + 2 := by
  have hsetup : s.setup.filterMap (Event.value? axis) = [s.start] := by
    cases axis <;> rfl
  have hlen := (h.setpoints_prefix axis).length_le
  rw [List.filterMap_append, hsetup, List.length_append] at hlen
  have hprogram := List.length_filterMap_le (Event.value? axis) (s.program s.start)
  rw [Accepted.program, List.length_map, Accepted.length_points, Accepted.turnsLeft,
    Accepted.remaining_start] at hprogram
  have hfloor : 0 ≤ ⌊|s.stop - s.start| / s.step + 1 / 100⌋ :=
    Int.floor_nonneg.2 (add_nonneg (div_nonneg (abs_nonneg _) s.step_pos.le) (by norm_num))
  rw [Accepted.program] at hlen
  rw [List.length_singleton] at hlen
  omega

theorem Outcome.inRange {t : DpsHistory} {a : Axis} {x : ℚ} (h : Outcome s t)
    (hx : x ∈ setpoints a t) : x ∈ Set.Icc 0 (a.limit psu) := by
  obtain ⟨rfl, rfl⟩ | ⟨rfl, rfl | ⟨v, -, rfl⟩⟩ := h.programmed hx
  · exact s.fixed_mem
  · exact s.start_mem
  · exact s.clamped_mem v

theorem Outcome.safe_iff {t : DpsHistory} (h : Outcome s t) :
    SweepSafe s t ↔ ¬ Interrupted t ∧ ¬ OffLost t := by
  rw [← h.off_iff]
  exact ⟨fun hsafe => hsafe.off, fun hoff => ⟨h.length_setpoints, fun _ _ => h.inRange, hoff⟩⟩

theorem validate_accepted (text : RatText) (s : Accepted psu axis) :
    validate text psu axis s.toSweepArgs = .ok s := by
  rw [validate, dif_neg (not_le.2 s.step_pos), dif_neg (by simpa using s.start_mem),
    dif_neg (by simpa using s.stop_mem), dif_neg (by simpa using s.fixed_mem)]

theorem sweep_accepted (text : RatText) (s : Accepted psu axis) :
    sweep (d := d) text psu axis s.toSweepArgs = runSweep text s := by
  rw [sweep, validate_accepted]

def historyOf (p : DpsProg d α) (w : World d) : DpsHistory := w.since (World.after (p w))

theorem outcome_sweep (text : RatText) (s : Accepted psu axis) (w : World d) :
    Outcome s (historyOf (sweep text psu axis s.toSweepArgs) w) := by
  rw [sweep_accepted]
  exact (outcome_runSweep text s).after w

/-- A sweep takes a bounded number of steps, stays within the limits of the supply and switches
the output off again, exactly when nothing raises in the delay behind the packet that enables the
output, and the packet that disables it is written. -/
theorem sweeps_end_off (text : RatText) (psu : Limits) :
    (∀ (s : Accepted psu .voltage) (d : Bench) (w : World d),
      SweepSafe s (historyOf (sweepVoltage text psu s.toSweepArgs) w) ↔
        ¬ Interrupted (historyOf (sweepVoltage text psu s.toSweepArgs) w) ∧
          ¬ OffLost (historyOf (sweepVoltage text psu s.toSweepArgs) w)) ∧
      ∀ (s : Accepted psu .current) (d : Bench) (w : World d),
        SweepSafe s (historyOf (sweepCurrent text psu s.toSweepArgs) w) ↔
          ¬ Interrupted (historyOf (sweepCurrent text psu s.toSweepArgs) w) ∧
            ¬ OffLost (historyOf (sweepCurrent text psu s.toSweepArgs) w) :=
  ⟨fun s _ w => (outcome_sweep text s w).safe_iff, fun s _ w => (outcome_sweep text s w).safe_iff⟩

/-- Every setpoint of the swept quantity lies between the end points of the sweep. -/
def Between (s : Accepted psu axis) (t : DpsHistory) : Prop :=
  ∀ v ∈ setpoints axis t, v ∈ Set.uIcc s.start s.stop

/-- A supply on which nothing fails, and which never answers with a state. -/
def quiet : Bench where
  State := Unit
  respond
    | .write _, u => (.ok (), u)
    | .sleep _, u => (.ok (), u)
    | .inWaiting, u => (.ok (0 : Nat), u)
    | .read _, u => (.ok ([] : Bytes), u)
    | .callback .., u => (.ok true, u)

theorem quiet_setPoint (text : RatText) {value : ℚ} (h : value ∈ Set.Icc 0 (axis.limit psu))
    (w : World quiet) : ∃ w', setPoint text psu axis value w = .ok () w' := by
  have hrange : ¬ (value < 0 ∨ axis.limit psu < value) := by
    rw [not_or, not_lt, not_lt]
    exact h
  rw [setPoint, if_neg hrange]
  exact ⟨_, rfl⟩

theorem quiet_turn (text : RatText) (s : Accepted psu axis) (stepIdx : Nat) (v : ℚ)
    (w : World quiet) :
    ∃ w', turn text s stepIdx v w = .ok ([], false) w' := by
  obtain ⟨w', hset⟩ := quiet_setPoint text (s.clamped_mem v) w
  rw [turn, bind_of_ok hset]
  exact ⟨_, rfl⟩

theorem quiet_sweepLoop (text : RatText) (stepIdx : Nat) (v : ℚ) (w : World quiet) :
    ∃ w' seg, sweepLoop text s stepIdx v [] w = .ok [] w' ∧ w'.trace = w.trace ++ seg ∧
      events seg = s.program v := by
  rw [Accepted.program]
  induction v using Accepted.points.induct s generalizing stepIdx w with
  | case1 v h ih =>
    obtain ⟨w₁, hturn⟩ := quiet_turn text s stepIdx v w
    obtain ⟨t₁, htrace₁, ht₁⟩ := ((emits_turn stepIdx v).runs w).ok hturn
    obtain ⟨w₂, t₂, hloop, htrace₂, ht₂⟩ := ih (stepIdx + 1) w₁
    refine ⟨w₂, t₁ ++ t₂, ?_, ?_, ?_⟩
    · rw [sweepLoop, dif_pos h, bind_of_ok hturn]
      exact hloop
    · rw [htrace₂, htrace₁, List.append_assoc]
    · rw [Accepted.points, dif_pos h, events_append, ht₂, events, ht₁]
      rfl
  | case2 v h =>
    refine ⟨w, [], ?_, (List.append_nil _).symm, ?_⟩
    · rw [sweepLoop, dif_neg h]
      rfl
    · rw [Accepted.points, dif_neg h]
      rfl

/-- On a supply where nothing fails, a sweep programs every value of its loop. -/
theorem quiet_sweep (text : RatText) (s : Accepted psu axis) (w : World quiet) :
    ∀ v ∈ s.points s.start,
      axis.clamped psu v ∈ setpoints axis (historyOf (sweep text psu axis s.toSweepArgs) w) := by
  intro v hv
  obtain ⟨w₁, hfixed⟩ := quiet_setPoint text s.fixed_mem w
  obtain ⟨t₁, htrace₁, -⟩ := ((emits_setPoint s.fixed_mem).runs w).ok hfixed
  obtain ⟨w₂, hstart⟩ := quiet_setPoint text s.start_mem w₁
  obtain ⟨t₂, htrace₂, -⟩ := ((emits_setPoint s.start_mem).runs w₁).ok hstart
  obtain ⟨w₃, t₃, hon, htrace₃⟩ : ∃ w₃ t₃, outputOn w₂ = .ok () w₃ ∧ w₃.trace = w₂.trace ++ t₃ :=
    ⟨_, _, rfl, List.append_assoc ..⟩
  obtain ⟨w₄, t₄, hloop, htrace₄, ht₄⟩ := quiet_sweepLoop (s := s) text 0 s.start w₃
  obtain ⟨w₅, t₅, hoff, htrace₅⟩ : ∃ w₅ t₅, outputOff w₄ = .ok () w₅ ∧ w₅.trace = w₄.trace ++ t₅ :=
    ⟨_, _, rfl, List.append_assoc ..⟩
  have hrun : runSweep text s w = .ok [] w₅ := by
    rw [runSweep, bind_of_ok hfixed, bind_of_ok hstart, bind_of_ok hon, ensuring, hloop]
    dsimp only
    rw [hoff]
  have hhistory : historyOf (sweep text psu axis s.toSweepArgs) w =
      (t₁ ++ t₂ ++ t₃) ++ (t₄ ++ t₅) := by
    rw [historyOf, sweep_accepted, hrun]
    apply World.since_eq
    rw [World.after_ok, htrace₅, htrace₄, htrace₃, htrace₂, htrace₁]
    simp only [List.append_assoc]
  have hmem : Event.setpoint axis (axis.clamped psu v) ∈ events t₄ := by
    rw [ht₄]
    exact List.mem_map_of_mem hv
  rw [hhistory, setpoints, events_append, events_append t₄]
  apply List.mem_filterMap.2
  exact ⟨.setpoint axis _, List.mem_append_right _ (List.mem_append_left _ hmem), if_pos rfl⟩

theorem between_iff (text : RatText) (s : Accepted psu axis) :
    (∀ (d : Bench) (w : World d), Between s (historyOf (sweep text psu axis s.toSweepArgs) w)) ↔
      ∀ k, ¬ s.Overshoots k := by
  rw [← s.points_start]
  constructor
  · intro h v hv
    exact h quiet ⟨(), (), []⟩ _ (quiet_sweep text s _ v hv)
  · intro h d w x hx
    obtain ⟨hother, -⟩ | ⟨-, rfl | ⟨v, hv, rfl⟩⟩ := (outcome_sweep text s w).programmed hx
    · cases axis <;> cases hother
    · exact Set.left_mem_uIcc
    · exact h v hv

/-- A sweep stays between its end points, whatever the supply does, exactly when no step leads past
the stop value by at most the tolerance of the loop. -/
theorem sweeps_between (text : RatText) (psu : Limits) :
    (∀ s : Accepted psu .voltage,
      (∀ (d : Bench) (w : World d),
        Between s (historyOf (sweepVoltage text psu s.toSweepArgs) w)) ↔
        ∀ k, ¬ s.Overshoots k) ∧
      ∀ s : Accepted psu .current,
        (∀ (d : Bench) (w : World d),
          Between s (historyOf (sweepCurrent text psu s.toSweepArgs) w)) ↔
          ∀ k, ¬ s.Overshoots k :=
  ⟨fun s => between_iff text s, fun s => between_iff text s⟩

end

def defaultLimits : Limits := ⟨24, 5⟩

def plainText : RatText := ⟨fun _ => "", fun _ _ => ""⟩

def toAlmostFour : Accepted defaultLimits .voltage where
  start := 0
  stop := 399 / 100
  step := 1
  hold := 1
  fixed := 1
  hasCallback := false
  step_pos := one_pos
  start_mem := by norm_num [Axis.limit, defaultLimits]
  stop_mem := by norm_num [Axis.limit, defaultLimits]
  fixed_mem := by norm_num [Axis.limit, Axis.other, defaultLimits]

/-- The last setpoint is 4 V. -/
theorem sweep_beyond_stop : ¬ ∀ (d : Bench) (w : World d),
    Between toAlmostFour
      (historyOf (sweepVoltage plainText defaultLimits toAlmostFour.toSweepArgs) w) := by
  have hdir : toAlmostFour.direction = 1 := if_pos (by norm_num [toAlmostFour])
  intro h
  apply (between_iff plainText toAlmostFour).1 h 4
  constructor
  · rw [hdir]
    norm_num [toAlmostFour]
  · norm_num [toAlmostFour, Axis.limit, defaultLimits]

/-- A supply on which the third delay is cut short by an interrupt. -/
def interruptedBench : Bench where
  State := Nat
  respond
    | .write _, n => (.ok (), n)
    | .sleep _, n => (if n = 2 then .error .keyboardInterrupt else .ok (), n + 1)
    | .inWaiting, n => (.ok (0 : Nat), n)
    | .read _, n => (.ok ([] : Bytes), n)
    | .callback .., n => (.ok true, n)

/-- The output has been enabled, and stays enabled. -/
theorem sweep_left_on :
    ¬ SweepSafe toAlmostFour (historyOf (d := interruptedBench)
      (sweepVoltage plainText defaultLimits toAlmostFour.toSweepArgs) ⟨(), (0 : Nat), []⟩) := by
  intro h
  have hon : outputs (historyOf (d := interruptedBench)
      (sweepVoltage plainText defaultLimits toAlmostFour.toSweepArgs) ⟨(), (0 : Nat), []⟩) =
        [true] := by decide +kernel
  have hoff := h.off
  rw [hon] at hoff
  cases hoff (List.mem_cons_self ..)

end DPS150
end MesCore
