import MesCore.ColdBoot

namespace MesCore
set_option autoImplicit true

/-- The straps of the medium were set: its lines were driven to their levels, or the operator was
asked for them. The default medium needs nothing on a target strapped for it. -/
def StrapsSet (fsm : Station) (active medium : String) (seg : List (Entry fsmInterface)) : Prop :=
  (strapMedium medium = "default" ∧ active = "default") ∨
    if fsm.gpio then
      (((fsm.cfg.bootStrapsGpioMap.lookup (strapMedium medium)).getD []).map fun line =>
        did (.gpioSetPin line.1 line.2) (.ok ())).Sublist seg
    else ∃ r, did (.input (.setBootStraps (strapMedium medium))) r ∈ seg

/-- The power was taken, the straps of the medium were applied while it was away, and it was
given back. -/
def StrapsChanged (fsm : Station) (active medium : String) (seg : List (Entry fsmInterface)) :
    Prop :=
  ∃ s₁ off s₂ s₃, seg = s₁ ++ off :: s₂ ++ .note (.bootstrapApplied medium) :: s₃ ∧
    cutsPower off ∧ (∀ e ∈ s₂, ¬ appliesPower e) ∧ StrapsSet fsm active medium s₂ ∧
      ∃ on ∈ s₃, appliesPower on

variable {d : Hardware} (fsm : Station)

/-- The context names the medium and, where it named another one before, the straps changed. -/
def MediumApplied (medium : String) (w w' : World d) : Prop :=
  w'.vars.context.activeBootMedium = medium ∧
    (medium ≠ w.vars.context.activeBootMedium →
      StrapsChanged fsm w.vars.context.activeBootMedium medium (w.since w'))

section
variable {fsm} {active medium : String} {seg seg' : List (Entry fsmInterface)}

theorem StrapsSet.widen (h : StrapsSet fsm active medium seg) (hs : seg.Sublist seg') :
    StrapsSet fsm active medium seg' := by
  rcases h with h | h
  · exact .inl h
  · right
    split
    · rw [if_pos ‹_›] at h
      exact h.trans hs
    · rw [if_neg ‹_›] at h
      obtain ⟨r, hr⟩ := h
      exact ⟨r, hs.subset hr⟩

theorem StrapsChanged.widen (h : StrapsChanged fsm active medium seg) (hs : seg <:+: seg') :
    StrapsChanged fsm active medium seg' := by
  obtain ⟨s₁, off, s₂, s₃, rfl, hoff, hidle, hset, on, hon, hp⟩ := h
  obtain ⟨s, t, rfl⟩ := hs
  exact ⟨s ++ s₁, off, s₂, s₃ ++ t, by simp only [List.append_assoc, List.cons_append], hoff,
    hidle, hset, on, List.mem_append_left _ hon, hp⟩

theorem StrapsChanged.cuts (h : StrapsChanged fsm active medium seg) : ∃ e ∈ seg, cutsPower e := by
  obtain ⟨s₁, off, s₂, s₃, rfl, hoff, _⟩ := h
  exact ⟨off, by simp, hoff⟩

end

theorem setPins_ok {pins : List (String × Bool)} {w w' : World d} (h : setPins pins w = .ok () w') :
    w'.trace = w.trace ++ pins.map fun line => did (.gpioSetPin line.1 line.2) (.ok ()) := by
  induction pins generalizing w with
  | nil =>
    cases h
    exact (List.append_nil _).symm
  | cons line pins ih =>
    obtain ⟨_, w₁, h₁, h⟩ := bind_ok h
    rw [ih h, (call_ok h₁).2, List.append_assoc]
    rfl

theorem applyStraps_sets {medium : String} {w w' : World d}
    (h : applyStraps fsm medium w = .ok () w') :
    StrapsSet fsm w.vars.context.activeBootMedium medium (w.since w') := by
  obtain ⟨ctx, w₀, hc, h⟩ := bind_ok h
  cases hc
  split at h
  · exact .inl ‹_›
  · right
    split at h
    · rw [if_pos ‹_›]
      rw [strapByGpio] at h
      rcases hmap : fsm.cfg.bootStrapsGpioMap.lookup (strapMedium medium) with _ | _ | ⟨pin, pins⟩
      · exact List.nil_sublist _
      · exact List.nil_sublist _
      · rw [hmap] at h
        obtain ⟨_, w₁, h₁, h⟩ := bind_ok h
        have hpins := setPins_ok h₁
        rw [World.since_append ⟨_, hpins.symm⟩ (call_grows h), World.since_eq hpins]
        exact List.sublist_append_left _ _
    · rw [if_neg ‹_›]
      rw [strapByHand] at h
      split at h
      · cases h
      · rcases attempt_ok h with h | ⟨e, w₁, h₁, _, h⟩
        · exact ⟨_, by rw [call_since h]; exact List.mem_singleton_self _⟩
        · refine ⟨.error e, ?_⟩
          have htrace := (call_error h₁).2
          rw [World.since_append ⟨_, htrace.symm⟩ (call_grows h), World.since_eq htrace]
          exact List.mem_append_left _ (List.mem_singleton_self _)

theorem made.not_appliesPower {kind : Call → Bool} (hon : kind .psuEnableOutput = false)
    (hplug : kind (.input .plugInPower) = false) (e : Entry fsmInterface) (h : made kind e) :
    ¬ appliesPower e := by
  intro hc
  unfold appliesPower at hc
  split at hc
  · exact Bool.false_ne_true (hon.symm.trans h)
  · exact Bool.false_ne_true (hplug.symm.trans h)
  · exact hc

theorem StrapsChanged.of_run {medium : String} {w w₁ w₂ w₃ w₄ : World d}
    (hoff : doPowerOff fsm w = .ok () w₁) (hstraps : applyStraps fsm medium w₁ = .ok () w₂)
    (hnote : w₃.trace = w₂.trace ++ [.note (.bootstrapApplied medium)])
    (hon : doEnergize fsm w₃ = .ok () w₄) :
    StrapsChanged fsm w.vars.context.activeBootMedium medium (w.since w₄) := by
  have hrel := (within_doPowerOff fsm).ok hoff
  have hset := applyStraps_sets fsm hstraps
  rw [hrel.2.2] at hset
  replace hstraps := (within_applyStraps fsm medium).ok hstraps
  have hg₁ := hrel.grows
  have hg₃ : w₂.trace <+: w₃.trace := ⟨_, hnote.symm⟩
  have hg₄ := ((within_doEnergize fsm).ok hon).grows
  obtain ⟨off, hmem, hcut⟩ := doPowerOff_ok fsm hoff
  obtain ⟨s₁, s₂, hs⟩ := List.append_of_mem hmem
  refine ⟨s₁, off, s₂ ++ w₁.since w₂, w₃.since w₄, ?_, hcut, ?_,
    hset.widen (List.sublist_append_right _ _), doEnergize_ok fsm hon⟩
  · rw [World.since_append hg₁ (hstraps.grows.trans (hg₃.trans hg₄)),
      World.since_append hstraps.grows (hg₃.trans hg₄), World.since_append hg₃ hg₄,
      World.since_eq hnote, hs]
    simp only [List.append_assoc, List.cons_append, List.nil_append]
  · intro e he
    rcases List.mem_append.1 he with he | he
    · refine made.not_appliesPower rfl rfl e (hrel.since e ?_)
      rw [hs]
      exact List.mem_append_right _ (List.mem_cons_of_mem _ he)
    · exact made.not_appliesPower rfl rfl e (hstraps.since e he)

theorem changeStraps_ok {target : String} {w w' : World d}
    (h : changeStraps fsm target w = .ok () w') :
    ∃ w₁ w₂, doPowerOff fsm w = .ok () w₁ ∧ applyStraps fsm target w₁ = .ok () w₂ ∧
      w'.trace = w₂.trace ++ [.note (.bootstrapApplied target)] ∧
      w'.vars.context.activeBootMedium = target ∧ w'.vars.state = w.vars.state := by
  obtain ⟨_, w₁, h₁, h⟩ := bind_ok h
  obtain ⟨_, w₂, h₂, hm⟩ := bind_ok h
  obtain ⟨_, w₃, h₃, hn⟩ := bind_ok h₂
  have hstraps := (within_applyStraps fsm target).ok h₃
  have hoff := (within_doPowerOff fsm).ok h₁
  cases hn
  cases hm
  exact ⟨w₁, w₃, h₁, h₃, rfl, rfl, hstraps.2.1.trans hoff.2.1⟩

theorem coldBootToBootloader_ok {w w' : World d} (h : coldBootToBootloader fsm w = .ok () w') :
    ∃ w₁, doEnergize fsm w = .ok () w₁ ∧ Frame.Rel (routeFrame trapping) w₁ w' := by
  rw [coldBootToBootloader] at h
  split at h
  · obtain ⟨_, w₁, h₁, h⟩ := bind_ok h
    exact ⟨w₁, h₁, (within_eventWaitForBootloader fsm true).converse.trap.ok h⟩
  · obtain ⟨_, w₁, h₁, h⟩ := bind_ok h
    obtain ⟨_, w₂, h₂, h⟩ := bind_ok h
    obtain ⟨_, w₃, h₃, h⟩ := bind_ok h
    obtain ⟨_, w₄, h₄, h⟩ := bind_ok h
    have hr₂ := (within_eventWaitForOsShell fsm true).trap.ok h₂
    have hr₃ := (within_finalizeOsBoot fsm).converse.trap.ok h₃
    have hr₄ := within_setUbootTrapAndReboot.ok h₄
    exact ⟨w₁, h₁, hr₂.trans (hr₃.trans (hr₄.trans
      ((within_eventWaitForBootloader fsm false).converse.trap.ok h)))⟩

theorem doHardwareReset_medium {w w' : World d} (h : doHardwareReset fsm w = .ok () w') :
    w'.vars.context.activeBootMedium = w.vars.context.activeBootMedium := by
  rcases doHardwareReset_ok fsm h with ⟨_, hr⟩ | ⟨_, w₁, h₁, h₂⟩
  · exact hr.2.2
  · exact ((within_doEnergize fsm).ok h₂).2.2.trans ((within_doPowerOff fsm).ok h₁).2.2

theorem resumeOrReset_medium {w w' : World d} {b : Bool}
    (h : resumeOrReset fsm w = .ok b w') :
    w'.vars.context.activeBootMedium = w.vars.context.activeBootMedium := by
  rcases resumeOrReset_ok fsm h with ⟨_, _, rfl⟩ | ⟨_, ⟨_, w₁, h₁, h₂⟩ | ⟨_, w₁, w₂, h₁, h₂, rfl⟩⟩
  · rfl
  · exact ((within_finalizeOsBoot fsm).ok h₂).2.2.trans (within_tryResumeExistingOs.ok h₁).2.2
  · exact (doHardwareReset_medium fsm h₂).trans (within_tryResumeExistingOs.ok h₁).2.2

theorem hotLoginOrReset_medium {w w' : World d} {b : Bool}
    (h : hotLoginOrReset fsm w = .ok b w') :
    w'.vars.context.activeBootMedium = w.vars.context.activeBootMedium := by
  rcases hotLoginOrReset_ok fsm h with ⟨_, _, rfl⟩ | ⟨_, ⟨_, h₁⟩ | ⟨_, w₁, w₂, h₁, h₂, rfl⟩⟩
  · rfl
  · exact ((within_tryHotLogin fsm).ok h₁).2.2
  · exact (doHardwareReset_medium fsm h₂).trans ((within_tryHotLogin fsm).ok h₁).2.2

theorem routeEnergize_medium {medium : Option String} {w w' : World d}
    (h : routeEnergize fsm medium w = .ok () w') :
    MediumApplied fsm (medium.getD w.vars.context.activeBootMedium) w w' := by
  obtain ⟨ctx, w₀, hc, h⟩ := bind_ok h
  cases hc
  obtain ⟨s, w₀, hs, h⟩ := bind_ok h
  cases hs
  dsimp only at h
  split at h
  · obtain ⟨_, w₁, h₁, h⟩ := bind_ok h
    obtain ⟨v₁, v₂, hoff, hstraps, hnote, hm, _⟩ := changeStraps_ok fsm h₁
    have hon := (within_doEnergize fsm).ok h
    exact ⟨hon.2.2.trans hm, fun _ => .of_run fsm hoff hstraps hnote h⟩
  · rename_i hkeep
    have hsame := of_not_not (not_or.1 hkeep).1
    refine ⟨?_, fun hne => absurd hsame hne⟩
    split at h
    · cases h
      exact hsame.symm
    · obtain ⟨_, w₁, _, h⟩ := bind_ok h
      obtain ⟨_, w₂, h₂, h⟩ := bind_ok h
      have hon := (within_doEnergize fsm).ok h
      cases h₂
      exact hon.2.2

theorem routeBootToBootloader_medium {medium : Option String} {w w' : World d}
    (h : routeBootToBootloader fsm medium w = .ok () w') :
    MediumApplied fsm (medium.getD w.vars.context.activeBootMedium) w w' := by
  obtain ⟨ctx, w₀, hc, h⟩ := bind_ok h
  cases hc
  obtain ⟨s, w₀, hs, h⟩ := bind_ok h
  cases hs
  dsimp only at h
  split at h
  · obtain ⟨_, w₁, h₁, h⟩ := bind_ok h
    obtain ⟨v₁, v₂, hoff, hstraps, hnote, hm, _⟩ := changeStraps_ok fsm h₁
    obtain ⟨w₂, hon, hr⟩ := coldBootToBootloader_ok fsm h
    have hpower := (within_doEnergize fsm).ok hon
    refine ⟨hr.2.2.trans (hpower.2.2.trans hm), fun _ => ?_⟩
    have hg : w.trace <+: w₁.trace :=
      ((within_doPowerOff fsm).ok hoff).grows.trans
        (((within_applyStraps fsm _).ok hstraps).grows.trans ⟨_, hnote.symm⟩)
    exact (StrapsChanged.of_run fsm hoff hstraps hnote hon).widen
      (World.since_infix (List.prefix_refl _) (hg.trans hpower.grows) hr.grows)
  · rename_i hkeep
    have hsame := of_not_not (not_or.1 hkeep).1
    refine ⟨?_, fun hne => absurd hsame hne⟩
    have hrest : Within anyRoute (if w.vars.state = .bootloader then pure ()
        else if w.vars.state = .osUserland then do
          rebootFromOs fsm
          eventWaitForBootloader fsm fsm.cfg.autobootEnabled
        else if w.vars.state = .energized then rebootEnergized fsm
        else coldBootToBootloader fsm : Fsm d Unit) :=
      .ite (.pure _) (.ite ((within_rebootFromOs fsm).any.bind fun _ =>
        (within_eventWaitForBootloader fsm _).any)
        (.ite (within_rebootEnergized fsm).any (within_coldBootToBootloader fsm).any))
    exact (hrest.ok h).2.2.trans hsame.symm

theorem coldBootOrResume_cold {target : String} {w w' : World d}
    (hs : w.vars.state ∈ [DutState.recovery, .dirty])
    (h : coldBootOrResume fsm target w = .ok () w') :
    w'.vars.context.activeBootMedium = target ∧
      StrapsChanged fsm w.vars.context.activeBootMedium target (w.since w') := by
  rcases coldBootOrResume_ok fsm h with ⟨_, w₁, hoff, h⟩ | ⟨hs', _⟩ | ⟨hs', _⟩ | ⟨hs', _⟩
  · obtain ⟨w₂, w₃, w₄, hstraps, hnote, hon, hc, _, hm, _⟩ := strapAndBootOs_ok fsm h
    have hg : w.trace <+: w₃.trace :=
      ((within_doPowerOff fsm).ok hoff).grows.trans
        (((within_applyStraps fsm target).ok hstraps).grows.trans ⟨_, hnote.symm⟩)
    exact ⟨hm, (StrapsChanged.of_run fsm hoff hstraps hnote hon).widen
      (World.since_infix (List.prefix_refl _) (hg.trans ((within_doEnergize fsm).ok hon).grows)
        hc.grows)⟩
  · rw [hs'] at hs
    simp at hs
  · rw [hs'] at hs
    simp at hs
  · simp_all

/-- Every other way through the last blocks keeps the medium or leaves the power on. -/
theorem coldBootOrResume_warm {target : String} {w w' : World d}
    (hs : w.vars.state ∉ [DutState.recovery, .dirty])
    (h : coldBootOrResume fsm target w = .ok () w') :
    w'.vars.context.activeBootMedium = w.vars.context.activeBootMedium ∨
      (w.vars.state = .powerOff ∧ Frame.Rel (entryFrame sparesPower) w w') := by
  rcases coldBootOrResume_ok fsm h with ⟨hs', _⟩ | ⟨hoff, h⟩ | ⟨_, w₁, h₁, h⟩ | ⟨_, rfl⟩
  · exact absurd hs' hs
  · exact .inr ⟨hoff, strapAndBootOs_spares fsm h⟩
  · exact .inl (((within_finalizeOsBoot fsm).ok h).2.2.trans
      ((within_resumeBootloaderToOs fsm).ok h₁).2.2)
  · exact .inl rfl

variable {fsm} in
theorem MediumApplied.widen {medium : String} {w v v' w' : World d}
    (h : MediumApplied fsm medium v v') (hg : w.trace <+: v.trace) (hv : v.trace <+: v'.trace)
    (hg' : v'.trace <+: w'.trace)
    (hm : v.vars.context.activeBootMedium = w.vars.context.activeBootMedium)
    (hm' : w'.vars.context.activeBootMedium = v'.vars.context.activeBootMedium) :
    MediumApplied fsm medium w w' := by
  refine ⟨hm'.trans h.1, ?_⟩
  intro hne
  rw [← hm] at hne ⊢
  exact (h.2 hne).widen (World.since_infix hg hv hg')

/-- A `boot_to_os` that gets to its cold boot with the power still to be cut. -/
def ColdBlockDue (s : DutState) (seg : List (Entry fsmInterface)) : Prop :=
  s ∈ [DutState.recovery, .dirty] ∨ (LoginDue s seg ∧ LoginRefused fsm seg)

instance (s : DutState) (seg : List (Entry fsmInterface)) : Decidable (ColdBlockDue fsm s seg) :=
  inferInstanceAs (Decidable (_ ∨ _))

/-- Whether `boot_to_os` applies another medium is whether it gets to its cold boot. -/
theorem Course.medium {medium : String} {seg : List (Entry fsmInterface)} {v v' : World d}
    (h : Course fsm medium seg v v') :
    (ColdBlockDue fsm v.vars.state seg ∧ MediumApplied fsm medium v v') ∨
      (¬ ColdBlockDue fsm v.vars.state seg ∧
        (v'.vars.context.activeBootMedium = v.vars.context.activeBootMedium ∨
          Frame.Rel (entryFrame sparesPower) v v')) := by
  cases h with
  | resumed hos hb h₁ =>
    refine .inr ⟨?_, .inl (resumeOrReset_medium fsm h₁)⟩
    rw [ColdBlockDue, hos]
    rintro (hs | ⟨⟨_, hno⟩ | hen, _⟩)
    · exact absurd hs (by decide)
    · exact hno hb
    · cases hen
  | loggedIn w₁ hdue hin h₁ h₂ =>
    refine .inr ⟨?_, .inl ((hotLoginOrReset_medium fsm h₂).trans (resumeOrReset_medium fsm h₁))⟩
    rintro (hs | ⟨_, hout⟩)
    · rcases hdue with ⟨hos, _⟩ | hen
      · rw [hos] at hs
        exact absurd hs (by decide)
      · rw [hen] at hs
        exact absurd hs (by decide)
    · exact hin hout
  | refused w₁ w₂ hdue hout h₁ hen h₂ hd h₃ =>
    have hm := (hotLoginOrReset_medium fsm h₂).trans (resumeOrReset_medium fsm h₁)
    have hg := ((within_resumeOrReset fsm).ok h₁).grows.trans
      ((within_hotLoginOrReset fsm).ok h₂).grows
    obtain ⟨hmed, hstraps⟩ := coldBootOrResume_cold fsm (by rw [hd]; decide) h₃
    refine .inl ⟨.inr ⟨hdue, hout⟩, hmed, fun _ => ?_⟩
    rw [hm] at hstraps
    exact hstraps.widen
      (World.since_infix hg ((within_coldBootOrResume fsm _).ok h₃).grows (List.prefix_refl _))
  | booted hos hen h₁ =>
    by_cases hs : v.vars.state ∈ [DutState.recovery, .dirty]
    · obtain ⟨hmed, hstraps⟩ := coldBootOrResume_cold fsm hs h₁
      exact .inl ⟨.inl hs, hmed, fun _ => hstraps⟩
    · refine .inr ⟨?_, ?_⟩
      · rintro (hs' | ⟨⟨hos', _⟩ | hen', _⟩)
        · exact hs hs'
        · exact hos hos'
        · exact hen hen'
      · rcases coldBootOrResume_warm fsm hs h₁ with hm | ⟨_, hr⟩
        · exact .inl hm
        · exact .inr hr

theorem routeBootToOs_sameMedium {medium : String} {w w' : World d}
    (hm : medium = w.vars.context.activeBootMedium)
    (h : routeBootToOs fsm (some medium) w = .ok () w') :
    w'.vars.context.activeBootMedium = medium := by
  rcases routeBootToOs_ok fsm h with h | ⟨w₁, h₁, h⟩
  · exact (resumeOrReset_medium fsm h).trans hm.symm
  · have hm₁ := resumeOrReset_medium fsm h₁
    rcases h with h | ⟨w₂, h₂, h⟩
    · exact ((hotLoginOrReset_medium fsm h).trans hm₁).trans hm.symm
    · have hm₂ := (hotLoginOrReset_medium fsm h₂).trans hm₁
      rcases coldBootOrResume_ok fsm h with ⟨_, w₃, _, h⟩ | ⟨_, h⟩ | ⟨_, w₃, h₃, h⟩ | ⟨_, rfl⟩
      · obtain ⟨_, _, _, _, _, _, _, _, hmed, _⟩ := strapAndBootOs_ok fsm h
        exact hmed
      · obtain ⟨_, _, _, _, _, _, _, _, hmed, _⟩ := strapAndBootOs_ok fsm h
        exact hmed
      · have hr := (within_resumeBootloaderToOs fsm).ok h₃
        have hf := (within_finalizeOsBoot fsm).ok h
        exact hf.2.2.trans (hr.2.2.trans (hm₂.trans hm.symm))
      · exact hm₂.trans hm.symm

/-- The calls that honour a requested medium: all but a `boot_to_os` for another medium than
before that finds a target off, at its bootloader or running. -/
def MediumHonored (t : Trigger) (medium : String) (w : World d) (seg : List (Entry fsmInterface)) :
    Prop :=
  medium = w.vars.context.activeBootMedium ∨
    match t with
    | .bootToOs _ => ColdBlockDue fsm (routingState fsm w) seg
    | _ => True

/-- Which calls apply the medium they were asked for. -/
theorem medium_applied_iff {t : Trigger} {medium : String} (ht : t.medium = some medium)
    {w w' : World d} (h : fire fsm t w = .ok () w') :
    MediumApplied fsm medium w w' ↔ MediumHonored fsm t medium w (w.since w') := by
  obtain ⟨v', hhook, hvars, htr⟩ := fire_ok fsm h
  have hd : t ≠ .markDirty := by
    rintro rfl
    cases ht
  obtain ⟨v, ha, hv, hroute⟩ := hook_ok fsm hd hhook
  obtain ⟨s, hobs⟩ := align_observes fsm w
  rw [hv] at hobs
  have hm : v.vars.context.activeBootMedium = w.vars.context.activeBootMedium := hobs.2.2
  have hm' : w'.vars.context.activeBootMedium = v'.vars.context.activeBootMedium := by rw [hvars]
  have hg' : v'.trace <+: w'.trace := ⟨_, htr.symm⟩
  have hgv : w.trace <+: v.trace := hobs.grows
  have hgr : v.trace <+: v'.trace := ((within_route fsm t).ok hroute).grows
  cases t with
  | powerOff => cases ht
  | bootToRecovery => cases ht
  | markDirty => cases ht
  | energize m =>
    cases ht
    exact iff_of_true ((routeEnergize_medium fsm hroute).widen hgv hgr hg' hm hm') (.inr trivial)
  | bootToBootloader m =>
    cases ht
    exact iff_of_true ((routeBootToBootloader_medium fsm hroute).widen hgv hgr hg' hm hm')
      (.inr trivial)
  | bootToOs m =>
    cases ht
    by_cases hsame : medium = w.vars.context.activeBootMedium
    · refine iff_of_true ⟨?_, fun hne => absurd hsame hne⟩ (.inl hsame)
      rw [hm', routeBootToOs_sameMedium fsm (hsame.trans hm.symm) hroute]
    · have hne : medium ≠ v.vars.context.activeBootMedium := by rwa [hm]
      obtain ⟨v₁, ha₁, _, _, hcourse⟩ := hwBootToOs_course fsm hhook
        (.stateChanged w.vars.state.name (Trigger.bootToOs (some medium)).dest.name
          (Trigger.bootToOs (some medium)).name)
      rw [ha] at ha₁
      cases ha₁
      have hsince := World.since_append (hgv.trans hgr) hg'
      rw [World.since_eq htr] at hsince
      rw [← hsince] at hcourse
      rw [MediumHonored, routingState, hv]
      rcases hcourse.medium fsm with ⟨hdue, happ⟩ | ⟨hno, hkept⟩
      · exact iff_of_true (happ.widen hgv hgr hg' hm hm') (.inr hdue)
      · refine iff_of_false ?_ ?_
        · rintro ⟨hmed, hstraps⟩
          rcases hkept with hkept | hspares
          · rw [hm', hkept] at hmed
            exact hne hmed.symm
          · obtain ⟨e, he, hcut⟩ := (hstraps hsame).cuts
            rw [World.since_append (hgv.trans hgr) hg', World.since_append hgv hgr,
              World.since_eq htr, List.mem_append, List.mem_append, List.mem_singleton] at he
            rcases he with (he | he) | he
            · exact (observing_spares hobs).since e he hcut
            · exact hspares.since e he hcut
            · rw [he] at hcut
              exact hcut
        · rintro (hmed | hdue)
          · exact hsame hmed
          · exact hno hdue

/-- The OS is up and answers over SSH: the request for the SD card is only logged. -/
theorem bootToOs_ignores_medium :
    ∃ w w' : World liveTarget, w.vars.context.activeBootMedium = "default" ∧
      fire quietSupply (.bootToOs (some "sd")) w = .ok () w' ∧
      ¬ MediumApplied quietSupply "sd" w w' := by
  refine ⟨⟨{}, (), []⟩, _, rfl, rfl, fun h => ?_⟩
  have hm : "default" = "sd" := h.1
  simp at hm

theorem bootToOs_applies_medium :
    ∃ w w' : World bootingTarget, w.vars.context.activeBootMedium = "default" ∧
      fire quietSupply (.bootToOs (some "sd")) w = .ok () w' ∧
      MediumApplied quietSupply "sd" w w' := by
  let w : World bootingTarget := ⟨{}, (0 : Nat), []⟩
  obtain ⟨_, w', h⟩ : ∃ a w', fire quietSupply (.bootToOs (some "sd")) w = .ok a w' :=
    of_returned (by decide +kernel)
  have hdue : ColdBlockDue quietSupply (routingState quietSupply w)
      (w.since (World.after (fire quietSupply (.bootToOs (some "sd")) w))) := by decide +kernel
  rw [h, World.after_ok] at hdue
  exact ⟨w, w', rfl, h, (medium_applied_iff quietSupply rfl h).2 (.inr hdue)⟩

end MesCore
