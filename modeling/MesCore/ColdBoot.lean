import MesCore.BootRoutes

namespace MesCore
set_option autoImplicit true

/-- The supply was told to cut the output and, later, to give it back. -/
def PowerCycled (seg : List (Entry fsmInterface)) : Prop :=
  [did .psuDisableOutput (.ok ()), did .psuEnableOutput (.ok ())].Sublist seg

/-- A power cycle, and evidence of the OS only from the time after it. -/
def ColdBooted (fsm : Station) (seg : List (Entry fsmInterface)) : Prop :=
  ∃ pre post, seg = pre ++ post ∧ PowerCycled pre ∧ OsEvidence fsm post

/-- Entries that leave the power where it is, or bring it. -/
def sparesPower (e : Entry fsmInterface) : Prop := ¬ cutsPower e

theorem made.sparesPower {kind : Call → Bool} (hoff : kind .psuDisableOutput = false)
    (hplug : kind (.input .unplugPower) = false) (e : Entry fsmInterface) (h : made kind e) :
    sparesPower e := by
  intro hc
  unfold cutsPower at hc
  split at hc
  · exact Bool.false_ne_true (hoff.symm.trans h)
  · exact Bool.false_ne_true (hplug.symm.trans h)
  · exact hc

theorem conversing.sparesPower (e : Entry fsmInterface) (h : conversing e) : sparesPower e := by
  intro hc
  unfold cutsPower at hc
  split at hc
  · cases h
  · cases h
  · exact hc

section
variable {fsm : Station} {seg seg' : List (Entry fsmInterface)}

theorem ColdBooted.widen (h : ColdBooted fsm seg) (hs : seg <:+: seg') : ColdBooted fsm seg' := by
  obtain ⟨pre, post, rfl, hc, he⟩ := h
  obtain ⟨s, t, rfl⟩ := hs
  refine ⟨s ++ pre, post ++ t, by simp only [List.append_assoc], ?_, ?_⟩
  · exact hc.trans (List.sublist_append_right _ _)
  · exact he.widen fsm (List.prefix_append post t).isInfix

theorem ColdBooted.cuts (h : ColdBooted fsm seg) : did .psuDisableOutput (.ok ()) ∈ seg := by
  obtain ⟨pre, post, rfl, hc, _⟩ := h
  exact List.mem_append_left _ (hc.subset (List.mem_cons_self ..))

end

variable {d : Hardware} (fsm : Station)

theorem PowerCycled.of_mem {w w₁ w₂ : World d} (hg₁ : w.trace <+: w₁.trace)
    (hg₂ : w₁.trace <+: w₂.trace) (hoff : did .psuDisableOutput (.ok ()) ∈ w.since w₁)
    (hon : did .psuEnableOutput (.ok ()) ∈ w₁.since w₂) : PowerCycled (w.since w₂) := by
  rw [PowerCycled, World.since_append hg₁ hg₂]
  exact (List.singleton_sublist.2 hoff).append (List.singleton_sublist.2 hon)

theorem doHardwareReset_cycles {psu : Psu} {w w' : World d} (hp : fsm.psu = some psu)
    (hpin : resetPin fsm = none) (h : doHardwareReset fsm w = .ok () w') :
    PowerCycled (w.since w') := by
  rcases doHardwareReset_ok fsm h with ⟨hsome, _⟩ | ⟨_, w₁, h₁, h₂⟩
  · rw [hpin] at hsome
    cases hsome
  · exact .of_mem ((within_doPowerOff fsm).ok h₁).grows ((within_doEnergize fsm).ok h₂).grows
      (doPowerOff_psu_ok fsm hp h₁) (doEnergize_psu_ok fsm hp h₂)

theorem resumeOrReset_cycles {psu : Psu} {w w' : World d} (hp : fsm.psu = some psu)
    (hos : w.vars.state = .osUserland) (hpin : resetPin fsm = none)
    (h : resumeOrReset fsm w = .ok false w') : PowerCycled (w.since w') := by
  rcases resumeOrReset_ok fsm h with ⟨ho, _⟩ | ⟨_, ⟨hb, _⟩ | ⟨_, v, v', h₁, h₂, rfl⟩⟩
  · exact absurd hos ho
  · cases hb
  · have hg := (within_tryResumeExistingOs.ok h₁).grows
    exact (doHardwareReset_cycles fsm hp hpin h₂).trans
      (World.since_infix hg (((within_doHardwareReset fsm).ok h₂).grows)
        (List.prefix_refl _)).sublist

theorem coldBootOrResume_dirty {psu : Psu} {target : String} {w w' : World d}
    (hp : fsm.psu = some psu) (hs : w.vars.state = .dirty)
    (h : coldBootOrResume fsm target w = .ok () w') : ColdBooted fsm (w.since w') := by
  rcases coldBootOrResume_ok fsm h with ⟨_, w₁, h₁, h⟩ | ⟨hs', _⟩ | ⟨hs', _⟩ | ⟨hs', _⟩
  · obtain ⟨w₂, w₃, w₄, hr, hn, he, hc, hseen, _⟩ := strapAndBootOs_ok fsm h
    have hg₁ := ((within_doPowerOff fsm).ok h₁).grows
    have hn' : w₂.trace <+: w₃.trace := ⟨_, hn.symm⟩
    have hg₂ := ((within_applyStraps fsm target).ok hr).grows.trans hn'
    have hg₃ := ((within_doEnergize fsm).ok he).grows
    refine ⟨w.since w₄, w₄.since w', World.since_append (hg₁.trans (hg₂.trans hg₃)) hc.grows,
      .of_mem hg₁ (hg₂.trans hg₃) (doPowerOff_psu_ok fsm hp h₁) ?_, .inl hseen⟩
    exact World.mem_since_right hg₂ hg₃ (doEnergize_psu_ok fsm hp he)
  · rw [hs] at hs'
    cases hs'
  · rw [hs] at hs'
    cases hs'
  · rw [hs] at hs'
    simp at hs'

/-- A `boot_to_os` that has to cut the power: the target that the probe found lets nobody log in,
or it does not resume where a reset is a power cycle. -/
def ColdBootDue (s : DutState) (seg : List (Entry fsmInterface)) : Prop :=
  (LoginDue s seg ∧ LoginRefused fsm seg) ∨
    (s = .osUserland ∧ ¬ HeartbeatAnswered seg ∧ resetPin fsm = none)

instance (s : DutState) (seg : List (Entry fsmInterface)) : Decidable (ColdBootDue fsm s seg) :=
  inferInstanceAs (Decidable (_ ∨ _))

section
variable {w w' : World d}

theorem observing_spares (h : Frame.Rel observeFrame w w') :
    Frame.Rel (entryFrame sparesPower) w w' :=
  h.entries fun e he => made.sparesPower rfl rfl e he

theorem conversing_spares (h : Frame.Rel converseFrame w w') :
    Frame.Rel (entryFrame sparesPower) w w' :=
  h.entries conversing.sparesPower

theorem strapAndBootOs_spares {target : String} (h : strapAndBootOs fsm target w = .ok () w') :
    Frame.Rel (entryFrame sparesPower) w w' := by
  obtain ⟨w₁, w₂, w₃, hr, hn, he, hc, _⟩ := strapAndBootOs_ok fsm h
  have hstraps : Frame.Rel (entryFrame sparesPower) w w₁ :=
    ((within_applyStraps fsm target).ok hr).entries fun e he => made.sparesPower rfl rfl e he
  have hnote : Frame.Rel (entryFrame sparesPower) w₁ w₂ :=
    ⟨⟨_, hn, by intro e he; rw [List.mem_singleton.1 he]; exact id⟩, trivial⟩
  have hpower : Frame.Rel (entryFrame sparesPower) w₂ w₃ :=
    ((within_doEnergize fsm).ok he).entries fun e he => made.sparesPower rfl rfl e he
  exact hstraps.trans (hnote.trans (hpower.trans (conversing_spares hc)))

theorem resumeOrReset_spares {b : Bool} (h : resumeOrReset fsm w = .ok b w')
    (hb : b = false → w.vars.state = .osUserland → resetPin fsm ≠ none) :
    Frame.Rel (entryFrame sparesPower) w w' := by
  rcases resumeOrReset_ok fsm h with
    ⟨_, _, rfl⟩ | ⟨hos, ⟨_, w₁, h₁, h₂⟩ | ⟨rfl, w₁, w₂, h₁, h₂, rfl⟩⟩
  · exact .rfl
  · exact observing_spares ((within_tryResumeExistingOs.ok h₁).trans
      ((within_finalizeOsBoot fsm).ok h₂))
  · rcases doHardwareReset_ok fsm h₂ with ⟨_, hr⟩ | ⟨hpin, _⟩
    · have hreset : Frame.Rel (entryFrame sparesPower) w₁ w₂ :=
        hr.entries fun e he => made.sparesPower rfl rfl e he
      have hall := (observing_spares (within_tryResumeExistingOs.ok h₁)).trans hreset
      exact ⟨hall.1, trivial⟩
    · exact absurd hpin (hb rfl hos)

theorem Course.coldBoots {psu : Psu} {target : String} {seg : List (Entry fsmInterface)}
    {v v' : World d} (hp : fsm.psu = some psu)
    (hprobed : v.vars.state ∈ [DutState.powerOff, .osUserland, .bootloader, .energized])
    (h : Course fsm target seg v v') :
    (ColdBootDue fsm v.vars.state seg ∧ ColdBooted fsm (v.since v')) ∨
      (¬ ColdBootDue fsm v.vars.state seg ∧ Frame.Rel (entryFrame sparesPower) v v') := by
  cases h with
  | resumed hos hb h₁ =>
    refine .inr ⟨?_, resumeOrReset_spares fsm h₁ nofun⟩
    rintro (⟨⟨_, hno⟩ | hen, _⟩ | ⟨_, hno, _⟩)
    · exact hno hb
    · rw [hos] at hen
      cases hen
    · exact hno hb
  | loggedIn w₁ hdue hin h₁ h₂ =>
    have hg₁ := ((within_resumeOrReset fsm).ok h₁).grows
    rcases hotLoginOrReset_ok fsm h₂ with ⟨_, hfalse, _⟩ | ⟨_, ⟨_, h₃⟩ | ⟨hfalse, _⟩⟩
    · cases hfalse
    · by_cases hcut : v.vars.state = .osUserland ∧ resetPin fsm = none
      · -- only the reset before the login can have cut the power
        obtain ⟨hos, hpin⟩ := hcut
        have hno : ¬ HeartbeatAnswered seg := by
          rcases hdue with ⟨_, hno⟩ | hen
          · exact hno
          · rw [hos] at hen
            cases hen
        exact .inl ⟨.inr ⟨hos, hno, hpin⟩, _, _,
          World.since_append hg₁ ((within_tryHotLogin fsm).ok h₃).grows,
          resumeOrReset_cycles fsm hp hos hpin h₁, .inl (tryHotLogin_true fsm h₃)⟩
      · refine .inr ⟨?_, ?_⟩
        · rintro (⟨_, hout⟩ | ⟨hos, _, hpin⟩)
          · exact hin hout
          · exact hcut ⟨hos, hpin⟩
        · exact (resumeOrReset_spares fsm h₁ fun _ hos hpin => hcut ⟨hos, hpin⟩).trans
            (conversing_spares ((within_tryHotLogin fsm).ok h₃))
    · cases hfalse
  | refused w₁ w₂ hdue hout h₁ hen h₂ hd h₃ =>
    have hg := ((within_resumeOrReset fsm).ok h₁).grows.trans
      ((within_hotLoginOrReset fsm).ok h₂).grows
    exact .inl ⟨.inl ⟨hdue, hout⟩, (coldBootOrResume_dirty fsm hp hd h₃).widen
      (World.since_infix hg ((within_coldBootOrResume fsm _).ok h₃).grows (List.prefix_refl _))⟩
  | booted hos hen h₁ =>
    refine .inr ⟨?_, ?_⟩
    · rintro (⟨⟨hos', _⟩ | hen', _⟩ | ⟨hos', _⟩)
      · exact hos hos'
      · exact hen hen'
      · exact hos hos'
    · rcases coldBootOrResume_ok fsm h₁ with ⟨hc, _⟩ | ⟨_, h₁⟩ | ⟨_, w₃, h₃, h₁⟩ | ⟨_, rfl⟩
      · rcases List.mem_pair.1 hc with hc | hc
        · rw [hc] at hprobed
          exact absurd hprobed (by decide)
        · rw [hc] at hprobed
          exact absurd hprobed (by decide)
      · exact strapAndBootOs_spares fsm h₁
      · exact conversing_spares (((within_resumeBootloaderToOs fsm).ok h₃).trans
          ((within_finalizeOsBoot fsm).converse.ok h₁))
      · exact .rfl

end

/-- With a supply, a `boot_to_os` from `DIRTY` that returns is a cold boot exactly when the probe
finds a target that neither answers as a running OS nor lets anyone log in, or one whose reset is
itself a power cycle. -/
theorem bootToOs_dirty_coldBooted_iff {psu : Psu} (hp : fsm.psu = some psu)
    {medium : Option String} {w w' : World d} (hs : w.vars.state = .dirty)
    (h : fire fsm (.bootToOs medium) w = .ok () w') :
    ColdBooted fsm (w.since w') ↔ ColdBootDue fsm (routingState fsm w) (w.since w') := by
  obtain ⟨v', hhook, _, htr⟩ := fire_ok fsm h
  obtain ⟨v, ha, hgv, hg, hcourse⟩ := hwBootToOs_course fsm hhook
    (.stateChanged w.vars.state.name (Trigger.bootToOs medium).dest.name
      (Trigger.bootToOs medium).name)
  have hgv' : v'.trace <+: w'.trace := ⟨_, htr.symm⟩
  have hrouting : routingState fsm w = v.vars.state := by
    rw [routingState, aligned, ha, World.after_ok]
  have hsince := World.since_append (hgv.trans hg) hgv'
  rw [World.since_eq htr] at hsince
  rw [← hsince] at hcourse
  have hprobed : v.vars.state ∈ [DutState.powerOff, .osUserland, .bootloader, .energized] := by
    rcases align_ok fsm ha with ⟨htrust, _⟩ | ⟨_, s, u, hu, rfl⟩
    · simp [trustsState, hs] at htrust
    · exact probe_state fsm hu
  rw [hrouting]
  rcases hcourse.coldBoots fsm hp hprobed with ⟨hdue, hcold⟩ | ⟨hno, hspares⟩
  · exact iff_of_true (hcold.widen (World.since_infix hgv hg hgv')) hdue
  · refine iff_of_false ?_ hno
    intro hcold
    obtain ⟨s, hobs⟩ := align_observes fsm w
    rw [aligned, ha, World.after_ok] at hobs
    have hcut := hcold.cuts
    rw [hsince, World.since_append hgv hg, List.mem_append, List.mem_append,
      List.mem_singleton] at hcut
    rcases hcut with (hcut | hcut) | hcut
    · exact (observing_spares hobs).since _ hcut trivial
    · exact hspares.since _ hcut trivial
    · cases hcut

def quietSupply : Station := { psu := some { hasMeasureCurrent := false } }

/-- A test failed and the machine was marked dirty, but the SSH session is still up: the OS is
taken over as it is. -/
theorem bootToOs_dirty_resumes :
    ∃ w w' : World liveTarget, fire quietSupply .markDirty ⟨{}, (), []⟩ = .ok () w ∧
      w.vars.state = .dirty ∧ fire quietSupply (.bootToOs none) w = .ok () w' ∧
      ¬ ColdBooted quietSupply (w.since w') := by
  refine ⟨_, _, rfl, rfl, rfl, fun hcold => ?_⟩
  have hcut : did .psuDisableOutput (.ok ()) ∈ [did .sshIsConnected (.ok true),
      did .sshConnect (.ok ()),
      did (.sshSafeRun heartbeatCmd 2000 false) (.ok { stdout := "MES_HEARTBEAT\n" }),
      did .sshIsConnected (.ok true), .note (.stateChanged "DIRTY" "OS_USERLAND" "boot_to_os")] :=
    hcold.cuts
  simp at hcut

/-- A target that only boots after a power cycle: the first wait for its console times out,
and every later one finds a prompt. -/
def bootingTarget : Hardware where
  State := Nat
  respond
    | .serialIsConnected, n => (.ok true, n)
    | .serialRawReadChunk, n => (.ok (ascii "login:"), n)
    | .streamTurns, n => (.ok n, 1)
    | .rxQueueGet, n => (.ok (.chunk (ascii "root@dut:~# =>")), n)
    | .serialSafeRun _ _ _ _, n => (.ok { stdout := "MES_SYNC" }, n)
    | _, n => (.ok default, n)

theorem bootToOs_dirty_coldBooted :
    ∃ w w' : World bootingTarget, w.vars.state = .dirty ∧
      fire quietSupply (.bootToOs none) w = .ok () w' ∧ ColdBooted quietSupply (w.since w') := by
  let w : World bootingTarget := ⟨{}, (0 : Nat), []⟩
  obtain ⟨_, w', h⟩ : ∃ a w', fire quietSupply (.bootToOs none) w = .ok a w' :=
    of_returned (by decide +kernel)
  have hdue : ColdBootDue quietSupply (routingState quietSupply w)
      (w.since (World.after (fire quietSupply (.bootToOs none) w))) := by decide +kernel
  rw [h, World.after_ok] at hdue
  exact ⟨w, w', rfl, h, (bootToOs_dirty_coldBooted_iff quietSupply rfl rfl h).2 hdue⟩

end MesCore
