import MesCore.RootfsReports
import Mathlib.Data.List.DropRight

namespace MesCore
set_option autoImplicit true

/-- The operator confirmed that the power is unplugged and, later, that it is back. -/
def Replugged (seg : List (Entry fsmInterface)) : Prop :=
  [did (.input .unplugPower) (.ok ()), did (.input .plugInPower) (.ok ())].Sublist seg

/-- A line was raised, held and lowered. -/
def Pulsed (pin : String) (seg : List (Entry fsmInterface)) : Prop :=
  [did (.gpioSetPin pin true) (.ok ()), did (.sleep 500) (.ok ()),
    did (.gpioSetPin pin false) (.ok ())].Sublist seg

/-- The power went and came back, by the supply or by hand. -/
def PowerReturned (fsm : Station) (seg : List (Entry fsmInterface)) : Prop :=
  match fsm.psu with
  | some _ => PowerCycled seg
  | none => Replugged seg

/-- The target was restarted: by its power or by its reset line. -/
def Rebooted (fsm : Station) (seg : List (Entry fsmInterface)) : Prop :=
  PowerReturned fsm seg ∨ ∃ pin, resetPin fsm = some pin ∧ Pulsed pin seg

/-- Entries that are meant to take the target down, however they were answered. -/
def takesDown (fsm : Station) : Entry fsmInterface → Prop
  | .call .psuDisableOutput _ => True
  | .call (.input .unplugPower) _ => True
  | .call (.gpioSetPin pin level) _ => resetPin fsm = some pin ∧ level = true
  | _ => False

/-- The target was rebooted, and `r` is the last root filesystem it has reported since. -/
def CameBackWith (fsm : Station) (seg : List (Entry fsmInterface)) (r : String) : Prop :=
  ∃ pre post, seg = pre ++ post ∧ Rebooted fsm pre ∧ (∀ e ∈ post, ¬ takesDown fsm e) ∧
    lastReport fsm post = some r

section
variable {d : Hardware} (fsm : Station) (safeRun : String → Nat → Bool → Fsm d CommandResult)

/-- The reboot of `verify_partition_flip`. -/
def rebootBoard : Fsm d Unit := do
  fire fsm .markDirty
  fire fsm (.bootToOs none)

def flipRejected (originalRootfs : String) : Err :=
  .runtimeError
    (s!"SWUpdate Failed: Board rebooted back into the original partition ({originalRootfs}). " ++
      "The update was rejected by U-Boot.")

/-- What follows a flip: an update that is still on trial is committed. -/
def commitUpdate : Fsm d Unit := do
  let res ← safeRun "swupdate -g" 3000 false
  if occursIn "testing" (String.ofList (res.stdout.toList.map Char.toLower)) then do
    let _ ← safeRun "fw_setenv upgrade_available 0" 3000 false
    let _ ← safeRun "fw_setenv bootcount 0" 3000 false
    pure ()
  else pure ()

/-- `SWUpdateValidator.verify_partition_flip`; `safeRun` is the `safe_run` of its transport. -/
def verifyPartitionFlip (originalRootfs : String) : Fsm d Unit := do
  rebootBoard fsm
  let ctx ← getContext
  if originalRootfs ≠ "UNKNOWN" ∧ ctx.activeRootfs = originalRootfs then
    fail (flipRejected originalRootfs)
  else commitUpdate safeRun

end

section
variable {d : Hardware} (fsm : Station) (originalRootfs : String)

/-- The reboot left the original root filesystem in the context, which is what the verdict
rejects. -/
def Rejects (w : World d) : Prop :=
  originalRootfs ≠ "UNKNOWN" ∧ ∃ w₁, rebootBoard fsm w = .ok () w₁ ∧
    w₁.vars.context.activeRootfs = originalRootfs

/-- Whatever is done to the board: once it was rebooted, every report names another root
filesystem. -/
def FlipsOnReboot (s : d.State) : Prop :=
  ∀ pre post s', History d s (pre ++ post) s' → Rebooted fsm pre →
    ∀ e ∈ post, ∀ r, rootfsReport fsm e = some r → r ≠ "UNKNOWN" ∧ r ≠ originalRootfs

/-- A flip is only accepted for a board that was rebooted and has since reported another root
filesystem, and never rejected for a board that a reboot flips. -/
def RightVerdict (safeRun : String → Nat → Bool → Fsm d CommandResult) (w : World d) : Prop :=
  ((∃ w', verifyPartitionFlip fsm safeRun originalRootfs w = .ok () w') →
      ∃ r, CameBackWith fsm (w.since (World.after (rebootBoard fsm w))) r ∧ r ≠ "UNKNOWN" ∧
        r ≠ originalRootfs) ∧
    (FlipsOnReboot fsm originalRootfs w.dev → ¬ Rejects fsm originalRootfs w)

/-- The cold boot of `_hw_boot_to_os` up to its finish, from straps on. -/
def strapAndBoot (target : String) : Fsm d Unit := do
  doApplyBootstrap fsm target
  modifyContext fun c => { c with activeBootMedium := target }
  coldBootToOs fsm

/-- The world after `mark_dirty`. -/
def marked (w : World d) : World d := World.after (fire fsm .markDirty w)

/-- The replies that make a `boot_to_os` reset the target: an OS that does not answer, or a console
that lets nobody log in. -/
def ResetDue (s : DutState) (seg : List (Entry fsmInterface)) : Prop :=
  (s = .osUserland ∧ ¬ HeartbeatAnswered seg) ∨ (s = .energized ∧ LoginRefused fsm seg)

instance (s : DutState) (seg : List (Entry fsmInterface)) : Decidable (ResetDue fsm s seg) :=
  inferInstanceAs (Decidable (_ ∨ _))

def afterSessions (seg : List (Entry fsmInterface)) : List (Entry fsmInterface) :=
  seg.rtakeWhile fun e => !unsubscribes e

/-- The board has to be reset on its way up, by something that restarts it, and names its root
filesystem once its shell has shown. -/
def FlipObserved (w : World d) (seg : List (Entry fsmInterface)) : Prop :=
  ResetDue fsm (routingState fsm (marked fsm w)) seg ∧
    (fsm.psu.isSome = true ∨ (resetPin fsm).isSome = true ∨ Replugged seg) ∧
    ∃ r, lastReport fsm (afterSessions seg) = some r ∧ r ≠ "UNKNOWN"

end

theorem sublist_of_not_mem_right {x : α} {as bs cs : List α} (h : (as ++ [x]).Sublist (bs ++ cs))
    (hx : x ∉ cs) : (as ++ [x]).Sublist bs := by
  obtain ⟨l₁, l₂, heq, h₁, h₂⟩ := List.sublist_append_iff.1 h
  rcases List.eq_nil_or_concat l₂ with rfl | ⟨l, y, rfl⟩
  · rw [heq, List.append_nil]
    exact h₁
  · rw [List.concat_eq_append, ← List.append_assoc] at heq
    have hy := List.append_inj_right' heq rfl
    cases hy
    exact absurd (h₂.subset (by simp)) hx

theorem sublist_of_not_mem_left {x : α} {as bs cs : List α} (h : (x :: as).Sublist (bs ++ cs))
    (hx : x ∉ bs) : (x :: as).Sublist cs := by
  induction bs with
  | nil => exact h
  | cons b bs ih =>
    cases h with
    | cons _ h => exact ih h fun hmem => hx (List.mem_cons_of_mem _ hmem)
    | cons_cons _ _ => exact absurd (List.mem_cons_self ..) hx

section
variable {fsm : Station} {seg seg' : List (Entry fsmInterface)} {r : String}

/-- A reboot is a sequence of calls, the first of which takes the target down. -/
theorem Rebooted.sequence (h : Rebooted fsm seg) : ∃ e es, MesCore.takesDown fsm e ∧
    (e :: es).Sublist seg ∧ ∀ seg', (e :: es).Sublist seg' → Rebooted fsm seg' := by
  rcases h with h | ⟨pin, hpin, h⟩
  · unfold PowerReturned at h
    split at h
    · rename_i hp
      refine ⟨did .psuDisableOutput (.ok ()), _, trivial, h, fun seg' h' => .inl ?_⟩
      rw [PowerReturned, hp]
      exact h'
    · rename_i hp
      refine ⟨did (.input .unplugPower) (.ok ()), _, trivial, h, fun seg' h' => .inl ?_⟩
      rw [PowerReturned, hp]
      exact h'
  · exact ⟨did (.gpioSetPin pin true) (.ok ()), _, ⟨hpin, rfl⟩, h,
      fun seg' h' => .inr ⟨pin, hpin, h'⟩⟩

theorem Rebooted.widen (h : Rebooted fsm seg) (hs : seg.Sublist seg') : Rebooted fsm seg' := by
  obtain ⟨e, es, _, hsub, hall⟩ := h.sequence
  exact hall seg' (hsub.trans hs)

theorem Rebooted.takesDown (h : Rebooted fsm seg) : ∃ e ∈ seg, MesCore.takesDown fsm e := by
  obtain ⟨e, es, hd, hsub, _⟩ := h.sequence
  exact ⟨e, hsub.subset (List.mem_cons_self ..), hd⟩

theorem Rebooted.of_note {n : Note} (h : Rebooted fsm (.note n :: seg)) : Rebooted fsm seg := by
  obtain ⟨e, es, hd, hsub, hall⟩ := h.sequence
  cases hsub with
  | cons _ hsub => exact hall seg hsub
  | cons_cons _ _ => exact hd.elim

theorem CameBackWith.rebooted (h : CameBackWith fsm seg r) : Rebooted fsm seg := by
  obtain ⟨pre, post, rfl, hpre, _⟩ := h
  exact hpre.widen (List.sublist_append_left _ _)

theorem lastReport_suffix (h : seg' <:+ seg) (hlast : lastReport fsm seg' = some r) :
    lastReport fsm seg = some r := by
  obtain ⟨pre, rfl⟩ := h
  rw [lastReport_append, hlast]
  rfl

/-- A report before the target is taken down for the last time does not count. -/
theorem CameBackWith.last_down (h : CameBackWith fsm (seg ++ seg') r)
    (hdown : ∃ e ∈ seg', MesCore.takesDown fsm e) : lastReport fsm seg' = some r := by
  obtain ⟨pre, post, heq, _, hcalm, hlast⟩ := h
  rcases List.append_eq_append_iff.1 heq with ⟨mid, rfl, rfl⟩ | ⟨mid, rfl, rfl⟩
  · exact lastReport_suffix (List.suffix_append _ _) hlast
  · obtain ⟨e, he, hd⟩ := hdown
    exact absurd hd (hcalm e (List.mem_append_right _ he))

theorem CameBackWith.cons (h : CameBackWith fsm seg r) (e : Entry fsmInterface) :
    CameBackWith fsm (e :: seg) r := by
  obtain ⟨pre, post, rfl, hpre, hcalm, hlast⟩ := h
  exact ⟨e :: pre, post, rfl, hpre.widen (List.sublist_cons_self _ _), hcalm, hlast⟩

theorem CameBackWith.concat (h : CameBackWith fsm seg r) (n : Note) :
    CameBackWith fsm (seg ++ [.note n]) r := by
  obtain ⟨pre, post, rfl, hpre, hcalm, hlast⟩ := h
  refine ⟨pre, post ++ [.note n], List.append_assoc _ _ _, hpre, ?_, ?_⟩
  · intro e he
    rcases List.mem_append.1 he with he | he
    · exact hcalm e he
    · rw [List.mem_singleton.1 he]
      exact id
  · rw [lastReport_append, hlast]
    rfl

theorem CameBackWith.of_concat {n : Note} (h : CameBackWith fsm (seg ++ [.note n]) r) :
    CameBackWith fsm seg r := by
  obtain ⟨pre, post, heq, hpre, hcalm, hlast⟩ := h
  rcases List.eq_nil_or_concat post with rfl | ⟨post', e, rfl⟩
  · cases hlast
  · rw [List.concat_eq_append, ← List.append_assoc] at heq
    obtain ⟨rfl, he⟩ := List.append_inj' heq rfl
    cases he
    rw [List.concat_eq_append] at hcalm hlast
    refine ⟨pre, post', rfl, hpre, fun e he => hcalm e (List.mem_append_left _ he), ?_⟩
    rw [lastReport_append] at hlast
    exact hlast

theorem CameBackWith.of_note {n : Note} (h : CameBackWith fsm (.note n :: seg) r) :
    CameBackWith fsm seg r := by
  obtain ⟨pre, post, heq, hpre, hcalm, hlast⟩ := h
  cases pre with
  | nil =>
    obtain ⟨e, he, _⟩ := hpre.takesDown
    cases he
  | cons e pre =>
    cases heq
    exact ⟨pre, post, rfl, hpre.of_note, hcalm, hlast⟩

end

section
variable {d : Hardware} (fsm : Station) {w w' v : World d}

theorem conversing.spares (e : Entry fsmInterface) (h : conversing e) : ¬ takesDown fsm e := by
  intro hd
  unfold takesDown at hd
  split at hd
  · cases h
  · cases h
  · cases h
  · exact hd

theorem converse_spares (h : Frame.Rel converseFrame w w') :
    ∀ e ∈ w.since w', ¬ takesDown fsm e := by
  intro e he
  exact conversing.spares fsm e (h.since e he)

theorem observe_spares (h : Frame.Rel observeFrame w w') :
    ∀ e ∈ w.since w', ¬ takesDown fsm e := by
  intro e he
  exact conversing.spares fsm e (conversing_of_observing e (h.since e he))

theorem align_spares (h : alignToPhysicalState fsm false w = .ok () w') :
    w.trace <+: w'.trace ∧ ∀ e ∈ w.since w', ¬ takesDown fsm e := by
  obtain ⟨s, hs⟩ := align_observes fsm w
  rw [aligned, h] at hs
  refine ⟨hs.grows, ?_⟩
  intro e he
  exact conversing.spares fsm e (conversing_of_observing e (hs.since e he))

theorem hotLoginOrReset_login (h : hotLoginOrReset fsm w = .ok true w') :
    ∃ v, eventWaitForOsShell fsm false w = .ok () v ∧ finalizeOsBoot fsm v = .ok () w' := by
  rcases hotLoginOrReset_ok fsm h with ⟨_, hb, _⟩ | ⟨_, ⟨_, h⟩ | ⟨hb, _⟩⟩
  · cases hb
  · rcases attempt_ok h with h | ⟨e, w₁, _, _, h⟩
    · obtain ⟨_, v, hv, h⟩ := bind_ok h
      obtain ⟨_, v', hv', h⟩ := bind_ok h
      cases h
      exact ⟨v, hv, hv'⟩
    · cases h
  · cases hb

theorem strapAndBootOs_split {target : String} (h : strapAndBootOs fsm target w = .ok () w') :
    ∃ v, strapAndBoot fsm target w = .ok () v ∧ finalizeOsBoot fsm v = .ok () w' := by
  obtain ⟨_, w₁, h₁, h⟩ := bind_ok h
  obtain ⟨_, w₂, h₂, h⟩ := bind_ok h
  obtain ⟨_, v, hv, h⟩ := bind_ok h
  refine ⟨v, ?_, h⟩
  rw [strapAndBoot, bind_of_ok h₁, bind_of_ok h₂, hv]

theorem pulseResetPin_pulses {pin : String} (h : pulseResetPin pin w = .ok () w') :
    Pulsed pin (w.since w') := by
  obtain ⟨_, w₁, h₁, h⟩ := bind_ok h
  obtain ⟨_, w₂, h₂, h⟩ := bind_ok h
  obtain ⟨_, w₃, h₃, h⟩ := bind_ok h
  have htrace : w'.trace = w.trace ++ ([did (.gpioSetPin pin true) (.ok ()),
      did (.sleep 500) (.ok ()), did (.gpioSetPin pin false) (.ok ())] ++
        [did (.sleep 500) (.ok ())]) := by
    rw [(call_ok h).2, (call_ok h₃).2, (call_ok h₂).2, (call_ok h₁).2]
    simp only [List.append_assoc, List.cons_append, List.nil_append]
  rw [Pulsed, World.since_eq htrace]
  exact List.sublist_append_left _ _

theorem doHardwareReset_reboots (hs : w.vars.state ≠ .powerOff)
    (hp : fsm.psu.isSome = true ∨ (resetPin fsm).isSome = true)
    (h : doHardwareReset fsm w = .ok () w') : Rebooted fsm (w.since w') := by
  cases hpin : resetPin fsm with
  | some pin =>
    rw [doHardwareReset, hpin] at h
    dsimp only at h
    rw [bind_of_ok (getState_apply w), if_neg hs] at h
    exact .inr ⟨pin, hpin, pulseResetPin_pulses h⟩
  | none =>
    rw [hpin] at hp
    cases hpsu : fsm.psu with
    | none =>
      rw [hpsu] at hp
      rcases hp with hp | hp <;> cases hp
    | some psu =>
      left
      rw [PowerReturned, hpsu]
      exact doHardwareReset_cycles fsm hpsu hpin h

theorem resumeOrReset_reboots (hos : w.vars.state = .osUserland)
    (hp : fsm.psu.isSome = true ∨ (resetPin fsm).isSome = true)
    (h : resumeOrReset fsm w = .ok false w') : Rebooted fsm (w.since w') := by
  rcases resumeOrReset_ok fsm h with ⟨ho, _⟩ | ⟨_, ⟨hb, _⟩ | ⟨_, v, v', h₁, h₂, rfl⟩⟩
  · exact absurd hos ho
  · cases hb
  · have hr := within_tryResumeExistingOs.ok h₁
    have hv : v.vars.state ≠ .powerOff := by
      rw [hr.2.1, hos]
      intro hw
      cases hw
    exact (doHardwareReset_reboots fsm hv hp h₂).widen (World.since_infix hr.grows
      ((within_doHardwareReset fsm).ok h₂).grows (List.prefix_refl _)).sublist

theorem hotLoginOrReset_reboots (hen : w.vars.state = .energized)
    (hp : fsm.psu.isSome = true ∨ (resetPin fsm).isSome = true)
    (h : hotLoginOrReset fsm w = .ok false w') : Rebooted fsm (w.since w') := by
  rcases hotLoginOrReset_ok fsm h with ⟨he, _⟩ | ⟨_, ⟨hb, _⟩ | ⟨_, v, v', h₁, h₂, rfl⟩⟩
  · exact absurd hen he
  · cases hb
  · have hr := (within_tryHotLogin fsm).ok h₁
    have hv : v.vars.state ≠ .powerOff := by
      rw [hr.2.1, hen]
      intro hw
      cases hw
    exact (doHardwareReset_reboots fsm hv hp h₂).widen (World.since_infix hr.grows
      ((within_doHardwareReset fsm).ok h₂).grows (List.prefix_refl _)).sublist

theorem not_rebooted {seg : List (Entry fsmInterface)} (h : ∀ e ∈ seg, ¬ takesDown fsm e) :
    ¬ Rebooted fsm seg := by
  intro hr
  obtain ⟨e, he, hd⟩ := hr.takesDown
  exact h e he hd

def setsPin : Entry fsmInterface → Prop
  | .call (.gpioSetPin _ _) _ => True
  | _ => False

theorem booting.leavesPins (e : Entry fsmInterface) (h : booting e) : ¬ setsPin e := by
  intro hp
  unfold setsPin at hp
  split at hp
  · rcases h with h | h | h <;> cases h
  · exact hp

theorem applyStraps_ok {medium : String} (h : applyStraps fsm medium w = .ok () w') :
    ∃ pins rest, w'.trace = w.trace ++ (pins ++ rest) ∧ (∀ e ∈ pins, setsPin e) ∧
      ∀ e ∈ rest, ¬ setsPin e := by
  have hpins (pins : List (String × Bool)) :
      Within (entryFrame setsPin) (setPins pins : Fsm d Unit) := by
    induction pins with
    | nil => exact .pure _
    | cons pin pins ih =>
      exact Within.bind (.call (I := fsmInterface) _ fun _ => trivial) fun _ => ih
  have hone {p : Fsm d Unit} (hp : Within (entryFrame fun e => ¬ setsPin e) p)
      (h : p w = .ok () w') : ∃ pins rest, w'.trace = w.trace ++ (pins ++ rest) ∧
        (∀ e ∈ pins, setsPin e) ∧ ∀ e ∈ rest, ¬ setsPin e := by
    obtain ⟨⟨seg, hseg, hrest⟩, _⟩ := hp.ok h
    exact ⟨[], seg, hseg, List.forall_mem_nil _, hrest⟩
  obtain ⟨ctx, w₀, hc, h⟩ := bind_ok h
  cases hc
  split at h
  · exact hone (.pure _) h
  · split at h
    · rw [strapByGpio] at h
      rcases hmap : fsm.cfg.bootStrapsGpioMap.lookup (strapMedium medium) with _ | _ | ⟨pin, map⟩
      · rw [hmap] at h
        exact hone (.pure _) h
      · rw [hmap] at h
        exact hone (.pure _) h
      · rw [hmap] at h
        obtain ⟨_, w₁, h₁, h⟩ := bind_ok h
        obtain ⟨⟨pins, hseg, hset⟩, _⟩ := (hpins _).ok h₁
        refine ⟨pins, [did (.sleep 500) (.ok ())], ?_, hset, ?_⟩
        · rw [(call_ok h).2, hseg, List.append_assoc]
        · intro e he
          rw [List.mem_singleton.1 he]
          exact id
    · rw [strapByHand] at h
      split at h
      · cases h
      · have hask (c : Call) (hc : ∀ r, ¬ setsPin (did c r)) :
            Within (entryFrame fun e => ¬ setsPin e) (ask c : Fsm d c.Ans) :=
          .call (I := fsmInterface) c hc
        exact hone ((hask (.input _) fun _ => id).attempt _ fun _ => hask (.sleep _) fun _ => id) h

theorem strapAndBootOs_not_rebooted {target : String} {seg : List (Entry fsmInterface)}
    (hcalm : ∀ e ∈ seg, ¬ takesDown fsm e) (h : strapAndBootOs fsm target w = .ok () w') :
    ¬ Rebooted fsm (seg ++ w.since w') := by
  have hspares := (strapAndBootOs_spares fsm h).since
  obtain ⟨_, v, hb, h⟩ := bind_ok h
  obtain ⟨_, w₁, h₁, hn⟩ := bind_ok hb
  obtain ⟨pins, rest, hseg, hset, hleave⟩ := applyStraps_ok fsm h₁
  cases hn
  have hboot : Within (routeFrame booting) (do
      coldBootToOs fsm
      finalizeOsBoot fsm : Fsm d Unit) :=
    (within_coldBootToOs fsm).bind fun _ => (within_finalizeOsBoot fsm).converse.trap.boots
  obtain ⟨_, w₂, h₂, h⟩ := bind_ok h
  cases h₂
  obtain ⟨⟨seg', hseg', hboots⟩, _⟩ := hboot.ok h
  have hsince : w.since w' = pins ++ (rest ++ ([.note (.bootstrapApplied target)] ++ seg')) := by
    apply World.since_eq
    rw [hseg', hseg]
    simp only [List.append_assoc]
  intro hr
  rcases hr with hp | ⟨pin, hpin, hp⟩
  · have hoff : did .psuDisableOutput (.ok ()) ∈ seg ++ w.since w' ∨
        did (.input .unplugPower) (.ok ()) ∈ seg ++ w.since w' := by
      unfold PowerReturned at hp
      split at hp
      · exact .inl (List.Sublist.subset hp (List.mem_cons_self ..))
      · exact .inr (List.Sublist.subset hp (List.mem_cons_self ..))
    rcases hoff with hoff | hoff
    · rcases List.mem_append.1 hoff with hoff | hoff
      · exact hcalm _ hoff trivial
      · exact hspares _ hoff trivial
    · rcases List.mem_append.1 hoff with hoff | hoff
      · exact hcalm _ hoff trivial
      · exact hspares _ hoff trivial
  · -- the whole pulse would have to lie among the lines that the straps set
    have hraise : did (.gpioSetPin pin true) (.ok ()) ∉ seg := fun hmem => hcalm _ hmem ⟨hpin, rfl⟩
    have hlower : did (.gpioSetPin pin false) (.ok ()) ∉
        rest ++ ([.note (.bootstrapApplied target)] ++ seg') := by
      intro hmem
      simp only [List.mem_append, List.mem_singleton] at hmem
      rcases hmem with hmem | hmem | hmem
      · exact hleave _ hmem trivial
      · cases hmem
      · exact booting.leavesPins _ (hboots _ hmem) trivial
    have hlate := sublist_of_not_mem_left hp hraise
    rw [hsince] at hlate
    have hpins : [did (.gpioSetPin pin true) (.ok ()), did (.sleep 500) (.ok ()),
        did (.gpioSetPin pin false) (.ok ())].Sublist pins :=
      @sublist_of_not_mem_right _ _ [_, _] _ _ hlate hlower
    exact hset (did (.sleep 500) (.ok ())) (hpins.subset (by simp))

/-- From one world to the other the target was taken down, and has reported nothing since its
shell showed on the console. -/
structure ResetTo (w v : World d) : Prop where
  grows : w.trace <+: v.trace
  closed : ∃ s r, w.since v = s ++ [did .serialUnsubscribe r]
  reboots : (fsm.psu.isSome = true ∨ (resetPin fsm).isSome = true) → Rebooted fsm (w.since v)
  unreported : ∃ u : World d, w.trace <+: u.trace ∧ Recorded reportless u v ∧
    ∃ e ∈ u.since v, takesDown fsm e

variable {fsm} in
theorem ResetTo.after {w₀ : World d} (h : ResetTo fsm w v) (hg : w₀.trace <+: w.trace) :
    ResetTo fsm w₀ v where
  grows := hg.trans h.grows
  closed := by
    obtain ⟨s, r, hs⟩ := h.closed
    exact ⟨w₀.since w ++ s, r, by rw [World.since_append hg h.grows, hs, List.append_assoc]⟩
  reboots hp := by
    exact (h.reboots hp).widen (World.since_infix hg h.grows (List.prefix_refl _)).sublist
  unreported := by
    obtain ⟨u, hu, hrest⟩ := h.unreported
    exact ⟨u, hg.trans hu, hrest⟩

theorem cutsPower.takesDown {e : Entry fsmInterface} (h : cutsPower e) : takesDown fsm e := by
  unfold cutsPower at h
  split at h
  · trivial
  · trivial
  · exact h.elim

theorem doHardwareReset_down (hs : w.vars.state ≠ .powerOff)
    (h : doHardwareReset fsm w = .ok () w') : ∃ e ∈ w.since w', takesDown fsm e := by
  rcases doHardwareReset_ok fsm h with ⟨hpin, _⟩ | ⟨_, w₁, h₁, h₂⟩
  · exact (doHardwareReset_reboots fsm hs (.inr hpin) h).takesDown
  · obtain ⟨e, he, hcut⟩ := doPowerOff_ok fsm h₁
    exact ⟨e, World.mem_since_left ((within_doPowerOff fsm).ok h₁).grows
      ((within_doEnergize fsm).ok h₂).grows he, hcut.takesDown fsm⟩

theorem eventWaitForOsShell_closes {flush : Bool}
    (h : eventWaitForOsShell fsm flush w = .ok () w') : ∃ u : World d, w.trace <+: u.trace ∧
      w'.trace = u.trace ++ [did .serialUnsubscribe (.ok ())] := by
  obtain ⟨done, w₁, h₁, h⟩ := bind_ok h
  have hw : w' = w₁ := by
    cases done with
    | true =>
      cases h
      rfl
    | false => cases h
  obtain ⟨_, v₁, h₂, h₁⟩ := bind_ok h₁
  obtain ⟨_, v₂, h₃, h₁⟩ := bind_ok h₁
  obtain ⟨v₃, h₄, h₅⟩ := ensuring_ok h₁
  have hflush : Within observeFrame (onlyIf flush (ask .serialFlushBuffers) : Fsm d Unit) :=
    .onlyIf _ (within_ask _ rfl)
  have hloop : Boots (do
      let turns : Nat ← ask .streamTurns
      streamLoop (osShellStream fsm) (some (ascii "\n")) (osShellEvent fsm) turns
        (osShellStream fsm).start : Fsm d Bool) :=
    (boots_ask _ rfl).bind fun _ =>
      boots_streamLoop _ _ (fun ev => (bare_osShellEvent fsm ev).silent.boots) _ _
  refine ⟨v₃, (hflush.ok h₂).grows.trans ((call_grows h₃).trans (hloop.ok h₄).grows), ?_⟩
  rw [hw, (call_ok h₅).2]

theorem coldBootToOs_closes (h : coldBootToOs fsm w = .ok () w') : ∃ u : World d,
    w.trace <+: u.trace ∧ w'.trace = u.trace ++ [did .serialUnsubscribe (.ok ())] := by
  rw [coldBootToOs] at h
  split at h
  · obtain ⟨_, w₁, h₁, h⟩ := bind_ok h
    obtain ⟨_, w₂, h₂, h⟩ := bind_ok h
    obtain ⟨_, w₃, h₃, h⟩ := bind_ok h
    obtain ⟨_, w₄, h₄, h⟩ := bind_ok h
    obtain ⟨_, w₅, h₅, h⟩ := bind_ok h
    obtain ⟨u, hg, htrace⟩ := eventWaitForOsShell_closes fsm h
    have hnote : w₄.trace <+: w₅.trace := by
      cases h₅
      exact List.prefix_append ..
    refine ⟨u, ?_, htrace⟩
    exact ((within_doEnergize fsm).ok h₁).grows.trans
      (((within_eventWaitForBootloader fsm true).ok h₂).grows.trans
        ((call_grows h₃).trans ((call_grows h₄).trans (hnote.trans hg))))
  · obtain ⟨_, w₁, h₁, h⟩ := bind_ok h
    obtain ⟨u, hg, htrace⟩ := eventWaitForOsShell_closes fsm h
    exact ⟨u, ((within_doEnergize fsm).ok h₁).grows.trans hg, htrace⟩

/-- A run that ends with a session on the console ends with its last entry. -/
theorem closed_since {u : World d} {r : Except Err Unit} (hg : w.trace <+: u.trace)
    (h : w'.trace = u.trace ++ [did .serialUnsubscribe r]) :
    ∃ s r, w.since w' = s ++ [did .serialUnsubscribe r] := by
  refine ⟨w.since u, r, ?_⟩
  rw [World.since_append hg ⟨_, h.symm⟩, World.since_eq h]

theorem resumeOrReset_resets (hos : w.vars.state = .osUserland)
    (h : resumeOrReset fsm w = .ok false w') (hv : eventWaitForOsShell fsm false w' = .ok () v) :
    ResetTo fsm w v := by
  have hg := ((within_resumeOrReset fsm).ok h).grows
  have hg' := ((within_eventWaitForOsShell fsm false).ok hv).grows
  obtain ⟨u, hgu, hclose⟩ := eventWaitForOsShell_closes fsm hv
  refine ⟨hg.trans hg', closed_since (hg.trans hgu) hclose, ?_, ?_⟩
  · intro hp
    exact (resumeOrReset_reboots fsm hos hp h).widen
      (World.since_infix (List.prefix_refl _) hg hg').sublist
  · rcases resumeOrReset_ok fsm h with ⟨ho, _⟩ | ⟨_, ⟨hb, _⟩ | ⟨_, u, u', h₁, h₂, rfl⟩⟩
    · exact absurd hos ho
    · cases hb
    · have hr := within_tryResumeExistingOs.ok h₁
      have hu : u.vars.state ≠ .powerOff := by
        rw [hr.2.1, hos]
        intro hw
        cases hw
      have hreset := (silent_doHardwareReset fsm).boots.reportless.ok h₂
      have hstate : Recorded reportless u' (u'.withState .energized) := .refl rfl rfl
      have hwait := (boots_eventWaitForOsShell fsm false).reportless.ok hv
      obtain ⟨e, he, hd⟩ := doHardwareReset_down fsm hu h₂
      refine ⟨u, hr.grows, hreset.trans (hstate.trans hwait), e, ?_, hd⟩
      exact World.mem_since_left hreset.grows (hstate.trans hwait).grows he

theorem hotLoginOrReset_resets {target : String} {u : World d} (hen : w.vars.state = .energized)
    (h : hotLoginOrReset fsm w = .ok false w') (hoff : doPowerOff fsm w' = .ok () u)
    (hv : strapAndBoot fsm target u = .ok () v) : ResetTo fsm w v := by
  have hg := ((within_hotLoginOrReset fsm).ok h).grows
  have hquiet := (silent_doPowerOff fsm).boots.reportless.ok hoff
  have hboot : Boots (strapAndBoot fsm target : Fsm d Unit) :=
    (silent_doApplyBootstrap fsm target).boots.bind fun _ => (CallsOnly.modifyVars _).bind fun _ =>
      boots_coldBootToOs fsm
  have hrest := hboot.reportless.ok hv
  obtain ⟨_, u₁, h₁, hv⟩ := bind_ok hv
  obtain ⟨_, u₂, h₂, hv⟩ := bind_ok hv
  cases h₂
  obtain ⟨u₃, hgu, hclose⟩ := coldBootToOs_closes fsm hv
  have hgu₃ : u.trace <+: u₃.trace := ((within_doApplyBootstrap fsm target).ok h₁).grows.trans hgu
  refine ⟨hg.trans (hquiet.trans hrest).grows,
    closed_since (hg.trans (hquiet.grows.trans hgu₃)) hclose, ?_, w', hg, hquiet.trans hrest, ?_⟩
  · intro hp
    exact (hotLoginOrReset_reboots fsm hen hp h).widen
      (World.since_infix (List.prefix_refl _) hg (hquiet.trans hrest).grows).sublist
  · obtain ⟨e, he, hcut⟩ := doPowerOff_ok fsm hoff
    exact ⟨e, World.mem_since_left hquiet.grows hrest.grows he, hcut.takesDown fsm⟩

theorem spares_append {u : World d} (hg : w.trace <+: u.trace) (hg' : u.trace <+: w'.trace)
    (h : ∀ e ∈ w.since u, ¬ takesDown fsm e) (h' : ∀ e ∈ u.since w', ¬ takesDown fsm e) :
    ¬ Rebooted fsm (w.since w') := by
  rw [World.since_append hg hg']
  exact not_rebooted fsm (List.forall_mem_append.2 ⟨h, h'⟩)

/-- What `_hw_boot_to_os` does from `DIRTY`: it leaves the target running, or it resets it and
finalizes the boot. -/
theorem hwBootToOs_resets (hs : w.vars.state = .dirty) (h : hwBootToOs fsm none w = .ok () w')
    (n : Note) :
    (¬ ResetDue fsm (routingState fsm w) (w.since w' ++ [.note n]) ∧
        ¬ Rebooted fsm (w.since w')) ∨
      (ResetDue fsm (routingState fsm w) (w.since w' ++ [.note n]) ∧
        ∃ v, ResetTo fsm w v ∧ finalizeOsBoot fsm v = .ok () w') := by
  obtain ⟨w₁, ha, hg, hg₁, hcourse⟩ := hwBootToOs_course fsm h n
  obtain ⟨_, hcalm⟩ := align_spares fsm ha
  have hprobed : w₁.vars.state ∈ [DutState.powerOff, .osUserland, .bootloader, .energized] := by
    rcases align_ok fsm ha with ⟨htrust, _⟩ | ⟨_, s, u, hu, rfl⟩
    · simp [trustsState, hs] at htrust
    · exact probe_state fsm hu
  have hrouting : routingState fsm w = w₁.vars.state := by
    rw [routingState, aligned, ha, World.after_ok]
  rw [hrouting]
  cases hcourse with
  | resumed hos hb h₂ =>
    left
    constructor
    · rw [ResetDue, hos]
      rintro (⟨_, hno⟩ | ⟨hen, _⟩)
      · exact hno hb
      · cases hen
    · rcases resumeOrReset_ok fsm h₂ with ⟨_, hfalse, _⟩ | ⟨_, ⟨_, u, hu, hfin⟩ | ⟨hfalse, _⟩⟩
      · cases hfalse
      · have hr := (within_tryResumeExistingOs.ok hu).trans ((within_finalizeOsBoot fsm).ok hfin)
        exact spares_append fsm hg hr.grows hcalm (observe_spares fsm hr)
      · cases hfalse
  | loggedIn w₂ hdue hin h₂ h₃ =>
    obtain ⟨v, hv, hfin⟩ := hotLoginOrReset_login fsm h₃
    rcases hdue with ⟨hos, hno⟩ | hen
    · exact .inr ⟨.inl ⟨hos, hno⟩, v, (resumeOrReset_resets fsm hos h₂ hv).after hg, hfin⟩
    · left
      constructor
      · rw [ResetDue, hen]
        rintro (⟨hos, _⟩ | ⟨_, hout⟩)
        · cases hos
        · exact hin hout
      · rcases resumeOrReset_ok fsm h₂ with ⟨_, _, rfl⟩ | ⟨hos, _⟩
        · have hr := ((within_eventWaitForOsShell fsm false).ok hv).trans
            ((within_finalizeOsBoot fsm).converse.ok hfin)
          exact spares_append fsm hg hr.grows hcalm (converse_spares fsm hr)
        · rw [hen] at hos
          cases hos
  | refused w₂ w₃ hdue hout h₂ hen h₃ hd hlast =>
    right
    constructor
    · rcases hdue with hdue | hen
      · exact .inl hdue
      · exact .inr ⟨hen, hout⟩
    · rcases coldBootOrResume_ok fsm hlast with ⟨_, u, hu, hboot⟩ | ⟨hoff, _⟩ | ⟨hb, _⟩ | ⟨hno, _⟩
      · obtain ⟨v, hv, hfin⟩ := strapAndBootOs_split fsm hboot
        exact ⟨v, (hotLoginOrReset_resets fsm hen h₃ hu hv).after
          (hg.trans ((within_resumeOrReset fsm).ok h₂).grows), hfin⟩
      · rw [hd] at hoff
        cases hoff
      · rw [hd] at hb
        cases hb
      · rw [hd] at hno
        exact absurd (by decide) hno
  | booted hos hen hlast =>
    left
    constructor
    · rintro (⟨hos', _⟩ | ⟨hen', _⟩)
      · exact hos hos'
      · exact hen hen'
    · rcases coldBootOrResume_ok fsm hlast with ⟨hc, _⟩ | ⟨_, hboot⟩ | ⟨_, u, hu, hfin⟩ | ⟨_, rfl⟩
      · rcases List.mem_pair.1 hc with hc | hc
        · rw [hc] at hprobed
          exact absurd hprobed (by decide)
        · rw [hc] at hprobed
          exact absurd hprobed (by decide)
      · rw [World.since_append hg hg₁]
        exact strapAndBootOs_not_rebooted fsm hcalm hboot
      · have hr := ((within_resumeBootloaderToOs fsm).ok hu).trans
          ((within_finalizeOsBoot fsm).converse.ok hfin)
        exact spares_append fsm hg hr.grows hcalm (converse_spares fsm hr)
      · exact not_rebooted fsm hcalm

theorem afterSessions_append {s t : List (Entry fsmInterface)} {e : Entry fsmInterface}
    (he : unsubscribes e = true) (ht : ∀ x ∈ t, unsubscribes x = false) :
    afterSessions (s ++ e :: t) = t := by
  have hopen : ∀ x ∈ t.reverse, (!unsubscribes x) = true := by
    intro x hx
    rw [ht x (List.mem_reverse.1 hx)]
    rfl
  rw [afterSessions, List.rtakeWhile, List.reverse_append, List.reverse_cons, List.append_assoc,
    List.takeWhile_append_of_pos hopen, List.singleton_append,
    List.takeWhile_cons_of_neg (by simp [he]), List.append_nil, List.reverse_reverse]

section
variable {fsm}

theorem ResetTo.afterSessions (h : ResetTo fsm w v) (hfin : finalizeOsBoot fsm v = .ok () w')
    (n n' : Note) :
    lastReport fsm (afterSessions (.note n :: (w.since w' ++ [.note n']))) =
      lastReport fsm (v.since w') := by
  obtain ⟨s, r, hs⟩ := h.closed
  have hmuted := (finalizes_finalizeOsBoot fsm).muted.ok hfin
  have hsplit : .note n :: (w.since w' ++ [.note n']) =
      (.note n :: s) ++ did .serialUnsubscribe r :: (v.since w' ++ [.note n']) := by
    rw [World.since_append h.grows ((within_finalizeOsBoot fsm).ok hfin).grows, hs]
    simp only [List.append_assoc, List.cons_append, List.nil_append]
  rw [hsplit, afterSessions_append rfl, lastReport_append]
  · rfl
  · intro e he
    rcases List.mem_append.1 he with he | he
    · exact (hmuted e he).unsubscribes
    · rw [List.mem_singleton.1 he]
      rfl

theorem Replugged.of_notes {seg : List (Entry fsmInterface)} {n n' : Note}
    (h : Replugged (.note n :: (seg ++ [.note n']))) : Replugged seg := by
  have hout : did (.input .plugInPower) (.ok ()) ∉ [Entry.note n'] := by simp
  cases h with
  | cons _ h => exact @sublist_of_not_mem_right _ _ [_] _ _ h hout

theorem ResetTo.replugged (h : ResetTo fsm w v) (hfin : finalizeOsBoot fsm v = .ok () w')
    (hplugged : Replugged (w.since w')) : Replugged (w.since v) := by
  have hrest := (within_finalizeOsBoot fsm).ok hfin
  rw [World.since_append h.grows hrest.grows] at hplugged
  have hquiet : did (.input .plugInPower) (.ok ()) ∉ v.since w' := by
    intro hmem
    cases hrest.since _ hmem
  exact @sublist_of_not_mem_right _ _ [_] _ _ hplugged hquiet

theorem ResetTo.cameBack {r : String} (h : ResetTo fsm w v)
    (hfin : finalizeOsBoot fsm v = .ok () w')
    (hpower : fsm.psu.isSome = true ∨ (resetPin fsm).isSome = true ∨ Replugged (w.since w'))
    (hr : lastReport fsm (v.since w') = some r) :
    CameBackWith fsm (w.since w') r ∧ w'.vars.context.activeRootfs = r := by
  have hreported := finalizeOsBoot_reports fsm hfin
  rw [hreported.last] at hr
  refine ⟨⟨w.since v, v.since w', World.since_append h.grows hreported.grows, ?_, ?_, ?_⟩,
    hreported.context r hr⟩
  · by_cases hp : fsm.psu.isSome = true ∨ (resetPin fsm).isSome = true
    · exact h.reboots hp
    · rw [not_or] at hp
      left
      rw [PowerReturned, Option.not_isSome_iff_eq_none.1 hp.1]
      exact h.replugged hfin ((hpower.resolve_left hp.1).resolve_left hp.2)
  · exact observe_spares fsm ((within_finalizeOsBoot fsm).ok hfin)
  · rw [hreported.last, hr]

theorem ResetTo.observed {r : String} (h : ResetTo fsm w v)
    (hfin : finalizeOsBoot fsm v = .ok () w') (hback : CameBackWith fsm (w.since w') r) :
    (fsm.psu.isSome = true ∨ (resetPin fsm).isSome = true ∨ Replugged (w.since w')) ∧
      lastReport fsm (v.since w') = some r := by
  have hreported := finalizeOsBoot_reports fsm hfin
  constructor
  · by_cases hp : fsm.psu.isSome = true ∨ (resetPin fsm).isSome = true
    · exact hp.elim .inl fun hp => .inr (.inl hp)
    · rw [not_or] at hp
      right
      right
      rcases hback.rebooted with hpower | ⟨pin, hpin, _⟩
      · rw [PowerReturned, Option.not_isSome_iff_eq_none.1 hp.1] at hpower
        exact hpower
      · rw [hpin] at hp
        exact absurd rfl hp.2
  · obtain ⟨u, hgu, hquiet, e, he, hd⟩ := h.unreported
    have hgv := hquiet.grows
    rw [World.since_append hgu (hgv.trans hreported.grows)] at hback
    have hlast := hback.last_down ⟨e, World.mem_since_left hgv hreported.grows he, hd⟩
    rw [World.since_append hgv hreported.grows, lastReport_append, hquiet.lastReport,
      Option.or_none] at hlast
    exact hlast

end

theorem honest_rebootBoard : Honest (rebootBoard fsm : Fsm d Unit) := by
  refine CallsOnly.bind ?_ fun _ => honest_bootToOs fsm none
  exact calls_getState.bind fun _ => (CallsOnly.pure ()).bind fun _ =>
    (CallsOnly.modifyVars _).bind fun _ => .note (I := fsmInterface) _

/-- The reboot is `_hw_boot_to_os` from `DIRTY`, between the two published events. -/
theorem rebootBoard_ok (h : rebootBoard fsm w = .ok () w') :
    ∃ w₁ n n', hwBootToOs fsm none (marked fsm w) = .ok () w₁ ∧ w'.vars.context = w₁.vars.context ∧
      w.since w' = .note n :: ((marked fsm w).since w₁ ++ [.note n']) := by
  have hmark : fire fsm .markDirty w = .ok () (marked fsm w) := rfl
  rw [rebootBoard, bind_of_ok hmark] at h
  obtain ⟨w₁, hhook, hvars, htrace⟩ := fire_ok fsm h
  refine ⟨w₁, .stateChanged w.vars.state.name "DIRTY" "mark_dirty",
    .stateChanged "DIRTY" "OS_USERLAND" "boot_to_os", hhook, by rw [hvars], ?_⟩
  have hgrows := ((honest_hwBootToOs fsm none).ok hhook).grows
  have hmarked : (marked fsm w).trace =
      w.trace ++ [.note (.stateChanged w.vars.state.name "DIRTY" "mark_dirty")] := rfl
  apply World.since_eq
  rw [htrace, World.trace_since hgrows, hmarked]
  simp only [List.append_assoc, List.cons_append, List.nil_append]
  rfl

theorem resetDue_note {s : DutState} {n : Note} {seg : List (Entry fsmInterface)} :
    ResetDue fsm s (.note n :: seg) ↔ ResetDue fsm s seg := by
  have hbeat : HeartbeatAnswered (.note n :: seg) ↔ HeartbeatAnswered seg := by
    rw [heartbeatAnswered_iff, heartbeatAnswered_iff]
    exact Iff.rfl
  have hlogin : LoginRefused fsm (.note n :: seg) ↔ LoginRefused fsm seg := Iff.rfl
  rw [ResetDue, ResetDue, hbeat, hlogin]

theorem rebootBoard_cameBack (h : rebootBoard fsm w = .ok () w')
    (hobs : FlipObserved fsm w (w.since w')) :
    CameBackWith fsm (w.since w') w'.vars.context.activeRootfs ∧
      w'.vars.context.activeRootfs ≠ "UNKNOWN" := by
  obtain ⟨w₁, n, n', hboot, hctx, hsince⟩ := rebootBoard_ok fsm h
  obtain ⟨hdue, hpower, r, hr, hknown⟩ := hobs
  rw [hsince] at hdue hpower hr ⊢
  rw [resetDue_note] at hdue
  rcases hwBootToOs_resets fsm rfl hboot n' with ⟨hno, _⟩ | ⟨_, v, hreset, hfin⟩
  · exact absurd hdue hno
  · rw [hreset.afterSessions hfin] at hr
    obtain ⟨hback, hrootfs⟩ := hreset.cameBack hfin
      (hpower.imp_right fun hpower => hpower.imp_right Replugged.of_notes) hr
    rw [hctx, hrootfs]
    exact ⟨(hback.concat n').cons _, hknown⟩

theorem rebootBoard_observed {r : String} (h : rebootBoard fsm w = .ok () w')
    (hback : CameBackWith fsm (w.since w') r) (hknown : r ≠ "UNKNOWN") :
    FlipObserved fsm w (w.since w') := by
  obtain ⟨w₁, n, n', hboot, hctx, hsince⟩ := rebootBoard_ok fsm h
  rw [hsince] at hback ⊢
  replace hback := hback.of_note.of_concat
  rcases hwBootToOs_resets fsm rfl hboot n' with ⟨_, hno⟩ | ⟨hdue, v, hreset, hfin⟩
  · exact absurd hback.rebooted hno
  · obtain ⟨hpower, hlast⟩ := hreset.observed hfin hback
    refine ⟨(resetDue_note fsm).2 hdue, ?_, r, ?_, hknown⟩
    · refine hpower.imp_right fun hpower => hpower.imp_right fun hplugged => ?_
      exact (hplugged.trans (List.sublist_append_left _ _)).trans (List.sublist_cons_self _ _)
    · rw [hreset.afterSessions hfin, hlast]

variable {safeRun : String → Nat → Bool → Fsm d CommandResult} {originalRootfs : String}

theorem verifyPartitionFlip_ok (horig : originalRootfs ≠ "UNKNOWN")
    (h : verifyPartitionFlip fsm safeRun originalRootfs w = .ok () w') :
    ∃ w₁, rebootBoard fsm w = .ok () w₁ ∧ w₁.vars.context.activeRootfs ≠ originalRootfs := by
  obtain ⟨_, w₁, h₁, h⟩ := bind_ok h
  refine ⟨w₁, h₁, ?_⟩
  intro hctx
  rw [bind_of_ok (getContext_apply w₁), if_pos ⟨horig, hctx⟩] at h
  cases h

theorem verifyPartitionFlip_right (horig : originalRootfs ≠ "UNKNOWN")
    (hobs : ∀ w₁, rebootBoard fsm w = .ok () w₁ → FlipObserved fsm w (w.since w₁)) :
    RightVerdict fsm originalRootfs safeRun w := by
  constructor
  · rintro ⟨w', hok⟩
    obtain ⟨w₁, h₁, hne⟩ := verifyPartitionFlip_ok fsm horig hok
    obtain ⟨hback, hknown⟩ := rebootBoard_cameBack fsm h₁ (hobs w₁ h₁)
    rw [h₁, World.after_ok]
    exact ⟨_, hback, hknown, hne⟩
  · intro hflips hrejects
    obtain ⟨_, w₁, h₁, hctx⟩ := hrejects
    obtain ⟨hback, _⟩ := rebootBoard_cameBack fsm h₁ (hobs w₁ h₁)
    obtain ⟨pre, post, hseg, hpre, _, hlast⟩ := hback
    have hhist := ((honest_rebootBoard fsm).ok h₁).history
    rw [hseg] at hhist
    obtain ⟨e, he, hr⟩ := lastReport_mem fsm hlast
    exact (hflips pre post _ hhist hpre e he _ hr).2 hctx

/-- A check for a root filesystem other than the one in the context accepts, if its transport
lets it. -/
theorem verifyPartitionFlip_accepts (h : rebootBoard fsm w = .ok () w')
    (hne : w'.vars.context.activeRootfs ≠ originalRootfs) :
    verifyPartitionFlip fsm (fun _ _ _ => pure default) originalRootfs w = .ok () w' := by
  rw [verifyPartitionFlip, bind_of_ok h, bind_of_ok (getContext_apply w'),
    if_neg fun hboth => hne hboth.2]
  rfl

end

/-- A board with an open SSH session. Once its power was cut it runs the other partition. -/
def otaBoard : Hardware where
  State := Bool
  respond
    | .psuDisableOutput, _ => (.ok (), true)
    | .sshIsConnected, s => (.ok true, s)
    | .sshSafeRun _ _ _, s => (.ok { stdout := "MES_HEARTBEAT\n" }, s)
    | .serialSafeRun _ _ _ _, s =>
      (.ok { stdout := if s then "/dev/mmcblk0p3\n" else "/dev/mmcblk0p2\n" }, s)
    | _, s => (.ok default, s)

theorem otaBoard_reports {c : Call} {r : String}
    (h : rootfsReport quietSupply (did c (otaBoard.respond c true).1) = some r) :
    r = "/dev/mmcblk0p3" := by
  have hnamed : reportedRootfs quietSupply { stdout := "/dev/mmcblk0p3\n" } = "/dev/mmcblk0p3" := by
    decide +kernel
  cases c with
  | serialSafeRun cmd prompt timeoutMs check =>
    change (if cmd = "swupdate -g" then
      some (reportedRootfs quietSupply { stdout := "/dev/mmcblk0p3\n" }) else none) = some r at h
    split at h
    · rw [hnamed] at h
      cases h
      rfl
    · cases h
  | _ => cases h

/-- Once the power was cut, the board stays on the other partition and reports it. -/
theorem otaBoard_updated {seg : List (Entry fsmInterface)} {s s' : otaBoard.State}
    (h : History otaBoard s seg s') (hs : s = (true : Bool)) : s' = (true : Bool) ∧
      ∀ e ∈ seg, ∀ r, rootfsReport quietSupply e = some r → r = "/dev/mmcblk0p3" := by
  induction h with
  | nil s => exact ⟨hs, List.forall_mem_nil _⟩
  | call c _ ih =>
    cases hs
    have hstays : (otaBoard.respond c true).2 = true := by cases c <;> rfl
    obtain ⟨hs', hreports⟩ := ih hstays
    exact ⟨hs', List.forall_mem_cons.2 ⟨fun r hr => otaBoard_reports hr, hreports⟩⟩
  | note n _ ih =>
    obtain ⟨hs', hreports⟩ := ih hs
    refine ⟨hs', List.forall_mem_cons.2 ⟨?_, hreports⟩⟩
    intro r hr
    cases hr

theorem otaBoard_cut {seg : List (Entry fsmInterface)} {s s' : otaBoard.State}
    (h : History otaBoard s seg s') (hcut : did .psuDisableOutput (.ok ()) ∈ seg) :
    s' = (true : Bool) := by
  induction h with
  | nil s => cases hcut
  | call c h ih =>
    rcases List.mem_cons.1 hcut with hcut | hcut
    · cases hcut
      exact (otaBoard_updated h rfl).1
    · exact ih hcut
  | note n _ ih =>
    rcases List.mem_cons.1 hcut with hcut | hcut
    · cases hcut
    · exact ih hcut

theorem otaBoard_flips : FlipsOnReboot quietSupply (d := otaBoard) "/dev/mmcblk0p2" false := by
  intro pre post s' h hreboot e he r hr
  obtain ⟨s₁, hpre, hpost⟩ := h.split
  have hcut : did .psuDisableOutput (.ok ()) ∈ pre := by
    rcases hreboot with hpower | ⟨pin, hpin, _⟩
    · exact List.Sublist.subset hpower (List.mem_cons_self ..)
    · cases hpin
  rw [(otaBoard_updated hpost (otaBoard_cut hpre hcut)).2 e he r hr]
  decide

/-- The board before the check, its root filesystem known or not. -/
def installed (activeRootfs : String) : World otaBoard :=
  ⟨{ state := .osUserland, context := { activeRootfs } }, false, []⟩

/-- A board that lets nobody log in until it was reset, and then runs the other partition. -/
def updatedBoard : Hardware where
  State := Nat
  respond
    | .serialIsConnected, n => (.ok true, n)
    | .serialRawReadChunk, n => (.ok (ascii "login:"), n)
    | .streamTurns, n => (.ok n, 1)
    | .rxQueueGet, n => (.ok (.chunk (ascii "root@dut:~# =>")), n)
    | .serialSafeRun cmd _ _ _, n =>
      (.ok { stdout := if cmd = "swupdate -g" then "/dev/mmcblk0p3\n" else "MES_SYNC" }, n)
    | _, n => (.ok default, n)

end MesCore
