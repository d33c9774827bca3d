import MesCore.ColdBoot

namespace MesCore
set_option autoImplicit true

def Call.reportsRootfs : Call → Bool
  | .serialSafeRun cmd _ _ _ => cmd = "swupdate -g"
  | .runValidator _ => true
  | _ => false

def reportless (c : fsmInterface.Call) : Prop := Call.reportsRootfs c = false

/-- The root filesystem that an entry reports: by `swupdate -g`, or by a custom validator. -/
def rootfsReport (fsm : Station) : Entry fsmInterface → Option String
  | .call (.serialSafeRun cmd _ _ _) (.ok res) =>
    if cmd = "swupdate -g" then some (reportedRootfs fsm res) else none
  | .call (.runValidator _) (.ok u) => u.activeRootfs
  | _ => none

def lastReport (fsm : Station) (seg : List (Entry fsmInterface)) : Option String :=
  (seg.filterMap (rootfsReport fsm)).getLast?

section
variable {d : Hardware} (fsm : Station)

theorem lastReport_append (seg seg' : List (Entry fsmInterface)) :
    lastReport fsm (seg ++ seg') = (lastReport fsm seg').or (lastReport fsm seg) := by
  rw [lastReport, List.filterMap_append, List.getLast?_append]
  rfl

theorem lastReport_mem {seg : List (Entry fsmInterface)} {r : String}
    (h : lastReport fsm seg = some r) : ∃ e ∈ seg, rootfsReport fsm e = some r :=
  List.mem_filterMap.1 (List.mem_of_getLast? h)

theorem rootfsReport_reportless {c : Call} (hc : c.reportsRootfs = false) (r : Except Err c.Ans) :
    rootfsReport fsm (did c r) = none := by
  unfold rootfsReport
  split
  · rename_i heq
    cases heq
    exact if_neg (of_decide_eq_false hc)
  · rename_i heq
    cases heq
    cases hc
  · rfl

theorem lastReport_reportless {seg : List (Entry fsmInterface)}
    (h : ∀ c r, .call c r ∈ seg → reportless c) : lastReport fsm seg = none := by
  cases hl : lastReport fsm seg with
  | none => rfl
  | some r =>
    obtain ⟨e, he, hr⟩ := lastReport_mem fsm hl
    cases e with
    | call c r' =>
      rw [rootfsReport_reportless fsm (h c r' he) r'] at hr
      cases hr
    | note n => cases hr

theorem Recorded.lastReport {w w' : World d} (h : Recorded reportless w w') :
    MesCore.lastReport fsm (w.since w') = none :=
  lastReport_reportless fsm h.since

abbrev Reportless (p : Fsm d α) : Prop := CallsOnly reportless p

theorem Boots.reportless {p : Fsm d α} (h : Boots p) : Reportless p := by
  refine h.mono fun c hc => ?_
  cases c with
  | serialSafeRun cmd prompt timeoutMs check =>
    have hcmd : cmd ∉ ["swupdate -g", heartbeatCmd] := of_decide_eq_true hc
    exact decide_eq_false fun he => hcmd (he ▸ List.mem_cons_self ..)
  | runValidator name => cases hc
  | _ => rfl

/-- Programs that touch the device by calls and nothing else. -/
abbrev Honest (p : Fsm d α) : Prop := CallsOnly (fun _ => True) p

theorem CallsOnly.honest {kind : fsmInterface.Call → Prop} {p : Fsm d α} (h : CallsOnly kind p) :
    Honest p :=
  h.mono fun _ _ => trivial

theorem honest_tryResumeExistingOs : Honest (tryResumeExistingOs : Fsm d Bool) := by
  have hask (c : Call) : Honest (ask c : Fsm d c.Ans) := .call (I := fsmInterface) c trivial
  have hflush : Honest (flushDeadUart : Fsm d Unit) :=
    .attempt ((hask _).bind fun _ => .ite ((hask _).bind fun _ => (hask _).bind fun _ =>
      (hask _).bind fun _ => hask _) (.pure _)) fun _ => .pure _
  have hbeat : Honest (sshHeartbeat : Fsm d Bool) :=
    .attempt (bare_connectSshWithRetry.honest.bind fun _ => (hask _).bind fun _ => .pure _)
      fun _ => .pure _
  refine hbeat.bind fun _ => .ite (.pure _) ((hask _).bind fun _ => .ite ?_ (.pure _))
  refine (CallsOnly.attempt ((hask _).bind fun _ => .pure _) fun _ => .pure _).bind fun res => ?_
  cases res with
  | none => exact .pure _
  | some r => exact .ite (.pure _) (hflush.bind fun _ => .pure _)

theorem honest_hwBootToOs (medium : Option String) :
    Honest (hwBootToOs fsm medium : Fsm d Unit) := by
  have hresume : Honest (resumeOrReset fsm : Fsm d Bool) := by
    refine calls_getState.bind fun s => .ite ?_ (.pure _)
    refine honest_tryResumeExistingOs.bind fun _ => .ite ?_ ?_
    · exact (finalizes_finalizeOsBoot fsm).honest.bind fun _ => .pure _
    · exact (silent_doHardwareReset fsm).honest.bind fun _ =>
        (CallsOnly.modifyVars _).bind fun _ => .pure _
  refine (silent_align fsm).honest.bind fun _ => calls_getContext.bind fun _ => ?_
  refine hresume.bind fun _ =>
    .ite (.pure _) ((beatless_hotLoginOrReset fsm).honest.bind fun _ => ?_)
  exact .ite (.pure _) (beatless_coldBootOrResume fsm _).honest

theorem honest_bootToOs (medium : Option String) :
    Honest (fire fsm (.bootToOs medium) : Fsm d Unit) :=
  calls_getState.bind fun _ => (honest_hwBootToOs fsm medium).bind fun _ =>
    (CallsOnly.modifyVars _).bind fun _ => .note (I := fsmInterface) _

/-- The root filesystem that the validators name; the last one to name one decides. -/
def namedByValidators : List String → d.State → Option String
  | [], _ => none
  | name :: rest, s =>
    match d.respond (.runValidator name) s with
    | (.ok u, s') => (namedByValidators rest s').or u.activeRootfs
    | (.error _, s') => namedByValidators rest s'

/-- What `_verify_linux_context` is told when it runs on a device in this state. -/
def contextReport (s : d.State) : Option String :=
  match fsm.contextValidators with
  | [] =>
    match d.respond .serialIsConnected s with
    | (.ok true, s₁) =>
      match d.respond (.serialSafeRun "swupdate -g" none 3000 false) s₁ with
      | (.ok res, _) => some (reportedRootfs fsm res)
      | (.error _, _) => none
    | _ => none
  | names => namedByValidators names s

/-- What `finalize_os_boot` is told: nothing, where it finds the SSH session open. -/
def finalReport (s : d.State) : Option String :=
  match d.respond .sshIsConnected s with
  | (.ok false, s₁) => contextReport fsm s₁
  | _ => none

/-- The last report of a run, which is also what the device context then says. -/
structure Reported (w w' : World d) (r : Option String) : Prop where
  grows : w.trace <+: w'.trace
  last : lastReport fsm (w.since w') = r
  context : ∀ s, r = some s → w'.vars.context.activeRootfs = s

/-- Runs without a report that leave the reported root filesystem alone. -/
abbrev stillFrame : Frame fsmInterface where
  entry e := rootfsReport fsm e = none
  vars u v := v.context.activeRootfs = u.context.activeRootfs
  refl _ := rfl
  trans h h' := h'.trans h

section
variable {w w' w'' : World d} {r : Option String}

theorem lastReport_still (h : Frame.Rel (stillFrame fsm) w w') :
    lastReport fsm (w.since w') = none := by
  cases hl : lastReport fsm (w.since w') with
  | none => rfl
  | some r =>
    obtain ⟨e, he, hr⟩ := lastReport_mem fsm hl
    rw [h.since e he] at hr
    cases hr

theorem Reported.still (h : Reported fsm w w' r) (h' : Frame.Rel (stillFrame fsm) w' w'') :
    Reported fsm w w'' r where
  grows := h.grows.trans h'.grows
  last := by
    rw [World.since_append h.grows h'.grows, lastReport_append, lastReport_still fsm h', h.last]
    rfl
  context s hs := by
    exact h'.2.trans (h.context s hs)

theorem still_ask (c : Call) (h : c.reportsRootfs = false) :
    Within (stillFrame fsm) (ask c : Fsm d c.Ans) :=
  .call (I := fsmInterface) c fun r => rootfsReport_reportless fsm h r

theorem still_serialRun (cmd : String) (prompt : Option String) (timeoutMs : Nat) (check : Bool)
    (h : cmd ≠ "swupdate -g") :
    Within (stillFrame fsm) (ask (.serialSafeRun cmd prompt timeoutMs check) : Fsm d _) :=
  still_ask fsm _ (decide_eq_false h)

theorem lastReport_after (w : World d) (seg : List (Entry fsmInterface)) {w₁ : World d}
    (h : w₁.trace = w.trace ++ seg)
    (hg : w₁.trace <+: w'.trace) : w.trace <+: w'.trace ∧
      lastReport fsm (w.since w') = (lastReport fsm (w₁.since w')).or (lastReport fsm seg) := by
  have hone : w.trace <+: w₁.trace := ⟨seg, h.symm⟩
  refine ⟨hone.trans hg, ?_⟩
  rw [World.since_append hone hg, World.since_eq h, lastReport_append]

theorem runValidators_reports (names : List String) (w : World d) :
    wp (runValidators names) (fun _ w' => w.trace <+: w'.trace ∧
      lastReport fsm (w.since w') = namedByValidators names w.dev ∧
      w'.vars.context.activeRootfs =
        (namedByValidators names w.dev).getD w.vars.context.activeRootfs) (fun _ _ => True) w := by
  induction names generalizing w with
  | nil => exact ⟨List.prefix_refl _, by rw [World.since, List.drop_length]; rfl, rfl⟩
  | cons name rest ih =>
    rw [runValidators, wp_bind, wp_attempt, wp_bind, namedByValidators]
    apply wp_respond
    · intro u s hr
      rw [wp_modifyContext, hr]
      apply (ih _).mono
      · intro _ w' h
        obtain ⟨hg, hlast, hctx⟩ := h
        obtain ⟨hg, hall⟩ := lastReport_after fsm w [_] rfl hg
        have hu : lastReport fsm [did (.runValidator name) (.ok u)] = u.activeRootfs := by
          cases hn : u.activeRootfs <;> simp [lastReport, rootfsReport, hn]
        refine ⟨hg, by rw [hall, hlast, hu], ?_⟩
        rw [hctx]
        exact Option.getD_or.symm
      · exact fun _ _ _ => trivial
    · intro e s hr
      rw [hr]
      split
      · apply (ih _).mono
        · intro _ w' h
          obtain ⟨hg, hlast, hctx⟩ := h
          obtain ⟨hg, hall⟩ := lastReport_after fsm w [_] rfl hg
          refine ⟨hg, ?_, hctx⟩
          rw [hall, hlast]
          exact Option.or_none
        · exact fun _ _ _ => trivial
      · trivial

theorem Reported.of_seg (seg : List (Entry fsmInterface)) (h : w'.trace = w.trace ++ seg)
    (hlast : lastReport fsm seg = r) (hctx : ∀ s, r = some s → w'.vars.context.activeRootfs = s) :
    Reported fsm w w' r where
  grows := ⟨seg, h.symm⟩
  last := by rw [World.since_eq h, hlast]
  context := hctx

/-- The part of the SWUpdate check after the report looks at the data partition. -/
theorem still_mountCheck : Within (stillFrame fsm) (match namedPin fsm.cfg.storageDataEncrypted with
    | some part => do
      let mount : CommandResult ← ask (.serialSafeRun "mount | grep /data" none 3000 false)
      modifyContext fun c => { c with cryptoDataMounted := decide (occursIn part mount.stdout) }
    | none => pure () : Fsm d Unit) := by
  split
  · exact (still_serialRun fsm _ _ _ _ (by decide)).bind fun _ => .modifyVars _ fun _ => rfl
  · exact .pure _

theorem swupdateVerifyContext_reports (hnames : fsm.contextValidators = []) (w : World d) :
    wp (swupdateVerifyContext fsm) (fun _ w' => Reported fsm w w' (contextReport fsm w.dev))
      (fun _ _ => True) w := by
  rw [swupdateVerifyContext, contextReport, hnames, wp_bind]
  apply wp_respond
  · intro connected s hr
    dsimp only
    rw [hr]
    cases connected with
    | false =>
      apply Reported.of_seg fsm [did .serialIsConnected (.ok false)] rfl rfl
      intro s hs
      cases hs
    | true =>
      rw [if_pos rfl, wp_bind]
      apply wp_respond
      · intro res s' hr'
        dsimp only at hr' ⊢
        rw [hr', wp_bind, wp_modifyContext]
        apply (still_mountCheck fsm).wp.mono
        · intro _ w' h
          refine Reported.still fsm ?_ h
          apply Reported.of_seg fsm [did .serialIsConnected (.ok true),
            did (.serialSafeRun "swupdate -g" none 3000 false) (.ok res)]
          · simp only [List.append_assoc]
            rfl
          · rfl
          · intro s hs
            cases hs
            rfl
        · exact fun _ _ _ => trivial
      · exact fun _ _ _ => trivial
  · exact fun _ _ _ => trivial

theorem verifyLinuxContext_reports (w : World d) :
    wp (verifyLinuxContext fsm) (fun _ w' => Reported fsm w w' (contextReport fsm w.dev))
      (fun _ _ => True) w := by
  rw [verifyLinuxContext]
  cases hnames : fsm.contextValidators with
  | nil => exact swupdateVerifyContext_reports fsm hnames w
  | cons name rest =>
    rw [contextReport, hnames]
    apply (runValidators_reports fsm (name :: rest) w).mono
    · intro _ w' h
      refine ⟨h.1, h.2.1, ?_⟩
      intro s hs
      dsimp only at hs
      rw [h.2.2, hs]
      rfl
    · exact fun _ _ _ => trivial

/-- A boot that returns was told what its device had to say when it was finalized. -/
theorem finalizeOsBoot_reports (h : finalizeOsBoot fsm w = .ok () w') :
    Reported fsm w w' (finalReport fsm w.dev) := by
  have hspec : wp (finalizeOsBoot fsm) (fun _ w' => Reported fsm w w' (finalReport fsm w.dev))
      (fun _ _ => True) w := by
    rw [finalizeOsBoot, finalReport, wp_bind]
    apply wp_respond
    · intro connected s hr
      rw [hr]
      cases connected with
      | true =>
        apply Reported.of_seg fsm [did .sshIsConnected (.ok true)] rfl rfl
        intro s hs
        cases hs
      | false =>
        rw [if_neg Bool.false_ne_true, wp_bind]
        apply (verifyLinuxContext_reports fsm _).mono
        · intro _ w₁ h₁
          have htail : Within (stillFrame fsm) (do
              let serial : Bool ← ask .serialIsConnected
              onlyIf serial do
                let _ ← ask (.serialSafeRun "systemd-analyze time" none 5000 false)
              connectSshWithRetry : Fsm d Unit) :=
            (still_ask fsm _ rfl).bind fun _ => (Within.onlyIf _
              ((still_serialRun fsm _ _ _ _ (by decide)).bind fun _ => .pure _)).bind fun _ =>
                .retry (still_ask fsm _ rfl) (still_ask fsm _ rfl) _ _
          apply htail.wp.mono
          · intro _ w' h
            obtain ⟨hg, hlast, hctx⟩ := Reported.still fsm h₁ h
            obtain ⟨hg, hall⟩ := lastReport_after fsm w [did .sshIsConnected (.ok false)] rfl hg
            refine ⟨hg, ?_, hctx⟩
            rw [hall, hlast]
            exact Option.or_none
          · exact fun _ _ _ => trivial
        · exact fun _ _ _ => trivial
    · exact fun _ _ _ => trivial
  exact hspec.ok h

end

end

end MesCore
