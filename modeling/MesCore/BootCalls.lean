import MesCore.OsEvidence
import MesCore.History

namespace MesCore
set_option autoImplicit true

/-- Calls that neither run a command on the target nor listen to its console. -/
def Call.silent : Call → Bool
  | .sshSafeRun _ _ _ | .serialSafeRun _ _ _ _ | .runValidator _ => false
  | .serialSubscribe | .serialUnsubscribe | .streamTurns | .rxQueueGet => false
  | _ => true

/-- Silent calls other than the question for the SSH session. -/
def Call.bare (c : Call) : Bool := c.silent && decide (c ≠ .sshIsConnected)

/-- The calls of a boot up to its shell: no heartbeat, and nothing of its finalization. -/
def Call.boots : Call → Bool
  | .sshSafeRun _ _ _ | .runValidator _ => false
  | .serialSafeRun cmd _ _ _ => cmd ∉ ["swupdate -g", heartbeatCmd]
  | _ => true

/-- The calls of `finalize_os_boot`. -/
def Call.finalizes : Call → Bool
  | .runValidator _ => true
  | .serialSafeRun cmd _ _ _ => cmd ∈ ["swupdate -g", "mount | grep /data", "systemd-analyze time"]
  | c => c.silent

def Call.beatless : Call → Bool
  | .sshSafeRun cmd _ _ | .serialSafeRun cmd _ _ _ => cmd ≠ heartbeatCmd
  | _ => true

theorem Call.silent_of_bare {c : Call} (h : c.bare = true) : c.silent = true :=
  (Bool.and_eq_true_iff.1 h).1

theorem Call.boots_of_silent {c : Call} (h : c.silent = true) : c.boots = true := by
  cases c <;> first | rfl | cases h

theorem Call.finalizes_of_silent {c : Call} (h : c.silent = true) : c.finalizes = true := by
  cases c <;> first | rfl | cases h

theorem Call.beatless_of_boots {c : Call} (h : c.boots = true) : c.beatless = true := by
  cases c with
  | serialSafeRun cmd prompt timeoutMs check =>
    have hcmd : cmd ∉ ["swupdate -g", heartbeatCmd] := of_decide_eq_true h
    exact decide_eq_true fun he => hcmd (he ▸ List.mem_cons_of_mem _ (List.mem_singleton_self _))
  | sshSafeRun cmd timeoutMs check => cases h
  | _ => rfl

theorem Call.beatless_of_finalizes {c : Call} (h : c.finalizes = true) : c.beatless = true := by
  cases c with
  | serialSafeRun cmd prompt timeoutMs check =>
    have hcmd : cmd ∈ ["swupdate -g", "mount | grep /data", "systemd-analyze time"] :=
      of_decide_eq_true h
    refine decide_eq_true fun he => ?_
    rw [he] at hcmd
    exact absurd hcmd (by decide)
  | sshSafeRun cmd timeoutMs check => cases h
  | _ => rfl

variable {d : Hardware} (fsm : Station)

abbrev Bare (p : Fsm d α) : Prop := CallsOnly (fun c => Call.bare c = true) p

abbrev Silent (p : Fsm d α) : Prop := CallsOnly (fun c => Call.silent c = true) p

abbrev Boots (p : Fsm d α) : Prop := CallsOnly (fun c => Call.boots c = true) p

theorem CallsOnly.silent {p : Fsm d α} (h : Bare p) : Silent p :=
  h.mono fun _ hc => Call.silent_of_bare hc

theorem CallsOnly.boots {p : Fsm d α} (h : Silent p) : Boots p :=
  h.mono fun _ hc => Call.boots_of_silent hc

abbrev Finalizes (p : Fsm d α) : Prop := CallsOnly (fun c => Call.finalizes c = true) p

abbrev Beatless (p : Fsm d α) : Prop := CallsOnly (fun c => Call.beatless c = true) p

theorem CallsOnly.finalizes {p : Fsm d α} (h : Silent p) : Finalizes p :=
  h.mono fun _ hc => Call.finalizes_of_silent hc

theorem Boots.beatless {p : Fsm d α} (h : Boots p) : Beatless p :=
  h.mono fun _ hc => Call.beatless_of_boots hc

theorem Finalizes.beatless {p : Fsm d α} (h : Finalizes p) : Beatless p :=
  h.mono fun _ hc => Call.beatless_of_finalizes hc

theorem bare_ask (c : Call) (h : c.bare = true) : Bare (ask c : Fsm d c.Ans) :=
  .call (I := fsmInterface) c h

theorem silent_ask (c : Call) (h : c.silent = true) : Silent (ask c : Fsm d c.Ans) :=
  .call (I := fsmInterface) c h

theorem boots_ask (c : Call) (h : c.boots = true) : Boots (ask c : Fsm d c.Ans) :=
  .call (I := fsmInterface) c h

theorem boots_serialRun (cmd : String) (prompt : Option String) (timeoutMs : Nat) (check : Bool)
    (h : cmd ∉ ["swupdate -g", heartbeatCmd]) :
    Boots (ask (.serialSafeRun cmd prompt timeoutMs check) : Fsm d _) :=
  boots_ask _ (decide_eq_true h)

theorem calls_getState {kind : fsmInterface.Call → Prop} :
    CallsOnly kind (getState : Fsm d DutState) := .bind .getVars fun _ => .pure _

theorem calls_getContext {kind : fsmInterface.Call → Prop} :
    CallsOnly kind (getContext : Fsm d DeviceContext) := .bind .getVars fun _ => .pure _

theorem silent_probePower : Silent (probePower fsm : Fsm d Bool) := by
  rw [probePower]
  split
  · refine CallsOnly.ite (.attempt ?_ fun _ => .pure _) (.pure _)
    exact (silent_ask _ rfl).bind fun _ => (silent_ask _ rfl).bind fun _ =>
      (silent_ask _ rfl).bind fun _ => .pure _
  · exact .pure _

theorem silent_probePasses (waits : List Nat) (resp : Bytes) :
    Silent (probePasses waits resp : Fsm d Bytes) := by
  induction waits generalizing resp with
  | nil => exact .pure _
  | cons waitMs waits ih =>
    refine CallsOnly.ite (.pure _) ?_
    exact (silent_ask _ rfl).bind fun _ => (silent_ask _ rfl).bind fun _ =>
      (silent_ask _ rfl).bind fun _ => (silent_ask _ rfl).bind fun _ => ih _

theorem silent_probeSerial : Silent (probeSerial fsm : Fsm d DutState) := by
  refine (silent_ask _ rfl).bind fun connected => ?_
  refine (CallsOnly.onlyIf _ ((silent_ask _ rfl).bind fun _ => silent_ask _ rfl)).bind fun _ => ?_
  refine (silent_ask _ rfl).bind fun _ => (silent_ask _ rfl).bind fun passive => ?_
  exact .ite (.pure _) ((silent_probePasses _ _).bind fun _ => .pure _)

theorem silent_probe : Silent (probeHardwareState fsm : Fsm d DutState) := by
  refine (silent_probePower fsm).bind fun off => .ite (.pure _) ?_
  refine (silent_ask _ rfl).bind fun connected => .ite (.pure _) ?_
  have hbanner : Silent (probeSshBanner : Fsm d Bool) :=
    .attempt ((silent_ask _ rfl).bind fun _ => .pure _) fun _ => .pure _
  exact hbanner.bind fun _ => .ite (.pure _) (silent_probeSerial fsm)

theorem silent_align : Silent (alignToPhysicalState fsm false : Fsm d Unit) :=
  calls_getState.bind fun _ => .ite (.pure _) ((silent_probe fsm).bind fun _ => .modifyVars _)

theorem bare_connectSshWithRetry : Bare (connectSshWithRetry : Fsm d Unit) :=
  .retry (bare_ask _ rfl) (bare_ask _ rfl) _ _

theorem bare_operatorInput (p : OperatorPrompt) (ms : Nat) :
    Bare (operatorInput p ms : Fsm d Unit) :=
  (bare_ask _ rfl).attempt fun _ => bare_ask _ rfl

theorem bare_dropPower : Bare (dropPower fsm : Fsm d Unit) := by
  rw [dropPower]
  split
  · exact (bare_ask _ rfl).bind fun _ => (bare_ask _ rfl).bind fun _ => bare_ask _ rfl
  · exact .ite (.fail _) (bare_operatorInput _ _)

theorem silent_doPowerOff : Silent (doPowerOff fsm : Fsm d Unit) := by
  have hleave : Silent (leaveSession : Fsm d Unit) :=
    (silent_ask _ rfl).bind fun _ => (CallsOnly.onlyIf _ (silent_ask _ rfl)).bind fun _ =>
      .modifyVars _
  exact hleave.bind fun _ => (bare_dropPower fsm).silent

theorem bare_applyPower : Bare (applyPower fsm : Fsm d Unit) := by
  have hsamples (n : Nat) : Bare (inrushSamples n : Fsm d Unit) := by
    induction n with
    | zero => exact .pure _
    | succ n ih =>
      exact (CallsOnly.attempt ((bare_ask _ rfl).bind fun _ => .pure _) fun _ => .pure _).bind
        fun _ => ih
  rw [applyPower]
  split
  · have hvolts (psu : Psu) : Bare (voltageSetpoint psu : Fsm d Unit) := by
      rw [voltageSetpoint]
      split
      · exact bare_ask _ rfl
      · exact bare_ask _ rfl
      · exact .pure _
    have hamps (psu : Psu) : Bare (currentSetpoint psu : Fsm d Unit) := by
      rw [currentSetpoint]
      split
      · exact bare_ask _ rfl
      · exact .pure _
    refine (hvolts _).bind fun _ => (hamps _).bind fun _ => (bare_ask _ rfl).bind fun _ => ?_
    exact .ite ((bare_ask _ rfl).bind fun _ => hsamples _) (bare_ask _ rfl)
  · exact .ite (.fail _) (bare_operatorInput _ _)

theorem bare_doEnergize : Bare (doEnergize fsm : Fsm d Unit) := by
  refine (bare_applyPower fsm).bind fun _ => .retry ?_ (bare_ask _ rfl) _ _
  refine (bare_ask _ rfl).bind fun _ => (bare_ask _ rfl).bind fun _ =>
    (bare_ask _ rfl).bind fun _ => .attempt ?_ fun _ => .pure _
  exact (bare_ask _ rfl).bind fun _ =>
    .ite ((bare_ask _ rfl).bind fun _ => bare_ask _ rfl) (.pure _)

theorem bare_pulseResetPin (pin : String) : Bare (pulseResetPin pin : Fsm d Unit) :=
  (bare_ask _ rfl).bind fun _ => (bare_ask _ rfl).bind fun _ =>
    (bare_ask _ rfl).bind fun _ => bare_ask _ rfl

theorem silent_doHardwareReset : Silent (doHardwareReset fsm : Fsm d Unit) := by
  rw [doHardwareReset]
  split
  · exact calls_getState.bind fun _ => .ite (.pure _) (bare_pulseResetPin _).silent
  · exact (silent_doPowerOff fsm).bind fun _ => (bare_doEnergize fsm).silent

section
variable {body : UartEvent → Fsm d Bool}

theorem boots_runEvents (hb : ∀ ev, Boots (body ev)) (evs : List UartEvent) :
    Boots (runEvents body evs) := by
  induction evs with
  | nil => exact .pure _
  | cons ev evs ih => exact (hb ev).bind fun _ => .ite (.pure _) ih

theorem boots_streamLoop (p : StreamParams) (ping : Option Bytes) (hb : ∀ ev, Boots (body ev))
    (turns : Nat) (st : StreamState) : Boots (streamLoop p ping body turns st) := by
  induction turns generalizing st with
  | zero => exact .pure _
  | succ turns ih =>
    refine (boots_ask _ rfl).bind fun poll => ?_
    cases poll with
    | empty pingDue tickDue =>
      refine CallsOnly.bind ?_ fun _ => CallsOnly.bind ?_ fun _ => .ite (.pure _) (ih st)
      · cases ping with
        | none => exact .pure _
        | some c => exact .onlyIf _ (boots_ask _ rfl)
      · exact .ite (hb _) (.pure _)
    | chunk c =>
      refine CallsOnly.ite (ih st) ((boots_runEvents hb _).bind fun _ => .ite (.pure _) ?_)
      exact .ite (.pure _) (ih _)

theorem boots_overStream (p : StreamParams) (flush : Bool) (ping : Option Bytes)
    (hb : ∀ ev, Boots (body ev)) : Boots (overStream p flush ping body) := by
  refine (CallsOnly.onlyIf _ (boots_ask _ rfl)).bind fun _ => (boots_ask _ rfl).bind fun _ => ?_
  exact .ensuring ((boots_ask _ rfl).bind fun _ => boots_streamLoop p ping hb _ _)
    (boots_ask _ rfl)

end

theorem boots_bootloaderEvent (ev : UartEvent) :
    Boots (bootloaderEvent fsm ev : Fsm d Bool) := by
  have hsnipe (n : Nat) : Boots (snipeAutoboot fsm n : Fsm d Unit) := by
    induction n with
    | zero => exact .pure _
    | succ n ih => exact (boots_ask _ rfl).bind fun _ => (boots_ask _ rfl).bind fun _ => ih
  have hsync : Boots (syncBootloader fsm : Fsm d Unit) :=
    (boots_ask _ rfl).bind fun _ => (boots_ask _ rfl).bind fun _ => (boots_ask _ rfl).bind fun _ =>
      (boots_serialRun _ _ _ _ (by decide)).bind fun _ => .ite (.pure _) (.fail _)
  cases ev with
  | panicDetected raw => exact .fail _
  | autobootWindowDetected => exact (hsnipe 3).bind fun _ => .pure _
  | promptDetected ptype => exact .ite (hsync.bind fun _ => .pure _) (.pure _)
  | milestoneReached => exact .pure _
  | bootDataReceived => exact .pure _
  | idleTick => exact .pure _

theorem boots_eventWaitForBootloader (intercept : Bool) :
    Boots (eventWaitForBootloader fsm intercept : Fsm d Unit) :=
  (boots_overStream _ _ _ (boots_bootloaderEvent fsm)).bind fun _ => .ite (.pure _) (.fail _)

theorem bare_osShellEvent (ev : UartEvent) : Bare (osShellEvent fsm ev : Fsm d Bool) := by
  cases ev with
  | panicDetected raw => exact .fail _
  | promptDetected ptype =>
    have htype (line : String) (sensitive : Bool) : Bare (do
        ask (.sleep 100)
        ask (.serialWriteLine line sensitive)
        ask .serialClearParser
        pure false : Fsm d Bool) :=
      (bare_ask _ rfl).bind fun _ => (bare_ask _ rfl).bind fun _ =>
        (bare_ask _ rfl).bind fun _ => .pure _
    exact .ite (.pure _) (.ite (htype _ _) (.ite (htype _ _)
      (.ite ((bare_ask _ rfl).bind fun _ => .pure _) (.pure _))))
  | autobootWindowDetected => exact .pure _
  | milestoneReached => exact .pure _
  | bootDataReceived => exact .pure _
  | idleTick => exact .pure _

theorem boots_eventWaitForOsShell (flush : Bool) :
    Boots (eventWaitForOsShell fsm flush : Fsm d Unit) :=
  (boots_overStream _ _ _ fun ev => (bare_osShellEvent fsm ev).silent.boots).bind fun _ =>
    .ite (.pure _) (.fail _)

theorem boots_eventBootFromBootloaderToOs :
    Boots (eventBootFromBootloaderToOs fsm : Fsm d Unit) :=
  (boots_ask _ rfl).bind fun _ => (boots_ask _ rfl).bind fun _ =>
    (CallsOnly.note (I := fsmInterface) _).bind fun _ => boots_eventWaitForOsShell fsm false

theorem boots_coldBootToOs : Boots (coldBootToOs fsm : Fsm d Unit) := by
  have hon := (bare_doEnergize (d := d) fsm).silent.boots
  refine CallsOnly.ite ?_ ?_
  · exact hon.bind fun _ => (boots_eventWaitForBootloader fsm true).bind fun _ =>
      boots_eventBootFromBootloaderToOs fsm
  · exact hon.bind fun _ => boots_eventWaitForOsShell fsm true

theorem boots_resumeBootloaderToOs : Boots (resumeBootloaderToOs fsm : Fsm d Unit) := by
  refine CallsOnly.ite (boots_eventBootFromBootloaderToOs fsm) ?_
  have hrestore : Boots (restoreUbootTrap fsm : Fsm d Unit) :=
    (boots_serialRun _ _ _ _ (by decide)).bind fun _ =>
      (boots_serialRun _ _ _ _ (by decide)).bind fun _ =>
        (boots_serialRun _ _ _ _ (by decide)).bind fun _ => .pure _
  exact hrestore.bind fun _ => boots_eventBootFromBootloaderToOs fsm

theorem silent_doApplyBootstrap (medium : String) :
    Silent (doApplyBootstrap fsm medium : Fsm d Unit) := by
  have hpins (pins : List (String × Bool)) : Silent (setPins pins : Fsm d Unit) := by
    induction pins with
    | nil => exact .pure _
    | cons pin pins ih => exact (silent_ask _ rfl).bind fun _ => ih
  refine CallsOnly.bind ?_ fun _ => .note (I := fsmInterface) _
  refine calls_getContext.bind fun ctx => .ite (.pure _) (.ite ?_ ?_)
  · rw [strapByGpio]
    split
    · exact (hpins _).bind fun _ => silent_ask _ rfl
    · exact .pure _
  · exact .ite (.fail _) (bare_operatorInput _ _).silent

theorem finalizes_verifyLinuxContext : Finalizes (verifyLinuxContext fsm : Fsm d Unit) := by
  have hask (c : Call) (h : c.finalizes = true) : Finalizes (ask c : Fsm d c.Ans) :=
    .call (I := fsmInterface) c h
  have hrun (names : List String) : Finalizes (runValidators names : Fsm d Unit) := by
    induction names with
    | nil => exact .pure _
    | cons name rest ih =>
      refine (CallsOnly.attempt ?_ fun _ => .pure _).bind fun _ => ih
      exact (hask _ rfl).bind fun _ => .modifyVars _
  rw [verifyLinuxContext]
  split
  · refine (hask _ rfl).bind fun _ => .ite ?_ (.modifyVars _)
    refine (hask _ (by decide)).bind fun _ => (CallsOnly.modifyVars _).bind fun _ => ?_
    split
    · exact (hask _ (by decide)).bind fun _ => .modifyVars _
    · exact .pure _
  · exact hrun _

theorem finalizes_finalizeOsBoot : Finalizes (finalizeOsBoot fsm : Fsm d Unit) := by
  have hask (c : Call) (h : c.finalizes = true) : Finalizes (ask c : Fsm d c.Ans) :=
    .call (I := fsmInterface) c h
  refine (hask _ rfl).bind fun _ => .ite (.pure _) ?_
  refine (finalizes_verifyLinuxContext fsm).bind fun _ => (hask _ rfl).bind fun _ => ?_
  refine (CallsOnly.onlyIf _ ?_).bind fun _ => bare_connectSshWithRetry.silent.finalizes
  exact (hask _ (by decide)).bind fun _ => .pure _

theorem beatless_tryHotLogin : Beatless (tryHotLogin fsm : Fsm d Bool) :=
  .attempt ((boots_eventWaitForOsShell fsm false).beatless.bind fun _ =>
    (finalizes_finalizeOsBoot fsm).beatless.bind fun _ => .pure _) fun _ => .pure _

theorem beatless_hotLoginOrReset : Beatless (hotLoginOrReset fsm : Fsm d Bool) := by
  refine calls_getState.bind fun s => .ite ?_ (.pure _)
  refine (beatless_tryHotLogin fsm).bind fun _ => .ite (.pure _) ?_
  exact (silent_doHardwareReset fsm).boots.beatless.bind fun _ =>
    (CallsOnly.modifyVars _).bind fun _ => .pure _

theorem beatless_coldBootOrResume (target : String) :
    Beatless (coldBootOrResume fsm target : Fsm d Unit) := by
  have hfinal := (finalizes_finalizeOsBoot (d := d) fsm).beatless
  refine calls_getState.bind fun s => .ite ?_ (.ite ?_ (.pure _))
  · refine (CallsOnly.onlyIf _ (silent_doPowerOff fsm).boots.beatless).bind fun _ => ?_
    exact (silent_doApplyBootstrap fsm target).boots.beatless.bind fun _ =>
      (CallsOnly.modifyVars _).bind fun _ => (boots_coldBootToOs fsm).beatless.bind fun _ => hfinal
  · exact (boots_resumeBootloaderToOs fsm).beatless.bind fun _ => hfinal

end MesCore
