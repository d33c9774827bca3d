import MesCore.Triggers

namespace MesCore
set_option autoImplicit true

def Call.traps : Call → Bool
  | .sshSafeRun cmd _ _ | .serialSafeRun cmd _ _ _ => cmd ∈ [trapBackupCmd, trapCmd]
  | _ => false

/-- Calls that only look at the target or talk to it, and neither restart nor power it. -/
def Call.observes : Call → Bool
  | .psuSetVoltage _ | .psuSetCurrent _ | .psuEnableOutput | .psuDisableOutput => false
  | .gpioSetPin _ _ | .input _ | .serialWriteLine _ _ => false
  | .sshSafeRun cmd _ _ | .serialSafeRun cmd _ _ _ => cmd ∉ ["reboot", trapBackupCmd, trapCmd]
  | _ => true

/-- Traffic on the consoles of the target, which may reboot it but not power it. -/
def Call.converses : Call → Bool
  | .psuSetVoltage _ | .psuSetCurrent _ | .psuEnableOutput | .psuDisableOutput => false
  | .gpioSetPin _ _ | .input _ => false
  | .sshSafeRun cmd _ _ | .serialSafeRun cmd _ _ _ => cmd ∉ [trapBackupCmd, trapCmd]
  | _ => true

def made (kind : Call → Bool) : Entry fsmInterface → Prop
  | .call c _ => kind c = true
  | .note _ => False

abbrev observing : Entry fsmInterface → Prop := made Call.observes

def conversing : Entry fsmInterface → Prop
  | .call c _ => Call.converses c = true
  | .note n => n = .bootCommanded

theorem conversing_of_observing (e : Entry fsmInterface) (h : observing e) : conversing e := by
  cases e with
  | note n => exact h.elim
  | call c r =>
    change Call.converses c = true
    have ho : Call.observes c = true := h
    cases c <;> first | rfl | (simp_all [Call.observes, Call.converses])

/-- Traffic on the consoles with the trap commands in it. -/
def trapping : Entry fsmInterface → Prop
  | .call c _ => c.converses = true ∨ c.traps = true
  | .note n => n = .bootCommanded

theorem trapping_of_conversing (e : Entry fsmInterface) (h : conversing e) : trapping e := by
  cases e with
  | call c r => exact .inl h
  | note n => exact h

abbrev observeFrame : Frame fsmInterface := routeFrame observing

abbrev converseFrame : Frame fsmInterface := routeFrame conversing

variable {d : Hardware} (fsm : Station)

theorem Within.converse {p : Fsm d α} (h : Within observeFrame p) : Within converseFrame p :=
  h.mono conversing_of_observing fun _ _ h => h

theorem within_made {kind : Call → Bool} (c : Call) (h : kind c = true) :
    Within (routeFrame (made kind)) (ask c : Fsm d c.Ans) :=
  .call (I := fsmInterface) c fun _ => h

theorem within_ask (c : Call) (h : c.observes = true) :
    Within observeFrame (ask c : Fsm d c.Ans) :=
  within_made c h

theorem within_serialRun (cmd : String) (prompt : Option String) (timeoutMs : Nat) (check : Bool)
    (h : cmd ∉ ["reboot", trapBackupCmd, trapCmd]) :
    Within observeFrame (ask (.serialSafeRun cmd prompt timeoutMs check) : Fsm d _) :=
  within_ask _ (decide_eq_true h)

theorem within_converse (c : Call) (h : c.converses = true) :
    Within converseFrame (ask c : Fsm d c.Ans) :=
  .call (I := fsmInterface) c fun _ => h

theorem within_getState {F : Frame fsmInterface} : Within F (getState : Fsm d DutState) :=
  Within.getVars.bind fun _ => .pure _

theorem within_getContext {F : Frame fsmInterface} : Within F (getContext : Fsm d DeviceContext) :=
  Within.getVars.bind fun _ => .pure _

theorem within_modifyContext {P : Entry fsmInterface → Prop} (f : DeviceContext → DeviceContext)
    (h : ∀ c, (f c).activeBootMedium = c.activeBootMedium) :
    Within (routeFrame P) (modifyContext f : Fsm d Unit) :=
  .modifyVars _ fun v => ⟨rfl, h v.context⟩

theorem within_probePower : Within observeFrame (probePower fsm : Fsm d Bool) := by
  rw [probePower]
  split
  · refine Within.ite (.attempt ?_ _ fun _ => .pure _) (.pure _)
    exact (within_ask _ rfl).bind fun _ => (within_ask _ rfl).bind fun _ =>
      (within_ask _ rfl).bind fun _ => .pure _
  · exact .pure _

theorem within_probePasses (waits : List Nat) (resp : Bytes) :
    Within observeFrame (probePasses waits resp : Fsm d Bytes) := by
  induction waits generalizing resp with
  | nil => exact .pure _
  | cons waitMs waits ih =>
    refine Within.ite (.pure _) ?_
    exact (within_ask _ rfl).bind fun _ => (within_ask _ rfl).bind fun _ =>
      (within_ask _ rfl).bind fun _ => (within_ask _ rfl).bind fun _ => ih _

theorem within_probeSerial : Within observeFrame (probeSerial fsm : Fsm d DutState) := by
  refine (within_ask _ rfl).bind fun connected => ?_
  refine (Within.onlyIf _ ((within_ask _ rfl).bind fun _ => within_ask _ rfl)).bind fun _ => ?_
  refine (within_ask _ rfl).bind fun _ => (within_ask _ rfl).bind fun passive => ?_
  exact .ite (.pure _) ((within_probePasses _ _).bind fun _ => .pure _)

theorem within_probe : Within observeFrame (probeHardwareState fsm : Fsm d DutState) := by
  refine (within_probePower fsm).bind fun off => .ite (.pure _) ?_
  refine (within_ask _ rfl).bind fun connected => .ite (.pure _) ?_
  have hbanner : Within observeFrame (probeSshBanner : Fsm d Bool) :=
    .attempt ((within_ask _ rfl).bind fun _ => .pure _) _ fun _ => .pure _
  exact hbanner.bind fun _ => .ite (.pure _) (within_probeSerial fsm)

theorem within_rebindSerialPort : Within observeFrame (rebindSerialPort : Fsm d Unit) := by
  refine Within.retry ?_ (within_ask _ rfl) _ _
  refine (within_ask _ rfl).bind fun _ => (within_ask _ rfl).bind fun _ =>
    (within_ask _ rfl).bind fun _ => .attempt ?_ _ fun _ => .pure _
  exact (within_ask _ rfl).bind fun _ =>
    .ite ((within_ask _ rfl).bind fun _ => within_ask _ rfl) (.pure _)

theorem within_inrushSamples (n : Nat) : Within observeFrame (inrushSamples n : Fsm d Unit) := by
  induction n with
  | zero => exact .pure _
  | succ n ih =>
    exact (Within.attempt ((within_ask _ rfl).bind fun _ => .pure _) _ fun _ => .pure _).bind
      fun _ => ih

theorem within_asyncRebootDut : Within converseFrame (asyncRebootDut : Fsm d Unit) := by
  have hrun : Within converseFrame (transportSafeRun "reboot" 2000 false : Fsm d _) :=
    (within_ask _ rfl).converse.bind fun _ => .ite (within_converse _ rfl) (within_converse _ rfl)
  refine (Within.attempt (hrun.bind fun _ => .pure _) _ fun _ => .pure _).bind fun _ => ?_
  exact (within_ask _ rfl).converse.bind fun _ => .onlyIf _ (within_ask _ rfl).converse

theorem Within.trap {p : Fsm d α} (h : Within converseFrame p) : Within (routeFrame trapping) p :=
  h.mono trapping_of_conversing fun _ _ h => h

theorem within_setUbootTrapAndReboot :
    Within (routeFrame trapping) (setUbootTrapAndReboot : Fsm d Unit) := by
  have hrun (cmd : String) (timeoutMs : Nat) (check : Bool) (h : cmd ∈ [trapBackupCmd, trapCmd]) :
      Within (routeFrame trapping)
        (transportSafeRun cmd timeoutMs check : Fsm d CommandResult) := by
    refine (within_ask _ rfl).converse.trap.bind fun _ => .ite ?_ ?_
    · exact .call (I := fsmInterface) _ fun _ => .inr (decide_eq_true h)
    · exact .call (I := fsmInterface) _ fun _ => .inr (decide_eq_true h)
  refine (hrun _ _ _ (by decide)).bind fun _ => ?_
  exact (hrun _ _ _ (by decide)).bind fun _ => within_asyncRebootDut.trap

theorem within_restoreUbootTrap : Within observeFrame (restoreUbootTrap fsm : Fsm d Unit) :=
  (within_serialRun _ _ _ _ (by decide)).bind fun _ =>
    (within_serialRun _ _ _ _ (by decide)).bind fun _ =>
      (within_serialRun _ _ _ _ (by decide)).bind fun _ => .pure _

section
variable {P : Entry fsmInterface → Prop} {body : UartEvent → Fsm d Bool}

theorem within_runEvents (hb : ∀ ev, Within (routeFrame P) (body ev)) (evs : List UartEvent) :
    Within (routeFrame P) (runEvents body evs) := by
  induction evs with
  | nil => exact .pure _
  | cons ev evs ih => exact (hb ev).bind fun _ => .ite (.pure _) ih

theorem within_streamLoop (hP : ∀ e, observing e → P e) (p : StreamParams) (ping : Option Bytes)
    (hb : ∀ ev, Within (routeFrame P) (body ev)) (turns : Nat) (st : StreamState) :
    Within (routeFrame P) (streamLoop p ping body turns st) := by
  have hask (c : Call) (h : c.observes = true) : Within (routeFrame P) (ask c : Fsm d c.Ans) :=
    (within_ask c h).mono hP fun _ _ h => h
  induction turns generalizing st with
  | zero => exact .pure _
  | succ turns ih =>
    refine (hask _ rfl).bind fun poll => ?_
    cases poll with
    | empty pingDue tickDue =>
      refine Within.bind ?_ fun _ => Within.bind ?_ fun _ => .ite (.pure _) (ih st)
      · cases ping with
        | none => exact .pure _
        | some c => exact .onlyIf _ (hask _ rfl)
      · exact .ite (hb _) (.pure _)
    | chunk c =>
      refine Within.ite (ih st) ((within_runEvents hb _).bind fun _ => .ite (.pure _) ?_)
      exact .ite (.pure _) (ih _)

theorem within_overStream (hP : ∀ e, observing e → P e) (p : StreamParams) (flush : Bool)
    (ping : Option Bytes) (hb : ∀ ev, Within (routeFrame P) (body ev)) :
    Within (routeFrame P) (overStream p flush ping body) := by
  have hask (c : Call) (h : c.observes = true) : Within (routeFrame P) (ask c : Fsm d c.Ans) :=
    (within_ask c h).mono hP fun _ _ h => h
  refine (Within.onlyIf _ (hask _ rfl)).bind fun _ => (hask _ rfl).bind fun _ => ?_
  exact .ensuring ((hask _ rfl).bind fun _ => within_streamLoop hP p ping hb _ _) (hask _ rfl)

end

theorem within_syncBootloader : Within observeFrame (syncBootloader fsm : Fsm d Unit) :=
  (within_ask _ rfl).bind fun _ => (within_ask _ rfl).bind fun _ => (within_ask _ rfl).bind fun _ =>
    (within_serialRun _ _ _ _ (by decide)).bind fun _ => .ite (.pure _) (.fail _)

theorem within_bootloaderEvent (ev : UartEvent) :
    Within observeFrame (bootloaderEvent fsm ev : Fsm d Bool) := by
  have hsnipe (n : Nat) : Within observeFrame (snipeAutoboot fsm n : Fsm d Unit) := by
    induction n with
    | zero => exact .pure _
    | succ n ih => exact (within_ask _ rfl).bind fun _ => (within_ask _ rfl).bind fun _ => ih
  cases ev with
  | panicDetected raw => exact .fail _
  | autobootWindowDetected => exact (hsnipe 3).bind fun _ => .pure _
  | promptDetected ptype => exact .ite ((within_syncBootloader fsm).bind fun _ => .pure _) (.pure _)
  | milestoneReached => exact .pure _
  | bootDataReceived => exact .pure _
  | idleTick => exact .pure _

theorem within_eventWaitForBootloader (intercept : Bool) :
    Within observeFrame (eventWaitForBootloader fsm intercept : Fsm d Unit) :=
  (within_overStream (fun _ h => h) _ _ _ (within_bootloaderEvent fsm)).bind
    fun _ => .ite (.pure _) (.fail _)

/-- The handler types a line or nothing, and takes nothing from the receive queue. -/
theorem within_osShellEvent {P : Entry fsmInterface → Prop}
    (hask : ∀ c : Call, c.converses = true → c ≠ .rxQueueGet →
      Within (routeFrame P) (ask c : Fsm d c.Ans)) (ev : UartEvent) :
    Within (routeFrame P) (osShellEvent fsm ev : Fsm d Bool) := by
  cases ev with
  | panicDetected raw => exact .fail _
  | promptDetected ptype =>
    have hline (line : String) (sensitive : Bool) :
        Within (routeFrame P) (ask (.serialWriteLine line sensitive) : Fsm d Unit) :=
      hask _ rfl (by rintro ⟨⟩)
    have htype (line : String) (sensitive : Bool) : Within (routeFrame P) (do
        ask (.sleep 100)
        ask (.serialWriteLine line sensitive)
        ask .serialClearParser
        pure false : Fsm d Bool) :=
      (hask _ rfl (by rintro ⟨⟩)).bind fun _ => (hline _ _).bind fun _ =>
        (hask _ rfl (by rintro ⟨⟩)).bind fun _ => .pure _
    exact .ite (.pure _) (.ite (htype _ _) (.ite (htype _ _)
      (.ite ((hline _ _).bind fun _ => .pure _) (.pure _))))
  | autobootWindowDetected => exact .pure _
  | milestoneReached => exact .pure _
  | bootDataReceived => exact .pure _
  | idleTick => exact .pure _

theorem within_eventWaitForOsShell (flush : Bool) :
    Within converseFrame (eventWaitForOsShell fsm flush : Fsm d Unit) :=
  (within_overStream conversing_of_observing _ _ _ 
    (within_osShellEvent fsm fun c h _ => within_converse c h)).bind
    fun _ => .ite (.pure _) (.fail _)

theorem within_eventBootFromBootloaderToOs :
    Within converseFrame (eventBootFromBootloaderToOs fsm : Fsm d Unit) :=
  (within_ask _ rfl).converse.bind fun _ => (within_ask _ rfl).converse.bind fun _ =>
    (Within.note (I := fsmInterface) _ rfl).bind fun _ => within_eventWaitForOsShell fsm false

theorem within_connectSshWithRetry : Within observeFrame (connectSshWithRetry : Fsm d Unit) :=
  .retry (within_ask _ rfl) (within_ask _ rfl) _ _

theorem within_verifyLinuxContext : Within observeFrame (verifyLinuxContext fsm : Fsm d Unit) := by
  have hrun (names : List String) : Within observeFrame (runValidators names : Fsm d Unit) := by
    induction names with
    | nil => exact .pure _
    | cons name rest ih =>
      refine (Within.attempt ?_ _ fun _ => .pure _).bind fun _ => ih
      exact (within_ask _ rfl).bind fun _ => within_modifyContext _ fun _ => rfl
  have hctx (f : DeviceContext → DeviceContext)
      (h : ∀ c, (f c).activeBootMedium = c.activeBootMedium) :
      Within observeFrame (modifyContext f : Fsm d Unit) := within_modifyContext f h
  rw [verifyLinuxContext]
  split
  · refine (within_ask _ rfl).bind fun _ => .ite ?_ (hctx _ (by intro; rfl))
    refine (within_serialRun _ _ _ _ (by decide)).bind fun _ =>
      (hctx _ (by intro; rfl)).bind fun _ => ?_
    split
    · exact (within_serialRun _ _ _ _ (by decide)).bind fun _ => hctx _ (by intro; rfl)
    · exact .pure _
  · exact hrun _

theorem within_finalizeOsBoot : Within observeFrame (finalizeOsBoot fsm : Fsm d Unit) := by
  refine (within_ask _ rfl).bind fun _ => .ite (.pure _) ?_
  refine (within_verifyLinuxContext fsm).bind fun _ => (within_ask _ rfl).bind fun _ => ?_
  refine (Within.onlyIf _ ?_).bind fun _ => within_connectSshWithRetry
  exact (within_serialRun _ _ _ _ (by decide)).bind fun _ => .pure _

theorem within_sshHeartbeat : Within observeFrame (sshHeartbeat : Fsm d Bool) :=
  .attempt (within_connectSshWithRetry.bind fun _ =>
    (within_ask (.sshSafeRun _ _ _) (decide_eq_true (by decide))).bind fun _ => .pure _) _
    fun _ => .pure _

theorem within_tryResumeExistingOs : Within observeFrame (tryResumeExistingOs : Fsm d Bool) := by
  have hflush : Within observeFrame (flushDeadUart : Fsm d Unit) :=
    .attempt ((within_ask _ rfl).bind fun _ => .ite
      ((within_ask _ rfl).bind fun _ => (within_ask _ rfl).bind fun _ =>
        (within_ask _ rfl).bind fun _ => within_ask _ rfl) (.pure _)) _ fun _ => .pure _
  refine within_sshHeartbeat.bind fun _ =>
    .ite (.pure _) ((within_ask _ rfl).bind fun _ => .ite ?_ (.pure _))
  refine (Within.attempt ((within_serialRun _ _ _ _ (by decide)).bind fun _ => .pure _) _
    fun _ => .pure _).bind fun res => ?_
  cases res with
  | none => exact .pure _
  | some r => exact .ite (.pure _) (hflush.bind fun _ => .pure _)

theorem within_tryHotLogin : Within converseFrame (tryHotLogin fsm : Fsm d Bool) :=
  .attempt ((within_eventWaitForOsShell fsm false).bind fun _ =>
    (within_finalizeOsBoot fsm).converse.bind fun _ => .pure _) _ fun _ => .pure _

theorem within_resumeBootloaderToOs :
    Within converseFrame (resumeBootloaderToOs fsm : Fsm d Unit) := by
  refine Within.ite (within_eventBootFromBootloaderToOs fsm) ?_
  exact (within_restoreUbootTrap fsm).converse.bind fun _ =>
    within_eventBootFromBootloaderToOs fsm

theorem within_rebootFromOs : Within (routeFrame trapping) (rebootFromOs fsm : Fsm d Unit) :=
  .ite within_asyncRebootDut.trap within_setUbootTrapAndReboot

theorem within_doSoftReboot : Within converseFrame (doSoftReboot fsm : Fsm d Unit) := by
  refine (within_converse _ rfl).bind fun _ => (within_ask _ rfl).converse.bind fun _ => ?_
  refine Within.bind ?_ fun _ => within_converse _ rfl
  rw [typePassword]
  split
  · exact (within_converse _ rfl).bind fun _ => (within_ask _ rfl).converse
  · exact .pure _

end MesCore
