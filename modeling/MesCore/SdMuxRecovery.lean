import MesCore.Extension
import MesCore.Recovery

namespace MesCore
set_option autoImplicit true

/-- The calls of the SD-mux adapter: the device node, the command line tool, and the driver with
its GPIOs. -/
inductive MuxCall
  | pathExists
  | runUsbsdmux (state : String)
  | autoselectDriver
  | gpioSet (gpio : Fin 2) (high : Bool)
  deriving DecidableEq

structure CompletedProcess where
  returncode : Int
  stderr : List Char
  deriving DecidableEq, Inhabited

@[reducible] def MuxCall.Ans : MuxCall → Type
  | .pathExists => Bool
  | .runUsbsdmux _ => CompletedProcess
  | .autoselectDriver => Unit
  | .gpioSet _ _ => Unit

inductive MuxErr
  | hostAdapterError (msg : String)
  | valueError (msg : String)
  | fileNotFoundError (msg : String)
  | timeoutExpired (msg : String)
  | notImplementedError (msg : String)
  | otherException (msg : String)
  deriving DecidableEq

@[reducible] def benchInterface : Interface :=
  fsmInterface.extend MuxCall MuxCall.Ans MuxErr

abbrev BenchErr := Err ⊕ MuxErr

def BenchErr.isException : BenchErr → Bool
  | .inl e => e.isException
  | .inr _ => true

/-- `except FileNotFoundError` and `except subprocess.TimeoutExpired`. -/
def BenchErr.isToolError : BenchErr → Bool
  | .inr (.fileNotFoundError _) | .inr (.timeoutExpired _) => true
  | _ => false

def Err.message : Err → String
  | .stateMachineError msg | .kernelPanicError msg | .bootloaderTimeoutError msg
  | .bootloaderSyncError msg | .transportError msg | .transportConnectionError msg
  | .transportTimeoutError msg | .runtimeError msg | .osError msg | .machineError msg
  | .otherException msg => msg
  | .eofError | .keyboardInterrupt => ""

def MuxErr.message : MuxErr → String
  | .hostAdapterError msg | .valueError msg | .fileNotFoundError msg | .timeoutExpired msg
  | .notImplementedError msg | .otherException msg => msg

def BenchErr.message : BenchErr → String
  | .inl e => e.message
  | .inr e => e.message

abbrev BenchHardware := Device benchInterface

/-- To the state machine a failure of the mux is one more exception. -/
def BenchHardware.fsmSide (d : BenchHardware) : Hardware :=
  Device.restrict d fun e => .otherException e.message

structure HostUsbSdMuxAdapter where
  recoveryGpio : Option (Fin 2)
  devicePath : String
  /-- `_HAS_USBSDMUX_LIB`. -/
  hasLib : Bool

/-- The strategy is only built for a mux with a recovery GPIO. -/
structure SdMuxRecoveryStrategy where
  mux : HostUsbSdMuxAdapter
  latchTimeMs : Nat := 1000
  gpio : Fin 2
  wired : mux.recoveryGpio = some gpio

def SdMuxRecoveryStrategy.create (mux : HostUsbSdMuxAdapter) (latchTimeMs : Nat) :
    Except String SdMuxRecoveryStrategy :=
  match h : mux.recoveryGpio with
  | some gpio => .ok ⟨mux, latchTimeMs, gpio, h⟩
  | none => .error ("SdMuxRecoveryStrategy requires recovery_gpio to be set in UsbSdMuxConfig. " ++
    "Add 'recovery_gpio = 0' (or 1) to the [usb_sd_mux.*] section in your station TOML.")

section
variable {d : BenchHardware} (mux : HostUsbSdMuxAdapter)

abbrev askMux (c : MuxCall) : Prog d c.Ans := call (I := benchInterface) (.inr c)

/-- A call of the state machine, made on the bench. -/
abbrev onFsm (p : Fsm d.fsmSide α) : Prog d α := lift (I := fsmInterface) p

def failMux (e : MuxErr) : Prog d α := fail (I := benchInterface) (.inr e)

def toolFailure (state : String) : BenchErr → MuxErr
  | .inr (.fileNotFoundError _) =>
    .hostAdapterError "The 'usbsdmux' tool is not installed on the Host PC."
  | _ => .hostAdapterError s!"usbsdmux timed out switching {mux.devicePath} to {state}."

/-- `_set_mux_state`. -/
def setMuxState (state : String) : Prog d Unit :=
  if state ∉ ["host", "dut", "off"] then
    failMux (.valueError "Mux state must be 'host', 'dut', or 'off'")
  else do
    let found : Bool ← askMux .pathExists
    if !found then
      failMux (.hostAdapterError (s!"USB-SD-Mux not found at '{mux.devicePath}'. " ++
        "Is it plugged in, and are the udev rules (99-usbsdmux.rules) installed?"))
    else
      attempt (do
        let res : CompletedProcess ← askMux (.runUsbsdmux state)
        if res.returncode ≠ 0 then
          failMux (.hostAdapterError
            s!"usbsdmux failed to switch to {state}: {String.ofList (pyStrip res.stderr)}")
        else pure ())
        BenchErr.isToolError fun e => failMux (toolFailure mux state e)

/-- `_open_driver`: whether a driver could be opened. -/
def openDriver : Prog d Bool :=
  if !mux.hasLib then pure false
  else do
    let found : Bool ← askMux .pathExists
    if !found then pure false
    else
      attempt (do
        askMux .autoselectDriver
        pure true)
        BenchErr.isException fun _ => pure false

/-- `_get_fast_driver`. -/
def getFastDriver : Prog d Bool :=
  match mux.recoveryGpio with
  | none => pure false
  | some _ => openDriver mux

def direction (high : Bool) : String := if high then "HIGH" else "LOW"

def gpioFailure (gpio : Fin 2) (high : Bool) (e : BenchErr) : Prog d Unit :=
  match e with
  | .inr (.notImplementedError _) => pure ()
  | e => failMux (.hostAdapterError (s!"Failed to drive Fast-variant GPIO {gpio} " ++
      s!"{direction high} on {mux.devicePath}: {e.message}"))

/-- The drive of `_set_gpio`, on an opened driver. -/
def driveGpio (gpio : Fin 2) (high : Bool) : Prog d Unit :=
  attempt (askMux (.gpioSet gpio high)) BenchErr.isException (gpioFailure mux gpio high)

/-- `_set_gpio`: nothing happens where no driver can be opened. -/
def setGpio (gpio : Fin 2) (high : Bool) : Prog d Unit := do
  let opened ← getFastDriver mux
  onlyIf opened (driveGpio mux gpio high)

/-- `recovery_assert` and `recovery_release`: the open-drain line is held when it is low. -/
def recoveryAssert : Prog d Unit :=
  match mux.recoveryGpio with
  | none => pure ()
  | some gpio => setGpio mux gpio false

def recoveryRelease : Prog d Unit :=
  match mux.recoveryGpio with
  | none => pure ()
  | some gpio => setGpio mux gpio true

end

section
variable {d : BenchHardware} (fsm : Station) (strategy : SdMuxRecoveryStrategy)

/-- `SdMuxRecoveryStrategy.trigger_recovery`. -/
def SdMuxRecoveryStrategy.triggerRecovery : Prog d Unit := do
  setMuxState strategy.mux "dut"
  onFsm (ask (.sleep 300))
  recoveryAssert strategy.mux
  onFsm (doEnergize fsm)
  onFsm (ask (.sleep strategy.latchTimeMs))
  recoveryRelease strategy.mux

/-- `_hw_to_recovery` with the strategy the station manager put in. -/
def hwToRecoveryBy (trigger : Prog d Unit) : Prog d Unit := do
  let clear ← onFsm (approachRecovery fsm)
  if clear then do
    trigger
    onFsm (ask (.sleep 2000))
  else pure ()

/-- `boot_to_recovery` on the bench. -/
def fireRecoveryBy (trigger : Prog d Unit) : Prog d Unit := do
  let source ← onFsm getState
  hwToRecoveryBy fsm trigger
  onFsm (enterRecovery source)

def pullsLow (gpio : Fin 2) (e : Entry benchInterface) : Prop :=
  e = .call (I := benchInterface) (.inr (.gpioSet gpio false)) (.ok ())

/-- The command to let the open-drain line go, whatever came of it. -/
def letsGo (gpio : Fin 2) (e : Entry benchInterface) : Prop :=
  ∃ r, e = .call (I := benchInterface) (.inr (.gpioSet gpio true)) r

/-- Runs that leave the line alone. -/
abbrev lineUntouched (gpio : Fin 2) : Frame benchInterface :=
  without fun e => pullsLow gpio e ∨ letsGo gpio e

/-- The way to the strategy, and its steps before the line is pulled. -/
def approachMux : Prog d Bool := do
  let clear ← onFsm (approachRecovery fsm)
  if clear then do
    setMuxState strategy.mux "dut"
    onFsm (ask (.sleep 300))
    pure true
  else pure false

/-- The power-up, the latch wait, and the driver opened again: `false` where it could not be. -/
def holdMux : Prog d Bool := do
  onFsm (doEnergize fsm)
  onFsm (ask (.sleep strategy.latchTimeMs))
  getFastDriver strategy.mux

def settleMux (source : DutState) : Prog d Unit := do
  onFsm (ask (.sleep 2000))
  onFsm (enterRecovery source)

theorem onFsm_getState (w : World d) : onFsm getState w = .ok w.vars.state w := by
  have htrace : w.trace ++ [] = w.trace := List.append_nil _
  exact congrArg (fun t => EStateM.Result.ok w.vars.state { w with trace := t }) htrace

theorem fireRecoveryBy_bracket (w : World d) :
    fireRecoveryBy fsm (strategy.triggerRecovery fsm) w =
      bracket (arming (approachMux fsm strategy) (recoveryAssert strategy.mux))
        (holdMux fsm strategy) (driveGpio strategy.mux strategy.gpio true)
        (settleMux w.vars.state) (onFsm (enterRecovery w.vars.state)) w := by
  rw [fireRecoveryBy, bind_of_ok (onFsm_getState w)]
  simp only [hwToRecoveryBy, SdMuxRecoveryStrategy.triggerRecovery, bracket, arming, approachMux,
    holdMux, settleMux, recoveryRelease, setGpio, strategy.wired, bind_assoc]
  refine congrFun (bind_congr fun clear => ?_) w
  cases clear with
  | false => rfl
  | true => simp only [↓reduceIte, bind_assoc, pure_bind]

section
variable {gpio : Fin 2}

theorem embed_quiet (e : Entry fsmInterface) :
    ¬ (pullsLow gpio (Entry.embed e) ∨ letsGo gpio (Entry.embed e)) := by
  rcases e with ⟨c, r | a⟩ | n <;> rintro (h | ⟨r, h⟩) <;> cases h

theorem Within.onBench {F : Frame fsmInterface} {p : Fsm d.fsmSide α} (h : Within F p) :
    Within (lineUntouched gpio) (onFsm p) :=
  h.lift (fun e _ => embed_quiet e) fun _ _ _ => trivial

theorem within_sleep (ms : Nat) :
    Within (lineUntouched gpio) (onFsm (ask (.sleep ms)) : Prog d Unit) := by
  have hsleep : Within (routeFrame (made Call.supplies)) (ask (.sleep ms) : Fsm d.fsmSide Unit) :=
    within_made _ rfl
  exact hsleep.onBench

theorem within_askMux (c : MuxCall) (h : ∀ high, c ≠ .gpioSet gpio high) :
    Within (lineUntouched gpio) (askMux c : Prog d c.Ans) := by
  refine .call _ fun r => ?_
  rintro (hlow | ⟨r', hgo⟩)
  · cases hlow
    exact h false rfl
  · cases hgo
    exact h true rfl

theorem within_failMux (e : MuxErr) :
    Within (lineUntouched gpio) (failMux e : Prog d α) := .fail _

theorem within_setMuxState (mux : HostUsbSdMuxAdapter) (state : String) :
    Within (lineUntouched gpio) (setMuxState mux state : Prog d Unit) := by
  refine .ite (within_failMux _) ?_
  refine (within_askMux .pathExists (by simp)).bind fun _ => .ite (within_failMux _) ?_
  refine .attempt ?_ _ fun _ => within_failMux _
  exact (within_askMux (.runUsbsdmux state) (by simp)).bind fun _ =>
    .ite (within_failMux _) (.pure _)

theorem within_getFastDriver (mux : HostUsbSdMuxAdapter) :
    Within (lineUntouched gpio) (getFastDriver mux : Prog d Bool) := by
  rw [getFastDriver]
  split
  · exact .pure _
  · refine .ite (.pure _) ?_
    refine (within_askMux .pathExists (by simp)).bind fun _ => .ite (.pure _) ?_
    refine .attempt ?_ _ fun _ => .pure _
    exact (within_askMux .autoselectDriver (by simp)).bind fun _ => .pure _

theorem within_gpioFailure (mux : HostUsbSdMuxAdapter) (high : Bool) (e : BenchErr) :
    Within (lineUntouched gpio) (gpioFailure mux gpio high e : Prog d Unit) := by
  rcases e with e | e
  · exact within_failMux _
  · cases e with
    | notImplementedError msg => exact .pure ()
    | _ => exact within_failMux _

theorem within_approachMux :
    Within (lineUntouched gpio) (approachMux fsm strategy : Prog d Bool) := by
  -- which pin the other strategy would use does not matter here
  have happroach : Within (pinUntouched "") (approachRecovery fsm : Fsm d.fsmSide Bool) :=
    within_approachRecovery fsm
  refine happroach.onBench.bind fun _ => .ite ?_ (.pure _)
  exact (within_setMuxState _ _).bind fun _ => (within_sleep _).bind fun _ => .pure _

theorem within_holdMux :
    Within (lineUntouched gpio) (holdMux fsm strategy : Prog d Bool) :=
  (Within.onBench (within_doEnergize fsm)).bind fun _ =>
    (within_sleep _).bind fun _ => within_getFastDriver _

theorem within_enterBench (source : DutState) :
    Within (lineUntouched gpio) (onFsm (enterRecovery source) : Prog d Unit) := by
  have henter : Within (pinUntouched "") (enterRecovery source : Fsm d.fsmSide Unit) :=
    within_enterRecovery source
  exact henter.onBench

/-- The strategy drives its line low in one place, and does nothing on it after that. -/
theorem arms_recoveryAssert (hwired : strategy.gpio = gpio) :
    Arms (pullsLow gpio) (recoveryAssert strategy.mux : Prog d Unit) () := by
  subst hwired
  simp only [recoveryAssert, strategy.wired, setGpio]
  refine .bind (fun w => (within_getFastDriver _ w).without_or.1) fun opened => ?_
  cases opened with
  | false => exact .of_within (.pure ()) ()
  | true =>
    have hhandler (e : BenchErr) : Within (without (pullsLow strategy.gpio))
        (gpioFailure strategy.mux strategy.gpio false e : Prog d Unit) :=
      fun w => (within_gpioFailure _ false e w).without_or.1
    have hset : Arms (pullsLow strategy.gpio)
        (askMux (.gpioSet strategy.gpio false) : Prog d Unit) () := by
      refine Arms.call (I := benchInterface) (c := .inr (.gpioSet strategy.gpio false)) fun r => ?_
      constructor
      · intro h
        cases h
        rfl
      · rintro rfl
        rfl
    exact hset.attempt _ hhandler

theorem disarms_driveGpio (mux : HostUsbSdMuxAdapter) :
    Disarms (pullsLow gpio) (letsGo gpio) (driveGpio mux gpio true : Prog d Unit) := by
  intro w
  have hentry (r : Except BenchErr Unit) :
      letsGo gpio (.call (I := benchInterface) (.inr (.gpioSet gpio true)) r) ∧
        ¬ pullsLow gpio (.call (I := benchInterface) (.inr (.gpioSet gpio true)) r) := by
    refine ⟨⟨r, rfl⟩, ?_⟩
    intro h
    cases h
  rw [driveGpio, attempt]
  cases hrun : (askMux (.gpioSet gpio true) : Prog d Unit) w with
  | ok a w' =>
    refine ⟨_, (call_ok hrun).2, ⟨_, List.mem_singleton.2 rfl, (hentry _).1⟩, ?_⟩
    intro x hx
    rw [List.mem_singleton.1 hx]
    exact (hentry _).2
  | error e w' =>
    have htrace := (call_error hrun).2
    dsimp only
    split
    · -- what the handler does comes behind the command
      have hfailure :
          Within (lineUntouched gpio) (gpioFailure mux gpio true e : Prog d Unit) :=
        within_gpioFailure mux true e
      obtain ⟨⟨seg, hseg, hquiet⟩, -⟩ := hfailure w'
      refine ⟨.call _ (.error e) :: seg, ?_, ⟨_, List.mem_cons_self, (hentry (.error e)).1⟩, ?_⟩
      · rw [hseg, htrace, List.append_assoc]
        rfl
      · intro x hx
        rcases List.mem_cons.1 hx with rfl | h
        · exact (hentry _).2
        · exact fun hlow => hquiet x h (.inl hlow)
    · refine ⟨_, htrace, ⟨_, List.mem_singleton.2 rfl, (hentry _).1⟩, ?_⟩
      intro x hx
      rw [List.mem_singleton.1 hx]
      exact (hentry _).2

end

/-- Where the line goes low, the power-up and the latch wait go through and the driver opens
again. -/
def MuxHoldCompletes (w : World d) : Prop :=
  ∀ w₁, arming (approachMux fsm strategy) (recoveryAssert strategy.mux) w = .ok true w₁ →
    (∃ e ∈ w.since w₁, pullsLow strategy.gpio e) → ∃ w₂, holdMux fsm strategy w₁ = .ok true w₂

/-- After the line has gone low comes the command that lets it go. -/
def MuxStrapSettled (seg : List (Entry benchInterface)) : Prop :=
  SwitchedOff (pullsLow strategy.gpio) (letsGo strategy.gpio) seg

theorem muxStrapSettled_iff (w : World d) :
    MuxStrapSettled strategy
        (w.since (World.after (fireRecoveryBy fsm (strategy.triggerRecovery fsm) w))) ↔
      MuxHoldCompletes fsm strategy w := by
  rw [MuxStrapSettled, fireRecoveryBy_bracket]
  exact bracket_settled_iff
    (.arming (fun w => (within_approachMux fsm strategy w).without_or.1)
      (arms_recoveryAssert strategy rfl))
    (within_holdMux fsm strategy) (disarms_driveGpio _)
    ((within_sleep _).bind fun _ => within_enterBench _)
    (fun w => (within_enterBench _ w).without_or.1) w

end

/-- With either strategy a recovery boot lets its line go exactly if nothing raises between the
assertion and the release. -/
theorem bootToRecovery_settled_iff (fsm : Station) {d : Hardware} (w : World d)
    (strategy : SdMuxRecoveryStrategy) {bench : BenchHardware} (w' : World bench) :
    (StrapSettled fsm (w.since (World.after (fire fsm .bootToRecovery w))) ↔ HoldCompletes fsm w) ∧
      (MuxStrapSettled strategy
          (w'.since (World.after (fireRecoveryBy fsm (strategy.triggerRecovery fsm) w'))) ↔
        MuxHoldCompletes fsm strategy w') :=
  ⟨strapSettled_iff fsm w, muxStrapSettled_iff fsm strategy w'⟩

def strappedStation : Station := { psu := some {}, gpio := true }

def trippedSupply : Hardware := steady fun
  | .psuEnableOutput => .error (.otherException "over-current protection")
  | c => .ok (default : c.Ans)

/-- The supply refuses after the line went on: `boot_to_recovery` raises and leaves it on. -/
theorem bootToRecovery_strap_held :
    ∃ w : World trippedSupply,
      ¬ StrapSettled strappedStation
        (w.since (World.after (fire strappedStation .bootToRecovery w))) := by
  refine ⟨⟨{ state := .powerOff }, (), []⟩, fun h => ?_⟩
  obtain ⟨x, hx, r, hr⟩ := h "RECOVERY_BTN" rfl [] _ _ rfl rfl
  subst hr
  simp at hx

end MesCore
