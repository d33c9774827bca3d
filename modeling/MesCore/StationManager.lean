import Mathlib.Data.Rat.Defs
import MesCore.Interaction

namespace MesCore
set_option autoImplicit true

namespace StationManager

/-- The hardware that a session holds open. -/
inductive SessionResource
  | serialPort
  | sshConnection
  | psuSession
  deriving DecidableEq

inductive PsuVendor
  | fnirsi
  | rigol
  | keysight
  deriving DecidableEq

/-- `psu_hardware`, with the fields that `_init_psu` reads. -/
structure PsuHardware where
  enabled : Bool := true
  vendor : PsuVendor
  ovpLimit : Option ℚ := none
  ocpLimit : Option ℚ := none
  defaultVoltage : Option ℚ := none
  defaultCurrent : Option ℚ := none

structure SdMuxConfig where
  enabled : Bool := true
  recoveryGpio : Option Nat := none

/-- `StationEnvironment`, as far as `connect` reads it. Ports and targets are listed with their
`enabled` flag, in the order of the file. -/
structure StationConfig where
  hostSerial : List (String × Bool) := []
  sshTargets : List (String × Bool) := []
  psuHardware : Option PsuHardware := none
  stateMachine : Option Bool := none
  usbSdMux : List (String × SdMuxConfig) := []

/-- The calls on the host and on the objects of a session, in `connect` and then in
`disconnect`. -/
inductive StationCall
  | configExists
  | loadConfig
  | newSerial (port : String)
  | serialConnect
  | newSsh
  | sshConnect
  | newFailover
  | newPsu (vendor : PsuVendor)
  | psuConnect
  | psuSetOvp (limit : ℚ)
  | psuSetOcp (limit : ℚ)
  | psuSetVoltage (volts : ℚ)
  | psuSetCurrent (amps : ℚ)
  | newFsm
  | newSdMux
  | newSdMuxRecovery
  | newWatchdog
  | watchdogStart
  | watchdogStop
  | psuDisableOutput
  | psuClose
  | sdMuxHost
  | sshDisconnect
  | serialDisconnect

@[reducible] def StationCall.Ans : StationCall → Type
  | .configExists => Bool
  | .loadConfig => StationConfig
  | _ => Unit

/-- An exception: its text, and whether the call had opened its hardware before it raised. -/
structure StationErr where
  msg : String
  opened : Bool := false

inductive SessionTransport
  | failover
  | ssh
  | serial
  | mock (typeName : String)
  deriving DecidableEq

/-- A power supply object; `hasClose` is what `hasattr` says. -/
structure SessionPsu where
  hasClose : Bool := true

/-- An entry of `_stations`, as far as `disconnect` reads it. -/
structure StationSession where
  transport : SessionTransport
  serial : Bool
  ssh : Bool
  psu : Option SessionPsu
  fsm : Bool
  sdMux : Bool
  watchdog : Bool

@[reducible] def stationInterface : Interface where
  Call := StationCall
  Ans := StationCall.Ans
  Err := StationErr
  Note := Empty
  Vars := List (String × StationSession)

abbrev Stations := Device stationInterface

abbrev Manager (d : Stations) (α : Type) := Prog d α

inductive ConnectResult
  | connected (stationId state transportType : String) (hasFsm hasPsu hasWatchdog : Bool)
  | error (msg : String)

inductive DisconnectResult
  | success (stationId : String)
  | error (msg : String)

namespace StationCall

def opens : StationCall → Option SessionResource
  | .serialConnect => some .serialPort
  | .sshConnect => some .sshConnection
  | .psuConnect => some .psuSession
  | _ => none

def closes : StationCall → Option SessionResource
  | .serialDisconnect => some .serialPort
  | .sshDisconnect => some .sshConnection
  | .psuClose => some .psuSession
  | _ => none

/-- The steps of `connect` that no handler of their own covers. -/
def vital : StationCall → Bool
  | .loadConfig | .newSerial _ | .newSsh | .newFailover | .newFsm | .newWatchdog => true
  | _ => false

end StationCall

/-- A call that was made, and how it ended. -/
abbrev performed (c : StationCall) (r : Except StationErr c.Ans) : Entry stationInterface :=
  .call c r

section
variable {d : Stations}

def perform (c : StationCall) : Manager d c.Ans := call (I := stationInterface) c

/-- `try: p except Exception: pass`, with or without a warning. -/
def tolerate (p : Manager d Unit) : Manager d Unit := attempt p (fun _ => true) fun _ => pure ()

def performWith (c : ℚ → StationCall) : Option ℚ → Manager d Unit
  | some x => do
    let _ ← perform (c x)
    pure ()
  | none => pure ()

/-- The port that is opened: `debug_port` if it is enabled, and else the first one if that is. -/
def StationConfig.port (c : StationConfig) : Option String :=
  if c.hostSerial.lookup "debug_port" = some true then some "debug_port"
  else match c.hostSerial with
    | (name, true) :: _ => some name
    | _ => none

def openSerial (c : StationConfig) : Manager d Bool :=
  match c.port with
  | some port => do
    perform (.newSerial port)
    tolerate (perform .serialConnect)
    pure true
  | none => pure false

def openSsh (c : StationConfig) : Manager d Bool :=
  if c.sshTargets.lookup "primary" = some true then do
    perform .newSsh
    tolerate (perform .sshConnect)
    pure true
  else pure false

def openTransports (c : StationConfig) :
    Option String → Manager d (Option (SessionTransport × Bool × Bool))
  | some typeName => pure (some (.mock typeName, false, false))
  | none => do
    let serial ← openSerial c
    let ssh ← openSsh c
    if ssh && serial then do
      perform .newFailover
      pure (some (.failover, serial, ssh))
    else if ssh then pure (some (.ssh, serial, ssh))
    else if serial then pure (some (.serial, serial, ssh))
    else pure none

/-- The power supply of a session, connected and with its limits set. -/
def connectPsu (p : PsuHardware) : Manager d (Option SessionPsu) := do
  perform (.newPsu p.vendor)
  perform .psuConnect
  if p.vendor = .fnirsi then do
    performWith .psuSetOvp p.ovpLimit
    performWith .psuSetOcp p.ocpLimit
    performWith .psuSetVoltage p.defaultVoltage
    performWith .psuSetCurrent p.defaultCurrent
    pure (some {})
  else pure (some {})

/-- `_init_psu`. -/
def initPsu (c : StationConfig) : Manager d (Option SessionPsu) :=
  match c.psuHardware with
  | some p =>
    if p.enabled then attempt (connectPsu p) (fun _ => true) fun _ => pure none else pure none
  | none => pure none

def buildFsm (c : StationConfig) : Manager d Bool :=
  if c.stateMachine = some true then do
    perform .newFsm
    pure true
  else pure false

/-- The multiplexer that is looked at: `factory_media`, and else the first one. -/
def StationConfig.mux (c : StationConfig) : Option SdMuxConfig :=
  (c.usbSdMux.lookup "factory_media").or (c.usbSdMux.head?.map Prod.snd)

/-- A failure to wire the recovery strategy keeps the multiplexer. -/
def initSdMux (c : StationConfig) (fsm : Bool) : Manager d Bool :=
  match c.mux with
  | some mux =>
    if mux.enabled then
      attempt (do
        perform .newSdMux
        tolerate (onlyIf (fsm && mux.recoveryGpio.isSome) (perform .newSdMuxRecovery))
        pure true)
        (fun _ => true) fun _ => pure false
    else pure false
  | none => pure false

def startWatchdog (serial : Bool) : Manager d Bool :=
  if serial then do
    perform .newWatchdog
    tolerate (perform .watchdogStart)
    pure true
  else pure false

/-- The body of `connect`, up to the registration. -/
def bringUp (c : StationConfig) (mockTransport : Option String) :
    Manager d (Option StationSession) := do
  let transports ← openTransports c mockTransport
  match transports with
  | none => pure none
  | some (transport, serial, ssh) => do
    let psu ← initPsu c
    let fsm ← buildFsm c
    let sdMux ← initSdMux c fsm
    let watchdog ← startWatchdog serial
    pure (some {
      transport := transport
      serial := serial
      ssh := ssh
      psu := psu
      fsm := fsm
      sdMux := sdMux
      watchdog := watchdog })

def SessionTransport.typeName : SessionTransport → String
  | .failover => "FailoverTransport"
  | .ssh => "EphemeralSSHClient"
  | .serial => "EphemeralSerialClient"
  | .mock typeName => typeName

/-- A new machine starts in `DIRTY`. -/
def StationSession.report (stationId : String) (s : StationSession) : ConnectResult :=
  .connected stationId (if s.fsm then "DIRTY" else "UNKNOWN") s.transport.typeName s.fsm
    s.psu.isSome s.watchdog

/-- What runs under the `try` of `connect`. -/
def connectConfigured (stationId : String) (mockTransport : Option String) :
    Manager d ConnectResult := do
  let config : StationConfig ← perform .loadConfig
  let session ← bringUp config mockTransport
  match session with
  | none =>
    pure (.error "No enabled serial or SSH transport configured in station environment")
  | some s => do
    modifyVars fun stations => (stationId, s) :: stations
    pure (s.report stationId)

/-- `StationManager.connect`. -/
def connect (stationId configPath : String) (mockTransport : Option String) :
    Manager d ConnectResult := do
  let stations ← getVars
  if (stations.lookup stationId).isSome then
    pure (.error s!"Station '{stationId}' is already connected")
  else do
    let found : Bool ← perform .configExists
    if found then
      attempt (connectConfigured stationId mockTransport) (fun _ => true) fun e =>
        pure (.error e.msg)
    else pure (.error s!"Config file not found: {configPath}")

def stopPsu (p : SessionPsu) : Manager d Unit := do
  perform .psuDisableOutput
  onlyIf p.hasClose (perform .psuClose)

def teardownPsu : Option SessionPsu → Manager d Unit
  | some p => tolerate (stopPsu p)
  | none => pure ()

/-- `StationManager.disconnect`. -/
def disconnect (stationId : String) : Manager d DisconnectResult := do
  let stations ← getVars
  match stations.lookup stationId with
  | none => pure (.error s!"Station '{stationId}' not found")
  | some s => do
    modifyVars fun stations => stations.filter (·.1 ≠ stationId)
    onlyIf s.watchdog (tolerate (perform .watchdogStop))
    teardownPsu s.psu
    onlyIf s.sdMux (tolerate (perform .sdMuxHost))
    onlyIf s.ssh (tolerate (perform .sshDisconnect))
    onlyIf s.serial (tolerate (perform .serialDisconnect))
    pure (.success stationId)

end

/-- A call that opens a resource has done so when it returns, and perhaps when it raises. -/
def opened (r : SessionResource) : Entry stationInterface → Bool
  | .call c (.ok _) => c.opens = some r
  | .call c (.error e) => c.opens = some r && e.opened

def closed (r : SessionResource) : Entry stationInterface → Bool
  | .call c (.ok _) => c.closes = some r
  | .call _ (.error _) => false

/-- The resource is open after these calls, if it was not before. -/
def leftOpen (r : SessionResource) (seg : List (Entry stationInterface)) : Bool :=
  seg.foldl (fun before e => if opened r e then true else if closed r e then false else before)
    false

def failed : Entry stationInterface → Bool
  | .call c (.error _) => c.vital
  | .call _ (.ok _) => false

/-- Such steps only fail before anything is open. -/
def FailsEarly (seg : List (Entry stationInterface)) : Prop :=
  ∀ before x after, seg = before ++ x :: after → failed x = true → ∀ r, leftOpen r before = false

section
variable {d : Stations}

/-- An error dict stands for a session that is not there. -/
def NoLeak (stationId configPath : String) (mockTransport : Option String) (w : World d) : Prop :=
  ∀ msg w', connect stationId configPath mockTransport w = .ok (.error msg) w' →
    w'.vars.lookup stationId = none ∧ ∀ r, leftOpen r (w.since w') = false

/-- The calls were made, each of them returning or not. -/
def Attempts (s : StationSession) (seg : List (Entry stationInterface)) : Prop :=
  (s.watchdog = true → ∃ r, performed .watchdogStop r ∈ seg) ∧
    (∀ p, s.psu = some p → (∃ r, performed .psuDisableOutput r ∈ seg) ∧
      (p.hasClose = true → ∃ r, performed .psuClose r ∈ seg)) ∧
    (s.ssh = true → ∃ r, performed .sshDisconnect r ∈ seg) ∧
    (s.serial = true → ∃ r, performed .serialDisconnect r ∈ seg)

/-- Calls that leave the resources closed as they are and end nothing. -/
def Calm (seg : List (Entry stationInterface)) : Prop :=
  ∀ x ∈ seg, failed x = false ∧ ∀ r, closed r x = false

theorem calm_nil : Calm [] := by
  intro x hx
  cases hx

theorem Calm.append {seg seg' : List (Entry stationInterface)} (h : Calm seg) (h' : Calm seg') :
    Calm (seg ++ seg') := by
  intro x hx
  rcases List.mem_append.1 hx with hx | hx
  · exact h x hx
  · exact h' x hx

theorem Calm.answer {c : StationCall} (hc : c.closes = none) (a : c.Ans) :
    Calm [performed c (.ok a)] := by
  intro x hx
  rw [List.mem_singleton.1 hx]
  exact ⟨rfl, fun r => by simp [closed, hc]⟩

def calmFrame : Frame stationInterface where
  entry x := failed x = false ∧ ∀ r, closed r x = false
  vars u v := v = u
  refl _ := rfl
  trans h h' := h'.trans h

/-- A program whose steps without a handler end it. -/
def Staged (p : Manager d α) : Prop :=
  ∀ w, wp p (fun _ w' => w'.vars = w.vars ∧ ∃ seg, w'.trace = w.trace ++ seg ∧ Calm seg)
    (fun _ w' => w'.vars = w.vars ∧
      ∃ seg x, w'.trace = w.trace ++ (seg ++ [x]) ∧ Calm seg ∧ failed x = true) w

theorem calm_entry {c : StationCall} (hv : c.vital = false) (hc : c.closes = none)
    (r : Except StationErr c.Ans) : calmFrame.entry (performed c r) := by
  cases r with
  | ok a => exact ⟨rfl, fun r => by simp [closed, hc]⟩
  | error e => exact ⟨hv, fun r => rfl⟩

theorem within_perform {c : StationCall} (hv : c.vital = false) (hc : c.closes = none) :
    Within calmFrame (perform c : Manager d c.Ans) :=
  .call (I := stationInterface) c (calm_entry hv hc)

theorem within_performWith {c : ℚ → StationCall} (hv : ∀ x, (c x).vital = false)
    (hc : ∀ x, (c x).closes = none) (o : Option ℚ) :
    Within calmFrame (performWith c o : Manager d Unit) := by
  cases o with
  | none => exact .pure _
  | some x => exact (within_perform (hv x) (hc x)).bind fun _ => .pure _

theorem within_tolerate {F : Frame stationInterface} {p : Manager d Unit} (h : Within F p) :
    Within F (tolerate p) := h.attempt _ fun _ => .pure _

theorem Staged.pure (a : α) : Staged (pure a : Manager d α) := by
  intro w
  rw [wp_pure]
  exact ⟨rfl, [], (List.append_nil _).symm, calm_nil⟩

theorem Staged.bind {p : Manager d α} {k : α → Manager d β} (hp : Staged p)
    (hk : ∀ a, Staged (k a)) : Staged (p >>= k) := by
  intro w
  rw [wp_bind]
  refine (hp w).mono ?_ fun _ _ h => h
  rintro a w' ⟨hv, seg, htrace, hcalm⟩
  refine (hk a w').mono ?_ ?_
  · rintro b w'' ⟨hv', seg', htrace', hcalm'⟩
    refine ⟨hv'.trans hv, seg ++ seg', ?_, hcalm.append hcalm'⟩
    rw [htrace', htrace, List.append_assoc]
  · rintro e w'' ⟨hv', seg', x, htrace', hcalm', hx⟩
    refine ⟨hv'.trans hv, seg ++ seg', x, ?_, hcalm.append hcalm', hx⟩
    rw [htrace', htrace, List.append_assoc, List.append_assoc]

theorem Staged.perform {c : StationCall} (hv : c.vital = true) (hc : c.closes = none) :
    Staged (perform c : Manager d c.Ans) := by
  intro w
  apply wp_call
  · intro a s
    exact ⟨rfl, [performed c (.ok a)], rfl, .answer hc a⟩
  · intro e s
    exact ⟨rfl, [], performed c (.error e), rfl, calm_nil, hv⟩

theorem Staged.attempt {p : Manager d α} (hp : Within calmFrame p) (a : α) :
    Staged (attempt p (fun _ => true) fun _ => Pure.pure a) := by
  intro w
  rw [wp_attempt]
  refine hp.wp.mono ?_ ?_
  · rintro b w' ⟨⟨seg, htrace, hcalm⟩, hv⟩
    exact ⟨hv, seg, htrace, hcalm⟩
  · rintro e w' ⟨⟨seg, htrace, hcalm⟩, hv⟩
    rw [if_pos rfl, wp_pure]
    exact ⟨hv, seg, htrace, hcalm⟩

theorem Staged.tolerate {p : Manager d Unit} (hp : Within calmFrame p) : Staged (tolerate p) :=
  .attempt hp ()

theorem Staged.ite {c : Prop} [Decidable c] {p q : Manager d α} (hp : Staged p) (hq : Staged q) :
    Staged (if c then p else q) := by
  split
  · exact hp
  · exact hq

theorem staged_openSerial (c : StationConfig) : Staged (openSerial c : Manager d Bool) := by
  unfold openSerial
  split
  · apply (Staged.perform rfl rfl).bind
    intro _
    exact (Staged.tolerate (within_perform rfl rfl)).bind fun _ => .pure _
  · exact .pure _

theorem staged_openSsh (c : StationConfig) : Staged (openSsh c : Manager d Bool) := by
  apply Staged.ite
  · apply (Staged.perform rfl rfl).bind
    intro _
    exact (Staged.tolerate (within_perform rfl rfl)).bind fun _ => .pure _
  · exact .pure _

theorem staged_openTransports (c : StationConfig) (mockTransport : Option String) :
    Staged (openTransports c mockTransport : Manager d _) := by
  cases mockTransport with
  | some typeName => exact .pure _
  | none =>
    apply (staged_openSerial c).bind
    intro serial
    apply (staged_openSsh c).bind
    intro ssh
    apply Staged.ite
    · exact (Staged.perform rfl rfl).bind fun _ => .pure _
    · exact .ite (.pure _) (.ite (.pure _) (.pure _))

theorem within_connectPsu (p : PsuHardware) :
    Within calmFrame (connectPsu p : Manager d (Option SessionPsu)) := by
  apply (within_perform rfl rfl).bind
  intro _
  apply (within_perform rfl rfl).bind
  intro _
  apply Within.ite
  · apply (within_performWith (fun _ => rfl) (fun _ => rfl) _).bind
    intro _
    apply (within_performWith (fun _ => rfl) (fun _ => rfl) _).bind
    intro _
    apply (within_performWith (fun _ => rfl) (fun _ => rfl) _).bind
    intro _
    exact (within_performWith (fun _ => rfl) (fun _ => rfl) _).bind fun _ => .pure _
  · exact .pure _

theorem staged_initPsu (c : StationConfig) : Staged (initPsu c : Manager d _) := by
  unfold initPsu
  split
  · exact .ite (.attempt (within_connectPsu _) _) (.pure _)
  · exact .pure _

theorem staged_buildFsm (c : StationConfig) : Staged (buildFsm c : Manager d Bool) :=
  .ite ((Staged.perform rfl rfl).bind fun _ => .pure _) (.pure _)

theorem staged_initSdMux (c : StationConfig) (fsm : Bool) :
    Staged (initSdMux c fsm : Manager d Bool) := by
  unfold initSdMux
  split
  · apply Staged.ite
    · apply Staged.attempt
      apply (within_perform rfl rfl).bind
      intro _
      exact (within_tolerate (.onlyIf _ (within_perform rfl rfl))).bind fun _ => .pure _
    · exact .pure _
  · exact .pure _

theorem staged_startWatchdog (serial : Bool) : Staged (startWatchdog serial : Manager d Bool) := by
  apply Staged.ite
  · apply (Staged.perform rfl rfl).bind
    intro _
    exact (Staged.tolerate (within_perform rfl rfl)).bind fun _ => .pure _
  · exact .pure _

theorem staged_bringUp (c : StationConfig) (mockTransport : Option String) :
    Staged (bringUp c mockTransport : Manager d _) := by
  apply (staged_openTransports c mockTransport).bind
  intro transports
  cases transports with
  | none => exact .pure _
  | some t =>
    apply (staged_initPsu c).bind
    intro psu
    apply (staged_buildFsm c).bind
    intro fsm
    apply (staged_initSdMux c fsm).bind
    intro sdMux
    exact (staged_startWatchdog t.2.1).bind fun _ => .pure _

theorem openTransports_none {c : StationConfig} {mockTransport : Option String} {w w' : World d}
    (h : openTransports c mockTransport w = .ok none w') : w' = w := by
  cases mockTransport with
  | some typeName => cases h
  | none =>
    obtain ⟨serial, w₁, h₁, h⟩ := bind_ok h
    obtain ⟨ssh, w₂, h₂, h⟩ := bind_ok h
    cases ssh with
    | true =>
      cases serial with
      | true =>
        obtain ⟨_, w₃, h₃, h⟩ := bind_ok h
        cases h
      | false => cases h
    | false =>
      cases serial with
      | true => cases h
      | false =>
        cases h
        rw [openSsh] at h₂
        split at h₂
        · obtain ⟨_, _, _, h₂⟩ := bind_ok h₂
          obtain ⟨_, _, _, h₂⟩ := bind_ok h₂
          cases h₂
        · cases h₂
          unfold openSerial at h₁
          cases hport : c.port with
          | some port =>
            rw [hport] at h₁
            obtain ⟨_, _, _, h₁⟩ := bind_ok h₁
            obtain ⟨_, _, _, h₁⟩ := bind_ok h₁
            cases h₁
          | none =>
            rw [hport] at h₁
            cases h₁
            rfl

theorem bringUp_none {c : StationConfig} {mockTransport : Option String} {w w' : World d}
    (h : bringUp c mockTransport w = .ok none w') : w' = w := by
  obtain ⟨transports, w₁, h₁, h⟩ := bind_ok h
  cases transports with
  | none =>
    cases h
    exact openTransports_none h₁
  | some t =>
    obtain ⟨_, _, _, h⟩ := bind_ok h
    obtain ⟨_, _, _, h⟩ := bind_ok h
    obtain ⟨_, _, _, h⟩ := bind_ok h
    obtain ⟨_, _, _, h⟩ := bind_ok h
    cases h

theorem Calm.failsEarly {seg : List (Entry stationInterface)} (h : Calm seg) :
    FailsEarly seg := by
  intro before x after heq hx
  have hcalm := (h x (by rw [heq]; simp)).1
  rw [hx] at hcalm
  cases hcalm

theorem failed_neutral {x : Entry stationInterface} (h : failed x = true) (r : SessionResource) :
    opened r x = false ∧ closed r x = false := by
  cases x with
  | note n => cases n
  | call c res =>
    cases res with
    | ok a => cases h
    | error e =>
      have hv : c.vital = true := h
      refine ⟨?_, rfl⟩
      cases c <;> first | rfl | cases hv

theorem leftOpen_concat {r : SessionResource} {seg : List (Entry stationInterface)}
    {x : Entry stationInterface} (hx : failed x = true) :
    leftOpen r (seg ++ [x]) = leftOpen r seg := by
  rw [leftOpen, List.foldl_append, List.foldl_cons, List.foldl_nil, (failed_neutral hx r).1,
    (failed_neutral hx r).2]
  rfl

/-- A run that ends with a failure fails early if nothing was open by then. -/
theorem failsEarly_concat_iff {seg : List (Entry stationInterface)} {x : Entry stationInterface}
    (hcalm : Calm seg) (hx : failed x = true) :
    FailsEarly (seg ++ [x]) ↔ ∀ r, leftOpen r (seg ++ [x]) = false := by
  constructor
  · intro h r
    rw [leftOpen_concat hx]
    exact h seg x [] rfl hx r
  · intro h before y after heq hy r
    rcases List.eq_nil_or_concat after with hnil | ⟨after', z, hafter⟩
    · rw [hnil] at heq
      have hlast := List.append_inj' heq rfl
      rw [← hlast.1, ← leftOpen_concat hx]
      exact h r
    · have hmem : y ∈ seg := by
        rw [hafter, List.concat_eq_append, ← List.cons_append, ← List.append_assoc] at heq
        have hfront := List.append_inj' heq rfl
        rw [hfront.1]
        simp
      have hno := (hcalm y hmem).1
      rw [hy] at hno
      cases hno

/-- How a call of `connect` for a new station can go on after its first question. -/
structure Settled (w : World d) (result : ConnectResult) (w' : World d) : Prop where
  calm : ∃ seg, w'.trace = w.trace ++ seg ∧ Calm seg
  refused : ∀ msg, result = .error msg → w'.vars = w.vars ∧
    ∃ c, w'.trace = w.trace ++ [performed .loadConfig (.ok c)]

theorem connectConfigured_spec (stationId : String) (mockTransport : Option String)
    (w : World d) :
    wp (connectConfigured stationId mockTransport) (Settled w)
      (fun _ w' => w'.vars = w.vars ∧
        ∃ seg x, w'.trace = w.trace ++ (seg ++ [x]) ∧ Calm seg ∧ failed x = true) w := by
  unfold connectConfigured
  rw [wp_bind]
  apply wp_call
  · intro c s
    rw [wp_bind]
    have hload : Calm [performed .loadConfig (.ok c)] := Calm.answer (c := .loadConfig) rfl c
    have hstaged := staged_bringUp c mockTransport
      { w with dev := s, trace := w.trace ++ [performed .loadConfig (.ok c)] }
    unfold wp at hstaged ⊢
    split at hstaged
    · rename_i session w₁ hrun
      obtain ⟨hv, seg, htrace, hcalm⟩ := hstaged
      rw [hrun]
      cases session with
      | none =>
        have hsame := bringUp_none hrun
        rw [hsame]
        refine ⟨⟨_, rfl, hload⟩, ?_⟩
        intro msg _
        exact ⟨rfl, c, rfl⟩
      | some session =>
        refine ⟨⟨_, ?_, hload.append hcalm⟩, ?_⟩
        · rw [← List.append_assoc]
          exact htrace
        · intro msg hcontra
          cases hcontra
    · rename_i e w₁ hrun
      obtain ⟨hv, seg, x, htrace, hcalm, hx⟩ := hstaged
      rw [hrun]
      refine ⟨hv, [performed .loadConfig (.ok c)] ++ seg, x, ?_, hload.append hcalm, hx⟩
      rw [List.append_assoc, ← List.append_assoc]
      exact htrace
  · intro e s
    exact ⟨rfl, [], performed .loadConfig (.error e), rfl, calm_nil, rfl⟩

/-- A call for a new station raises at most at its first question; otherwise it is calm, or it
ends with the step that failed. -/
theorem connect_cases {stationId : String} (configPath : String) (mockTransport : Option String)
    {w : World d} (hid : w.vars.lookup stationId = none) :
    (∃ e w', connect stationId configPath mockTransport w = .error e w' ∧ Calm (w.since w')) ∨
      ∃ result w', connect stationId configPath mockTransport w = .ok result w' ∧
        ((Calm (w.since w') ∧ ∀ msg, result = .error msg →
            w'.vars = w.vars ∧ ∀ r, leftOpen r (w.since w') = false) ∨
          (∃ msg, result = .error msg) ∧ w'.vars = w.vars ∧
            ∃ seg x, w.since w' = seg ++ [x] ∧ Calm seg ∧ failed x = true) := by
  have hfresh : ¬ (w.vars.lookup stationId).isSome = true := by
    rw [hid]
    exact Bool.false_ne_true
  unfold connect
  rw [bind_of_ok (show getVars w = .ok w.vars w from rfl), if_neg hfresh]
  cases hq : (perform .configExists : Manager d Bool) w with
  | error e w₁ =>
    left
    refine ⟨e, w₁, bind_of_error hq, ?_⟩
    rw [World.since_eq (call_error hq).2]
    intro x hx
    rw [List.mem_singleton.1 hx]
    exact ⟨rfl, fun r => rfl⟩
  | ok found w₁ =>
    right
    rw [bind_of_ok hq]
    obtain ⟨hv₁, htrace₁⟩ := call_ok hq
    have hasked : Calm [performed .configExists (.ok found)] := .answer rfl found
    cases found with
    | false =>
      refine ⟨_, w₁, rfl, .inl ?_⟩
      rw [World.since_eq htrace₁]
      refine ⟨hasked, ?_⟩
      intro msg _
      exact ⟨hv₁, fun r => rfl⟩
    | true =>
      rw [if_pos rfl]
      have hspec := connectConfigured_spec stationId mockTransport w₁
      unfold attempt
      unfold wp at hspec
      split at hspec
      · rename_i result w₂ hrun
        obtain ⟨⟨seg, htrace, hcalm⟩, hrefused⟩ := hspec
        have hsince : w.since w₂ = [performed .configExists (.ok true)] ++ seg := by
          apply World.since_eq
          rw [htrace, htrace₁, List.append_assoc]
        refine ⟨result, w₂, rfl, .inl ⟨hsince ▸ hasked.append hcalm, ?_⟩⟩
        intro msg hmsg
        obtain ⟨hv, c, hload⟩ := hrefused msg hmsg
        rw [hload] at htrace
        refine ⟨hv.trans hv₁, ?_⟩
        rw [hsince, ← List.append_cancel_left htrace]
        intro r
        rfl
      · rename_i e w₂ hrun
        obtain ⟨hv, seg, x, htrace, hcalm, hx⟩ := hspec
        have hsince : w.since w₂ = ([performed .configExists (.ok true)] ++ seg) ++ [x] := by
          apply World.since_eq
          rw [htrace, htrace₁]
          simp only [List.append_assoc]
        refine ⟨_, w₂, rfl, .inr ⟨⟨e.msg, rfl⟩, hv.trans hv₁, _, x, hsince,
          hasked.append hcalm, hx⟩⟩

theorem connect_known {stationId configPath : String} {mockTransport : Option String} {w : World d}
    {s : StationSession} (hid : w.vars.lookup stationId = some s) :
    connect stationId configPath mockTransport w =
      .ok (.error s!"Station '{stationId}' is already connected") w := by
  unfold connect
  rw [bind_of_ok (show getVars w = .ok w.vars w from rfl), hid]
  rfl

/-- Nothing leaks exactly if the station is new and no step without a handler fails after
something was opened. -/
theorem connect_noLeak_iff (stationId configPath : String) (mockTransport : Option String)
    (w : World d) :
    NoLeak stationId configPath mockTransport w ↔ w.vars.lookup stationId = none ∧
      FailsEarly (w.since (World.after (connect stationId configPath mockTransport w))) := by
  cases hid : w.vars.lookup stationId with
  | some s =>
    apply iff_of_false
    · intro h
      have hnone := (h _ w (connect_known hid)).1
      rw [hid] at hnone
      cases hnone
    · intro h
      cases h.1
  | none =>
    rcases connect_cases configPath mockTransport hid with
      ⟨e, w', hrun, hcalm⟩ | ⟨result, w', hrun, hcase⟩
    · rw [hrun, World.after_error]
      apply iff_of_true
      · intro msg v hcontra
        rw [hrun] at hcontra
        cases hcontra
      · exact ⟨rfl, hcalm.failsEarly⟩
    · rw [hrun, World.after_ok]
      rcases hcase with ⟨hcalm, hrefused⟩ | ⟨⟨msg, hmsg⟩, hv, seg, x, hsince, hcalm, hx⟩
      · apply iff_of_true
        · intro msg v hmsg
          rw [hrun] at hmsg
          cases hmsg
          obtain ⟨hv, hleft⟩ := hrefused msg rfl
          rw [hv]
          exact ⟨hid, hleft⟩
        · exact ⟨rfl, hcalm.failsEarly⟩
      · rw [hsince, failsEarly_concat_iff hcalm hx]
        constructor
        · intro h
          rw [hmsg] at hrun
          have hleft := (h msg w' hrun).2
          rw [hsince] at hleft
          exact ⟨rfl, hleft⟩
        · intro h msg' v hmsg'
          rw [hrun] at hmsg'
          cases hmsg'
          rw [hv, hsince]
          exact ⟨hid, h.2⟩

/-- The program makes one call, and returns or raises as the call does. -/
def Once (c : StationCall) (p : Manager d α) : Prop :=
  ∀ w, ∃ r w', w'.trace = w.trace ++ [performed c r] ∧
    ((∃ a, p w = .ok a w') ∨ ∃ e, p w = .error e w')

/-- All these entries are calls of one kind. -/
def Only (c : StationCall) (seg : List (Entry stationInterface)) : Prop :=
  ∀ x ∈ seg, ∃ r, x = performed c r

theorem once_perform (c : StationCall) : Once c (perform c : Manager d c.Ans) := by
  intro w
  cases h : perform c w with
  | ok a w' => exact ⟨.ok a, w', (call_ok h).2, .inl ⟨a, rfl⟩⟩
  | error e w' => exact ⟨.error e, w', (call_error h).2, .inr ⟨e, rfl⟩⟩

theorem tolerate_of_ok {p : Manager d Unit} {w w' : World d} (h : p w = .ok () w') :
    tolerate p w = .ok () w' := by
  unfold tolerate attempt
  rw [h]

theorem tolerate_of_error {p : Manager d Unit} {w w' : World d} {e : StationErr}
    (h : p w = .error e w') : tolerate p w = .ok () w' := by
  unfold tolerate attempt
  rw [h]
  rfl

theorem Once.tolerate {c : StationCall} {p : Manager d Unit} (hp : Once c p) (b : Bool)
    (w : World d) : ∃ w', onlyIf b (tolerate p) w = .ok () w' ∧ ∃ seg,
      w'.trace = w.trace ++ seg ∧ Only c seg ∧ (b = true → ∃ r, performed c r ∈ seg) := by
  cases b with
  | false =>
    refine ⟨w, rfl, [], (List.append_nil _).symm, ?_, ?_⟩
    · intro x hx
      cases hx
    · intro h
      cases h
  | true =>
    obtain ⟨r, w', htrace, hrun⟩ := hp w
    refine ⟨w', ?_, [performed c r], htrace, ?_, ?_⟩
    · rcases hrun with ⟨a, hrun⟩ | ⟨e, hrun⟩
      · exact tolerate_of_ok hrun
      · exact tolerate_of_error hrun
    · intro x hx
      exact ⟨r, List.mem_singleton.1 hx⟩
    · intro _
      exact ⟨r, List.mem_singleton_self _⟩

/-- The output is switched off, and the session is closed if that did not raise. -/
theorem stopPsu_spec (p : SessionPsu) (w : World d) :
    ∃ w', tolerate (stopPsu p) w = .ok () w' ∧ ∃ r seg,
      w'.trace = w.trace ++ performed .psuDisableOutput r :: seg ∧ Only .psuClose seg ∧
        (p.hasClose = true → ((∃ c, performed .psuClose c ∈ seg) ↔ ∀ e, r ≠ .error e)) := by
  cases hoff : (perform .psuDisableOutput : Manager d Unit) w with
  | error e w₁ =>
    refine ⟨w₁, tolerate_of_error (bind_of_error hoff), .error e, [], (call_error hoff).2, ?_, ?_⟩
    · intro x hx
      cases hx
    · intro _
      apply iff_of_false
      · intro h
        obtain ⟨c, hc⟩ := h
        cases hc
      · intro h
        exact h e rfl
  | ok a w₁ =>
    have hhead := (call_ok hoff).2
    cases hclose : p.hasClose with
    | false =>
      refine ⟨w₁, tolerate_of_ok ?_, .ok a, [], hhead, ?_, ?_⟩
      · rw [stopPsu, bind_of_ok hoff, hclose]
        rfl
      · intro x hx
        cases hx
      · intro h
        cases h
    | true =>
      obtain ⟨c, w₂, htrace, hrun⟩ := once_perform (d := d) .psuClose w₁
      refine ⟨w₂, ?_, .ok a, [performed .psuClose c], ?_, ?_, ?_⟩
      · rcases hrun with ⟨b, hrun⟩ | ⟨e, hrun⟩
        · apply tolerate_of_ok
          rw [stopPsu, bind_of_ok hoff, hclose]
          exact hrun
        · apply tolerate_of_error
          rw [stopPsu, bind_of_ok hoff, hclose]
          exact hrun
      · rw [htrace, hhead, List.append_assoc]
        rfl
      · intro x hx
        exact ⟨c, List.mem_singleton.1 hx⟩
      · intro _
        apply iff_of_true
        · exact ⟨c, List.mem_singleton_self _⟩
        · intro e h
          cases h

theorem teardownPsu_spec (psu : Option SessionPsu) (w : World d) :
    ∃ w', teardownPsu psu w = .ok () w' ∧
      ∃ seg, w'.trace = w.trace ++ seg ∧
        (∀ x ∈ seg, (∃ r, x = performed .psuDisableOutput r) ∨ ∃ r, x = performed .psuClose r) ∧
        ∀ p, psu = some p → (∃ r, performed .psuDisableOutput r ∈ seg) ∧ (p.hasClose = true →
          ((∃ r, performed .psuClose r ∈ seg) ↔
            ∀ e, performed .psuDisableOutput (.error e) ∉ seg)) := by
  cases psu with
  | none =>
    refine ⟨w, rfl, [], (List.append_nil _).symm, ?_, ?_⟩
    · intro x hx
      cases hx
    · intro p hp
      cases hp
  | some p =>
    obtain ⟨w', hrun, r, seg, htrace, honly, hclose⟩ := stopPsu_spec p w
    refine ⟨w', hrun, performed .psuDisableOutput r :: seg, htrace, ?_, ?_⟩
    · intro x hx
      rcases List.mem_cons.1 hx with rfl | hx
      · exact .inl ⟨r, rfl⟩
      · exact .inr (honly x hx)
    · intro q hq
      cases hq
      refine ⟨⟨r, List.mem_cons_self ..⟩, ?_⟩
      intro hcan
      have hiff := hclose hcan
      constructor
      · intro h e hmem
        obtain ⟨c, hc⟩ := h
        have hc' : performed .psuClose c ∈ seg := by simpa using hc
        rcases List.mem_cons.1 hmem with heq | hmem
        · exact hiff.1 ⟨c, hc'⟩ e (by cases heq; rfl)
        · obtain ⟨x, hx⟩ := honly _ hmem
          cases hx
      · intro h
        obtain ⟨c, hc⟩ := hiff.2 fun e he => h e (by rw [he]; exact List.mem_cons_self ..)
        exact ⟨c, List.mem_cons_of_mem _ hc⟩

/-- A registered station is torn down to the end, with one segment of the history for each of its
parts. -/
theorem disconnect_spec {stationId : String} {w : World d} {s : StationSession}
    (hid : w.vars.lookup stationId = some s) :
    ∃ w', disconnect stationId w = .ok (.success stationId) w' ∧
      ∃ watchdog psu mux ssh serial,
        w.since w' = watchdog ++ (psu ++ (mux ++ (ssh ++ serial))) ∧
          (Only .watchdogStop watchdog ∧
            (s.watchdog = true → ∃ r, performed .watchdogStop r ∈ watchdog)) ∧
          ((∀ x ∈ psu, (∃ r, x = performed .psuDisableOutput r) ∨ ∃ r, x = performed .psuClose r) ∧
            ∀ p, s.psu = some p → (∃ r, performed .psuDisableOutput r ∈ psu) ∧
              (p.hasClose = true → ((∃ r, performed .psuClose r ∈ psu) ↔
                ∀ e, performed .psuDisableOutput (.error e) ∉ psu))) ∧
          Only .sdMuxHost mux ∧
          (Only .sshDisconnect ssh ∧ (s.ssh = true → ∃ r, performed .sshDisconnect r ∈ ssh)) ∧
          (Only .serialDisconnect serial ∧
            (s.serial = true → ∃ r, performed .serialDisconnect r ∈ serial)) := by
  let w₀ : World d := { w with vars := w.vars.filter (·.1 ≠ stationId) }
  obtain ⟨w₁, h₁, watchdog, t₁, hwatchdog⟩ :=
    (once_perform (d := d) .watchdogStop).tolerate s.watchdog w₀
  obtain ⟨w₂, h₂, psu, t₂, hpsu⟩ := teardownPsu_spec s.psu w₁
  obtain ⟨w₃, h₃, mux, t₃, hmux, _⟩ := (once_perform (d := d) .sdMuxHost).tolerate s.sdMux w₂
  obtain ⟨w₄, h₄, ssh, t₄, hssh⟩ := (once_perform (d := d) .sshDisconnect).tolerate s.ssh w₃
  obtain ⟨w₅, h₅, serial, t₅, hserial⟩ :=
    (once_perform (d := d) .serialDisconnect).tolerate s.serial w₄
  refine ⟨w₅, ?_, watchdog, psu, mux, ssh, serial, ?_, hwatchdog, hpsu, hmux, hssh, hserial⟩
  · unfold disconnect
    rw [bind_of_ok (show getVars w = .ok w.vars w from rfl), hid]
    dsimp only
    rw [bind_of_ok (show modifyVars _ w = .ok () w₀ from rfl), bind_of_ok h₁, bind_of_ok h₂,
      bind_of_ok h₃, bind_of_ok h₄, bind_of_ok h₅]
    rfl
  · apply World.since_eq
    rw [t₅, t₄, t₃, t₂, t₁]
    simp only [List.append_assoc]
    rfl

theorem Only.notMem {c c' : StationCall} {seg : List (Entry stationInterface)} (h : Only c seg)
    (hne : c' ≠ c) (r : Except StationErr c'.Ans) : performed c' r ∉ seg := by
  intro hmem
  obtain ⟨r', heq⟩ := h _ hmem
  cases heq
  exact hne rfl

/-- Every part of a registered station is torn down exactly if the supply's output can be
switched off, or there is no session to close. -/
theorem disconnect_attempts_iff {stationId : String} {w : World d} {s : StationSession}
    (hid : w.vars.lookup stationId = some s) :
    ∃ w', disconnect stationId w = .ok (.success stationId) w' ∧
      (Attempts s (w.since w') ↔ ∀ p, s.psu = some p → p.hasClose = true →
        ∀ e, performed .psuDisableOutput (.error e) ∉ w.since w') := by
  obtain ⟨w', hrun, watchdog, psu, mux, ssh, serial, hsince, hwatchdog, hpsu, hmux, hssh,
    hserial⟩ :=
    disconnect_spec hid
  refine ⟨w', hrun, ?_⟩
  have hown {c : StationCall} {r : Except StationErr c.Ans}
      (hc : c = .psuDisableOutput ∨ c = .psuClose) :
      performed c r ∈ w.since w' ↔ performed c r ∈ psu := by
    rw [hsince]
    simp only [List.mem_append]
    constructor
    · intro h
      rcases h with h | h | h | h | h
      · exact absurd h (hwatchdog.1.notMem (by rcases hc with rfl | rfl <;> simp) r)
      · exact h
      · exact absurd h (hmux.notMem (by rcases hc with rfl | rfl <;> simp) r)
      · exact absurd h (hssh.1.notMem (by rcases hc with rfl | rfl <;> simp) r)
      · exact absurd h (hserial.1.notMem (by rcases hc with rfl | rfl <;> simp) r)
    · intro h
      exact .inr (.inl h)
  constructor
  · intro h p hp hclose e hmem
    obtain ⟨r, hr⟩ := (h.2.1 p hp).2 hclose
    have hiff := (hpsu.2 p hp).2 hclose
    exact hiff.1 ⟨r, (hown (.inr rfl)).1 hr⟩ e ((hown (.inl rfl)).1 hmem)
  · intro h
    refine ⟨?_, ?_, ?_, ?_⟩
    · intro hw
      obtain ⟨r, hr⟩ := hwatchdog.2 hw
      exact ⟨r, by rw [hsince]; exact List.mem_append_left _ hr⟩
    · intro p hp
      obtain ⟨⟨r, hr⟩, hiff⟩ := hpsu.2 p hp
      refine ⟨⟨r, (hown (.inl rfl)).2 hr⟩, ?_⟩
      intro hclose
      obtain ⟨c, hc⟩ := (hiff hclose).2 fun e he => h p hp hclose e ((hown (.inl rfl)).2 he)
      exact ⟨c, (hown (.inr rfl)).2 hc⟩
    · intro hs
      obtain ⟨r, hr⟩ := hssh.2 hs
      exact ⟨r, by rw [hsince]; simp [hr]⟩
    · intro hs
      obtain ⟨r, hr⟩ := hserial.2 hs
      exact ⟨r, by rw [hsince]; simp [hr]⟩

/-- `connect` leaks nothing, and `disconnect` leaves nothing out, each under its own condition. -/
theorem session_leakless_iff (stationId configPath : String) (mockTransport : Option String)
    (w : World d) :
    (NoLeak stationId configPath mockTransport w ↔ w.vars.lookup stationId = none ∧
      FailsEarly (w.since (World.after (connect stationId configPath mockTransport w)))) ∧
    ∀ s, w.vars.lookup stationId = some s → ∃ w',
      disconnect stationId w = .ok (.success stationId) w' ∧
        (Attempts s (w.since w') ↔ ∀ p, s.psu = some p → p.hasClose = true →
          ∀ e, performed .psuDisableOutput (.error e) ∉ w.since w') := by
  refine ⟨connect_noLeak_iff stationId configPath mockTransport w, ?_⟩
  intro s hid
  exact disconnect_attempts_iff hid

end

def stationAnswer (config : StationConfig) : (c : StationCall) → c.Ans
  | .configExists => true
  | .loadConfig => config
  | .newSerial _ | .serialConnect | .newSsh | .sshConnect | .newFailover | .newPsu _
  | .psuConnect | .psuSetOvp _ | .psuSetOcp _ | .psuSetVoltage _ | .psuSetCurrent _ | .newFsm
  | .newSdMux | .newSdMuxRecovery | .newWatchdog | .watchdogStart | .watchdogStop
  | .psuDisableOutput | .psuClose | .sdMuxHost | .sshDisconnect | .serialDisconnect => ()

def hostWhere (fails : StationCall → Bool) (config : StationConfig) : Stations where
  State := Unit
  respond c s :=
    (if fails c then .error { msg := "failed" } else .ok (stationAnswer config c), s)

def noSshHost : Stations :=
  hostWhere (fun c => match c with | .newSsh => true | _ => false)
    { hostSerial := [("debug_port", true)], sshTargets := [("primary", true)] }

def deadPsuHost : Stations :=
  hostWhere (fun c => match c with | .psuDisableOutput => true | _ => false) {}

def fullSession : StationSession where
  transport := .failover
  serial := true
  ssh := true
  psu := some {}
  fsm := true
  sdMux := true
  watchdog := true

/-- The runs that fail: the serial port stays open, and the session of the supply does. -/
theorem session_leaks :
    (∃ w' : World noSshHost,
      connect "st1" "station_env.toml" none ⟨[], (), []⟩ = .ok (.error "failed") w' ∧
        leftOpen .serialPort w'.trace = true) ∧
    ∃ w' : World deadPsuHost,
      disconnect "st1" ⟨[("st1", fullSession)], (), []⟩ = .ok (.success "st1") w' ∧
        ∀ r, performed .psuClose r ∉ w'.trace := by
  refine ⟨⟨_, rfl, rfl⟩, _, rfl, ?_⟩
  intro r hmem
  simp at hmem

theorem fullSession_attempted :
    ∃ w' : World (hostWhere (fun _ => false) {}),
      disconnect "st1" ⟨[("st1", fullSession)], (), []⟩ = .ok (.success "st1") w' ∧
        Attempts fullSession w'.trace := by
  obtain ⟨w', hrun, hiff⟩ := (session_leakless_iff "st1" "station_env.toml" none
    (⟨[("st1", fullSession)], (), []⟩ : World (hostWhere (fun _ => false) {}))).2 fullSession rfl
  refine ⟨w', hrun, hiff.2 ?_⟩
  intro p _ _ e hmem
  cases hrun
  simp [World.since] at hmem

end StationManager

end MesCore
