import MesCore.BootEnv
import MesCore.OsEvidence
import MesCore.Decoding

namespace MesCore
set_option autoImplicit true

/-- What the console of a board prints next: nothing, its prompt in answer to a newline, or the
text of a boot. -/
inductive Output
  | silent
  | reply
  | boot
  deriving DecidableEq

/-- A board under power control, with the host's SSH session and serial port. -/
structure BoardState where
  board : Board
  ssh : Bool := false
  port : Bool := false
  output : Output := .silent

/-- A board on which all that a station of the trap strategy relies on works. `linuxBoot` and
`shell` are what Linux prints when it boots and when a newline is typed, `trapBoot` and `uboot`
what U-Boot prints. -/
structure IdealBoard (fsm : Station) where
  orig : String
  linuxBoot : Bytes
  shell : Bytes
  trapBoot : Bytes
  uboot : Bytes
  draw : ℚ
  turns : Nat
  samples : Nat
  autobootDisabled : fsm.cfg.autobootEnabled = false
  powered : fsm.psu.isSome = true ∨ fsm.headless = false
  strapped : fsm.gpio = true ∨ fsm.headless = false
  bootCmd_oneLine : fsm.cfg.bootloaderBootCmd.toList.all (fun c => c != '\r' && c != '\n') = true
  orig_ne_trap : orig ≠ trapString
  draws : fsm.cfg.powerOffThresholdA ≤ draw
  time : 2 ≤ turns
  printed : [] ∉ [linuxBoot, shell, trapBoot, uboot]
  shell_shown : ∀ c ∈ [linuxBoot, shell], ascii fsm.cfg.osShellPrompt <:+: stripAnsi c ∧
    panicSearch (encodeUtf8 (sanitise c)) = false
  uboot_prompt : ascii fsm.cfg.bootloaderPrompt ≠ []
  uboot_shown : ∀ c ∈ [trapBoot, uboot], ascii fsm.cfg.bootloaderPrompt <:+: stripAnsi c ∧
    ¬ ascii fsm.cfg.osLoginPrompt <:+: stripAnsi c
  /-- However often U-Boot prints its prompt and its trap, it never looks like Linux. -/
  uboot_quiet : ∀ cs c, (∀ b ∈ cs ++ [c], b ∈ [trapBoot, uboot]) →
    panicSearch (encodeUtf8 (lineBuffer [] cs ++ sanitise c)) = false ∧
      ¬ ascii fsm.cfg.osShellPrompt <:+: encodeUtf8 (lineBuffer [] cs ++ sanitise c)

namespace IdealBoard
variable {fsm : Station} (B : IdealBoard fsm)

def run (env : Env) : Mode := if env.bootcmd = some B.orig then .linux else .uboot env

def powerUp (s : BoardState) : BoardState :=
  if s.board.mode = .off then
    { s with board := ⟨s.board.flash, B.run s.board.flash⟩, output := .boot }
  else s

def cutPower (s : BoardState) : BoardState :=
  { s with board := { s.board with mode := .off }, ssh := false, output := .silent }

def restart (s : BoardState) : BoardState :=
  if s.board.mode = .off then s
  else { s with board := ⟨s.board.flash, B.run s.board.flash⟩, ssh := false, output := .boot }

/-- The line that raw bytes type, up to their line ending. -/
def lineOf (data : Bytes) : String :=
  String.ofList ((decodeReplace data).takeWhile fun c => c != '\r' && c != '\n')

def typeLine (line : String) (s : BoardState) : BoardState :=
  match s.board.mode with
  | .uboot env =>
    if line ∈ ["boot", fsm.cfg.bootloaderBootCmd] then
      { s with board := ⟨s.board.flash, B.run env⟩, output := .boot }
    else { s with output := .reply }
  | .linux => if line = "reboot" then B.restart s else { s with output := .reply }
  | .off | .starting _ => s

def heard (s : BoardState) : Bytes :=
  if s.port then
    match s.output, s.board.mode with
    | .boot, .linux => B.linuxBoot
    | .reply, .linux => B.shell
    | .boot, .uboot _ => B.trapBoot
    | .reply, .uboot _ => B.uboot
    | _, _ => []
  else []

/-- A flush drops what was printed, not the boot that is still to come. -/
def flushed (s : BoardState) : BoardState :=
  if s.output = .reply then { s with output := .silent } else s

/-- The result of a command that succeeds; only `echo` prints. -/
def succeeded (cmd : String) : CommandResult where
  stdout := match cmd.toList.dropPrefix? "echo ".toList with
    | some word => String.ofList word
    | none => ""

def shellRun (cmd : String) (s : BoardState) : BoardState :=
  if cmd = "reboot" then B.restart s else { s with board := s.board.carryOut cmd }

def closedPort : Err := .transportConnectionError "Serial port is closed."

/-- A command over the serial port is told apart by the prompt it waits for: U-Boot's, or else
the shell's. -/
def serialRun (cmd : String) (prompt : Option String) (s : BoardState) :
    Except Err CommandResult × BoardState :=
  if s.port then
    match s.board.mode, prompt with
    | .linux, none => (.ok (succeeded cmd), B.shellRun cmd s)
    | .uboot _, some _ => (.ok (succeeded cmd), { s with board := s.board.carryOut cmd })
    | _, _ => (.error (.transportTimeoutError cmd), s)
  else (.error closedPort, s)

def sshRun (cmd : String) (s : BoardState) : Except Err CommandResult × BoardState :=
  if s.ssh then (.ok (succeeded cmd), B.shellRun cmd s)
  else (.error (.transportConnectionError "SSH is not connected."), s)

def respond : (c : Call) → BoardState → Except Err c.Ans × BoardState
  | .psuEnableOutput, s => (.ok (), B.powerUp s)
  | .psuDisableOutput, s => (.ok (), cutPower s)
  | .psuMeasureCurrent, s => (.ok (if s.board.mode = .off then 0 else B.draw), s)
  | .input .plugInPower, s => (.ok (), B.powerUp s)
  | .input .unplugPower, s => (.ok (), cutPower s)
  | .gpioSetPin pin level, s =>
    (.ok (), if level = true ∧ resetPin fsm = some pin then B.restart s else s)
  | .sshIsConnected, s => (.ok s.ssh, s)
  | .sshConnect, s =>
    if s.board.mode = .linux then (.ok (), { s with ssh := true })
    else (.error (.transportConnectionError "SSH is down."), s)
  | .sshDisconnect, s => (.ok (), { s with ssh := false })
  | .sshBanner, s =>
    if s.board.mode = .linux then (.ok "SSH-2.0-sshd", s) else (.error (.osError "timed out"), s)
  | .sshSafeRun cmd _ _, s => B.sshRun cmd s
  | .serialSafeRun cmd prompt _ _, s => B.serialRun cmd prompt s
  | .serialIsConnected, s => (.ok s.port, s)
  | .serIsOpen, s => (.ok s.port, s)
  | .serialConnect, s => (.ok (), { s with port := true })
  | .serialDisconnect, s => (.ok (), { s with port := false })
  | .serialFlushBuffers, s => (.ok (), flushed s)
  | .serialRawWrite data, s =>
    (.ok (), if s.port then B.typeLine (lineOf data) s else s)
  | .serialWriteLine line _, s =>
    if s.port then (.ok (), B.typeLine line s) else (.error closedPort, s)
  | .serialRawReadChunk, s => (.ok (B.heard s), { s with output := .silent })
  | .serialReadUntilSilent, s => (.ok [B.heard s], { s with output := .silent })
  | .rxQueueGet, s =>
    if B.heard s = [] then (.ok (.empty true false), s)
    else (.ok (.chunk (B.heard s)), { s with output := .silent })
  | .streamTurns, s => (.ok B.turns, s)
  | .inrushTurns, s => (.ok B.samples, s)
  | _, s => (.ok default, s)

abbrev hardware : Hardware := ⟨BoardState, B.respond⟩

end IdealBoard

/-- Where a board stands: without power, at the shell of Linux, or at the prompt of U-Boot with
the trap in flash. Without power the trap may be in flash or not. -/
inductive Place
  | off (trapped : Bool)
  | linux
  | uboot
  deriving DecidableEq

namespace Place

def powered : Place → Place
  | .off false => .linux
  | .off true => .uboot
  | pl => pl

def cut : Place → Place
  | .linux => .off false
  | .uboot => .off true
  | pl => pl

def seen : Place → DutState
  | .off _ => .powerOff
  | .linux => .osUserland
  | .uboot => .bootloader

def isOn : Place → Bool
  | .off _ => false
  | .linux | .uboot => true

def isTrapped : Place → Bool
  | .off trapped => trapped
  | .linux => false
  | .uboot => true

theorem powered_isOn (pl : Place) : pl.powered.isOn = true := by
  rcases pl with (_ | _) | _ | _ <;> rfl

theorem powered_of_isOn {pl : Place} (h : pl.isOn = true) : pl.powered = pl := by
  cases pl with
  | off trapped => cases h
  | linux => rfl
  | uboot => rfl

theorem powered_cut (pl : Place) : pl.cut.powered = pl.powered := by
  rcases pl with (_ | _) | _ | _ <;> rfl

end Place

namespace IdealBoard
variable {fsm : Station} (B : IdealBoard fsm)

def trapEnv : Env := ⟨some trapString, some B.orig⟩

def texts : Place → List Bytes
  | .off _ => []
  | .linux => [B.linuxBoot, B.shell]
  | .uboot => [B.trapBoot, B.uboot]

def Stands : Place → BoardState → Prop
  | .off false, s => s.board.mode = .off ∧ s.ssh = false ∧ s.board.flash.bootcmd = some B.orig
  | .off true, s => s.board.mode = .off ∧ s.ssh = false ∧ s.board.flash = B.trapEnv
  | .linux, s => s.board.mode = .linux ∧ s.board.flash.bootcmd = some B.orig
  | .uboot, s => s.board = ⟨B.trapEnv, .uboot B.trapEnv⟩ ∧ s.ssh = false

theorem run_trapEnv : B.run B.trapEnv = .uboot B.trapEnv := by
  rw [run, if_neg]
  intro h
  exact B.orig_ne_trap (Option.some.inj h).symm

variable {B} {s s' : BoardState} {pl : Place}

theorem Stands.congr (h : B.Stands pl s) (hb : s'.board = s.board) (hs : s'.ssh = s.ssh) :
    B.Stands pl s' := by
  obtain ⟨board, ssh, port, output⟩ := s
  obtain ⟨board', ssh', port', output'⟩ := s'
  cases hb
  cases hs
  rcases pl with (_ | _) | _ | _ <;> exact h

theorem Stands.off_iff (h : B.Stands pl s) : s.board.mode = .off ↔ pl.isOn = false := by
  rcases pl with (_ | _) | _ | _
  · exact iff_of_true h.1 rfl
  · exact iff_of_true h.1 rfl
  · simp [h.1, Place.isOn]
  · simp [h.1, Place.isOn]

theorem Stands.linux_iff (h : B.Stands pl s) : s.board.mode = .linux ↔ pl = .linux := by
  rcases pl with (_ | _) | _ | _
  · simp [h.1]
  · simp [h.1]
  · simp [h.1]
  · simp [h.1]

theorem Stands.linux_of_ssh (h : B.Stands pl s) (hs : s.ssh = true) : pl = .linux := by
  rcases pl with (_ | _) | _ | _
  · simp [h.2.1] at hs
  · simp [h.2.1] at hs
  · rfl
  · simp [h.2] at hs

theorem Stands.trapped_iff (h : B.Stands pl s) :
    s.board.flash.bootcmd = some trapString ↔ pl.isTrapped = true := by
  have hne := B.orig_ne_trap
  rcases pl with (_ | _) | _ | _
  · simp [h.2.2, Place.isTrapped, hne]
  · simp [h.2.2, Place.isTrapped, trapEnv]
  · simp [h.2, Place.isTrapped, hne]
  · simp [h.1, Place.isTrapped, trapEnv]

theorem Stands.powerUp (h : B.Stands pl s) : B.Stands pl.powered (B.powerUp s) := by
  rw [IdealBoard.powerUp]
  rcases pl with (_ | _) | _ | _
  · rw [if_pos h.1]
    exact ⟨if_pos h.2.2, h.2.2⟩
  · rw [if_pos h.1]
    refine ⟨?_, h.2.1⟩
    change Board.mk _ _ = _
    rw [h.2.2, run_trapEnv]
  · rw [if_neg (by simp [h.1])]
    exact h
  · rw [if_neg (by simp [h.1])]
    exact h

@[simp] theorem powerUp_port (s : BoardState) : (B.powerUp s).port = s.port := by
  rw [IdealBoard.powerUp]
  split <;> rfl

@[simp] theorem restart_port (s : BoardState) : (B.restart s).port = s.port := by
  rw [restart]
  split <;> rfl

theorem Stands.cutPower (h : B.Stands pl s) : B.Stands pl.cut (cutPower s) := by
  rcases pl with (_ | _) | _ | _
  · exact ⟨rfl, rfl, h.2.2⟩
  · exact ⟨rfl, rfl, h.2.2⟩
  · exact ⟨rfl, rfl, h.2⟩
  · exact ⟨rfl, rfl, congrArg Board.flash h.1⟩

theorem Stands.restart (h : B.Stands pl s) : B.Stands pl (B.restart s) := by
  rw [IdealBoard.restart]
  rcases pl with (_ | _) | _ | _
  · rw [if_pos h.1]
    exact h
  · rw [if_pos h.1]
    exact h
  · rw [if_neg (by simp [h.1])]
    exact ⟨if_pos h.2, h.2⟩
  · rw [if_neg (by simp [h.1])]
    refine ⟨?_, rfl⟩
    simp only [h.1, run_trapEnv]

theorem heard_cases (h : B.Stands pl s) : B.heard s = [] ∨ B.heard s ∈ B.texts pl := by
  obtain ⟨⟨flash, mode⟩, ssh, port, output⟩ := s
  rw [heard]
  split
  · rcases pl with (_ | _) | _ | _
    · cases h.1
      exact .inl (by cases output <;> rfl)
    · cases h.1
      exact .inl (by cases output <;> rfl)
    · cases h.1
      cases output <;> simp [texts]
    · cases h.1
      cases output <;> simp [texts]
  · exact .inl rfl

theorem heard_of_output (h : B.Stands pl s) (hon : pl.isOn = true) (hp : s.port = true)
    (ho : s.output ≠ .silent) : B.heard s ∈ B.texts pl := by
  obtain ⟨⟨flash, mode⟩, ssh, port, output⟩ := s
  cases hp
  rw [heard, if_pos rfl]
  cases pl with
  | off trapped => cases hon
  | linux =>
    cases h.1
    cases output with
    | silent => exact absurd rfl ho
    | reply => exact .tail _ (.head _)
    | boot => exact .head _
  | uboot =>
    cases h.1
    cases output with
    | silent => exact absurd rfl ho
    | reply => exact .tail _ (.head _)
    | boot => exact .head _

theorem texts_ne_nil {c : Bytes} (h : c ∈ B.texts pl) : c ≠ [] := by
  intro hc
  apply B.printed
  cases pl with
  | off trapped => cases h
  | linux => exact hc ▸ List.mem_append_left [B.trapBoot, B.uboot] h
  | uboot => exact hc ▸ List.mem_append_right [B.linuxBoot, B.shell] h

/-- The boot command typed at the prompt of U-Boot only prints the trap again. -/
theorem Stands.typeLine (h : B.Stands .uboot s) (line : String) :
    B.Stands .uboot (B.typeLine line s) := by
  rw [IdealBoard.typeLine, h.1]
  dsimp only
  split
  · refine ⟨?_, h.2⟩
    simp only [run_trapEnv]
  · exact ⟨rfl, h.2⟩

theorem Stands.newline (h : B.Stands pl s) : B.Stands pl (B.typeLine "" s) := by
  rcases pl with (_ | _) | _ | _
  · rw [IdealBoard.typeLine, h.1]
    exact h
  · rw [IdealBoard.typeLine, h.1]
    exact h
  · rw [IdealBoard.typeLine, h.1]
    exact h
  · exact h.typeLine ""

theorem newline_answered (h : B.Stands pl s) (hon : pl.isOn = true) :
    (B.typeLine "" s).output ≠ .silent := by
  cases pl with
  | off trapped => cases hon
  | linux =>
    rw [IdealBoard.typeLine, h.1]
    intro h
    cases h
  | uboot =>
    rw [IdealBoard.typeLine, h.1]
    dsimp only
    split <;> (intro h; cases h)

@[simp] theorem typeLine_port (line : String) : (B.typeLine line s).port = s.port := by
  rw [IdealBoard.typeLine]
  split
  · split <;> rfl
  · split
    · exact restart_port s
    · rfl
  · rfl
  · rfl

theorem lineOf_bootCommand (B : IdealBoard fsm) :
    lineOf (bootCommand fsm) = fsm.cfg.bootloaderBootCmd := by
  rw [lineOf, bootCommand, ascii, decodeReplace_encode, String.toList_append,
    List.takeWhile_append_of_pos (List.all_eq_true.1 B.bootCmd_oneLine)]
  simp

theorem Stands.disconnect (h : B.Stands pl s) : B.Stands pl { s with ssh := false } := by
  rcases pl with (_ | _) | _ | _
  · exact ⟨h.1, rfl, h.2.2⟩
  · exact ⟨h.1, rfl, h.2.2⟩
  · exact h
  · exact ⟨h.1, rfl⟩

end IdealBoard

/-- Calls that leave the power, the memory and the SSH session of a board alone. -/
def Call.aside : Call → Bool
  | .psuEnableOutput | .psuDisableOutput | .input .plugInPower | .input .unplugPower => false
  | .gpioSetPin _ _ | .sshConnect | .sshDisconnect | .sshBanner | .sshSafeRun _ _ _ => false
  | .serialDisconnect | .serialSafeRun _ _ _ _ | .serialRawWrite _ | .serialWriteLine _ _ => false
  | _ => true

namespace IdealBoard
variable {fsm : Station} {B : IdealBoard fsm}

theorem flushed_keeps (s : BoardState) : (flushed s).board = s.board ∧
    (flushed s).ssh = s.ssh ∧ (flushed s).port = s.port := by
  rw [flushed]
  split <;> exact ⟨rfl, rfl, rfl⟩

theorem respond_aside {c : Call} (hc : c.aside = true) (s : BoardState) :
    ∃ a s', B.respond c s = (.ok a, s') ∧ s'.board = s.board ∧ s'.ssh = s.ssh ∧
      (s.port = true → s'.port = true) := by
  cases c with
  | serialFlushBuffers =>
    refine ⟨(), _, rfl, ?_⟩
    rw [flushed]
    split <;> exact ⟨rfl, rfl, fun h => h⟩
  | rxQueueGet =>
    rw [respond]
    split
    · exact ⟨_, _, rfl, rfl, rfl, fun h => h⟩
    · exact ⟨_, _, rfl, rfl, rfl, fun h => h⟩
  | input p => cases p <;> first | exact ⟨_, _, rfl, rfl, rfl, fun h => h⟩ | cases hc
  | serialConnect => exact ⟨_, _, rfl, rfl, rfl, fun _ => rfl⟩
  | _ => first | exact ⟨_, _, rfl, rfl, rfl, fun h => h⟩ | cases hc

variable (B) in
/-- The machine is in the state `st`, the board stands at `pl`, and the serial port is open if
`o` says so. -/
structure At (st : DutState) (pl : Place) (o : Bool) (w : World B.hardware) : Prop where
  state : w.vars.state = st
  stands : B.Stands pl w.dev
  port : o = true → w.dev.port = true

section
variable {st : DutState} {pl pl' : Place} {o o' : Bool} {w : World B.hardware}
  {E : Err → World B.hardware → Prop}

theorem wp_ask_ok {c : Call} {Q : c.Ans → World B.hardware → Prop} {a : c.Ans} {s : BoardState}
    (h : B.respond c w.dev = (.ok a, s))
    (hQ : Q a { w with dev := s, trace := w.trace ++ [did c (.ok a)] }) : wp (ask c) Q E w := by
  rw [wp, ask, call_of_respond (d := B.hardware) h]
  exact hQ

theorem At.ask {c : Call} {Q : c.Ans → World B.hardware → Prop} {a : c.Ans} {s : BoardState}
    (h : B.At st pl o w) (hr : B.respond c w.dev = (.ok a, s)) (hs : B.Stands pl' s)
    (hp : o' = true → s.port = true)
    (hQ : ∀ w', B.At st pl' o' w' → w'.dev = s → Q a w') : wp (ask c) Q E w :=
  wp_ask_ok hr (hQ _ ⟨h.state, hs, hp⟩ rfl)

theorem At.aside {c : Call} (h : B.At st pl o w) (hc : c.aside = true) :
    wp (MesCore.ask c) (fun _ w' => B.At st pl o w') E w := by
  obtain ⟨a, s, hr, hb, hssh, hp⟩ := respond_aside (B := B) hc w.dev
  exact h.ask hr (h.stands.congr hb hssh) (fun ho => hp (h.port ho)) fun _ h' _ => h'

end

/-- Programs that return, with the board where it stood. -/
structure Keeps (B : IdealBoard fsm) (p : Fsm B.hardware α) : Prop where
  keep : ∀ {st pl o w}, B.At st pl o w → wp p (fun _ w' => B.At st pl o w') never w

theorem Keeps.aside (c : Call) (hc : c.aside = true) : B.Keeps (ask c) := ⟨fun h => h.aside hc⟩

theorem Keeps.pure (a : α) : B.Keeps (pure a) := ⟨fun h => h⟩

theorem Keeps.bind {p : Fsm B.hardware α} {k : α → Fsm B.hardware β} (hp : B.Keeps p)
    (hk : ∀ a, B.Keeps (k a)) : B.Keeps (p >>= k) :=
  ⟨fun h => (hp.keep h).bind fun a _ h' => (hk a).keep h'⟩

theorem Keeps.onlyIf {p : Fsm B.hardware Unit} (c : Bool) (hp : B.Keeps p) :
    B.Keeps (onlyIf c p) :=
  ⟨fun h => wp_onlyIf (fun _ => hp.keep h) fun _ => h⟩

theorem Keeps.ite {c : Prop} [Decidable c] {p q : Fsm B.hardware α} (hp : B.Keeps p)
    (hq : B.Keeps q) : B.Keeps (if c then p else q) := by
  split
  · exact hp
  · exact hq

theorem Keeps.attempt {p : Fsm B.hardware α} (hp : B.Keeps p) (catches : Err → Bool)
    (handler : Err → Fsm B.hardware α) : B.Keeps (attempt p catches handler) :=
  ⟨fun h => (hp.keep h).attempt_of_never⟩

theorem Keeps.modifyContext (f : DeviceContext → DeviceContext) :
    B.Keeps (modifyContext f) := ⟨fun h => ⟨h.state, h.stands, h.port⟩⟩

theorem Keeps.note (n : Note) : B.Keeps (note n : Fsm B.hardware Unit) :=
  ⟨fun h => ⟨h.state, h.stands, h.port⟩⟩

theorem keeps_gpioSetPin (pin : String) (level : Bool) :
    B.Keeps (ask (.gpioSetPin pin level)) := by
  constructor
  intro st pl o w h
  have hs : B.Stands pl
      (if level = true ∧ resetPin fsm = some pin then B.restart w.dev else w.dev) := by
    split
    · exact h.stands.restart
    · exact h.stands
  refine h.ask rfl hs ?_ fun _ h' _ => h'
  split
  · rw [restart_port]
    exact h.port
  · exact h.port

theorem keeps_setPins (pins : List (String × Bool)) : B.Keeps (setPins pins) := by
  induction pins with
  | nil => exact .pure ()
  | cons pin pins ih => exact (keeps_gpioSetPin _ _).bind fun _ => ih

theorem keeps_applyStraps (medium : String) : B.Keeps (applyStraps fsm medium) := by
  constructor
  intro st pl o w h
  rw [applyStraps, wp_bind, wp_getContext]
  split
  · exact h
  · split
    · rw [strapByGpio]
      split
      · exact ((keeps_setPins _).bind fun _ => .aside _ rfl).keep h
      · exact h
    · rename_i hgpio
      have hask : B.Keeps (operatorInput (.setBootStraps (strapMedium medium)) 2000) :=
        (Keeps.aside _ rfl).attempt _ _
      rw [strapByHand, B.strapped.resolve_left hgpio, if_neg Bool.false_ne_true]
      exact hask.keep h

theorem keeps_doApplyBootstrap (medium : String) : B.Keeps (doApplyBootstrap fsm medium) :=
  (keeps_applyStraps medium).bind fun _ => .note _

theorem keeps_inrushSamples (n : Nat) : B.Keeps (inrushSamples n) := by
  induction n with
  | zero => exact .pure ()
  | succ n ih =>
    exact (((Keeps.aside _ rfl).bind fun _ => .pure ()).attempt _ _).bind fun _ => ih

theorem keeps_measureInrush (psu : Psu) : B.Keeps (measureInrush psu) :=
  .ite ((Keeps.aside _ rfl).bind keeps_inrushSamples) (.aside _ rfl)

theorem keeps_voltageSetpoint (psu : Psu) : B.Keeps (voltageSetpoint psu) := by
  constructor
  intro st pl o w h
  rw [voltageSetpoint]
  split
  · exact h.aside rfl
  · exact h.aside rfl
  · exact h

theorem keeps_currentSetpoint (psu : Psu) : B.Keeps (currentSetpoint psu) := by
  constructor
  intro st pl o w h
  rw [currentSetpoint]
  split
  · exact h.aside rfl
  · exact h

theorem keeps_sshDisconnect : B.Keeps (ask .sshDisconnect) := by
  constructor
  intro st pl o w h
  exact h.ask rfl h.stands.disconnect h.port fun _ h' _ => h'

theorem keeps_leaveSession : B.Keeps leaveSession :=
  (Keeps.aside _ rfl).bind fun c => (Keeps.onlyIf c keeps_sshDisconnect).bind fun _ =>
    .modifyContext _

section
variable {st : DutState} {pl : Place} {o : Bool} {w : World B.hardware}

theorem At.mono {o' : Bool} (h : B.At st pl o w) (ho : o' = true → o = true) : B.At st pl o' w :=
  ⟨h.state, h.stands, fun h' => h.port (ho h')⟩

theorem At.cut {c : Call} {a : c.Ans} (h : B.At st pl o w)
    (hr : B.respond c w.dev = (.ok a, cutPower w.dev)) :
    wp (MesCore.ask c) (fun _ w' => B.At st pl.cut o w') never w :=
  h.ask hr h.stands.cutPower h.port fun _ h' _ => h'

theorem At.doPowerOff (h : B.At st pl o w) :
    wp (doPowerOff fsm) (fun _ w' => B.At st pl.cut o w') never w := by
  apply (keeps_leaveSession.keep h).bind
  intro _ w₁ h₁
  rw [dropPower]
  split
  · apply (h₁.aside rfl).bind
    intro _ w₂ h₂
    apply (h₂.cut (c := .psuDisableOutput) rfl).bind
    exact fun _ w₃ h₃ => h₃.aside rfl
  · rename_i hpsu
    have hhand : fsm.headless = false := B.powered.resolve_left (by simp [hpsu])
    rw [hhand, if_neg Bool.false_ne_true]
    apply wp.attempt_of_never
    exact h₁.cut (c := .input .unplugPower) rfl

theorem At.powerUp {c : Call} {a : c.Ans} (h : B.At st pl o w)
    (hr : B.respond c w.dev = (.ok a, B.powerUp w.dev)) :
    wp (MesCore.ask c) (fun _ w' => B.At st pl.powered o w') never w := by
  have hp : o = true → (B.powerUp w.dev).port = true := by
    rw [powerUp_port]
    exact h.port
  exact h.ask hr h.stands.powerUp hp fun _ h' _ => h'

theorem At.applyPower (h : B.At st pl o w) :
    wp (applyPower fsm) (fun _ w' => B.At st pl.powered o w') never w := by
  rw [MesCore.applyPower]
  split
  · apply ((keeps_voltageSetpoint _).keep h).bind
    intro _ w₁ h₁
    apply ((keeps_currentSetpoint _).keep h₁).bind
    intro _ w₂ h₂
    apply (h₂.powerUp (c := .psuEnableOutput) rfl).bind
    exact fun _ w₃ h₃ => (keeps_measureInrush _).keep h₃
  · rename_i hpsu
    have hhand : fsm.headless = false := B.powered.resolve_left (by simp [hpsu])
    rw [hhand, if_neg Bool.false_ne_true]
    apply wp.attempt_of_never
    exact h.powerUp (c := .input .plugInPower) rfl

theorem At.rebindSerialPort (h : B.At st pl o w) :
    wp rebindSerialPort (fun _ w' => B.At st pl true w') never w := by
  apply wp.retry_of_never
  apply wp.bind (R := fun _ w' => B.At st pl false w')
  · exact h.ask rfl (h.stands.congr rfl rfl) (fun ho => (Bool.false_ne_true ho).elim)
      fun _ h' _ => h'
  · intro _ w₁ h₁
    apply wp.bind (R := fun _ w' => B.At st pl true w')
    · exact h₁.ask rfl (h₁.stands.congr rfl rfl) (fun _ => rfl) fun _ h' _ => h'
    · intro _ w₂ h₂
      apply (h₂.aside rfl).bind
      intro _ w₃ h₃
      have hflush : B.Keeps (do
          let isOpen : Bool ← MesCore.ask .serIsOpen
          if isOpen then do
            MesCore.ask .serResetOutputBuffer
            MesCore.ask .serialFlushBuffers
          else Pure.pure ()) :=
        (Keeps.aside _ rfl).bind fun _ =>
          .ite ((Keeps.aside _ rfl).bind fun _ => .aside _ rfl) (.pure ())
      exact (hflush.keep h₃).attempt_of_never

theorem At.doEnergize (h : B.At st pl o w) :
    wp (doEnergize fsm) (fun _ w' => B.At st pl.powered true w') never w :=
  h.applyPower.bind fun _ _ h' => h'.rebindSerialPort

theorem At.doHardwareReset (h : B.At st pl o w) (hon : pl.isOn = true) :
    wp (doHardwareReset fsm) (fun _ w' => B.At st pl o w') never w := by
  rw [MesCore.doHardwareReset]
  split
  · rw [wp_bind, wp_getState]
    have hpulse (pin : String) : B.Keeps (pulseResetPin pin) :=
      (keeps_gpioSetPin _ _).bind fun _ => (Keeps.aside _ rfl).bind fun _ =>
        (keeps_gpioSetPin _ _).bind fun _ => .aside _ rfl
    exact (Keeps.ite (.pure ()) (hpulse _)).keep h
  · apply h.doPowerOff.bind
    intro _ w₁ h₁
    have h₂ := h₁.doEnergize
    rw [Place.powered_cut, Place.powered_of_isOn hon] at h₂
    exact h₂.mono (fun _ _ h => h.mono fun _ => rfl) fun _ _ h => h

end

end IdealBoard
end MesCore
