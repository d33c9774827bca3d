import MesCore.History
import MesCore.MutexGuard
import MesCore.SdMuxRecovery

namespace MesCore
set_option autoImplicit true

/-- The configuration of one `with HostUsbSdMuxAdapter(..)`. -/
structure SdMuxUser where
  serialId : String
  recoveryGpio : Option (Fin 2) := none
  hasLib : Bool := false
  mutexTimeoutMs : Nat := 60000

/-- `os.path.basename`. -/
def pyBasename (path : String) : List Char :=
  (path.toList.reverse.takeWhile (· ≠ '/')).reverse

/-- `_resolve_device_path`, where the glob finds `candidates`. -/
def resolveDevicePath (candidates : List String) (serialId : String) : String :=
  (candidates.find? fun path => serialId.toList.isSuffixOf (pyBasename path)).getD
    s!"/dev/usb-sd-mux/id-{serialId}"

def SdMuxUser.devicePath (candidates : List String) (user : SdMuxUser) : String :=
  if "/dev/".toList.isPrefixOf user.serialId.toList then user.serialId
  else resolveDevicePath candidates user.serialId

def SdMuxUser.adapter (candidates : List String) (user : SdMuxUser) : HostUsbSdMuxAdapter where
  recoveryGpio := user.recoveryGpio
  devicePath := user.devicePath candidates
  hasLib := user.hasLib

/-- Where a session is between the grant of its lock and the release. -/
inductive SdMuxPhase
  | switching
  | settling
  | mounted
  | returning
  | detecting
  deriving DecidableEq

inductive SdMuxStep
  | proceed
  | assertRecovery
  | releaseRecovery
  | leaveBody
  deriving DecidableEq

section
variable {d : BenchHardware}

/-- The next phase after a call that went through; an exception is on its way to the release. -/
def phaseAfter (p : Prog d Unit) (next : Option SdMuxPhase) (w : World d) :
    Option SdMuxPhase × World d :=
  match p w with
  | .ok _ w' => (next, w')
  | .error _ w' => (none, w')

abbrev pause (ms : Nat) : Prog d Unit := onFsm (ask (.sleep ms))

/-- `__enter__`, what the caller does with the card on the host, and `__exit__`. -/
def sdMuxSession (mux : HostUsbSdMuxAdapter) : Body SdMuxPhase (World d) SdMuxStep where
  start := .switching
  step
    | .proceed, .switching, w => some (phaseAfter (setMuxState mux "host") (some .settling) w)
    | .proceed, .settling, w => some (phaseAfter (pause 2000) (some .mounted) w)
    | .assertRecovery, .mounted, w => some (some .mounted, World.after (recoveryAssert mux w))
    | .releaseRecovery, .mounted, w => some (some .mounted, World.after (recoveryRelease mux w))
    | .leaveBody, .mounted, w => some (some .returning, w)
    | .proceed, .returning, w => some (phaseAfter (setMuxState mux "dut") (some .detecting) w)
    | .proceed, .detecting, w => some (phaseAfter (pause 1000) none w)
    | _, _, _ => none

def leavesSwitch (c : benchInterface.Call) : Prop := ∀ state, c ≠ .inr (.runUsbsdmux state)

/-- The switch of the mux: it moves when the tool says that it did, and not without the tool. -/
structure Switches (d : BenchHardware) (position : d.State → String) : Prop where
  switched : ∀ state s res s', d.respond (.inr (.runUsbsdmux state)) s = (.ok res, s') →
    res.returncode = 0 → position s' = state
  kept : ∀ c s, leavesSwitch c → position (d.respond c s).2 = position s

variable {position : d.State → String} {mux : HostUsbSdMuxAdapter} {w w' : World d}

theorem Switches.of_setMuxState (hsw : Switches d position) {state : String}
    (h : setMuxState mux state w = .ok () w') : position w'.dev = state := by
  unfold setMuxState at h
  split at h
  · cases h
  · obtain ⟨found, w₁, -, h⟩ := bind_ok h
    split at h
    · cases h
    · rcases attempt_ok h with hrun | ⟨e, w₂, -, -, hhandler⟩
      · obtain ⟨res, w₂, hres, h⟩ := bind_ok hrun
        split at h
        · cases h
        · obtain ⟨-, rfl⟩ := pure_ok h
          exact hsw.switched state _ res _ (call_respond hres) (not_not.1 ‹_›)
      · cases hhandler

theorem Switches.of_history (hsw : Switches d position) {s s' : d.State}
    (h : History d s seg s')
    (hseg : ∀ c r, .call c r ∈ seg → leavesSwitch c) :
    position s' = position s := by
  induction h with
  | nil s => rfl
  | call c _ ih =>
    rw [ih fun c' r hmem => hseg c' r (List.mem_cons_of_mem _ hmem)]
    exact hsw.kept c _ (hseg c _ (List.mem_cons_self ..))
  | note n _ ih => exact ih fun c' r hmem => hseg c' r (List.mem_cons_of_mem _ hmem)

theorem Switches.of_callsOnly (hsw : Switches d position) {p : Prog d α}
    (h : CallsOnly leavesSwitch p) (w : World d) :
    position (World.after (p w)).dev = position w.dev := by
  have hrec := h.wp w
  unfold wp at hrec
  cases hp : p w with
  | ok a w' =>
    rw [hp] at hrec
    exact hsw.of_history hrec.history hrec.since
  | error e w' =>
    rw [hp] at hrec
    exact hsw.of_history hrec.history hrec.since

theorem callsOnly_setGpio (gpio : Fin 2) (high : Bool) :
    CallsOnly leavesSwitch (setGpio mux gpio high : Prog d Unit) := by
  have hother (c : MuxCall) (h : ∀ state, c ≠ .runUsbsdmux state) :
      CallsOnly leavesSwitch (askMux c : Prog d c.Ans) :=
    .call _ fun state hc => h state (Sum.inr.inj hc)
  have hopen : CallsOnly leavesSwitch (getFastDriver mux : Prog d Bool) := by
    rw [getFastDriver]
    split
    · exact .pure _
    · refine .ite (.pure _) ((hother .pathExists (by simp)).bind fun _ => .ite (.pure _) ?_)
      exact .attempt ((hother .autoselectDriver (by simp)).bind fun _ => .pure _) fun _ => .pure _
  refine .bind hopen fun opened => .onlyIf _ (.attempt (hother _ (by simp)) fun e => ?_)
  rw [gpioFailure.eq_def]
  split
  · exact .pure ()
  · exact .fail _

theorem Switches.of_recovery (hsw : Switches d position) (w : World d) :
    position (World.after (recoveryAssert mux w)).dev = position w.dev ∧
      position (World.after (recoveryRelease mux w)).dev = position w.dev := by
  rw [recoveryAssert, recoveryRelease]
  cases mux.recoveryGpio with
  | none => exact ⟨rfl, rfl⟩
  | some gpio =>
    exact ⟨hsw.of_callsOnly (callsOnly_setGpio _ _) w, hsw.of_callsOnly (callsOnly_setGpio _ _) w⟩

theorem pause_dev (ms : Nat) (w : World d) :
    (World.after (pause ms w)).dev = (d.respond (.inl (.sleep ms)) w.dev).2 := by
  simp only [pause, onFsm, lift, ask, call, BenchHardware.fsmSide, Device.restrict]
  rcases d.respond (.inl (.sleep ms)) w.dev with ⟨(e | e) | a, s⟩ <;> rfl

theorem Switches.of_pause (hsw : Switches d position) (ms : Nat) (w : World d) :
    position (World.after (pause ms w)).dev = position w.dev := by
  rw [pause_dev]
  exact hsw.kept (.inl (.sleep ms)) w.dev fun _ h => by cases h

theorem phaseAfter_dev (p : Prog d Unit) (next : Option SdMuxPhase) (w : World d) :
    (phaseAfter p next w).2 = World.after (p w) := by
  unfold phaseAfter
  split <;> rw [‹p w = _›] <;> rfl

theorem phaseAfter_eq {p : Prog d Unit} {next : Option SdMuxPhase} {b : SdMuxPhase}
    (h : phaseAfter p next w = (some b, w')) : next = some b ∧ p w = .ok () w' := by
  unfold phaseAfter at h
  split at h
  · cases h
    exact ⟨rfl, ‹_›⟩
  · cases h

end

/-- The card is on the host from the switch of `__enter__` to that of `__exit__`. -/
def SdMuxPhase.onHost : SdMuxPhase → Bool
  | .settling | .mounted | .returning => true
  | _ => false

/-- The workers of a host whose udev rule made the nodes `candidates`. -/
def sdMuxUsers (candidates : List String) (hasFcntl : Bool) (canOpen : String → Bool)
    (user : W → SdMuxUser) : MutexUsers W String where
  resource w := (user w).devicePath candidates
  resourceName w := s!"sdmux_{(user w).serialId}"
  timeoutMs w := (user w).mutexTimeoutMs
  hasFcntl := hasFcntl
  canOpen := canOpen

def sdMuxBodies {d : BenchHardware} (candidates : List String) (user : W → SdMuxUser) (w : W) :
    Body SdMuxPhase (World d) SdMuxStep :=
  sdMuxSession ((user w).adapter candidates)

section
variable {d : BenchHardware} {position : d.State → String}

/-- The steps of a session, one constructor for each way on. -/
inductive SdMuxMoved (position : d.State → String) (mux : HostUsbSdMuxAdapter) (w : World d) :
    SdMuxPhase → Option SdMuxPhase → World d → Prop
  | toHost : setMuxState mux "host" w = .ok () w' →
      SdMuxMoved position mux w .switching (some .settling) w'
  | mounts : position w'.dev = position w.dev →
      SdMuxMoved position mux w .settling (some .mounted) w'
  | uses : position w'.dev = position w.dev →
      SdMuxMoved position mux w .mounted (some .mounted) w'
  | leaves : SdMuxMoved position mux w .mounted (some .returning) w
  | toDut : setMuxState mux "dut" w = .ok () w' →
      SdMuxMoved position mux w .returning (some .detecting) w'
  | ends : position w'.dev = position w.dev → SdMuxMoved position mux w .detecting none w'
  | aborts : b ≠ .detecting → SdMuxMoved position mux w b none w'

variable {mux : HostUsbSdMuxAdapter} {w w' : World d} {a : SdMuxStep} {b : SdMuxPhase}
  {next : Option SdMuxPhase}

theorem sdMuxMoved_of_phaseAfter {p : Prog d Unit} {after : SdMuxPhase} (hb : b ≠ .detecting)
    (h : phaseAfter p (some after) w = (next, w'))
    (hok : p w = .ok () w' → SdMuxMoved position mux w b (some after) w') :
    SdMuxMoved position mux w b next w' := by
  cases next with
  | none => exact .aborts hb
  | some c =>
    obtain ⟨hnext, hp⟩ := phaseAfter_eq h
    rw [← hnext]
    exact hok hp

theorem Switches.moved (hsw : Switches d position)
    (h : (sdMuxSession mux).step a b w = some (next, w')) :
    SdMuxMoved position mux w b next w' := by
  have hpause (ms : Nat) (o : Option SdMuxPhase) (w₁ : World d)
      (h : phaseAfter (pause ms) o w = (next, w₁)) : position w₁.dev = position w.dev := by
    have hdev := phaseAfter_dev (pause ms) o w
    rw [h] at hdev
    have hw₁ : w₁ = World.after (pause ms w) := hdev
    rw [hw₁]
    exact hsw.of_pause ms w
  cases a with
  | proceed =>
    cases b with
    | switching =>
      exact sdMuxMoved_of_phaseAfter (by simp) (Option.some.inj h) .toHost
    | settling =>
      have hp := Option.some.inj h
      exact sdMuxMoved_of_phaseAfter (by simp) hp fun _ => .mounts (hpause _ _ _ hp)
    | mounted => cases h
    | returning => exact sdMuxMoved_of_phaseAfter (by simp) (Option.some.inj h) .toDut
    | detecting =>
      have hp := Option.some.inj h
      cases next with
      | none => exact .ends (hpause _ _ _ hp)
      | some c =>
        cases (phaseAfter_eq hp).1
  | assertRecovery =>
    cases b <;> cases h
    exact .uses (hsw.of_recovery w).1
  | releaseRecovery =>
    cases b <;> cases h
    exact .uses (hsw.of_recovery w).2
  | leaveBody =>
    cases b <;> cases h
    exact .leaves

variable {candidates : List String} {hasFcntl : Bool} {canOpen : String → Bool}
  {user : W → SdMuxUser}

def Switches.onHost (hsw : Switches d position) (candidates : List String) (user : W → SdMuxUser) :
    Guard (sdMuxBodies (d := d) candidates user) where
  Held _ b x := b.onHost = true → position x.dev = "host"
  start h := Bool.noConfusion h
  works hheld hstep := by
    cases hsw.moved hstep with
    | toHost h => exact fun _ => hsw.of_setMuxState h
    | mounts h | uses h =>
      intro _
      rw [h]
      exact hheld rfl
    | leaves => exact hheld
    | toDut => exact fun h => Bool.noConfusion h

/-- A mux on its node, with the tool installed, and no interrupt of the operator. -/
structure Responsive (d : BenchHardware) : Prop where
  found : ∀ s, ∃ s', d.respond (.inr .pathExists) s = (.ok true, s')
  obeys : ∀ state s, ∃ res s', d.respond (.inr (.runUsbsdmux state)) s = (.ok res, s') ∧
    res.returncode = 0
  rests : ∀ ms s, ∃ s', d.respond (.inl (.sleep ms)) s = (.ok (), s')

theorem Responsive.setMuxState_ok (hd : Responsive d) (mux : HostUsbSdMuxAdapter) {state : String}
    (hstate : state ∈ ["host", "dut", "off"]) (w : World d) :
    ∃ w', setMuxState mux state w = .ok () w' := by
  have hrun : wp (setMuxState mux state : Prog d Unit) (fun _ _ => True) never w := by
    rw [setMuxState, if_neg (not_not.2 hstate), wp_bind]
    obtain ⟨s₁, hfound⟩ := hd.found w.dev
    refine wp_respond (fun found s h => ?_) fun e s h => ?_
    · rw [hfound] at h
      cases h
      obtain ⟨res, s₂, hres, hrc⟩ := hd.obeys state s₁
      refine wp.attempt_of_never ((wp_bind ..).2 (wp_respond (fun r s h => ?_) fun e s h => ?_))
      · rw [hres] at h
        cases h
        rw [if_neg (not_not.2 hrc)]
        trivial
      · rw [hres] at h
        cases h
    · rw [hfound] at h
      cases h
  obtain ⟨_, w', h, -⟩ := hrun.returns
  exact ⟨w', h⟩

theorem Responsive.pause_ok (hd : Responsive d) (ms : Nat) (w : World d) :
    ∃ w', pause ms w = .ok () w' := by
  obtain ⟨s, hs⟩ := hd.rests ms w.dev
  simp only [pause, onFsm, lift, ask, call, BenchHardware.fsmSide, Device.restrict, hs]
  exact ⟨_, rfl⟩

abbrev SdMuxHost (W : Type) (d : BenchHardware) : Type := MutexHost W String SdMuxPhase (World d)

/-- The runs of the sessions of all workers, with any failures and deaths. -/
abbrev SdMuxRun [DecidableEq W] (users : MutexUsers W String)
    (bodies : W → Body SdMuxPhase (World d) SdMuxStep) :
    SdMuxHost W d → List (MutexAct W SdMuxStep) → SdMuxHost W d → Prop :=
  MutexRun users bodies fun _ _ => True

variable [DecidableEq W] {s : SdMuxHost W d} {users : MutexUsers W String}

theorem phaseAfter_of_ok {p : Prog d Unit} (o : Option SdMuxPhase) (h : p w = .ok () w') :
    phaseAfter p o w = (o, w') := by
  rw [phaseAfter, h]

variable (users candidates user) in
theorem exists_mounted (hd : Responsive d) {w : W} (hw : s.place w = .outside)
    (hcan : users.canEnter w = true)
    (hfree : users.hasFcntl = true → s.locks.holder (users.file w) = none) :
    ∃ as s', SdMuxRun users (sdMuxBodies candidates user) s as s' ∧ s'.place w = .inside .mounted ∧
      (∀ u, u ≠ w → s'.place u = s.place u) ∧
      ∀ n, n ≠ users.file w → s'.locks.holder n = s.locks.holder n := by
  obtain ⟨as, s₁, hrun, hin₁, hothers₁, hlocks₁⟩ := exists_arrival users
    (sdMuxBodies (d := d) candidates user) hw hcan hfree
  obtain ⟨w₁, hhost⟩ := hd.setMuxState_ok ((user w).adapter candidates)
    (List.mem_cons_self : "host" ∈ _) (s₁.shared (users.resource w))
  obtain ⟨s₂, hstep₂, hin₂, hothers₂, hlocks₂, hshared₂⟩ := exists_work (a := .proceed) users
    (sdMuxBodies candidates user) hin₁
    (congrArg some (phaseAfter_of_ok (some .settling) hhost))
  obtain ⟨w₂, hpause⟩ := hd.pause_ok 2000 (s₂.shared (users.resource w))
  obtain ⟨s₃, hstep₃, hin₃, hothers₃, hlocks₃, -⟩ := exists_work (a := .proceed) users
    (sdMuxBodies candidates user) hin₂
    (congrArg some (phaseAfter_of_ok (some .mounted) hpause))
  refine ⟨_, s₃, hrun.append (.cons trivial hstep₂ (.cons trivial hstep₃ (.nil _))), hin₃, ?_, ?_⟩
  · intro u hu
    rw [hothers₃ u hu, hothers₂ u hu, hothers₁ u hu]
  · intro n hn
    rw [hlocks₃, hlocks₂, hlocks₁ n hn]

variable (users candidates user) in
theorem exists_returned (hsw : Switches d position) (hd : Responsive d) {w : W}
    (hw : s.place w = .inside .mounted) :
    ∃ as s', SdMuxRun users (sdMuxBodies candidates user) s as s' ∧
      (∀ u, u ≠ w → s'.place u = s.place u) ∧
      position (s'.shared (users.resource w)).dev = "dut" := by
  obtain ⟨s₁, hstep₁, hin₁, hothers₁, -, -⟩ := exists_work (a := .leaveBody) users
    (sdMuxBodies candidates user) hw rfl
  obtain ⟨w₁, hdut⟩ := hd.setMuxState_ok ((user w).adapter candidates)
    (List.mem_cons_of_mem _ List.mem_cons_self : "dut" ∈ _) (s₁.shared (users.resource w))
  obtain ⟨s₂, hstep₂, -, hothers₂, -, hshared₂⟩ := exists_work (a := .proceed) users
    (sdMuxBodies candidates user) hin₁
    (congrArg some (phaseAfter_of_ok (some .detecting) hdut))
  refine ⟨_, s₂, .cons trivial hstep₁ (.cons trivial hstep₂ (.nil _)), ?_, ?_⟩
  · intro u hu
    rw [hothers₂ u hu, hothers₁ u hu]
  · rw [hshared₂]
    exact hsw.of_setMuxState hdut

omit [DecidableEq W] in
theorem sdMux_names (w u : W) :
    (sdMuxUsers candidates hasFcntl canOpen user).file w =
        (sdMuxUsers candidates hasFcntl canOpen user).file u ↔
      (user w).serialId = (user u).serialId := by
  rw [MutexUsers.file, MutexUsers.file, lockFile_injective.eq_iff]
  simp only [sdMuxUsers, toString]
  constructor
  · intro h
    have hlist := congrArg String.toList h
    simp only [String.toList_append, List.append_cancel_left_eq] at hlist
    exact String.toList_injective hlist
  · exact fun h => by rw [h]

/-- The sessions of one node are all configured with the same serial id. -/
def SameSerials (candidates : List String) (hasFcntl : Bool) (canOpen : String → Bool)
    (user : W → SdMuxUser) : Prop :=
  ∀ w u, w ≠ u → (user w).devicePath candidates = (user u).devicePath candidates →
    (sdMuxUsers candidates hasFcntl canOpen user).canEnter w = true →
    (sdMuxUsers candidates hasFcntl canOpen user).canEnter u = true →
    hasFcntl = true ∧ (user w).serialId = (user u).serialId

omit [DecidableEq W] in
theorem SameSerials.agreeOnNames (h : SameSerials candidates hasFcntl canOpen user) :
    (sdMuxUsers candidates hasFcntl canOpen user).AgreeOnNames := by
  intro w u hne hres hw hu
  obtain ⟨hf, hserial⟩ := h w u hne hres hw hu
  exact ⟨hf, (sdMux_names w u).2 hserial⟩

/-- No session ends before its `__exit__` has switched the card back, and no worker dies while the
card is on the host. -/
def uncut (candidates : List String) (user : W → SdMuxUser) (s : SdMuxHost W d) :
    MutexAct W SdMuxStep → Prop
  | .move w (.work a) => ∀ b, s.place w = .inside b → ∀ x',
    (sdMuxBodies candidates user w).step a b (s.shared ((user w).devicePath candidates)) =
      some (none, x') → b = .detecting
  | .move w .kill => ∀ b, s.place w = .inside b → b.onHost = false
  | _ => True

/-- In the hands of a session that has the card on the host. -/
def MutexPlace.onHost : MutexPlace SdMuxPhase → Bool
  | .inside b => b.onHost
  | _ => false

/-- A card that is not with its board is with a session that will bring it back. -/
def Parked (position : d.State → String) (users : MutexUsers W String) (node : String)
    (s : SdMuxHost W d) : Prop :=
  position (s.shared node).dev = "dut" ∨
    ∃ w, users.resource w = node ∧ (s.place w).onHost = true

/-- What an uncut move of a session does to its card: it brings it back, keeps it, or has had no
part in it. -/
theorem Switches.parks (hsw : Switches d position) {w : W} {now : Nat}
    {k k' : FileLocks W String} {m : MutexMove SdMuxStep} {p p' : MutexPlace SdMuxPhase}
    {x x' : World d}
    (hmoved : MutexMoved users (sdMuxBodies candidates user) w now k m p x k' p' x')
    (hwork : ∀ a, m = .work a → ∀ b, p = .inside b → ∀ x',
      (sdMuxBodies candidates user w).step a b x = some (none, x') → b = .detecting)
    (hkill : m = .kill → ∀ b, p = .inside b → b.onHost = false) :
    position x'.dev = "dut" ∨ p'.onHost = true ∨
      position x'.dev = position x.dev ∧ p.onHost = false := by
  have hends {a : SdMuxStep} {b : SdMuxPhase} (hm : m = .work a) (hp : p = .inside b)
      (hstep : (sdMuxBodies candidates user w).step a b x = some (none, x')) :
      position x'.dev = position x.dev ∧ p.onHost = false := by
    have hb : b = .detecting := hwork a hm b hp x' hstep
    rw [hb] at hp hstep
    cases hsw.moved hstep with
    | ends h =>
      rw [hp]
      exact ⟨h, rfl⟩
    | aborts h => exact absurd rfl h
  cases hmoved with
  | works hstep =>
    cases hsw.moved hstep with
    | toHost | mounts | uses | leaves => exact .inr (.inl rfl)
    | toDut h => exact .inl (hsw.of_setMuxState h)
  | ends hstep | endsBypassed hstep => exact .inr (.inr (hends rfl rfl hstep))
  | dies =>
    right; right
    cases p with
    | inside b => exact ⟨rfl, hkill rfl b rfl⟩
    | outside | waiting | asleep | leaving | closing => exact ⟨rfl, rfl⟩
  | gives hq => cases p <;> cases hq <;> exact .inr (.inr ⟨rfl, rfl⟩)
  | opens | refused | bypasses | granted | expires | dozes | wakes | unlocks | closes =>
    exact .inr (.inr ⟨rfl, rfl⟩)

theorem Parked.step (hsw : Switches d position) {s s' : SdMuxHost W d}
    {act : MutexAct W SdMuxStep} {node : String}
    (hparked : Parked position (sdMuxUsers candidates hasFcntl canOpen user) node s)
    (huncut : uncut candidates user s act)
    (hstep : mutexStep (sdMuxUsers candidates hasFcntl canOpen user)
      (sdMuxBodies candidates user) s act = some s') :
    Parked position (sdMuxUsers candidates hasFcntl canOpen user) node s' := by
  obtain ⟨ms, -, rfl⟩ | ⟨w, m, v, rfl, rfl, hmoved⟩ := mutexStep_cases hstep
  · exact hparked
  let users := sdMuxUsers candidates hasFcntl canOpen user
  have hself : (s.put users w v).place w = v.place := Function.update_self ..
  have hother (u : W) (hu : u ≠ w) : (s.put users w v).place u = s.place u :=
    Function.update_of_ne hu ..
  -- a holder other than the mover stays where it is
  have hstays (u : W) (hu : u ≠ w) (hres : users.resource u = node)
      (hhost : (s.place u).onHost = true) : Parked position users node (s.put users w v) := by
    right
    exact ⟨u, hres, by rw [hother u hu, hhost]⟩
  by_cases hres : users.resource w = node
  · have hshared : (s.put users w v).shared node = v.shared := by
      rw [← hres]
      exact Function.update_self ..
    obtain hdut | hhost | ⟨hkept, hidle⟩ := hsw.parks hmoved
      (fun a hm => by subst hm; exact huncut) fun hm => by subst hm; exact huncut
    · left
      rw [hshared, hdut]
    · right
      exact ⟨w, hres, by rw [hself, hhost]⟩
    · rw [hres] at hkept
      rcases hparked with hdut | ⟨u, hu, hhost⟩
      · left
        rw [hshared, hkept, hdut]
      · have hne : u ≠ w := by
          intro h
          rw [h, hidle] at hhost
          cases hhost
        exact hstays u hne hu hhost
  · have hshared : (s.put users w v).shared node = s.shared node :=
      Function.update_of_ne (Ne.symm hres) ..
    rcases hparked with hdut | ⟨u, hu, hhost⟩
    · left
      rw [hshared, hdut]
    · have hne : u ≠ w := by
        intro h
        rw [h] at hu
        exact hres hu
      exact hstays u hne hu hhost

omit [DecidableEq W] in
theorem Responsive.uncut (hd : Responsive d) (s : SdMuxHost W d) (a : MutexAct W SdMuxStep)
    (ha : ∀ w, a ≠ .move w .kill) : MesCore.uncut candidates user s a := by
  rcases a with ms | ⟨w, m⟩
  · trivial
  cases m with
  | kill => exact absurd rfl (ha w)
  | work a =>
    intro b _ x' hstep
    let x := s.shared ((user w).devicePath candidates)
    have hok (p : Prog d Unit) (o : SdMuxPhase) (hp : ∃ x₁, p x = .ok () x₁) :
        phaseAfter p (some o) x ≠ (none, x') := by
      obtain ⟨x₁, hp⟩ := hp
      rw [phaseAfter_of_ok (some o) hp]
      exact fun h => by cases h
    cases a <;> cases b <;> first | rfl | cases hstep | skip
    · exact absurd (Option.some.inj hstep) (hok _ _ (hd.setMuxState_ok _ (by simp) _))
    · exact absurd (Option.some.inj hstep) (hok _ _ (hd.pause_ok _ _))
    · exact absurd (Option.some.inj hstep) (hok _ _ (hd.setMuxState_ok _ (by simp) _))
  | enter | attempt | wakeUp | unlock | close | interrupt => trivial

end

/-- An SD-mux on its node, with its tool and its library, that always does as it is told. -/
def obedientMux : BenchHardware where
  State := String
  respond c s :=
    match c with
    | .inl c => (.ok (default : Call.Ans c), s)
    | .inr .pathExists => (.ok true, s)
    | .inr (.runUsbsdmux state) => (.ok ⟨0, []⟩, state)
    | .inr .autoselectDriver => (.ok (), s)
    | .inr (.gpioSet _ _) => (.ok (), s)

theorem obedientMux_switches : Switches obedientMux id := by
  refine ⟨fun state s res s' h _ => ?_, fun c s hc => ?_⟩
  · cases h
    rfl
  · rcases c with c | c
    · rfl
    · cases c with
      | runUsbsdmux state => exact absurd rfl (hc state)
      | _ => rfl

theorem obedientMux_responsive : Responsive obedientMux :=
  ⟨fun s => ⟨s, rfl⟩, fun state _ => ⟨⟨0, []⟩, state, rfl, rfl⟩, fun _ s => ⟨s, rfl⟩⟩

/-- Two sessions of one node, one configured with the whole serial id and one with its end. -/
def twoSdMuxUsers (w : Bool) : SdMuxUser where
  serialId := if w then "00048.00717" else "00717"

def atBoards : String → World obedientMux := fun _ => ⟨{}, "dut", []⟩

def oneSession (w : W) : List (MutexAct W SdMuxStep) :=
  [.move w .enter, .move w .attempt, .move w (.work .proceed), .move w (.work .proceed),
    .move w (.work .leaveBody), .move w (.work .proceed), .move w (.work .proceed),
    .move w .unlock, .move w .close]

def afterOneSession : SdMuxHost Bool obedientMux :=
  let users := sdMuxUsers ["/dev/usb-sd-mux/id-00048.00717"] true (fun _ => true) fun _ : Bool =>
    { serialId := "00048.00717" }
  let bodies := sdMuxBodies ["/dev/usb-sd-mux/id-00048.00717"] fun _ : Bool =>
    { serialId := "00048.00717" }
  (runFrom (mutexStep users bodies) (mutexStart atBoards) (oneSession true)).getD
    (mutexStart atBoards)

end MesCore
