import MesCore.CallHistory
import MesCore.Text
import Mathlib.Algebra.Order.Field.Rat

namespace MesCore
set_option autoImplicit true

/-- A Python `float`. -/
inductive PyFloat
  | nan
  | negInf
  | fin (q : ℚ)
  | posInf
  deriving DecidableEq

namespace PyFloat

/-- `x <= y`. Nothing compares with a NaN. -/
def le : PyFloat → PyFloat → Bool
  | .nan, _ | _, .nan => false
  | .negInf, _ | _, .posInf => true
  | .fin p, .fin q => p ≤ q
  | _, _ => false

/-- `x < y`. -/
def lt (x y : PyFloat) : Bool := x.le y && !y.le x

end PyFloat

inductive PsuErr
  | valueError (msg : String)
  | overflowError (msg : String)
  | typeError (msg : String)
  | visaIOError (msg : String)
  | shortCircuitError (msg : String)
  | keyboardInterrupt
  | other (msg : String)
  deriving DecidableEq

def PsuErr.isValueError : PsuErr → Bool
  | .valueError _ => true
  | _ => false

/-- `int(x)`. -/
def PyFloat.toInt : PyFloat → Except PsuErr Int
  | .nan => .error (.valueError "cannot convert float NaN to integer")
  | .negInf | .posInf => .error (.overflowError "cannot convert float infinity to integer")
  | .fin q => .ok (q.num.tdiv q.den)

/-- The float operations of the language that round or that read and write text. -/
structure FloatOps where
  format3 : PyFloat → String
  str : PyFloat → String
  parse : String → Option PyFloat
  ofNat : Nat → PyFloat
  /-- `x * 0.95` -/
  times095 : PyFloat → PyFloat

inductive PsuVendorConfig
  | rigol (channel : Nat)
  | keysight
  | fnirsi
  deriving DecidableEq

/-- A supply, and whether it has an open instrument. -/
structure ScpiPowerSupply where
  cfg : PsuVendorConfig
  instrument : Bool

namespace ScpiPowerSupply

inductive ScpiCmd
  | selectChannel
  | voltage (volts : PyFloat)
  | current (amps : PyFloat)
  | output (on : Bool)
  | measureCurrent
  deriving DecidableEq

inductive PsuCall
  | write (cmd : ScpiCmd)
  | query (cmd : ScpiCmd)
  | sleep (ms : Nat)

@[reducible] def PsuCall.Ans : PsuCall → Type
  | .write _ | .sleep _ => Unit
  | .query _ => String

@[reducible] def psuInterface : Interface where
  Call := PsuCall
  Ans := PsuCall.Ans
  Err := PsuErr
  Note := Empty
  Vars := Unit

abbrev Bench := Device psuInterface

abbrev BenchProg (d : Bench) (α : Type) := Prog d α

abbrev PsuHistory := List (Entry psuInterface)

section
variable (ops : FloatOps) (psu : ScpiPowerSupply) {d : Bench}

def channel : Nat :=
  match psu.cfg with
  | .rigol channel => channel
  | _ => 1

def text : ScpiCmd → String :=
  match psu.cfg with
  | .rigol channel => fun
    | .selectChannel => s!":INST CH{channel}"
    | .voltage volts => s!":VOLT {ops.format3 volts}"
    | .current amps => s!":CURR {ops.format3 amps}"
    | .output true => s!":OUTP CH{channel},ON"
    | .output false => s!":OUTP CH{channel},OFF"
    | .measureCurrent => ":MEAS:CURR?"
  | _ => fun
    | .selectChannel => ""
    | .voltage volts => s!"SOUR:VOLT {ops.format3 volts},(@{psu.channel})"
    | .current amps => s!"SOUR:CURR {ops.format3 amps},(@{psu.channel})"
    | .output true => s!"OUTP ON,(@{psu.channel})"
    | .output false => s!"OUTP OFF,(@{psu.channel})"
    | .measureCurrent => s!"MEAS:CURR? (@{psu.channel})"

def write (cmd : ScpiCmd) : BenchProg d Unit :=
  onlyIf psu.instrument (call (I := psuInterface) (.write cmd))

def queryFloat (cmd : ScpiCmd) : BenchProg d PyFloat :=
  if psu.instrument then
    attempt (do
      let rawResponse : String ← call (I := psuInterface) (.query cmd)
      match ops.parse (stripText rawResponse) with
      | some x => pure x
      | none => fail (.valueError "could not convert string to float"))
      PsuErr.isValueError fun _ => pure (.fin (-1))
  else pure (.fin 0)

def send (cmd : ScpiCmd) : BenchProg d Unit :=
  match psu.cfg with
  | .rigol _ => do
    write psu .selectChannel
    write psu cmd
  | .keysight => write psu cmd
  | .fnirsi => pure ()

def setVoltage (volts : PyFloat) : BenchProg d Unit := send psu (.voltage volts)

def setCurrentLimit (amps : PyFloat) : BenchProg d Unit := send psu (.current amps)

def setOutput (on : Bool) : BenchProg d Unit :=
  match psu.cfg with
  | .rigol _ | .keysight => write psu (.output on)
  | .fnirsi => pure ()

def enableOutput : BenchProg d Unit := setOutput psu true

def disableOutput : BenchProg d Unit := onlyIf psu.instrument (setOutput psu false)

/-- `measure_current`, which returns `None` for a supply that it has no dialect for. -/
def measureCurrent : BenchProg d (Option PyFloat) :=
  match psu.cfg with
  | .rigol _ => do
    write psu .selectChannel
    some <$> queryFloat ops psu .measureCurrent
  | .keysight => some <$> queryFloat ops psu .measureCurrent
  | .fnirsi => pure none

end

end ScpiPowerSupply

open ScpiPowerSupply

structure SafePowerController where
  psu : ScpiPowerSupply
  targetV : PyFloat
  currentLimitA : PyFloat

namespace SafePowerController
section
variable (ops : FloatOps) (c : SafePowerController) {d : Bench}

def sleep (ms : Nat) : BenchProg d Unit := call (I := psuInterface) (.sleep ms)

/-- The loop of the ramp, over the voltages that are left. -/
def rampSteps : List Nat → BenchProg d Unit
  | [] => pure ()
  | v :: vs => do
    setVoltage c.psu (ops.ofNat v)
    sleep 50
    rampSteps vs

def prepare : BenchProg d Unit := do
  setCurrentLimit c.psu c.currentLimitA
  setVoltage c.psu (.fin 0)

/-- From `enable_output` to the end of the ramp. -/
def ramp : BenchProg d Unit := do
  enableOutput c.psu
  match c.targetV.toInt with
  | .error e => fail e
  | .ok steps => do
    rampSteps ops c (List.range' 1 steps.toNat)
    setVoltage c.psu c.targetV
    sleep 200

def threshold : PyFloat := ops.times095 c.currentLimitA

def judge (idleCurrent : Option PyFloat) : BenchProg d Unit :=
  match idleCurrent with
  | none => fail (.typeError "'>=' not supported between instances of 'NoneType' and 'float'")
  | some idle =>
    if (c.threshold ops).le idle then do
      disableOutput c.psu
      fail (.shortCircuitError
        s!"FATAL: Board acting as a short circuit! Drew {ops.str idle}A at idle.")
    else pure ()

/-- `__enter__`. -/
def enter : BenchProg d Unit := do
  prepare c
  ramp ops c
  let idleCurrent : Option PyFloat ← measureCurrent ops c.psu
  judge ops c idleCurrent

/-- `__exit__`. -/
def exit : BenchProg d Unit := disableOutput c.psu

end
end SafePowerController

namespace ScpiPowerSupply

def output? : Entry psuInterface → Option Bool
  | .call (.write (.output on)) _ => some on
  | _ => none

def answer? : Entry psuInterface → Option String
  | .call (.query _) (.ok rawResponse) => some rawResponse
  | _ => none

def reading? : Entry psuInterface → Option (Except PsuErr String)
  | .call (.query _) r => some r
  | _ => none

def lastOutput (t : PsuHistory) : Option Bool := (t.filterMap output?).getLast?

def speaks (psu : ScpiPowerSupply) : Bool := psu.instrument && psu.cfg != .fnirsi

/-- The last output command is `disable`; there is none at all on a supply that sends none. -/
def Severed (psu : ScpiPowerSupply) (t : PsuHistory) : Prop :=
  lastOutput t = if psu.speaks then some false else none

end ScpiPowerSupply

namespace SafePowerController
section
variable (ops : FloatOps) (c : SafePowerController) {d : Bench}

/-- Some current that the instrument answered parses, and is below the threshold. -/
def MeasuredBelow (t : PsuHistory) : Prop :=
  ∃ rawResponse x, rawResponse ∈ t.filterMap answer? ∧
    ops.parse (stripText rawResponse) = some x ∧ x.lt (c.threshold ops) = true

/-- `__enter__` leaves the output on only behind a measurement that it has read. -/
def EnterSafe (w : World d) : Prop :=
  wp (enter ops c) (fun _ w' => MeasuredBelow ops c (w.since w') ∨ Severed c.psu w'.trace)
    (fun _ w' => Severed c.psu w'.trace) w

/-- What the supply says to the query for the current decides the test for a short circuit: a number
at the threshold or above, or below it, or a text that is no number where even -1.0 A is too
much. -/
def Decides : Except PsuErr String → Prop
  | .ok rawResponse =>
    match ops.parse (stripText rawResponse) with
    | some x => (c.threshold ops).le x = true ∨ x.lt (c.threshold ops) = true
    | none => (c.threshold ops).le (.fin (-1)) = true
  | .error e => e.isValueError = true ∧ (c.threshold ops).le (.fin (-1)) = true

/-- The output was disabled before and is never enabled, or the supply has given a reading that
decides. -/
def Answered (t seg : PsuHistory) : Prop :=
  if true ∈ seg.filterMap output? then ∃ r ∈ seg.filterMap reading?, Decides ops c r
  else Severed c.psu t

/-- The number that `query_float` makes of the end of a query. -/
def numberOf : Except PsuErr String → Option PyFloat
  | .ok rawResponse => some ((ops.parse (stripText rawResponse)).getD (.fin (-1)))
  | .error e => if e.isValueError then some (.fin (-1)) else none

/-- The ways through `__enter__`: whether it returns, the output commands, and the ends of the
queries. -/
inductive Course : Bool → List Bool → List (Except PsuErr String) → Prop
  | silent (ended : Bool) : c.psu.speaks = false → Course ended [] []
  | unprepared : Course false [] []
  | broken : c.psu.speaks = true → (∀ r ∈ rs, numberOf ops r = none) → Course false [true] rs
  | short : c.psu.speaks = true → numberOf ops r = some idle →
      (c.threshold ops).le idle = true → Course false [true, false] [r]
  | passed : c.psu.speaks = true → numberOf ops r = some idle →
      (c.threshold ops).le idle = false → Course true [true] [r]

end
end SafePowerController

namespace ScpiPowerSupply
section
variable {ops : FloatOps} {psu : ScpiPowerSupply} {d : Bench}

/-- An observation that nothing but output commands and answers is seen by. -/
structure Blind (obs : Entry psuInterface → Option γ) : Prop where
  write : ∀ cmd r, (∀ on, cmd ≠ .output on) → obs (.call (.write cmd) r) = none
  sleep : ∀ ms r, obs (.call (.sleep ms) r) = none

theorem blind_output : Blind output? where
  write cmd r hcmd := by
    cases cmd with
    | output on => exact (hcmd on rfl).elim
    | _ => rfl
  sleep _ _ := rfl

theorem blind_reading : Blind reading? where
  write _ _ _ := rfl
  sleep _ _ := rfl

variable {obs : Entry psuInterface → Option γ}

theorem emits_write (hobs : Blind obs) {cmd : ScpiCmd} (hcmd : ∀ on, cmd ≠ .output on) :
    Emits (d := d) obs (write psu cmd) [] := by
  unfold write onlyIf
  split
  · apply Emits.call
    intro r
    exact List.filterMap_cons_none (hobs.write cmd r hcmd)
  · exact .pure ()

theorem emits_send (hobs : Blind obs) {cmd : ScpiCmd} (hcmd : ∀ on, cmd ≠ .output on) :
    Emits (d := d) obs (send psu cmd) [] := by
  unfold send
  split
  · exact (emits_write hobs (by simp)).bind fun _ => emits_write hobs hcmd
  · exact emits_write hobs hcmd
  · exact .pure ()

theorem emits_setVoltage (hobs : Blind obs) (volts : PyFloat) :
    Emits (d := d) obs (setVoltage psu volts) [] := emits_send hobs (by simp)

theorem emits_sleep (hobs : Blind obs) (ms : Nat) :
    Emits (d := d) obs (SafePowerController.sleep ms) [] := by
  apply Emits.call
  intro r
  exact List.filterMap_cons_none (hobs.sleep ms r)

theorem emits_setOutput (psu : ScpiPowerSupply) (on : Bool) :
    Emits (d := d) output? (setOutput psu on) (if psu.speaks then [on] else []) := by
  unfold setOutput write speaks
  cases psu.cfg with
  | fnirsi =>
    rw [if_neg (by simp)]
    exact .pure ()
  | rigol channel =>
    cases psu.instrument with
    | false => exact .pure ()
    | true => exact .call _ fun _ => rfl
  | keysight =>
    cases psu.instrument with
    | false => exact .pure ()
    | true => exact .call _ fun _ => rfl

theorem emits_disableOutput (psu : ScpiPowerSupply) :
    Emits (d := d) output? (disableOutput psu) (if psu.speaks then [false] else []) := by
  unfold disableOutput onlyIf
  split
  · exact emits_setOutput psu false
  · rw [if_neg (by simp [speaks, ‹¬ psu.instrument = true›])]
    exact .pure ()

theorem emits_setOutput_reading (psu : ScpiPowerSupply) (on : Bool) :
    Emits (d := d) reading? (setOutput psu on) [] := by
  have hwrite : Emits (d := d) reading? (write psu (.output on)) [] := by
    unfold write onlyIf
    split
    · exact .call _ fun _ => rfl
    · exact .pure ()
  unfold setOutput
  split
  · exact hwrite
  · exact hwrite
  · exact .pure ()

theorem emits_queryFloat (ops : FloatOps) (psu : ScpiPowerSupply) (cmd : ScpiCmd) :
    Emits (d := d) output? (queryFloat ops psu cmd) [] := by
  unfold queryFloat
  split
  · apply Emits.attempt
    · apply (Emits.call _ fun _ => rfl).bind
      intro rawResponse
      split
      · exact .pure _
      · exact .fail _
    · exact fun _ => .pure _
  · exact .pure _

theorem emits_measureCurrent (ops : FloatOps) (psu : ScpiPowerSupply) :
    Emits (d := d) output? (measureCurrent ops psu) [] := by
  unfold measureCurrent
  split
  · apply (emits_write blind_output (by simp)).bind
    exact fun _ => (emits_queryFloat ops psu _).bind fun _ => .pure _
  · exact (emits_queryFloat ops psu _).bind fun _ => .pure _
  · exact .pure _

/-- A query ends in a number, or raises what `query_float` does not catch. -/
theorem leaves_queryFloat (h : psu.instrument = true) (ops : FloatOps) (cmd : ScpiCmd) :
    Leaves (d := d) (queryFloat ops psu cmd)
      (fun x seg => ∃ r, seg.filterMap reading? = [r] ∧ SafePowerController.numberOf ops r = some x)
      fun _ seg => ∀ r ∈ seg.filterMap reading?, SafePowerController.numberOf ops r = none := by
  have hraised : Leaves (d := d) (call (I := psuInterface) (.query cmd))
      (fun rawResponse seg => seg.filterMap reading? = [.ok rawResponse])
      fun e seg => seg.filterMap reading? = [.error e] :=
    .call (fun _ => rfl) fun _ => rfl
  rw [queryFloat, if_pos h]
  apply Leaves.attempt (S := fun e seg => ∃ r, seg.filterMap reading? = [r] ∧
    SafePowerController.numberOf ops r = if e.isValueError then some (.fin (-1)) else none)
  · apply Leaves.bind (hraised.mono (fun _ _ h => h) fun e _ h => ⟨_, h, rfl⟩)
    intro rawResponse s hs
    cases hparse : ops.parse (stripText rawResponse) with
    | some x =>
      apply Leaves.pure
      exact ⟨_, by rw [List.append_nil, hs], by rw [SafePowerController.numberOf, hparse]; rfl⟩
    | none =>
      apply Leaves.fail
      exact ⟨_, by rw [List.append_nil, hs], by rw [SafePowerController.numberOf, hparse]; rfl⟩
  · intro e s h he
    obtain ⟨r, hr, hnumber⟩ := h
    apply Leaves.pure
    rw [if_pos he] at hnumber
    exact ⟨r, by rw [List.append_nil, hr], hnumber⟩
  · intro e s h he r' hr'
    obtain ⟨r, hr, hnumber⟩ := h
    rw [hr, List.mem_singleton] at hr'
    rw [hr', hnumber, if_neg (by rw [he]; exact Bool.false_ne_true)]

theorem leaves_measureCurrent (hspeaks : psu.speaks = true) (ops : FloatOps) :
    Leaves (d := d) (measureCurrent ops psu)
      (fun idleCurrent seg => ∃ r x, seg.filterMap reading? = [r] ∧ idleCurrent = some x ∧
        SafePowerController.numberOf ops r = some x)
      fun _ seg => ∀ r ∈ seg.filterMap reading?, SafePowerController.numberOf ops r = none := by
  have hinstrument : psu.instrument = true := by
    rw [speaks, Bool.and_eq_true] at hspeaks
    exact hspeaks.1
  have hquery : Leaves (d := d) (some <$> queryFloat ops psu .measureCurrent)
      (fun idleCurrent seg => ∃ r x, seg.filterMap reading? = [r] ∧ idleCurrent = some x ∧
        SafePowerController.numberOf ops r = some x)
      fun _ seg => ∀ r ∈ seg.filterMap reading?, SafePowerController.numberOf ops r = none := by
    apply (leaves_queryFloat hinstrument ops _).bind
    intro x s h
    obtain ⟨r, hr, hnumber⟩ := h
    exact .pure ⟨r, x, by rw [List.append_nil, hr], rfl, hnumber⟩
  unfold measureCurrent
  split
  · have hselect : Emits (d := d) reading? (write psu .selectChannel) [] :=
      emits_write blind_reading (by simp)
    apply Leaves.bind (hselect.mono (fun _ _ h => h) fun _ _ h => ?_)
    · intro _ s hs
      apply hquery.mono
      · intro idleCurrent seg h
        rwa [List.filterMap_append, hs, List.nil_append]
      · intro _ seg h
        rwa [List.filterMap_append, hs, List.nil_append]
    · rw [h]
      exact List.forall_mem_nil _
  · exact hquery
  · rw [speaks, ‹psu.cfg = _›] at hspeaks
    simp at hspeaks

theorem emits_measureCurrent_reading (h : psu.speaks = false) (ops : FloatOps) :
    Emits (d := d) reading? (measureCurrent ops psu) [] := by
  unfold measureCurrent
  split
  · have hinstrument : psu.instrument = false := by simpa [speaks, ‹psu.cfg = _›] using h
    apply (emits_write blind_reading (by simp)).bind
    intro _
    rw [queryFloat, hinstrument]
    exact .pure _
  · have hinstrument : psu.instrument = false := by simpa [speaks, ‹psu.cfg = _›] using h
    rw [queryFloat, hinstrument]
    exact .pure _
  · exact .pure _

theorem lastOutput_of_nil {t s : PsuHistory} (h : s.filterMap output? = []) :
    lastOutput (t ++ s) = lastOutput t := by
  rw [lastOutput, List.filterMap_append, h, List.append_nil]
  rfl

theorem lastOutput_of_singleton {t s : PsuHistory} {on : Bool} (h : s.filterMap output? = [on]) :
    lastOutput (t ++ s) = some on := by
  rw [lastOutput, List.filterMap_append, h, List.getLast?_append]
  rfl

theorem not_severed {t : PsuHistory} (hspeaks : psu.speaks = true) (h : lastOutput t = some true) :
    ¬ Severed psu t := by
  rw [Severed, h, if_pos hspeaks]
  decide

end
end ScpiPowerSupply

namespace SafePowerController
section
variable {ops : FloatOps} {c : SafePowerController} {d : Bench}
  {obs : Entry psuInterface → Option γ}

theorem emits_prepare (hobs : Blind obs) (c : SafePowerController) :
    Emits (d := d) obs (prepare c) [] :=
  (emits_send hobs (by simp)).bind fun _ => emits_setVoltage hobs _

theorem emits_rampSteps (hobs : Blind obs) (ops : FloatOps) (c : SafePowerController)
    (vs : List Nat) :
    Emits (d := d) obs (rampSteps ops c vs) [] := by
  induction vs with
  | nil => exact .pure ()
  | cons v vs ih => exact (emits_setVoltage hobs _).bind fun _ =>
    (emits_sleep hobs 50).bind fun _ => ih

theorem emits_ramp (hobs : Blind obs) {os : List γ}
    (henable : Emits (d := d) obs (enableOutput c.psu) os) :
      Emits (d := d) obs (ramp ops c) os := by
  apply henable.bind
  intro _
  split
  · exact .fail _
  · apply (emits_rampSteps hobs ops c _).bind
    exact fun _ => (emits_setVoltage hobs _).bind fun _ => emits_sleep hobs 200

theorem emits_enter (hobs : Blind obs) (houtput : ∀ on, Emits (d := d) obs (setOutput c.psu on) [])
    (hmeasure : Emits (d := d) obs (measureCurrent ops c.psu) []) :
    Emits (d := d) obs (enter ops c) [] := by
  have hdisable : Emits (d := d) obs (disableOutput c.psu) [] := by
    unfold disableOutput onlyIf
    split
    · exact houtput false
    · exact .pure ()
  apply (emits_prepare hobs c).bind
  intro _
  apply (emits_ramp hobs (houtput true)).bind
  intro _
  apply hmeasure.bind
  intro idleCurrent
  unfold judge
  split
  · exact .fail _
  · split
    · exact hdisable.bind fun _ => .fail _
    · exact .pure ()

/-- What a run leaves of output commands and of queries, and whether it returns. -/
def Leads (p : BenchProg d α) (f : Bool → List Bool → List (Except PsuErr String) → Prop) : Prop :=
  Leaves p (fun _ seg => f true (seg.filterMap output?) (seg.filterMap reading?))
    fun _ seg => f false (seg.filterMap output?) (seg.filterMap reading?)

theorem Leads.bind {p : BenchProg d β} {k : β → BenchProg d α} {os : List Bool}
    {rs : List (Except PsuErr String)}
    {f : Bool → List Bool → List (Except PsuErr String) → Prop} (hos : Emits output? p os)
    (hrs : Emits reading? p rs) (hbroken : f false os rs)
    (hk : ∀ b, Leads (k b) fun ended os' rs' => f ended (os ++ os') (rs ++ rs')) :
    Leads (p >>= k) f := by
  apply Leaves.bind ((hos.and hrs).mono (fun _ _ h => h) fun _ _ h => by rwa [h.1, h.2])
  intro b s h
  have hboth (seg : PsuHistory) : (s ++ seg).filterMap output? = os ++ seg.filterMap output? ∧
      (s ++ seg).filterMap reading? = rs ++ seg.filterMap reading? := by
    rw [List.filterMap_append, List.filterMap_append, h.1, h.2]
    exact ⟨rfl, rfl⟩
  apply (hk b).mono
  · intro a seg hseg
    rwa [(hboth seg).1, (hboth seg).2]
  · intro e seg hseg
    rwa [(hboth seg).1, (hboth seg).2]

theorem leads_judge (hspeaks : c.psu.speaks = true) {r : Except PsuErr String} {idle : PyFloat}
    (hidle : numberOf ops r = some idle) :
    Leads (d := d) (judge ops c (some idle))
      fun ended os rs => Course ops c ended (true :: os) (r :: rs) := by
  rw [judge]
  split
  · have hdisable : Emits (d := d) output? (disableOutput c.psu) [false] := by
      have h := emits_disableOutput (d := d) c.psu
      rwa [if_pos hspeaks] at h
    have hquiet : Emits (d := d) reading? (disableOutput c.psu) [] := by
      unfold disableOutput onlyIf
      split
      · exact emits_setOutput_reading c.psu false
      · exact .pure ()
    have hshort : Course ops c false [true, false] [r] := .short hspeaks hidle ‹_›
    exact Leads.bind hdisable hquiet hshort fun _ => .fail hshort
  · exact .pure (.passed hspeaks hidle (Bool.eq_false_iff.2 ‹_›))

theorem leads_enter (ops : FloatOps) (c : SafePowerController) :
    Leads (d := d) (enter ops c) (Course ops c) := by
  cases hspeaks : c.psu.speaks with
  | false =>
    have houtput : Emits (d := d) output? (enter ops c) [] := by
      apply emits_enter blind_output
      · intro on
        have h := emits_setOutput (d := d) c.psu on
        rwa [if_neg (by rw [hspeaks]; decide)] at h
      · exact emits_measureCurrent ops c.psu
    have hreading : Emits (d := d) reading? (enter ops c) [] :=
      emits_enter blind_reading (emits_setOutput_reading c.psu)
        (emits_measureCurrent_reading hspeaks ops)
    apply (houtput.and hreading).mono
    · intro _ seg h
      rw [h.1, h.2]
      exact .silent true hspeaks
    · intro _ seg h
      rw [h.1, h.2]
      exact .silent false hspeaks
  | true =>
    have henable : Emits (d := d) output? (enableOutput c.psu) [true] := by
      have h := emits_setOutput (d := d) c.psu true
      rwa [if_pos hspeaks] at h
    apply Leads.bind (emits_prepare blind_output c) (emits_prepare blind_reading c) .unprepared
    intro _
    apply Leads.bind (emits_ramp blind_output henable)
      (emits_ramp blind_reading (emits_setOutput_reading c.psu true))
      (.broken hspeaks (List.forall_mem_nil _))
    intro _
    have hmeasured := (emits_measureCurrent (d := d) ops c.psu).and
      (leaves_measureCurrent hspeaks ops)
    apply Leaves.bind (hmeasured.mono (fun _ _ h => h) fun _ _ h => ?_)
    · intro idleCurrent s h
      obtain ⟨hos, r, idle, hrs, rfl, hidle⟩ := h
      apply (leads_judge hspeaks hidle).mono
      · intro _ seg hseg
        rwa [List.filterMap_append, List.filterMap_append, hos, hrs]
      · intro _ seg hseg
        rwa [List.filterMap_append, List.filterMap_append, hos, hrs]
    · rw [h.1]
      exact .broken hspeaks h.2

/-- A number decides, unless it cannot be compared or stands for a text that is none. -/
theorem decides_of_le {r : Except PsuErr String} {idle : PyFloat} (hr : numberOf ops r = some idle)
    (hle : (c.threshold ops).le idle = true) : Decides ops c r := by
  cases r with
  | ok rawResponse =>
    cases Option.some.inj hr
    rw [Decides]
    cases hparse : ops.parse (stripText rawResponse) with
    | some x =>
      rw [hparse] at hle
      exact .inl hle
    | none =>
      rw [hparse] at hle
      exact hle
  | error e =>
    rw [numberOf] at hr
    split at hr
    · cases hr
      exact ⟨‹_›, hle⟩
    · cases hr

theorem not_decides {r : Except PsuErr String} (hr : numberOf ops r = none) :
    ¬ Decides ops c r := by
  cases r with
  | ok rawResponse => cases hr
  | error e =>
    intro h
    rw [numberOf, if_pos h.1] at hr
    cases hr

/-- A reading that lets the test pass decides if it is a number below the threshold. -/
theorem decides_of_not_le {r : Except PsuErr String} {idle : PyFloat}
    (hr : numberOf ops r = some idle) (hle : (c.threshold ops).le idle = false) :
    Decides ops c r ↔ ∃ rawResponse x, r = .ok rawResponse ∧
      ops.parse (stripText rawResponse) = some x ∧ x.lt (c.threshold ops) = true := by
  have hnot : ¬ (c.threshold ops).le idle = true := by
    rw [hle]
    exact Bool.false_ne_true
  cases r with
  | ok rawResponse =>
    cases Option.some.inj hr
    rw [Decides]
    cases hparse : ops.parse (stripText rawResponse) with
    | some x =>
      rw [hparse] at hnot
      constructor
      · intro h
        exact ⟨rawResponse, x, rfl, hparse, h.resolve_left hnot⟩
      · intro h
        obtain ⟨_, y, hraw, hy, hlt⟩ := h
        cases hraw
        rw [hparse] at hy
        cases hy
        exact .inr hlt
    | none =>
      rw [hparse] at hnot
      apply iff_of_false hnot
      intro h
      obtain ⟨_, y, hraw, hy, _⟩ := h
      cases hraw
      rw [hparse] at hy
      cases hy
  | error e =>
    rw [numberOf] at hr
    split at hr
    · cases hr
      apply iff_of_false
      · exact fun h => hnot h.2
      · intro h
        obtain ⟨_, _, hraw, _⟩ := h
        cases hraw
    · cases hr

theorem answers_eq (seg : PsuHistory) :
    seg.filterMap answer? = (seg.filterMap reading?).filterMap Except.toOption := by
  rw [List.filterMap_filterMap]
  congr 1
  funext e
  cases e with
  | call k r =>
    cases k with
    | query cmd => cases r <;> rfl
    | write cmd => rfl
    | sleep ms => rfl
  | note n => cases n

/-- Whichever way `__enter__` goes, it leaves the output as it should exactly if the supply has
answered. -/
theorem Course.safe_iff {ended : Bool} {t seg : PsuHistory}
    (h : Course ops c ended (seg.filterMap output?) (seg.filterMap reading?)) :
    (ended = true ∧ MeasuredBelow ops c seg ∨ Severed c.psu (t ++ seg)) ↔
      Answered ops c t seg := by
  have hsame (hos : seg.filterMap output? = []) : Severed c.psu (t ++ seg) ↔ Severed c.psu t := by
    rw [Severed, Severed, lastOutput_of_nil hos]
  have hon (hos : seg.filterMap output? = [true]) (hspeaks : c.psu.speaks = true) :
      ¬ Severed c.psu (t ++ seg) := not_severed hspeaks (lastOutput_of_singleton hos)
  have hoff (hos : seg.filterMap output? = [true, false]) (hspeaks : c.psu.speaks = true) :
      Severed c.psu (t ++ seg) := by
    rw [Severed, lastOutput, List.filterMap_append, hos, List.getLast?_append, if_pos hspeaks]
    rfl
  rw [Answered, MeasuredBelow, answers_eq]
  generalize seg.filterMap output? = os at h hsame hon hoff
  generalize seg.filterMap reading? = rs at h
  cases h with
  | silent ended hspeaks =>
    rw [hsame rfl, if_neg List.not_mem_nil]
    simp
  | unprepared =>
    rw [hsame rfl, if_neg List.not_mem_nil]
    simp
  | broken hspeaks hrs =>
    rw [if_pos (List.mem_singleton_self true)]
    apply iff_of_false
    · simpa using hon rfl hspeaks
    · intro h
      obtain ⟨r, hr, hdecides⟩ := h
      exact not_decides (hrs r hr) hdecides
  | @short r idle hspeaks hr hle =>
    rw [if_pos (List.mem_cons_self ..)]
    apply iff_of_true
    · exact .inr (hoff rfl hspeaks)
    · exact ⟨r, List.mem_singleton_self r, decides_of_le hr hle⟩
  | @passed r idle hspeaks hr hle =>
    rw [if_pos (List.mem_singleton_self true), or_iff_left (hon rfl hspeaks)]
    simp only [List.mem_singleton, exists_eq_left, decides_of_not_le hr hle, true_and]
    cases r with
    | ok rawResponse => simp [Except.toOption]
    | error e => simp [Except.toOption]

theorem severed_exit (c : SafePowerController) (w : World d) :
    Severed c.psu (World.after (exit c w)).trace ↔ c.psu.speaks = true ∨ Severed c.psu w.trace := by
  have htrace := (emits_disableOutput c.psu).trace (w := w)
  rw [Severed, Severed, exit, lastOutput, htrace]
  by_cases hspeaks : c.psu.speaks = true
  · rw [if_pos hspeaks, if_pos hspeaks, List.getLast?_append]
    exact iff_of_true rfl (.inl hspeaks)
  · rw [if_neg hspeaks, if_neg hspeaks, List.append_nil]
    exact (or_iff_right hspeaks).symm

/-- Entering leaves the output on behind a verified ramp only, and off on every other way out,
exactly when the supply was off and is never enabled, or answers the query for the current and the
answer decides. After an exit the last output command is `disable`, on every supply it reaches. -/
theorem safePower_iff (ops : FloatOps) (c : SafePowerController) (w : World d) :
    (EnterSafe ops c w ↔ Answered ops c w.trace (w.since (World.after (enter ops c w)))) ∧
      (Severed c.psu (World.after (exit c w)).trace ↔
        c.psu.speaks = true ∨ Severed c.psu w.trace) := by
  apply And.intro _ (severed_exit c w)
  have hcourse := leads_enter (d := d) ops c
  rw [EnterSafe, wp]
  cases hrun : enter ops c w with
  | ok a w' =>
    obtain ⟨seg, htrace, _⟩ := (hcourse.runs w).ok hrun
    dsimp only
    rw [World.after_ok, ← Course.safe_iff (hcourse.ok hrun), World.since_eq htrace, htrace]
    simp
  | error e w' =>
    obtain ⟨seg, htrace, _⟩ := (hcourse.runs w).error hrun
    dsimp only
    rw [World.after_error, ← Course.safe_iff (hcourse.error hrun), World.since_eq htrace, htrace]
    simp

end
end SafePowerController

namespace SafePowerController

/-- A connected supply that answers every query with this text, and whose writes may fail. -/
def bench (rawResponse : String) (fails : ScpiCmd → Bool) : Bench where
  State := Unit
  respond
    | .write cmd, s => (if fails cmd then .error (.visaIOError "VI_ERROR_TMO") else .ok (), s)
    | .query _, s => (.ok rawResponse, s)
    | .sleep _, s => (.ok (), s)

/-- The history that `connect` leaves behind, as far as output commands go. -/
def connected (d : Bench) (s : d.State) : World d where
  vars := ()
  dev := s
  trace := [.call (.write (.output false)) (.ok ())]

def twoVolts : SafePowerController where
  psu := { cfg := .keysight, instrument := true }
  targetV := .fin 2
  currentLimitA := .fin 3

def exactOps : FloatOps where
  format3 _ := "2.000"
  str _ := "0.15"
  parse s := if s = "0.150" then some (.fin (15 / 100)) else none
  ofNat n := .fin n
  times095
    | .fin q => .fin (q * 95 / 100)
    | x => x

theorem not_safe_of_answers {d : Bench} {w : World d} (rawResponse : String)
    (h : (match enter exactOps twoVolts w with
      | .ok _ w' => decide ((w.since w').filterMap answer? = [rawResponse] ∧
        lastOutput w'.trace = some true)
      | .error _ _ => false) = true)
    (hnone : exactOps.parse (stripText rawResponse) = none) : ¬ EnterSafe exactOps twoVolts w := by
  cases hrun : enter exactOps twoVolts w with
  | error e w' =>
    rw [hrun] at h
    cases h
  | ok a w' =>
    rw [hrun] at h
    obtain ⟨hanswers, hon⟩ := of_decide_eq_true h
    intro hsafe
    rcases hsafe.ok hrun with hbelow | hsevered
    · obtain ⟨raw, x, hraw, hparse, -⟩ := hbelow
      rw [hanswers, List.mem_singleton] at hraw
      rw [hraw, hnone] at hparse
      cases hparse
    · exact not_severed rfl hon hsevered

/-- An overload text reads as -1.0, and the second step of the ramp raises: the output stays on. -/
theorem safePower_energised :
    ¬ EnterSafe exactOps twoVolts (connected (bench "OVLD" fun _ => false) ()) ∧
      ¬ EnterSafe exactOps twoVolts (connected (bench "0.150" (· = .voltage (.fin 1))) ()) := by
  constructor
  · exact not_safe_of_answers "OVLD" (by decide +kernel) (by decide +kernel)
  · intro h
    obtain ⟨e, w, hrun, htrace⟩ : ∃ e w, enter exactOps twoVolts
        (connected (bench "0.150" (· = .voltage (.fin 1))) ()) = .error e w ∧
          lastOutput w.trace = some true := ⟨_, _, rfl, rfl⟩
    exact not_severed rfl htrace (h.error hrun)

end SafePowerController

end MesCore
