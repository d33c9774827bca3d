import MesCore.PyNumbers
import MesCore.Text
import MesCore.Words
import Mathlib.Data.Nat.Cast.Order.Field

namespace MesCore
set_option autoImplicit true

namespace Iio

abbrev Text := List Char

/-- `str` of a float and of an exception, and how many digits an integer may have as a text if that
is limited, which it is to no fewer than 640. -/
structure Python where
  floatStr : PyFloat → Text
  errorStr : NumericErr → Text
  maxDigits : ℕ
  maxDigits_ok : maxDigits = 0 ∨ 640 ≤ maxDigits

structure Reply where
  ok : Bool
  stdout : Text
  stderr : Text
  durationS : PyFloat

inductive TransportErr
  | timeout
  | connection (message : Text)

/-- What the target makes of a command that may take so long. -/
abbrev Dut := Text → PyFloat → Except TransportErr Reply

inductive Value
  | text (t : Text)
  | int (n : ℤ)
  | ints (ns : List ℤ)
  | float (x : PyFloat)

/-- A `ValidatorResult`, which passed where it has no error message. -/
structure Result where
  errorMsg : Option Text
  metrics : List (String × PyFloat)
  context : List (String × Value)

def Result.passed (r : Result) : Bool := r.errorMsg.isNone

def failed (context : List (String × Value)) (errorMsg : Text) : Result :=
  ⟨some errorMsg, [], context⟩

def resolveCmd (name : Text) : Text :=
  "grep -l '".toList ++ name ++ "' /sys/bus/iio/devices/iio:device*/name 2>/dev/null".toList

/-- `s.replace('/name', '')`. -/
def removeName : Text → Text
  | '/' :: 'n' :: 'a' :: 'm' :: 'e' :: cs => removeName cs
  | c :: cs => c :: removeName cs
  | [] => []

def basePath (stdout : Text) : Text := removeName ((splitNewline (pyStrip stdout)).headD [])

def output : Except TransportErr Reply → Option Text
  | .ok reply => if reply.ok then some reply.stdout else none
  | .error _ => none

def resolvedPath (dut : Dut) (name : Text) : Option Text :=
  match output (dut (resolveCmd name) (.fin 3)) with
  | some (c :: cs) => some (basePath (c :: cs))
  | _ => none

namespace IioAdcValidator

inductive Raised
  | numeric (e : NumericErr)
  | transport (e : TransportErr)

def numeric (x : Except NumericErr α) : Except Raised α := x.mapError .numeric

def ask (reply : Except TransportErr Reply) : Except Raised Reply := reply.mapError .transport

def scaleCmd (channel path : Text) : Text :=
  "cat ".toList ++ path ++ "/in_voltage".toList ++ channel ++ "_scale 2>/dev/null".toList

def bashLoop (channel samples delayS path : Text) : Text :=
  "for i in $(seq 1 ".toList ++ samples ++ "); do cat ".toList ++ path ++ "/in_voltage".toList ++
    channel ++ "_raw; sleep ".toList ++ delayS ++ "; done".toList

def voltage (rawValues : List ℤ) (scale : PyFloat) : Except NumericErr PyFloat := do
  let avgRaw ← PyFloat.trueDiv rawValues.sum rawValues.length
  let volts ← (avgRaw.mul scale).div (.fin 1000)
  volts.round4

/-- `min_v <= voltage_v <= max_v`. -/
def between (minV voltageV maxV : PyFloat) : Bool := minV.le voltageV && voltageV.le maxV

section
variable (py : Python) (dut : Dut) (name channel : Text) (samples : ℕ) (delayS minV maxV : PyFloat)
variable (context : List (String × Value)) (path : Text)

def burst : Except NumericErr (Text × PyFloat) := do
  let samplesText ← pyIntStr py.maxDigits samples
  let count ← PyFloat.ofInt samples
  return (bashLoop channel samplesText (py.floatStr delayS) path,
    (count.mul delayS).add (.fin 5))

def rawStrings (stdout : Text) : List Text := wordsOn isPySpace (pyStrip stdout)

def judge (scale : PyFloat) (resRaw : Reply) : Except NumericErr Result := do
  let raws := rawStrings resRaw.stdout
  if raws.length ≠ samples then
    let requested ← pyIntStr py.maxDigits samples
    let got ← pyIntStr py.maxDigits raws.length
    return failed context
      ("Burst mismatch: Requested ".toList ++ requested ++ ", got ".toList ++ got)
  let rawValues ← raws.mapM (pyInt py.maxDigits)
  let voltageV ← voltage rawValues scale
  return {
    errorMsg := if between minV voltageV maxV then none
      else some ("Voltage ".toList ++ py.floatStr voltageV ++ "V out of bounds".toList)
    metrics := [("voltage_v", voltageV), ("t_sampling_s", resRaw.durationS)]
    context := context ++ [("raw_matrix", .ints rawValues)] }

def measure : Except Raised Result := do
  let resScale ← ask (dut (scaleCmd channel path) (.fin 2))
  if !resScale.ok then
    return failed context ("ADC Scale missing at ".toList ++ path ++ ".".toList)
  let scale ← numeric (pyFloat (pyStrip resScale.stdout))
  let (bashLoop, timeout) ← numeric (burst py channel samples delayS path)
  let resRaw ← ask (dut bashLoop timeout)
  if !resRaw.ok then
    return failed context ("Kernel rejected raw burst read: ".toList ++ resRaw.stderr)
  numeric (judge py samples minV maxV context scale resRaw)

/-- The `except` clauses. -/
def caught : Raised → Except NumericErr Result
  | .numeric e =>
    if e.isValueError then
      .ok (failed context ("Failed to parse numeric IIO data: ".toList ++ py.errorStr e))
    else .error e
  | .transport .timeout => .ok (failed context "DUT hung during ADC sampling burst.".toList)
  | .transport (.connection message) =>
    .ok (failed context ("Transport pipe shattered during ADC read: ".toList ++ message))

def settle : Except Raised Result → Except NumericErr Result
  | .ok r => .ok r
  | .error e => caught py context e

def measureVoltage : Except NumericErr Result :=
  let context := [("target_sensor", Value.text name), ("channel", .text channel)]
  match dut (resolveCmd name) (.fin 3) with
  | .error e => caught py context (.transport e)
  | .ok resResolve =>
    if !resResolve.ok || resResolve.stdout.isEmpty then
      .ok (failed [] ("Sensor '".toList ++ name ++
        "' not found in sysfs. Driver missing or probe failed?".toList))
    else
      let path := basePath resResolve.stdout
      let context := context ++ [("resolved_path", .text path)]
      settle py context (measure py dut channel samples delayS minV maxV context path)

end
end IioAdcValidator

namespace IioDacActuator

section
variable (py : Python) (dut : Dut) (name channel : Text) (targetV : PyFloat)

def scaleCmd (path : Text) : Text :=
  "cat ".toList ++ path ++ "/out_voltage".toList ++ channel ++ "_scale 2>/dev/null".toList

def writeCmd (path rawVal : Text) : Text :=
  "echo ".toList ++ rawVal ++ " > ".toList ++ path ++ "/out_voltage".toList ++ channel ++
    "_raw".toList

/-- `int(target_v * 1000.0 / scale)`. -/
def quantize (scaleText : Text) : Except NumericErr ℤ := do
  let scale ← pyFloat (pyStrip scaleText)
  let steps ← (targetV.mul (.fin 1000)).div scale
  steps.truncate

/-- The `except` clauses. -/
def caught (context : List (String × Value)) : TransportErr → Result
  | .timeout => failed context "I2C/SPI Bus locked up while setting DAC.".toList
  | .connection message =>
    failed context ("Transport dropped during DAC write: ".toList ++ message)

def commit (context : List (String × Value)) (path rawText : Text) : Result :=
  match dut (writeCmd channel path rawText) (.fin 3) with
  | .error e => caught context e
  | .ok resWrite =>
    if !resWrite.ok then failed context "Failed to write DAC raw register.".toList
    else ⟨none, [("t_dac_set_s", resWrite.durationS)], context⟩

def setVoltage : Except NumericErr Result :=
  let context := [("target_v", Value.float targetV)]
  match dut (resolveCmd name) (.fin 3) with
  | .error e => .ok (caught context e)
  | .ok resResolve =>
    if !resResolve.ok || resResolve.stdout.isEmpty then
      .ok (failed [] ("DAC '".toList ++ name ++ "' not found in sysfs.".toList))
    else
      let path := basePath resResolve.stdout
      match dut (scaleCmd channel path) (.fin 2) with
      | .error e => .ok (caught context e)
      | .ok resScale =>
        if !resScale.ok then .ok (failed context ("DAC Scale missing: ".toList ++ path))
        else do
          let rawVal ← quantize targetV resScale.stdout
          let rawText ← pyIntStr py.maxDigits rawVal
          return commit dut channel (context ++ [("quantized_raw", .int rawVal)]) path rawText

end
end IioDacActuator

theorem pyFloat_error {t : List Char} {e : NumericErr} (h : pyFloat t = .error e) :
    e.isValueError = true := by
  unfold pyFloat at h
  split at h
  · cases h
    rfl
  · dsimp only at h
    split_ifs at h
    split at h
    · cases h
    · cases h
      rfl

theorem pyInt_error {t : List Char} {e : NumericErr} (h : pyInt maxDigits t = .error e) :
    e.isValueError = true := by
  unfold pyInt at h
  split at h
  · cases h
    rfl
  · split_ifs at h
    · cases h
      rfl
    · cases h
      rfl

theorem pyIntStr_error {e : NumericErr} (h : pyIntStr maxDigits n = .error e) :
    e.isValueError = true := by
  unfold pyIntStr at h
  dsimp only at h
  split_ifs at h
  cases h
  rfl

theorem mapM_pyInt_error {ts : List (List Char)} {e : NumericErr}
    (h : ts.mapM (pyInt maxDigits) = .error e) : e.isValueError = true := by
  induction ts generalizing e with
  | nil => cases h
  | cons t ts ih =>
    rw [List.mapM_cons] at h
    cases ht : pyInt maxDigits t with
    | error e' =>
      rw [ht] at h
      cases h
      exact pyInt_error ht
    | ok n =>
      cases hts : ts.mapM (pyInt maxDigits) with
      | error e' =>
        rw [ht, hts] at h
        cases h
        exact ih hts
      | ok ns =>
        rw [ht, hts] at h
        cases h

theorem length_of_mapM {f : α → Except ε β} {as : List α} {bs : List β} (h : as.mapM f = .ok bs) :
    bs.length = as.length := by
  induction as generalizing bs with
  | nil =>
    cases h
    rfl
  | cons a as ih =>
    rw [List.mapM_cons] at h
    cases ha : f a with
    | error e =>
      rw [ha] at h
      cases h
    | ok b =>
      cases has : as.mapM f with
      | error e =>
        rw [ha, has] at h
        cases h
      | ok bs' =>
        rw [ha, has] at h
        cases h
        exact congrArg (· + 1) (ih has)

section
variable {dut : Dut} {name path stdout : Text}

theorem scale_unique {read : Text → Option Text} {path' scaleText scaleText' : Text}
    {scale scale' : PyFloat} (hpath : resolvedPath dut name = some path)
    (hread : read path = some scaleText) (hparse : pyFloat (pyStrip scaleText) = .ok scale)
    (hpath' : resolvedPath dut name = some path') (hread' : read path' = some scaleText')
    (hparse' : pyFloat (pyStrip scaleText') = .ok scale') :
    path' = path ∧ scaleText' = scaleText ∧ scale' = scale := by
  rw [hpath] at hpath'
  cases hpath'
  rw [hread] at hread'
  cases hread'
  rw [hparse] at hparse'
  cases hparse'
  exact ⟨rfl, rfl, rfl⟩

theorem output_eq_some {reply : Except TransportErr Reply} (h : output reply = some stdout) :
    ∃ r, reply = .ok r ∧ r.ok = true ∧ r.stdout = stdout := by
  cases reply with
  | error e => cases h
  | ok r =>
    rw [output] at h
    split_ifs at h with hok
    cases h
    exact ⟨r, rfl, hok, rfl⟩

/-- The device is not found if `grep` does not go through or writes nothing. -/
theorem resolvedPath_eq_none (h : resolvedPath dut name = none) :
    (∃ e, dut (resolveCmd name) (.fin 3) = .error e) ∨
      ∃ r, dut (resolveCmd name) (.fin 3) = .ok r ∧ (!r.ok || r.stdout.isEmpty) = true := by
  rw [resolvedPath] at h
  cases hreply : dut (resolveCmd name) (.fin 3) with
  | error e => exact .inl ⟨e, rfl⟩
  | ok r =>
    refine .inr ⟨r, rfl, ?_⟩
    rw [hreply, output] at h
    cases hok : r.ok with
    | false => rfl
    | true =>
      rw [hok, if_pos rfl] at h
      cases hout : r.stdout with
      | nil => rfl
      | cons c cs =>
        rw [hout] at h
        cases h

theorem resolvedPath_eq_some (h : resolvedPath dut name = some path) :
    ∃ r, dut (resolveCmd name) (.fin 3) = .ok r ∧ ¬ (!r.ok || r.stdout.isEmpty) = true ∧
      basePath r.stdout = path := by
  rw [resolvedPath] at h
  split at h
  · next c cs hout =>
    obtain ⟨r, hreply, hok, hstdout⟩ := output_eq_some hout
    refine ⟨r, hreply, ?_, ?_⟩
    · rw [hok, hstdout]
      exact nofun
    · rw [hstdout]
      exact Option.some.inj h
  · cases h

end

namespace IioAdcValidator
open PyFloat (infinite)

section
variable {raws : List ℤ} {q : ℚ}

theorem voltage_of_nil (h : raws.length = 0) (scale : PyFloat) :
    voltage raws scale = .error .divisionByZero := by
  have hdiv : PyFloat.trueDiv raws.sum raws.length = .error .divisionByZero := if_pos h
  rw [voltage, hdiv]
  rfl

theorem voltage_of_le (hn : raws.length ≠ 0)
    (h : binary64.overflow ≤ |(raws.sum : ℚ) / raws.length|) (scale : PyFloat) :
    voltage raws scale = .error .quotientTooLarge := by
  rw [voltage, PyFloat.trueDiv_of_le hn h]
  rfl

theorem voltage_of_lt (hn : raws.length ≠ 0)
    (h : |(raws.sum : ℚ) / raws.length| < binary64.overflow) (scale : PyFloat) :
    ∃ volts v, ((PyFloat.fin (binary64.nearest (raws.sum / raws.length))).mul scale).div
      (.fin 1000) = .ok volts ∧ volts.round4 = .ok v ∧ voltage raws scale = .ok v := by
  obtain ⟨volts, hvolts, hbounded⟩ := PyFloat.exists_div_of_ne (q := 1000) (by norm_num)
    ((PyFloat.fin (binary64.nearest (raws.sum / raws.length))).mul scale)
  obtain ⟨v, hv⟩ := PyFloat.round4_of_bounded hbounded
  refine ⟨volts, v, hvolts, hv, ?_⟩
  rw [voltage, PyFloat.trueDiv_of_lt hn h]
  show (do
    let volts ← ((PyFloat.fin (binary64.nearest (raws.sum / raws.length))).mul scale).div
      (.fin 1000)
    volts.round4) = .ok v
  rw [hvolts]
  exact hv

theorem volts_zero : (PyFloat.ofRat 0).div (.fin 1000) = .ok (.fin 0) ∧
    (PyFloat.fin 0).round4 = .ok (.fin 0) := by
  have hround : roundHalfEven 0 = 0 := by
    exact_mod_cast roundHalfEven_add_of_lt (n := 0) le_rfl (by norm_num)
  constructor
  · rw [PyFloat.ofRat_zero, PyFloat.div, if_neg (by norm_num), zero_div, PyFloat.ofRat_zero]
  · rw [PyFloat.round4, zero_mul, hround, Int.cast_zero, zero_div, PyFloat.ofRat_zero,
      PyFloat.finite]

theorem voltage_zero (hn : raws.length ≠ 0)
    (h : |(raws.sum : ℚ) / raws.length| < binary64.overflow) (hzero : q = 0 ∨ raws.sum = 0) :
    voltage raws (.fin q) = .ok (.fin 0) := by
  obtain ⟨volts, v, hvolts, hv, hvoltage⟩ := voltage_of_lt hn h (.fin q)
  have hmul : (PyFloat.fin (binary64.nearest (raws.sum / raws.length))).mul (.fin q) =
      .ofRat 0 := by
    rw [PyFloat.mul]
    rcases hzero with rfl | hsum
    · rw [mul_zero]
    · rw [hsum, Int.cast_zero, zero_div, FloatFormat.nearest_zero, zero_mul]
  rw [hmul, volts_zero.1] at hvolts
  cases hvolts
  rw [volts_zero.2] at hv
  cases hv
  exact hvoltage

theorem volts_infinite (s : ℤ) : (infinite s).div (.fin 1000) = .ok (infinite s) ∧
    (infinite s).round4 = .ok (infinite s) := by
  have hne : (1000 : ℚ) ≠ 0 := by norm_num
  unfold infinite
  split_ifs with hpos hneg
  · exact ⟨PyFloat.div_of_ne hne _, rfl⟩
  · exact ⟨PyFloat.div_of_ne hne _, rfl⟩
  · exact ⟨PyFloat.div_of_ne hne _, rfl⟩

theorem sign_nearest (hn : raws.length ≠ 0) (hlt : (raws.length : ℚ) < binary64.overflow) :
    (binary64.nearest (raws.sum / raws.length)).num.sign = raws.sum.sign := by
  have hpos : (0 : ℚ) < raws.length := by exact_mod_cast Nat.pos_of_ne_zero hn
  have htop := hlt.trans binary64.overflow_lt_top
  have hcast {a : ℤ} (ha : 0 < a) : (1 : ℚ) ≤ a := by exact_mod_cast ha
  rcases lt_trichotomy raws.sum 0 with hneg | hzero | hsum
  · have h := binary64.nearest_div_pos (by decide) (hcast (neg_pos.2 hneg)) hpos htop
    rw [Int.cast_neg, neg_div, FloatFormat.nearest_neg, neg_pos] at h
    rw [Int.sign_eq_neg_one_of_neg hneg, Int.sign_eq_neg_one_of_neg (Rat.num_neg.2 h)]
  · rw [hzero, Int.cast_zero, zero_div, FloatFormat.nearest_zero]
    rfl
  · have h := binary64.nearest_div_pos (by decide) (hcast hsum) hpos htop
    rw [Int.sign_eq_one_of_pos hsum, Int.sign_eq_one_of_pos (Rat.num_pos.2 h)]

theorem voltage_infinite (hn : raws.length ≠ 0)
    (h : |(raws.sum : ℚ) / raws.length| < binary64.overflow)
    (hlt : (raws.length : ℚ) < binary64.overflow) {scale : PyFloat} (hscale : ∀ q, scale ≠ .fin q) :
    voltage raws scale = .ok (infinite (raws.sum.sign * scale.sign)) := by
  obtain ⟨volts, v, hvolts, hv, hvoltage⟩ := voltage_of_lt hn h scale
  have hmul : (PyFloat.fin (binary64.nearest (raws.sum / raws.length))).mul scale =
      infinite (raws.sum.sign * scale.sign) := by
    rw [← sign_nearest hn hlt]
    cases scale with
    | nan =>
      rw [PyFloat.sign, mul_zero]
      rfl
    | negInf => rfl
    | posInf => rfl
    | fin q => exact absurd rfl (hscale q)
  rw [hmul, (volts_infinite _).1] at hvolts
  cases hvolts
  rw [(volts_infinite _).2] at hv
  cases hv
  exact hvoltage

end

section
variable (py : Python) (dut : Dut) (name channel : Text) (samples : ℕ) (delayS minV maxV : PyFloat)

def readScale (path : Text) : Option Text := output (dut (scaleCmd channel path) (.fin 2))

def readBurst (path : Text) : Option Text :=
  match burst py channel samples delayS path with
  | .ok (bashLoop, timeout) => output (dut bashLoop timeout)
  | .error _ => none

/-- As many integers as asked for, not zero on average, and a voltage within the bounds. -/
def GoodBurst (scale : PyFloat) (stdout : Text) : Prop :=
  ∃ raws v, (rawStrings stdout).mapM (pyInt py.maxDigits) = .ok raws ∧ raws.length = samples ∧
    raws.sum ≠ 0 ∧ voltage raws scale = .ok v ∧ between minV v maxV = true

/-- A verdict is returned, and none that passed on a malformed, zero or out-of-range scale or
reading. -/
def Total : Prop :=
  ∃ r, measureVoltage py dut name channel samples delayS minV maxV = .ok r ∧ (r.passed = true →
    ∃ path scaleText stdout q, resolvedPath dut name = some path ∧
      readScale dut channel path = some scaleText ∧
      pyFloat (pyStrip scaleText) = .ok (.fin q) ∧ q ≠ 0 ∧
      readBurst py dut channel samples delayS path = some stdout ∧
      GoodBurst py samples minV maxV (.fin q) stdout)

/-- Bounds that let the voltage through which a useless scale or a burst of zeros leaves. -/
def Fooled (scale : PyFloat) (total : ℤ) : Prop :=
  match scale with
  | .fin q => (q = 0 ∨ total = 0) ∧ between minV (.fin 0) maxV = true
  | scale => between minV (infinite (total.sign * scale.sign)) maxV = true

/-- The number of samples is a float, a burst is not empty, its average is a float, and the bounds
are not fooled. -/
def Safe : Prop :=
  ∀ path scaleText scale, resolvedPath dut name = some path →
    readScale dut channel path = some scaleText → pyFloat (pyStrip scaleText) = .ok scale →
    (∀ text, pyIntStr py.maxDigits samples = .ok text → (samples : ℚ) < binary64.overflow) ∧
    ∀ stdout raws, readBurst py dut channel samples delayS path = some stdout →
      (rawStrings stdout).mapM (pyInt py.maxDigits) = .ok raws → raws.length = samples →
      samples ≠ 0 ∧ |(raws.sum : ℚ)| < binary64.overflow * samples ∧
        ¬ Fooled minV maxV scale raws.sum

end

/-- It ends in a verdict that did not pass, or in an exception that is caught. -/
def Harmless : Except Raised Result → Prop
  | .ok r => r.passed = false
  | .error (.numeric e) => e.isValueError = true
  | .error (.transport _) => True

section
variable {py : Python} {dut : Dut} {name channel path scaleText stdout : Text} {samples : ℕ}
variable {delayS minV maxV scale : PyFloat} {context : List (String × Value)} {raws : List ℤ}

theorem caught_transport (py : Python) (context : List (String × Value)) (e : TransportErr) :
    ∃ r, caught py context (.transport e) = .ok r ∧ r.passed = false := by
  cases e with
  | timeout => exact ⟨_, rfl, rfl⟩
  | connection message => exact ⟨_, rfl, rfl⟩

theorem settle_of_harmless {x : Except Raised Result} (h : Harmless x) (py : Python)
    (context : List (String × Value)) : ∃ r, settle py context x = .ok r ∧ r.passed = false := by
  cases x with
  | ok r => exact ⟨r, rfl, h⟩
  | error e =>
    cases e with
    | numeric e => exact ⟨_, if_pos h, rfl⟩
    | transport e => exact caught_transport py context e

theorem settle_error {e : NumericErr} (h : e.isValueError = false) (py : Python)
    (context : List (String × Value)) : settle py context (.error (.numeric e)) = .error e :=
  if_neg (Bool.eq_false_iff.1 h)

theorem ask_of_none {reply : Except TransportErr Reply} (h : output reply = none) :
    (∃ e, ask reply = .error (.transport e)) ∨ ∃ r, ask reply = .ok r ∧ r.ok = false := by
  cases reply with
  | error e => exact .inl ⟨e, rfl⟩
  | ok r =>
    rw [output] at h
    split_ifs at h with hok
    exact .inr ⟨r, rfl, Bool.eq_false_iff.2 hok⟩

theorem measure_of_no_scale (h : readScale dut channel path = none) :
    Harmless (measure py dut channel samples delayS minV maxV context path) := by
  rcases ask_of_none h with ⟨e, he⟩ | ⟨r, hr, hok⟩
  · rw [measure, he]
    trivial
  · rw [measure, hr]
    simp only [bind, Except.bind, hok]
    rfl

theorem measure_of_scale (h : readScale dut channel path = some scaleText) :
    measure py dut channel samples delayS minV maxV context path = (do
      let scale ← numeric (pyFloat (pyStrip scaleText))
      let (bashLoop, timeout) ← numeric (burst py channel samples delayS path)
      let resRaw ← ask (dut bashLoop timeout)
      if !resRaw.ok then
        return failed context ("Kernel rejected raw burst read: ".toList ++ resRaw.stderr)
      numeric (judge py samples minV maxV context scale resRaw)) := by
  obtain ⟨r, hr, hok, rfl⟩ := output_eq_some h
  rw [measure, hr]
  simp only [ask, Except.mapError, bind, Except.bind, hok]
  rfl

theorem measure_of_malformed (h : readScale dut channel path = some scaleText)
    (hscale : pyFloat (pyStrip scaleText) = .error e) :
    Harmless (measure py dut channel samples delayS minV maxV context path) := by
  rw [measure_of_scale h, hscale]
  exact pyFloat_error hscale

theorem measure_of_burst_error (h : readScale dut channel path = some scaleText)
    (hscale : pyFloat (pyStrip scaleText) = .ok scale)
    (hburst : burst py channel samples delayS path = .error e) :
    measure py dut channel samples delayS minV maxV context path = .error (.numeric e) := by
  rw [measure_of_scale h, hscale, hburst]
  rfl

theorem measure_of_no_burst (h : readScale dut channel path = some scaleText)
    (hscale : pyFloat (pyStrip scaleText) = .ok scale)
    (hburst : burst py channel samples delayS path = .ok (cmd, timeout))
    (hout : output (dut cmd timeout) = none) :
    Harmless (measure py dut channel samples delayS minV maxV context path) := by
  rw [measure_of_scale h, hscale, hburst]
  simp only [numeric, Except.mapError, bind, Except.bind]
  rcases ask_of_none hout with ⟨e, he⟩ | ⟨r, hr, hok⟩
  · rw [he]
    trivial
  · rw [hr]
    simp only [hok]
    rfl

theorem measure_of_burst (h : readScale dut channel path = some scaleText)
    (hscale : pyFloat (pyStrip scaleText) = .ok scale)
    (hburst : burst py channel samples delayS path = .ok (cmd, timeout))
    (hout : output (dut cmd timeout) = some stdout) (minV maxV : PyFloat)
    (context : List (String × Value)) :
    ∃ resRaw, resRaw.stdout = stdout ∧
      measure py dut channel samples delayS minV maxV context path =
        numeric (judge py samples minV maxV context scale resRaw) := by
  obtain ⟨r, hr, hok, hstdout⟩ := output_eq_some hout
  refine ⟨r, hstdout, ?_⟩
  rw [measure_of_scale h, hscale, hburst]
  simp only [numeric, ask, hr, Except.mapError, bind, Except.bind, hok]
  rfl

theorem judge_of_mismatch {resRaw : Reply} (h : (rawStrings resRaw.stdout).length ≠ samples) :
    Harmless (numeric (judge py samples minV maxV context scale resRaw)) := by
  simp only [judge, if_pos h, bind, Except.bind]
  split
  · exact pyIntStr_error ‹_›
  · split
    · exact pyIntStr_error ‹_›
    · rfl

theorem judge_of_malformed {resRaw : Reply} (h : (rawStrings resRaw.stdout).length = samples)
    (hraws : (rawStrings resRaw.stdout).mapM (pyInt py.maxDigits) = .error e) :
    Harmless (numeric (judge py samples minV maxV context scale resRaw)) := by
  simp only [judge, if_neg (not_not.2 h), hraws, bind, Except.bind]
  exact mapM_pyInt_error hraws

theorem judge_of_raws {resRaw : Reply} (h : (rawStrings resRaw.stdout).length = samples)
    (hraws : (rawStrings resRaw.stdout).mapM (pyInt py.maxDigits) = .ok raws)
    (minV maxV scale : PyFloat) (context : List (String × Value)) :
    (∀ e, voltage raws scale = .error e →
      judge py samples minV maxV context scale resRaw = .error e) ∧
    ∀ v, voltage raws scale = .ok v →
      ∃ r, judge py samples minV maxV context scale resRaw = .ok r ∧
        r.passed = between minV v maxV := by
  have hjudge : judge py samples minV maxV context scale resRaw = (do
      let voltageV ← voltage raws scale
      return {
        errorMsg := if between minV voltageV maxV then none
          else some ("Voltage ".toList ++ py.floatStr voltageV ++ "V out of bounds".toList)
        metrics := [("voltage_v", voltageV), ("t_sampling_s", resRaw.durationS)]
        context := context ++ [("raw_matrix", .ints raws)] }) := by
    simp only [judge, if_neg (not_not.2 h), hraws, bind, Except.bind]
  constructor
  · intro e he
    rw [hjudge, he]
    rfl
  · intro v hv
    refine ⟨_, by rw [hjudge, hv]; rfl, ?_⟩
    cases hb : between minV v maxV with
    | true => rfl
    | false => rfl

theorem burst_of_lt (hstr : pyIntStr py.maxDigits samples = .ok text)
    (hlt : (samples : ℚ) < binary64.overflow) (delayS : PyFloat) (channel path : Text) :
    ∃ bashLoop timeout, burst py channel samples delayS path = .ok (bashLoop, timeout) := by
  have habs : |((samples : ℤ) : ℚ)| < binary64.overflow := by
    rwa [Int.cast_natCast, abs_of_nonneg (Nat.cast_nonneg _)]
  rw [burst, hstr, PyFloat.ofInt, PyFloat.finite_of_lt habs]
  exact ⟨_, _, rfl⟩

theorem burst_of_le (hstr : pyIntStr py.maxDigits samples = .ok text)
    (hle : binary64.overflow ≤ (samples : ℚ)) (delayS : PyFloat) (channel path : Text) :
    burst py channel samples delayS path = .error .intTooLarge := by
  have habs : binary64.overflow ≤ |((samples : ℤ) : ℚ)| := by
    rwa [Int.cast_natCast, abs_of_nonneg (Nat.cast_nonneg _)]
  rw [burst, hstr, PyFloat.ofInt, PyFloat.finite_of_le habs]
  rfl

theorem measureVoltage_of_none (h : resolvedPath dut name = none) :
    ∃ r, measureVoltage py dut name channel samples delayS minV maxV = .ok r ∧
      r.passed = false := by
  rw [measureVoltage]
  rcases resolvedPath_eq_none h with ⟨e, he⟩ | ⟨r, hr, hnot⟩
  · rw [he]
    exact caught_transport py _ e
  · rw [hr]
    exact ⟨_, if_pos hnot, rfl⟩

theorem measureVoltage_of_path (h : resolvedPath dut name = some path) (py : Python)
    (channel : Text) (samples : ℕ) (delayS minV maxV : PyFloat) :
    ∃ context, measureVoltage py dut name channel samples delayS minV maxV =
      settle py context (measure py dut channel samples delayS minV maxV context path) := by
  obtain ⟨r, hr, hfound, rfl⟩ := resolvedPath_eq_some h
  rw [measureVoltage, hr]
  exact ⟨_, if_neg hfound⟩

theorem total_of_not_passed
    (h : ∃ r, measureVoltage py dut name channel samples delayS minV maxV = .ok r ∧
      r.passed = false) : Total py dut name channel samples delayS minV maxV := by
  obtain ⟨r, hr, hfailed⟩ := h
  refine ⟨r, hr, fun hpassed => ?_⟩
  rw [hfailed] at hpassed
  cases hpassed

/-- A voltage within the bounds is a good one unless the bounds are fooled. -/
theorem between_voltage_iff (hn : raws.length ≠ 0)
    (h : |(raws.sum : ℚ) / raws.length| < binary64.overflow)
    (hlt : (raws.length : ℚ) < binary64.overflow) (hv : voltage raws scale = .ok v) :
    (between minV v maxV = true → ∃ q, scale = .fin q ∧ q ≠ 0 ∧ raws.sum ≠ 0) ↔
      ¬ Fooled minV maxV scale raws.sum := by
  by_cases hscale : ∃ q, scale = .fin q
  · obtain ⟨q, rfl⟩ := hscale
    by_cases hzero : q = 0 ∨ raws.sum = 0
    · rw [voltage_zero hn h hzero] at hv
      cases hv
      constructor
      · rintro hgood ⟨-, hbetween⟩
        obtain ⟨q', hq', hne, hsum⟩ := hgood hbetween
        cases hq'
        exact hzero.elim hne hsum
      · intro hnot hbetween
        exact absurd ⟨hzero, hbetween⟩ hnot
    · rw [not_or] at hzero
      exact iff_of_true (fun _ => ⟨q, rfl, hzero⟩) fun hfooled => not_or.2 hzero hfooled.1
  · rw [not_exists] at hscale
    rw [voltage_infinite hn h hlt hscale] at hv
    cases hv
    have hfooled : Fooled minV maxV scale raws.sum ↔
        between minV (infinite (raws.sum.sign * scale.sign)) maxV = true := by
      cases scale with
      | fin q => exact absurd rfl (hscale q)
      | _ => exact Iff.rfl
    rw [hfooled]
    constructor
    · intro hgood hbetween
      obtain ⟨q, hq, -⟩ := hgood hbetween
      exact hscale q hq
    · intro hnot hbetween
      exact absurd hbetween hnot

section
variable {resRaw : Reply} (hpath : resolvedPath dut name = some path)
variable (hscale : readScale dut channel path = some scaleText)
variable (hparse : pyFloat (pyStrip scaleText) = .ok scale)
variable (hburst : readBurst py dut channel samples delayS path = some resRaw.stdout)
variable (hraws : (rawStrings resRaw.stdout).mapM (pyInt py.maxDigits) = .ok raws)
variable (hcount : raws.length = samples)
include hpath hscale hparse hburst hraws hcount

theorem total_iff_of_return (hv : voltage raws scale = .ok v)
    (hreturn : measureVoltage py dut name channel samples delayS minV maxV = .ok r)
    (hpassed : r.passed = between minV v maxV) :
    Total py dut name channel samples delayS minV maxV ↔
      (between minV v maxV = true → ∃ q, scale = .fin q ∧ q ≠ 0 ∧ raws.sum ≠ 0) := by
  constructor
  · rintro ⟨r', hr', hsound⟩ hbetween
    rw [hreturn] at hr'
    cases hr'
    obtain ⟨path', scaleText', stdout', q, hpath', hscale', hparse', hq, hburst', raws', v', hraws',
      -, hsum, -, -⟩ := hsound (hpassed.trans hbetween)
    obtain ⟨rfl, rfl, rfl⟩ := scale_unique hpath hscale hparse hpath' hscale' hparse'
    rw [hburst] at hburst'
    cases hburst'
    rw [hraws] at hraws'
    cases hraws'
    exact ⟨q, rfl, hq, hsum⟩
  · intro hgood
    refine ⟨r, hreturn, fun hpass => ?_⟩
    have hbetween := hpassed.symm.trans hpass
    obtain ⟨q, rfl, hq, hsum⟩ := hgood hbetween
    exact ⟨path, scaleText, _, q, hpath, hscale, hparse, hq, hburst, raws, v, hraws, hcount,
      hsum, hv, hbetween⟩

theorem total_iff_of_raws (hlen : (rawStrings resRaw.stdout).length = samples)
    (hlt : (samples : ℚ) < binary64.overflow)
    (hmeasure : measureVoltage py dut name channel samples delayS minV maxV =
      settle py context (numeric (judge py samples minV maxV context scale resRaw))) :
    Total py dut name channel samples delayS minV maxV ↔
      samples ≠ 0 ∧ |(raws.sum : ℚ)| < binary64.overflow * samples ∧
        ¬ Fooled minV maxV scale raws.sum := by
  obtain ⟨herr, hok⟩ := judge_of_raws hlen hraws minV maxV scale context
  have hraised {e : NumericErr} (he : voltage raws scale = .error e)
      (hclass : e.isValueError = false) :
      ¬ Total py dut name channel samples delayS minV maxV := by
    rintro ⟨r, hr, -⟩
    rw [hmeasure, herr e he] at hr
    cases (settle_error hclass py context).symm.trans hr
  by_cases hn : samples = 0
  · exact iff_of_false (hraised (voltage_of_nil (hcount.trans hn) scale) rfl) fun h => h.1 hn
  have hpos : (0 : ℚ) < samples := by exact_mod_cast Nat.pos_of_ne_zero hn
  have hn' : raws.length ≠ 0 := hcount ▸ hn
  have habs : |(raws.sum : ℚ) / raws.length| = |(raws.sum : ℚ)| / samples := by
    rw [abs_div, hcount, abs_of_pos hpos]
  rcases lt_or_ge |(raws.sum : ℚ)| (binary64.overflow * samples) with hsum | hsum
  · have hquot : |(raws.sum : ℚ) / raws.length| < binary64.overflow := by
      rwa [habs, div_lt_iff₀ hpos]
    obtain ⟨-, v, -, -, hv⟩ := voltage_of_lt hn' hquot scale
    obtain ⟨r, hr, hpassed⟩ := hok v hv
    have hreturn : measureVoltage py dut name channel samples delayS minV maxV = .ok r := by
      rw [hmeasure, hr]
      rfl
    rw [total_iff_of_return hpath hscale hparse hburst hraws hcount hv hreturn hpassed,
      between_voltage_iff hn' hquot (hcount.symm ▸ hlt) hv]
    exact ⟨fun h => ⟨hn, hsum, h⟩, fun h => h.2.2⟩
  · have hquot : binary64.overflow ≤ |(raws.sum : ℚ) / raws.length| := by
      rwa [habs, le_div_iff₀ hpos]
    exact iff_of_false (hraised (voltage_of_le hn' hquot scale) rfl) fun h =>
      absurd h.2.1 (not_lt.2 hsum)

end

theorem safe_iff (hpath : resolvedPath dut name = some path)
    (hscale : readScale dut channel path = some scaleText)
    (hparse : pyFloat (pyStrip scaleText) = .ok scale) :
    Safe py dut name channel samples delayS minV maxV ↔
      (∀ text, pyIntStr py.maxDigits samples = .ok text → (samples : ℚ) < binary64.overflow) ∧
      ∀ stdout raws, readBurst py dut channel samples delayS path = some stdout →
        (rawStrings stdout).mapM (pyInt py.maxDigits) = .ok raws → raws.length = samples →
        samples ≠ 0 ∧ |(raws.sum : ℚ)| < binary64.overflow * samples ∧
          ¬ Fooled minV maxV scale raws.sum := by
  constructor
  · intro h
    exact h path scaleText scale hpath hscale hparse
  · intro h path' scaleText' scale' hpath' hscale' hparse'
    obtain ⟨rfl, rfl, rfl⟩ := scale_unique hpath hscale hparse hpath' hscale' hparse'
    exact h

theorem total_iff_of_reply {resRaw : Reply} (hpath : resolvedPath dut name = some path)
    (hscale : readScale dut channel path = some scaleText)
    (hparse : pyFloat (pyStrip scaleText) = .ok scale)
    (hburst : readBurst py dut channel samples delayS path = some resRaw.stdout)
    (hlt : (samples : ℚ) < binary64.overflow)
    (hmeasure : measureVoltage py dut name channel samples delayS minV maxV =
      settle py context (numeric (judge py samples minV maxV context scale resRaw))) :
    Total py dut name channel samples delayS minV maxV ↔
      ∀ raws, (rawStrings resRaw.stdout).mapM (pyInt py.maxDigits) = .ok raws →
        raws.length = samples → samples ≠ 0 ∧ |(raws.sum : ℚ)| < binary64.overflow * samples ∧
          ¬ Fooled minV maxV scale raws.sum := by
  have hharmless (h : Harmless (numeric (judge py samples minV maxV context scale resRaw))) :
      Total py dut name channel samples delayS minV maxV :=
    total_of_not_passed (hmeasure.symm ▸ settle_of_harmless h py context)
  by_cases hlen : (rawStrings resRaw.stdout).length = samples
  · cases hraws : (rawStrings resRaw.stdout).mapM (pyInt py.maxDigits) with
    | error e => exact iff_of_true (hharmless (judge_of_malformed hlen hraws)) nofun
    | ok raws =>
      have hcount : raws.length = samples := (length_of_mapM hraws).trans hlen
      rw [total_iff_of_raws hpath hscale hparse hburst hraws hcount hlen hlt hmeasure]
      constructor
      · intro h raws' heq hcount'
        cases heq
        exact h
      · intro h
        exact h raws rfl hcount
  · refine iff_of_true (hharmless (judge_of_mismatch hlen)) fun raws hraws hcount => ?_
    exact absurd ((length_of_mapM hraws).symm.trans hcount) hlen

theorem total_iff_of_scale (hpath : resolvedPath dut name = some path)
    (hscale : readScale dut channel path = some scaleText)
    (hparse : pyFloat (pyStrip scaleText) = .ok scale) :
    Total py dut name channel samples delayS minV maxV ↔
      Safe py dut name channel samples delayS minV maxV := by
  rw [safe_iff hpath hscale hparse]
  obtain ⟨context, hmeasure⟩ := measureVoltage_of_path hpath py channel samples delayS minV maxV
  have hharmless (h : Harmless (measure py dut channel samples delayS minV maxV context path)) :
      Total py dut name channel samples delayS minV maxV :=
    total_of_not_passed (hmeasure.symm ▸ settle_of_harmless h py context)
  cases hstr : pyIntStr py.maxDigits samples with
  | error e =>
    have hburst : burst py channel samples delayS path = .error e := by
      rw [burst, hstr]
      rfl
    have hnone : readBurst py dut channel samples delayS path = none := by
      rw [readBurst, hburst]
    refine iff_of_true (hharmless ?_) ⟨nofun, fun stdout raws h => ?_⟩
    · rw [measure_of_burst_error hscale hparse hburst]
      exact pyIntStr_error hstr
    · rw [hnone] at h
      cases h
  | ok text =>
    rcases lt_or_ge (samples : ℚ) binary64.overflow with hlt | hge
    · obtain ⟨cmd, timeout, hburst⟩ := burst_of_lt hstr hlt delayS channel path
      have hread : readBurst py dut channel samples delayS path = output (dut cmd timeout) := by
        rw [readBurst, hburst]
      rw [hread]
      cases hout : output (dut cmd timeout) with
      | none =>
        exact iff_of_true (hharmless (measure_of_no_burst hscale hparse hburst hout))
          ⟨fun _ _ => hlt, nofun⟩
      | some stdout =>
        obtain ⟨resRaw, rfl, hjudge⟩ := measure_of_burst hscale hparse hburst hout minV maxV
          context
        rw [hjudge] at hmeasure
        rw [total_iff_of_reply hpath hscale hparse (hread.trans hout) hlt hmeasure]
        constructor
        · intro h
          refine ⟨fun _ _ => hlt, fun stdout raws heq => ?_⟩
          cases heq
          exact h raws
        · intro h raws
          exact h.2 _ raws rfl
    · refine iff_of_false ?_ fun h => absurd (h.1 text rfl) (not_lt.2 hge)
      rintro ⟨r, hr, -⟩
      rw [hmeasure, measure_of_burst_error hscale hparse (burst_of_le hstr hge delayS channel path),
        settle_error rfl] at hr
      cases hr

theorem total_iff_safe : Total py dut name channel samples delayS minV maxV ↔
    Safe py dut name channel samples delayS minV maxV := by
  cases hpath : resolvedPath dut name with
  | none =>
    refine iff_of_true (total_of_not_passed (measureVoltage_of_none hpath)) fun path _ _ h => ?_
    rw [hpath] at h
    cases h
  | some path =>
    obtain ⟨context, hmeasure⟩ := measureVoltage_of_path hpath py channel samples delayS minV maxV
    have hharmless (h : Harmless (measure py dut channel samples delayS minV maxV context path)) :
        Total py dut name channel samples delayS minV maxV :=
      total_of_not_passed (hmeasure.symm ▸ settle_of_harmless h py context)
    cases hscale : readScale dut channel path with
    | none =>
      refine iff_of_true (hharmless (measure_of_no_scale hscale)) fun path' _ _ h h' => ?_
      rw [hpath] at h
      cases h
      rw [hscale] at h'
      cases h'
    | some scaleText =>
      cases hparse : pyFloat (pyStrip scaleText) with
      | error e =>
        refine iff_of_true (hharmless (measure_of_malformed hscale hparse))
          fun path' _ _ h h' h'' => ?_
        rw [hpath] at h
        cases h
        rw [hscale] at h'
        cases h'
        rw [hparse] at h''
        cases h''
      | ok scale => exact total_iff_of_scale hpath hscale hparse

end

end IioAdcValidator

namespace IioDacActuator

section
variable (py : Python) (dut : Dut) (name channel : Text) (targetV : PyFloat)

def readScale (path : Text) : Option Text := output (dut (scaleCmd channel path) (.fin 2))

/-- A verdict is returned, and none that passed on a malformed, zero or out-of-range scale. -/
def Total : Prop :=
  ∃ r, setVoltage py dut name channel targetV = .ok r ∧ (r.passed = true →
    ∃ path scaleText q, resolvedPath dut name = some path ∧
      readScale dut channel path = some scaleText ∧
      pyFloat (pyStrip scaleText) = .ok (.fin q) ∧ q ≠ 0)

/-- A scale by which so many millivolts can be divided, or an infinite one whose write does not go
through. -/
def Divides (millivolts : ℚ) (path : Text) : PyFloat → Prop
  | .fin q => q ≠ 0 ∧ |millivolts| < binary64.overflow * |q|
  | .nan => False
  | .negInf | .posInf => output (dut (writeCmd channel path ['0']) (.fin 3)) = none

/-- The target is a number, its millivolts are a float, and the scale divides them. -/
def Safe : Prop :=
  ∀ path scaleText, resolvedPath dut name = some path →
    readScale dut channel path = some scaleText →
    ∃ t scale, targetV = .fin t ∧ |t * 1000| < binary64.overflow ∧
      pyFloat (pyStrip scaleText) = .ok scale ∧
      Divides dut channel (binary64.nearest (t * 1000)) path scale

end

section
variable {py : Python} {dut : Dut} {name channel path scaleText : Text} {targetV scale : PyFloat}
variable {t q : ℚ}

theorem natAbs_truncate_le (q : ℚ) : ((q.num.tdiv q.den).natAbs : ℚ) ≤ |q| := by
  have habs : |q| = (q.num.natAbs : ℚ) / q.den := by
    rw [← Rat.num_div_den q, abs_div, Nat.abs_cast, Rat.num_div_den, Nat.cast_natAbs, Int.cast_abs]
  rw [habs, Int.natAbs_tdiv, Int.natAbs_natCast]
  exact Nat.cast_div_le

theorem pyIntStr_of_lt (py : Python) {n : ℤ} (h : n.natAbs < 10 ^ 640) :
    pyIntStr py.maxDigits n =
      .ok (if n < 0 then '-' :: Nat.toDigits 10 n.natAbs else Nat.toDigits 10 n.natAbs) := by
  have hlen := (Nat.length_toDigits_le_iff (by decide) (by decide)).2 h
  have hfits : ¬ (py.maxDigits ≠ 0 ∧ py.maxDigits < (Nat.toDigits 10 n.natAbs).length) := by
    rcases py.maxDigits_ok with hzero | hlimit
    · exact fun hbad => hbad.1 hzero
    · exact fun hbad => absurd (hlen.trans hlimit) (not_le.2 hbad.2)
  exact if_neg hfits

theorem top_lt : binary64.top < 10 ^ 640 := by
  have hpow : ((2 : ℚ) ^ 3) ^ 342 ≤ 10 ^ 342 := pow_le_pow_left₀ (by norm_num) (by norm_num) _
  have htop : binary64.top = (2 : ℚ) ^ 1024 := zpow_natCast 2 1024
  calc binary64.top = (2 : ℚ) ^ 1024 := htop
    _ ≤ 2 ^ (3 * 342) := pow_le_pow_right₀ (by norm_num) (by norm_num)
    _ = (2 ^ 3) ^ 342 := pow_mul 2 3 342
    _ ≤ 10 ^ 342 := hpow
    _ < 10 ^ 640 := pow_lt_pow_right₀ (by norm_num) (by norm_num)

theorem truncate_str (py : Python) (h : |q| < binary64.overflow) :
    ∃ text, pyIntStr py.maxDigits (q.num.tdiv q.den) = .ok text := by
  have hlt := (natAbs_truncate_le q).trans_lt
    (h.trans (binary64.overflow_lt_top.trans top_lt))
  have hnat : ((q.num.tdiv q.den).natAbs : ℚ) < (10 ^ 640 : ℕ) := by
    rw [Nat.cast_pow, Nat.cast_ofNat]
    exact hlt
  exact ⟨_, pyIntStr_of_lt py (Nat.cast_lt.1 hnat)⟩

theorem truncate_ne_fin {x : PyFloat} (h : ∀ q, x ≠ .fin q) : ∃ e, x.truncate = .error e := by
  cases x with
  | nan => exact ⟨_, rfl⟩
  | negInf => exact ⟨_, rfl⟩
  | posInf => exact ⟨_, rfl⟩
  | fin q => exact absurd rfl (h q)

theorem quantize_of_parse (h : pyFloat (pyStrip scaleText) = .ok scale) (targetV : PyFloat) :
    quantize targetV scaleText = (do
      let steps ← (targetV.mul (.fin 1000)).div scale
      steps.truncate) := by
  rw [quantize, h]
  rfl

/-- The millivolts of the target are a number exactly if they are not too many. -/
theorem millivolts_cases (targetV : PyFloat) :
    (∃ t, targetV = .fin t ∧ |t * 1000| < binary64.overflow ∧
      targetV.mul (.fin 1000) = .fin (binary64.nearest (t * 1000))) ∨
    (∀ t, targetV = .fin t → binary64.overflow ≤ |t * 1000|) ∧
      ∀ q, targetV.mul (.fin 1000) ≠ .fin q := by
  cases targetV with
  | nan => exact .inr ⟨nofun, nofun⟩
  | negInf => exact .inr ⟨nofun, PyFloat.infinite_ne_fin _⟩
  | posInf => exact .inr ⟨nofun, PyFloat.infinite_ne_fin _⟩
  | fin t =>
    rcases lt_or_ge |t * 1000| binary64.overflow with hlt | hge
    · exact .inl ⟨t, rfl, hlt, PyFloat.ofRat_of_lt hlt⟩
    · refine .inr ⟨fun t' h => ?_, fun q hq => ?_⟩
      · cases h
        exact hge
      · exact absurd (PyFloat.ofRat_eq_fin hq).1 (not_lt.2 hge)

theorem div_ne_fin {x : PyFloat} (hx : ∀ q, x ≠ .fin q) (scale : PyFloat) :
    (∃ e, x.div scale = .error e) ∨ ∃ y, x.div scale = .ok y ∧ ∀ q, y ≠ .fin q := by
  cases scale with
  | fin q =>
    by_cases hq : q = 0
    · exact .inl ⟨_, if_pos hq⟩
    · refine .inr ⟨_, PyFloat.div_of_ne hq x, ?_⟩
      cases x with
      | nan => exact nofun
      | negInf => exact PyFloat.infinite_ne_fin _
      | posInf => exact PyFloat.infinite_ne_fin _
      | fin p => exact absurd rfl (hx p)
  | _ =>
    cases x with
    | fin p => exact absurd rfl (hx p)
    | _ => exact .inr ⟨.nan, rfl, nofun⟩

theorem quantize_of_ne_fin (h : pyFloat (pyStrip scaleText) = .ok scale)
    (hx : ∀ q, targetV.mul (.fin 1000) ≠ .fin q) : ∃ e, quantize targetV scaleText = .error e := by
  rw [quantize_of_parse h]
  rcases div_ne_fin hx scale with ⟨e, he⟩ | ⟨y, hy, hne⟩
  · exact ⟨e, by rw [he]; rfl⟩
  · rw [hy]
    exact truncate_ne_fin hne

theorem quantize_fin (h : pyFloat (pyStrip scaleText) = .ok (.fin q))
    (hx : targetV.mul (.fin 1000) = .fin y) (py : Python) :
    (q ≠ 0 ∧ |y| < binary64.overflow * |q| → ∃ raw text, quantize targetV scaleText = .ok raw ∧
      pyIntStr py.maxDigits raw = .ok text) ∧
    (¬ (q ≠ 0 ∧ |y| < binary64.overflow * |q|) → ∃ e, quantize targetV scaleText = .error e) := by
  rw [quantize_of_parse h, hx]
  by_cases hq : q = 0
  · exact ⟨fun hgood => absurd hq hgood.1, fun _ => ⟨.divisionByZero, by
      rw [PyFloat.div, if_pos hq]
      rfl⟩⟩
  rw [PyFloat.div_of_ne hq]
  have habs : |y / q| = |y| / |q| := abs_div y q
  have hpos : 0 < |q| := abs_pos.2 hq
  constructor
  · rintro ⟨-, hlt⟩
    have hquot : |y / q| < binary64.overflow := by rwa [habs, div_lt_iff₀ hpos]
    obtain ⟨hle, -⟩ := PyFloat.ofRat_eq_fin (PyFloat.ofRat_of_lt hquot)
    have hbound : |binary64.nearest (y / q)| < binary64.overflow :=
      (PyFloat.bounded_ofRat _ _ (PyFloat.ofRat_of_lt hquot)).trans_lt binary64.largest_lt_overflow
    obtain ⟨text, htext⟩ := truncate_str py hbound
    refine ⟨_, text, ?_, htext⟩
    show (PyFloat.ofRat (y / q)).truncate = _
    rw [PyFloat.ofRat_of_lt hquot, PyFloat.truncate]
  · intro hbad
    have hge : binary64.overflow ≤ |y / q| := by
      rw [habs, le_div_iff₀ hpos]
      exact not_lt.1 fun hlt => hbad ⟨hq, hlt⟩
    exact truncate_ne_fin fun r hr => absurd (PyFloat.ofRat_eq_fin hr).1 (not_lt.2 hge)

theorem quantize_infinite (h : pyFloat (pyStrip scaleText) = .ok scale)
    (hscale : scale = .negInf ∨ scale = .posInf) (hx : targetV.mul (.fin 1000) = .fin y) :
    quantize targetV scaleText = .ok 0 := by
  rw [quantize_of_parse h, hx]
  rcases hscale with rfl | rfl
  · rfl
  · rfl

theorem quantize_nan (h : pyFloat (pyStrip scaleText) = .ok .nan)
    (hx : targetV.mul (.fin 1000) = .fin y) :
    quantize targetV scaleText = .error .nanToInt := by
  rw [quantize_of_parse h, hx]
  rfl

theorem pyIntStr_zero (py : Python) : pyIntStr py.maxDigits 0 = .ok ['0'] := by
  have hpos : (0 : ℤ).natAbs < 10 ^ 640 := by
    rw [Int.natAbs_zero]
    positivity
  rw [pyIntStr_of_lt py hpos]
  rfl

theorem commit_passed (context : List (String × Value)) (path rawText : Text) :
    (commit dut channel context path rawText).passed =
      (output (dut (writeCmd channel path rawText) (.fin 3))).isSome := by
  rw [commit]
  cases hreply : dut (writeCmd channel path rawText) (.fin 3) with
  | error e =>
    cases e with
    | timeout => rfl
    | connection message => rfl
  | ok r =>
    cases hok : r.ok with
    | true => simp only [hok, output]; rfl
    | false => simp only [hok, output]; rfl

theorem caught_passed (context : List (String × Value)) (e : TransportErr) :
    (caught context e).passed = false := by
  cases e with
  | timeout => rfl
  | connection message => rfl

theorem setVoltage_of_none (h : resolvedPath dut name = none) :
    ∃ r, setVoltage py dut name channel targetV = .ok r ∧ r.passed = false := by
  rw [setVoltage]
  rcases resolvedPath_eq_none h with ⟨e, he⟩ | ⟨r, hr, hnot⟩
  · rw [he]
    exact ⟨_, rfl, caught_passed _ e⟩
  · rw [hr]
    exact ⟨_, if_pos hnot, rfl⟩

theorem setVoltage_of_no_scale (h : resolvedPath dut name = some path)
    (hscale : readScale dut channel path = none) :
    ∃ r, setVoltage py dut name channel targetV = .ok r ∧ r.passed = false := by
  obtain ⟨r, hr, hfound, rfl⟩ := resolvedPath_eq_some h
  rw [setVoltage, hr]
  simp only [if_neg hfound]
  rw [readScale] at hscale
  cases hreply : dut (scaleCmd channel (basePath r.stdout)) (.fin 2) with
  | error e => exact ⟨_, rfl, caught_passed _ e⟩
  | ok resScale =>
    have hnot : (!resScale.ok) = true := by
      rw [hreply, output] at hscale
      cases hok : resScale.ok with
      | false => rfl
      | true =>
        rw [hok] at hscale
        cases hscale
    exact ⟨_, if_pos hnot, rfl⟩

theorem setVoltage_of_scale (h : resolvedPath dut name = some path)
    (hscale : readScale dut channel path = some scaleText) :
    setVoltage py dut name channel targetV = (do
      let rawVal ← quantize targetV scaleText
      let rawText ← pyIntStr py.maxDigits rawVal
      return commit dut channel [("target_v", .float targetV), ("quantized_raw", .int rawVal)] path
        rawText) := by
  obtain ⟨r, hr, hfound, rfl⟩ := resolvedPath_eq_some h
  obtain ⟨resScale, hreply, hok, rfl⟩ := output_eq_some hscale
  rw [setVoltage, hr]
  simp only [if_neg hfound, hreply, hok]
  rfl

theorem total_of_not_passed
    (h : ∃ r, setVoltage py dut name channel targetV = .ok r ∧ r.passed = false) :
    Total py dut name channel targetV := by
  obtain ⟨r, hr, hfailed⟩ := h
  refine ⟨r, hr, fun hpassed => ?_⟩
  rw [hfailed] at hpassed
  cases hpassed

theorem not_total_of_quantize (h : resolvedPath dut name = some path)
    (hscale : readScale dut channel path = some scaleText)
    (hquantize : quantize targetV scaleText = .error e) :
    ¬ Total py dut name channel targetV := by
  rintro ⟨r, hr, -⟩
  rw [setVoltage_of_scale h hscale, hquantize] at hr
  cases hr

theorem setVoltage_of_quantize (h : resolvedPath dut name = some path)
    (hscale : readScale dut channel path = some scaleText)
    (hquantize : quantize targetV scaleText = .ok raw)
    (htext : pyIntStr py.maxDigits raw = .ok text) :
    setVoltage py dut name channel targetV = .ok (commit dut channel
      [("target_v", .float targetV), ("quantized_raw", .int raw)] path text) := by
  rw [setVoltage_of_scale h hscale, hquantize]
  show (do
    let rawText ← pyIntStr py.maxDigits raw
    return commit dut channel [("target_v", .float targetV), ("quantized_raw", .int raw)] path
      rawText) = _
  rw [htext]
  rfl

theorem total_iff_of_millivolts (h : resolvedPath dut name = some path)
    (hscale : readScale dut channel path = some scaleText)
    (hparse : pyFloat (pyStrip scaleText) = .ok scale)
    (hx : targetV.mul (.fin 1000) = .fin y) :
    Total py dut name channel targetV ↔ Divides dut channel y path scale := by
  have hinfinite (hinf : scale = .negInf ∨ scale = .posInf) :
      Total py dut name channel targetV ↔
        output (dut (writeCmd channel path ['0']) (.fin 3)) = none := by
    have hset := setVoltage_of_quantize h hscale (quantize_infinite hparse hinf hx)
      (pyIntStr_zero py)
    constructor
    · rintro ⟨r, hr, hsound⟩
      rw [hset] at hr
      cases hr
      rw [← Option.not_isSome_iff_eq_none, ← commit_passed]
      intro hpassed
      obtain ⟨path', scaleText', q, hpath', hscale', hparse', -⟩ := hsound hpassed
      obtain ⟨rfl, rfl, rfl⟩ := scale_unique h hscale hparse hpath' hscale' hparse'
      exact hinf.elim nofun nofun
    · intro hnone
      refine total_of_not_passed ⟨_, hset, ?_⟩
      rw [commit_passed, hnone]
      rfl
  cases scale with
  | nan => exact iff_of_false (not_total_of_quantize h hscale (quantize_nan hparse hx)) nofun
  | negInf => exact hinfinite (.inl rfl)
  | posInf => exact hinfinite (.inr rfl)
  | fin q =>
    obtain ⟨hgood, hbad⟩ := quantize_fin hparse hx py
    by_cases hq : q ≠ 0 ∧ |y| < binary64.overflow * |q|
    · obtain ⟨raw, text, hraw, htext⟩ := hgood hq
      exact iff_of_true ⟨_, setVoltage_of_quantize h hscale hraw htext,
        fun _ => ⟨path, scaleText, q, h, hscale, hparse, hq.1⟩⟩ hq
    · obtain ⟨e, he⟩ := hbad hq
      exact iff_of_false (not_total_of_quantize h hscale he) hq

theorem total_iff_of_scale (h : resolvedPath dut name = some path)
    (hscale : readScale dut channel path = some scaleText) :
    Total py dut name channel targetV ↔
      ∃ t scale, targetV = .fin t ∧ |t * 1000| < binary64.overflow ∧
        pyFloat (pyStrip scaleText) = .ok scale ∧
        Divides dut channel (binary64.nearest (t * 1000)) path scale := by
  cases hparse : pyFloat (pyStrip scaleText) with
  | error e =>
    refine iff_of_false (not_total_of_quantize h hscale (e := e) ?_) ?_
    · rw [quantize, hparse]
      rfl
    · rintro ⟨t, scale, -, -, hp, -⟩
      cases hp
  | ok scale =>
    rcases millivolts_cases targetV with ⟨t, rfl, hlt, hx⟩ | ⟨hnone, hx⟩
    · rw [total_iff_of_millivolts h hscale hparse hx]
      constructor
      · intro hgood
        exact ⟨t, scale, rfl, hlt, rfl, hgood⟩
      · rintro ⟨t', scale', ht, -, hp, hgood⟩
        cases ht
        cases hp
        exact hgood
    · obtain ⟨e, he⟩ := quantize_of_ne_fin hparse hx
      refine iff_of_false (not_total_of_quantize h hscale he) ?_
      rintro ⟨t, scale', ht, hlt, -⟩
      exact absurd hlt (not_lt.2 (hnone t ht))

theorem total_iff_safe : Total py dut name channel targetV ↔ Safe dut name channel targetV := by
  cases hpath : resolvedPath dut name with
  | none =>
    refine iff_of_true (total_of_not_passed (setVoltage_of_none hpath)) fun path _ h => ?_
    rw [hpath] at h
    cases h
  | some path =>
    cases hscale : readScale dut channel path with
    | none =>
      refine iff_of_true (total_of_not_passed (setVoltage_of_no_scale hpath hscale))
        fun path' _ h h' => ?_
      rw [hpath] at h
      cases h
      rw [hscale] at h'
      cases h'
    | some scaleText =>
      rw [total_iff_of_scale hpath hscale]
      constructor
      · intro hgood path' scaleText' h h'
        rw [hpath] at h
        cases h
        rw [hscale] at h'
        cases h'
        exact hgood
      · intro hsafe
        exact hsafe path scaleText hpath hscale

end
end IioDacActuator

/-- A target that answers every read with a scale of zero. -/
def zeroScale : Dut := fun cmd _ =>
  .ok ⟨true, if "grep".toList.isPrefixOf cmd then "/sys/bus/iio/devices/iio:device1/name\n".toList
    else "0\n".toList, [], .fin 0⟩

/-- A target with a scale, whose empty burst goes through. -/
def emptyBurst : Dut := fun cmd _ =>
  .ok ⟨true, if "grep".toList.isPrefixOf cmd then "/sys/bus/iio/devices/iio:device0/name\n".toList
    else if "cat".toList.isPrefixOf cmd then "0.5\n".toList else [], [], .fin 0⟩

def plainPython : Python := ⟨fun _ => [], fun _ => [], 4300, .inr (by decide)⟩

/-- Both validators return, and a bad scale or reading does not pass, exactly for the samples,
targets, bounds and replies that are safe. -/
theorem validators_total_iff (py : Python) (dut : Dut) (name channel : Text) (samples : ℕ)
    (delayS minV maxV targetV : PyFloat) :
    (IioAdcValidator.Total py dut name channel samples delayS minV maxV ↔
      IioAdcValidator.Safe py dut name channel samples delayS minV maxV) ∧
    (IioDacActuator.Total py dut name channel targetV ↔
      IioDacActuator.Safe dut name channel targetV) :=
  ⟨IioAdcValidator.total_iff_safe, IioDacActuator.total_iff_safe⟩

/-- A division by zero gets out of both. -/
theorem validators_raise :
    ¬ IioAdcValidator.Total plainPython emptyBurst "ads1015".toList ['0'] 0 (.fin 0) (.fin 0)
      (.fin 5) ∧
    ¬ IioDacActuator.Total plainPython zeroScale "dac7571".toList ['0'] (.fin 1) := by
  constructor
  · rintro ⟨r, hr, -⟩
    have hraise : (IioAdcValidator.measureVoltage plainPython emptyBurst "ads1015".toList ['0'] 0
        (.fin 0) (.fin 0) (.fin 5)).isOk = false := by decide +kernel
    rw [hr] at hraise
    cases hraise
  · rintro ⟨r, hr, -⟩
    have hraise : (IioDacActuator.setVoltage plainPython zeroScale "dac7571".toList ['0']
        (.fin 1)).isOk = false := by decide +kernel
    rw [hr] at hraise
    cases hraise

end Iio
end MesCore
