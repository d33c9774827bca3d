import MesCore.FloatFormat
import MesCore.SafePower
import MesCore.SerialClient

namespace MesCore
set_option autoImplicit true

/-- What arithmetic and the parsing of numbers raise. -/
inductive NumericErr
  | notFloat (text : List Char)
  | notInt (text : List Char)
  | tooManyDigits
  | nanToInt
  | divisionByZero
  | intTooLarge
  | quotientTooLarge
  | infinityToInt
  | roundedTooLarge
  deriving DecidableEq

/-- The others are a `ZeroDivisionError` and `OverflowError`s. -/
def NumericErr.isValueError : NumericErr → Bool
  | .notFloat _ | .notInt _ | .tooManyDigits | .nanToInt => true
  | _ => false

def binary64 : FloatFormat := ⟨53, -1074, 1024, by decide, by decide⟩

namespace PyFloat

def ofRat (q : ℚ) : PyFloat :=
  if |binary64.nearest q| < binary64.top then .fin (binary64.nearest q)
  else if 0 < q then .posInf
  else .negInf

def sign : PyFloat → ℤ
  | .nan => 0
  | .negInf => -1
  | .posInf => 1
  | .fin q => q.num.sign

def infinite (sign : ℤ) : PyFloat :=
  if 0 < sign then .posInf else if sign < 0 then .negInf else .nan

/-- `x * y`. -/
def mul : PyFloat → PyFloat → PyFloat
  | .nan, _ | _, .nan => .nan
  | .fin p, .fin q => ofRat (p * q)
  | x, y => infinite (x.sign * y.sign)

/-- `x / y`. -/
def div : PyFloat → PyFloat → Except NumericErr PyFloat
  | x, .fin q =>
    if q = 0 then .error .divisionByZero
    else match x with
      | .nan => .ok .nan
      | .fin p => .ok (ofRat (p / q))
      | x => .ok (infinite (x.sign * q.num.sign))
  | .fin _, .negInf | .fin _, .posInf => .ok (.fin 0)
  | _, _ => .ok .nan

/-- `x + y`. -/
def add : PyFloat → PyFloat → PyFloat
  | .fin p, .fin q => ofRat (p + q)
  | .nan, _ | _, .nan | .posInf, .negInf | .negInf, .posInf => .nan
  | .posInf, _ | _, .posInf => .posInf
  | .negInf, _ | _, .negInf => .negInf

/-- `int(x)`. -/
def truncate : PyFloat → Except NumericErr ℤ
  | .nan => .error .nanToInt
  | .negInf | .posInf => .error .infinityToInt
  | .fin q => .ok (q.num.tdiv q.den)

def finite (e : NumericErr) : PyFloat → Except NumericErr PyFloat
  | .fin q => .ok (.fin q)
  | _ => .error e

/-- `float(n)`. -/
def ofInt (n : ℤ) : Except NumericErr PyFloat := finite .intTooLarge (ofRat n)

/-- `a / n` of two integers. -/
def trueDiv (a : ℤ) (n : ℕ) : Except NumericErr PyFloat :=
  if n = 0 then .error .divisionByZero else finite .quotientTooLarge (ofRat (a / n))

/-- `round(x, 4)`. -/
def round4 : PyFloat → Except NumericErr PyFloat
  | .fin q => finite .roundedTooLarge (ofRat (roundHalfEven (q * 10 ^ 4) / 10 ^ 4))
  | x => .ok x

section
variable {x y : PyFloat} {q : ℚ} {a : ℤ} {n : ℕ}

theorem ofRat_of_lt (h : |q| < binary64.overflow) : ofRat q = .fin (binary64.nearest q) :=
  if_pos (binary64.abs_nearest_lt_top_iff.2 h)

theorem ofRat_of_le (h : binary64.overflow ≤ |q|) :
    ofRat q = if 0 < q then .posInf else .negInf :=
  if_neg fun hlt => absurd (binary64.abs_nearest_lt_top_iff.1 hlt) (not_lt.2 h)

theorem ofRat_zero : ofRat 0 = .fin 0 := by
  rw [ofRat_of_lt (by simpa only [abs_zero] using binary64.overflow_pos),
    FloatFormat.nearest_zero]

theorem ofRat_eq_fin (h : ofRat q = .fin r) : |q| < binary64.overflow ∧ r = binary64.nearest q := by
  rcases lt_or_ge |q| binary64.overflow with hlt | hge
  · rw [ofRat_of_lt hlt] at h
    cases h
    exact ⟨hlt, rfl⟩
  · rw [ofRat_of_le hge] at h
    split at h
    · cases h
    · cases h

/-- What arithmetic makes is a float: no number in it is too large. -/
def Bounded (x : PyFloat) : Prop := ∀ q, x = .fin q → |q| ≤ binary64.largest

theorem bounded_ofRat (q : ℚ) : (ofRat q).Bounded := by
  intro r h
  obtain ⟨hlt, rfl⟩ := ofRat_eq_fin h
  rw [FloatFormat.abs_nearest]
  exact binary64.nearest_le_largest (abs_nonneg q) hlt

theorem infinite_ne_fin (s : ℤ) (q : ℚ) : infinite s ≠ .fin q := by
  unfold infinite
  split_ifs <;> exact nofun

theorem bounded_infinite (s : ℤ) : (infinite s).Bounded :=
  fun q h => absurd h (infinite_ne_fin s q)

theorem div_of_ne (hq : q ≠ 0) (x : PyFloat) : x.div (.fin q) = .ok (match x with
    | .nan => .nan
    | .fin p => ofRat (p / q)
    | x => infinite (x.sign * q.num.sign)) := by
  cases x with
  | _ => exact if_neg hq

theorem exists_div_of_ne (hq : q ≠ 0) (x : PyFloat) : ∃ y, x.div (.fin q) = .ok y ∧ y.Bounded := by
  refine ⟨_, div_of_ne hq x, ?_⟩
  cases x with
  | nan => exact nofun
  | negInf => exact bounded_infinite _
  | posInf => exact bounded_infinite _
  | fin p => exact bounded_ofRat _

theorem abs_round_lt {b c : ℚ} (hq : |q| ≤ b) (hc : b + 1 ≤ c) :
    |(roundHalfEven (q * 10 ^ 4) : ℚ) / 10 ^ 4| < c := by
  have hten : (10 : ℚ) ^ 4 = 10000 := by norm_num
  rw [hten]
  obtain ⟨hlow, hhigh⟩ := abs_le.1 (nearestEven_roundHalfEven (q * 10000)).le
  obtain ⟨hq₁, hq₂⟩ := abs_le.1 hq
  rw [abs_lt]
  constructor
  · rw [lt_div_iff₀ (by norm_num)]
    linarith
  · rw [div_lt_iff₀ (by norm_num)]
    linarith

theorem finite_of_lt (h : |q| < binary64.overflow) (e : NumericErr) :
    finite e (ofRat q) = .ok (.fin (binary64.nearest q)) := by
  rw [ofRat_of_lt h, finite]

theorem finite_of_le (h : binary64.overflow ≤ |q|) (e : NumericErr) :
    finite e (ofRat q) = .error e := by
  rw [ofRat_of_le h]
  split_ifs <;> rfl

theorem trueDiv_of_lt (hn : n ≠ 0) (h : |(a : ℚ) / n| < binary64.overflow) :
    trueDiv a n = .ok (.fin (binary64.nearest (a / n))) := by
  rw [trueDiv, if_neg hn, finite_of_lt h]

theorem trueDiv_of_le (hn : n ≠ 0) (h : binary64.overflow ≤ |(a : ℚ) / n|) :
    trueDiv a n = .error .quotientTooLarge := by
  rw [trueDiv, if_neg hn, finite_of_le h]

theorem round4_of_bounded (h : x.Bounded) : ∃ y, x.round4 = .ok y := by
  cases x with
  | nan => exact ⟨_, rfl⟩
  | negInf => exact ⟨_, rfl⟩
  | posInf => exact ⟨_, rfl⟩
  | fin q =>
    have hlt := abs_round_lt (h q rfl) (binary64.largest_add_one_le (by decide))
    exact ⟨_, finite_of_lt hlt _⟩

end

end PyFloat

/-- A text without the `_` between digits, if each stands between two; `prev` is the character
before the text. -/
def dropUnderscores (prev : Char) : List Char → Option (List Char)
  | [] => if prev = '_' then none else some []
  | c :: cs =>
    if c = '_' then
      if isPyDigit prev then dropUnderscores '_' cs else none
    else if prev = '_' ∧ ¬ isPyDigit c then none
    else (dropUnderscores c cs).map (c :: ·)

def splitSign : List Char → Bool × List Char
  | '+' :: cs => (false, cs)
  | '-' :: cs => (true, cs)
  | cs => (false, cs)

def withSign [Neg α] (sign : Bool) (x : α) : α := if sign then -x else x

/-- `int(text)` of a text without white space at its ends; no more than so many digits if that is
not zero. -/
def pyInt (maxDigits : ℕ) (text : List Char) : Except NumericErr ℤ :=
  match (dropUnderscores ' ' text).map splitSign with
  | none => .error (.notInt text)
  | some (sign, digits) =>
    if digits = [] ∨ ¬ digits.all isPyDigit then .error (.notInt text)
    else if maxDigits ≠ 0 ∧ maxDigits < digits.length then .error .tooManyDigits
    else .ok (withSign sign (digitsToInt digits))

/-- `str(n)`, with the same limit. -/
def pyIntStr (maxDigits : ℕ) (n : ℤ) : Except NumericErr (List Char) :=
  let digits := Nat.toDigits 10 n.natAbs
  if maxDigits ≠ 0 ∧ maxDigits < digits.length then .error .tooManyDigits
  else .ok (if n < 0 then '-' :: digits else digits)

/-- The exponent of a decimal number, if there is nothing else. -/
def exponentPart : List Char → Option ℤ
  | [] => some 0
  | e :: cs =>
    let (sign, digits) := splitSign cs
    if (e = 'e' ∨ e = 'E') ∧ digits ≠ [] ∧ digits.all isPyDigit then
      some (withSign sign (digitsToInt digits))
    else none

/-- A decimal number with digits before or behind its point. -/
def decimal (text : List Char) : Option ℚ := do
  let whole := text.takeWhile isPyDigit
  let (fraction, rest) := match text.dropWhile isPyDigit with
    | '.' :: cs => (cs.takeWhile isPyDigit, cs.dropWhile isPyDigit)
    | rest => ([], rest)
  guard (whole ++ fraction ≠ [])
  let exponent ← exponentPart rest
  return digitsToInt (whole ++ fraction) * 10 ^ (exponent - fraction.length)

/-- `float(text)` of a text without white space at its ends. -/
def pyFloat (text : List Char) : Except NumericErr PyFloat :=
  match (dropUnderscores ' ' text).map splitSign with
  | none => .error (.notFloat text)
  | some (sign, body) =>
    let word := String.ofList (body.map Char.toLower)
    if word = "inf" ∨ word = "infinity" then .ok (if sign then .negInf else .posInf)
    else if word = "nan" then .ok .nan
    else match decimal body with
      | some q => .ok (.ofRat (withSign sign q))
      | none => .error (.notFloat text)

end MesCore
