import MesCore.Rounding
import Mathlib.Algebra.Order.Archimedean.Basic
import Mathlib.Order.Interval.Set.UnorderedInterval

namespace MesCore
set_option autoImplicit true

structure LiveVoltageSweeper where
  nominalV : ℚ
  currentLimitA : ℚ
  isActive : Bool

namespace LiveVoltageSweeper

inductive SweepErr
  | instrumentError (msg : String)
  deriving DecidableEq

inductive SweepEvent
  | setVoltage (v : ℚ)
  | sleep (seconds : ℚ)
  | yielded (v : ℚ)
  deriving DecidableEq

/-- `round(v, 3)`. -/
def round3 (v : ℚ) : ℚ := roundHalfEven (v * 1000) / 1000

def direction (vStart vEnd : ℚ) : ℤ := if vEnd ≥ vStart then 1 else -1

/-- So many turns of the loop: the voltages, and whether it has ended by itself. -/
def sweepTurns (direction : ℤ) (vEnd stepV : ℚ) : Nat → ℚ → List ℚ × Bool
  | 0, _ => ([], false)
  | turns + 1, currentV =>
    if (direction > 0 ∧ currentV ≤ vEnd) ∨ (direction < 0 ∧ currentV ≥ vEnd) then
      let rest := sweepTurns direction vEnd stepV turns (round3 (currentV + stepV))
      (currentV :: rest.1, rest.2)
    else ([], true)

/-- The voltages of a sweep that is resumed so many times. -/
def voltages (vStart vEnd stepV : ℚ) (turns : Nat) : List ℚ × Bool :=
  let direction := direction vStart vEnd
  sweepTurns direction vEnd (|stepV| * direction) turns (round3 vStart)

/-- Every voltage is programmed, left to settle and yielded. -/
def turnEvents (settlingTimeS v : ℚ) : List SweepEvent :=
  [.setVoltage v, .sleep settlingTimeS, .yielded v]

/-- `sweep`, up to so many turns. -/
def sweep (sweeper : LiveVoltageSweeper) (vStart vEnd stepV settlingTimeS : ℚ) (turns : Nat) :
    Except SweepErr (List SweepEvent × Bool) :=
  if sweeper.isActive then
    let (vs, ended) := voltages vStart vEnd stepV turns
    .ok (vs.flatMap (turnEvents settlingTimeS), ended)
  else .error (.instrumentError "FATAL: Cannot sweep. PSU output is not actively energized.")

/-- Further on the way. -/
def Further (vStart vEnd v w : ℚ) : Prop := if vStart ≤ vEnd then v < w else w < v

/-- Finitely many voltages, each nearer to the end than the one before, and all of them between the
start and the end. -/
structure Sound (vStart vEnd stepV : ℚ) : Prop where
  ends : ∃ turns, (voltages vStart vEnd stepV turns).2 = true
  strict : ∀ turns, (voltages vStart vEnd stepV turns).1.Pairwise (Further vStart vEnd)
  between : ∀ turns, ∀ v ∈ (voltages vStart vEnd stepV turns).1, v ∈ Set.uIcc vStart vEnd

end LiveVoltageSweeper

/-- A climb by whole steps up to a limit, each of them rounded. -/
def climb (s limit : ℚ) : Nat → ℤ → List ℤ × Bool
  | 0, _ => ([], false)
  | turns + 1, p =>
    if p ≤ limit then (p :: (climb s limit turns (roundHalfEven (p + s))).1,
      (climb s limit turns (roundHalfEven (p + s))).2)
    else ([], true)

section
variable {s limit : ℚ} {p q : ℤ} {turns : Nat}

theorem climb_of_le (h : p ≤ limit) : climb s limit (turns + 1) p =
    (p :: (climb s limit turns (roundHalfEven (p + s))).1,
      (climb s limit turns (roundHalfEven (p + s))).2) :=
  if_pos h

theorem climb_of_lt (h : limit < p) : climb s limit (turns + 1) p = ([], true) :=
  if_neg (not_le.2 h)

theorem le_of_mem_climb (h : q ∈ (climb s limit turns p).1) : (q : ℚ) ≤ limit := by
  induction turns generalizing p with
  | zero => cases h
  | succ turns ih =>
    by_cases hp : (p : ℚ) ≤ limit
    · rw [climb_of_le hp] at h
      rcases List.mem_cons.1 h with rfl | h
      · exact hp
      · exact ih h
    · rw [climb_of_lt (not_le.1 hp)] at h
      cases h

theorem climb_ge (hs : 1 / 2 < s) (h : q ∈ (climb s limit turns p).1) : p ≤ q := by
  induction turns generalizing p with
  | zero => cases h
  | succ turns ih =>
    by_cases hp : (p : ℚ) ≤ limit
    · rw [climb_of_le hp] at h
      rcases List.mem_cons.1 h with rfl | h
      · exact le_rfl
      · exact (lt_roundHalfEven_add hs).le.trans (ih h)
    · rw [climb_of_lt (not_le.1 hp)] at h
      cases h

theorem climb_pairwise (hs : 1 / 2 < s) : (climb s limit turns p).1.Pairwise (· < ·) := by
  induction turns generalizing p with
  | zero => exact .nil
  | succ turns ih =>
    by_cases hp : (p : ℚ) ≤ limit
    · rw [climb_of_le hp]
      exact .cons (fun q hq => (lt_roundHalfEven_add hs).trans_le (climb_ge hs hq)) ih
    · rw [climb_of_lt (not_le.1 hp)]
      exact .nil

theorem climb_ends (hs : 1 / 2 < s) (p : ℤ) : ∃ turns, (climb s limit turns p).2 = true := by
  obtain ⟨n, hn⟩ : ∃ n : ℕ, limit < p + n :=
    (exists_nat_gt (limit - p)).imp fun n hn => by linarith
  induction n generalizing p with
  | zero =>
    have hlt : limit < p := by simpa using hn
    exact ⟨1, by rw [climb_of_lt hlt]⟩
  | succ n ih =>
    by_cases hp : (p : ℚ) ≤ limit
    · have hnext : (p : ℚ) + 1 ≤ roundHalfEven (p + s) := by
        exact_mod_cast lt_roundHalfEven_add hs
      rw [Nat.cast_add, Nat.cast_one] at hn
      obtain ⟨turns, hends⟩ := ih (roundHalfEven (p + s)) (by linarith)
      exact ⟨turns + 1, by rw [climb_of_le hp, hends]⟩
    · exact ⟨1, by rw [climb_of_lt (not_le.1 hp)]⟩

theorem climb_stuck (hp : p ≤ limit) (hstay : roundHalfEven (p + s) = p) :
    (climb s limit turns p).2 = false := by
  induction turns with
  | zero => rfl
  | succ turns ih => rw [climb_of_le hp, hstay, ih]

/-- What a climb from a start below its limit has to satisfy. -/
structure SoundClimb (s start limit : ℚ) (p : ℤ) : Prop where
  ends : ∃ turns, (climb s limit turns p).2 = true
  strict : ∀ turns, (climb s limit turns p).1.Pairwise (· < ·)
  above : ∀ turns, ∀ q ∈ (climb s limit turns p).1, start ≤ q

/-- A climb stands still at the first even place, if its steps are no more than a half. -/
theorem half_of_sound {start : ℚ} (hs : 0 ≤ s) (hp : p ≤ limit) (h : SoundClimb s start limit p)
    (hle : s ≤ 1 / 2) : s = 1 / 2 ∧ Odd p ∧ limit < p + 1 := by
  have hmoves {q : ℤ} (hq : q ≤ limit) (hstay : roundHalfEven (q + s) = q) :
      ¬ ∃ turns, (climb s limit turns q).2 = true := by
    rintro ⟨turns, hends⟩
    rw [climb_stuck hq hstay] at hends
    cases hends
  obtain rfl : s = 1 / 2 := by
    by_contra hne
    exact hmoves hp (roundHalfEven_add_of_lt hs (lt_of_le_of_ne hle hne)) h.ends
  have hodd : Odd p := by
    by_contra heven
    exact hmoves hp (roundHalfEven_add_half_even (Int.not_odd_iff_even.1 heven)) h.ends
  have hnext : ¬ ((p + 1 : ℤ) : ℚ) ≤ limit := by
    intro hle
    obtain ⟨turns, hends⟩ := h.ends
    cases turns with
    | zero => cases hends
    | succ turns =>
      rw [climb_of_le hp, roundHalfEven_add_half_odd hodd] at hends
      exact hmoves hle (roundHalfEven_add_half_even hodd.add_one) ⟨turns, hends⟩
  rw [Int.cast_add, Int.cast_one, not_le] at hnext
  exact ⟨rfl, hodd, hnext⟩

theorem climb_beyond (h : limit < p) : (climb s limit turns p).1 = [] := by
  cases turns with
  | zero => rfl
  | succ turns => rw [climb_of_lt h]

theorem climb_half_odd (turns : Nat) (hodd : Odd p) (h : limit < p + 1) :
    (climb (1 / 2) limit turns p).1 <+: [p] ∧ (climb (1 / 2) limit 2 p).2 = true := by
  have hbeyond : limit < ((p + 1 : ℤ) : ℚ) := by exact_mod_cast h
  by_cases hp : (p : ℚ) ≤ limit
  · have hlast : (climb (1 / 2) limit 2 p).2 = true := by
      rw [climb_of_le hp, roundHalfEven_add_half_odd hodd, climb_of_lt hbeyond]
    refine ⟨?_, hlast⟩
    cases turns with
    | zero => exact List.nil_prefix
    | succ turns =>
      have hone : (climb (1 / 2) limit (turns + 1) p).1 = [p] := by
        rw [climb_of_le hp, roundHalfEven_add_half_odd hodd, climb_beyond hbeyond]
      exact hone ▸ List.prefix_rfl
  · rw [climb_beyond (not_le.1 hp), climb_of_lt (not_le.1 hp)]
    exact ⟨List.nil_prefix, rfl⟩

theorem soundClimb_iff {start : ℚ} (hs : 0 ≤ s) :
    SoundClimb s start limit p ↔
      limit < p ∨ start ≤ p ∧ (1 / 2 < s ∨ s = 1 / 2 ∧ Odd p ∧ limit < p + 1) := by
  constructor
  · intro h
    by_cases hp : (p : ℚ) ≤ limit
    · have hstart : start ≤ p := by
        apply h.above 1 p
        rw [climb_of_le hp]
        exact List.mem_cons_self
      right
      by_cases hle : s ≤ 1 / 2
      · exact ⟨hstart, .inr (half_of_sound hs hp h hle)⟩
      · exact ⟨hstart, .inl (not_le.1 hle)⟩
    · exact .inl (not_le.1 hp)
  · rintro (hbeyond | ⟨hstart, hstep | ⟨rfl, hodd, hlast⟩⟩)
    · have hnone (turns : Nat) : (climb s limit turns p).1 = [] := climb_beyond hbeyond
      constructor
      · exact ⟨1, by rw [climb_of_lt hbeyond]⟩
      · intro turns
        rw [hnone]
        exact .nil
      · intro turns q hq
        rw [hnone] at hq
        cases hq
    · constructor
      · exact climb_ends hstep p
      · exact fun _ => climb_pairwise hstep
      · intro turns q hq
        have hge : (p : ℚ) ≤ q := by exact_mod_cast climb_ge hstep hq
        exact hstart.trans hge
    · have hone (turns : Nat) : (climb (1 / 2) limit turns p).1 <+: [p] :=
        (climb_half_odd turns hodd hlast).1
      constructor
      · exact ⟨2, (climb_half_odd 0 hodd hlast).2⟩
      · exact fun turns => (List.pairwise_singleton _ p).sublist (hone turns).sublist
      · intro turns q hq
        rw [List.mem_singleton.1 ((hone turns).subset hq)]
        exact hstart

end

namespace LiveVoltageSweeper

/-- The voltage of a number of thousandths, counted in the direction of the sweep. -/
def volts (d : ℤ) (q : ℤ) : ℚ := (d * q : ℚ) / 1000

section
variable {d : ℤ} {vStart vEnd stepV a : ℚ} {p : ℤ} {turns : Nat}

theorem direction_cases (vStart vEnd : ℚ) :
    (vStart ≤ vEnd ∧ direction vStart vEnd = 1) ∨ (vEnd < vStart ∧ direction vStart vEnd = -1) := by
  rw [direction]
  by_cases h : vStart ≤ vEnd
  · exact .inl ⟨h, if_pos h⟩
  · exact .inr ⟨not_le.1 h, if_neg h⟩

theorem goesOn_iff (hd : d = 1 ∨ d = -1) :
    ((d > 0 ∧ volts d p ≤ vEnd) ∨ (d < 0 ∧ volts d p ≥ vEnd)) ↔ (p : ℚ) ≤ d * vEnd * 1000 := by
  rw [volts]
  rcases hd with rfl | rfl
  · rw [Int.cast_one, one_mul, one_mul, div_le_iff₀ (by norm_num)]
    simp
  · rw [Int.cast_neg, Int.cast_one, ge_iff_le, le_div_iff₀ (by norm_num), neg_one_mul, neg_one_mul,
      neg_mul, le_neg]
    simp

theorem round3_step (hd : d = 1 ∨ d = -1) :
    round3 (volts d p + a * d) = volts d (roundHalfEven (p + a * 1000)) := by
  rw [volts, volts]
  have hscale : ((d * p : ℚ) / 1000 + a * d) * 1000 = d * (p + a * 1000) := by ring
  rw [round3, hscale]
  rcases hd with rfl | rfl
  · rw [Int.cast_one, one_mul, one_mul]
  · rw [Int.cast_neg, Int.cast_one, neg_one_mul, neg_one_mul, roundHalfEven_neg, Int.cast_neg]

/-- A sweep is a climb in thousandths, away from the start or back from it. -/
theorem sweepTurns_eq (hd : d = 1 ∨ d = -1) :
    sweepTurns d vEnd (a * d) turns (volts d p) =
      ((climb (a * 1000) (d * vEnd * 1000) turns p).1.map (volts d),
        (climb (a * 1000) (d * vEnd * 1000) turns p).2) := by
  induction turns generalizing p with
  | zero => rfl
  | succ turns ih =>
    rw [sweepTurns, round3_step hd, ih]
    by_cases hp : (p : ℚ) ≤ d * vEnd * 1000
    · rw [if_pos ((goesOn_iff hd).2 hp), climb_of_le hp]
      rfl
    · rw [if_neg fun h => hp ((goesOn_iff hd).1 h), climb_of_lt (not_le.1 hp)]
      rfl

theorem voltages_eq (vStart vEnd stepV : ℚ) (turns : Nat) :
    let d := direction vStart vEnd
    let swept := climb (|stepV| * 1000) (d * vEnd * 1000) turns (d * roundHalfEven (vStart * 1000))
    voltages vStart vEnd stepV turns = (swept.1.map (volts d), swept.2) := by
  intro d swept
  have hd : d = 1 ∨ d = -1 := (direction_cases vStart vEnd).symm.imp And.right And.right |>.symm
  have hstart : round3 vStart = volts d (d * roundHalfEven (vStart * 1000)) := by
    rw [round3, volts, Int.cast_mul, ← mul_assoc]
    rcases hd with hd | hd <;> rw [hd] <;> norm_num
  rw [voltages, hstart]
  exact sweepTurns_eq hd

theorem further_iff {p q : ℤ} :
    Further vStart vEnd (volts (direction vStart vEnd) p) (volts (direction vStart vEnd) q) ↔
      p < q := by
  rw [Further, volts, volts, div_lt_div_iff_of_pos_right (by norm_num),
    div_lt_div_iff_of_pos_right (by norm_num)]
  rcases direction_cases vStart vEnd with ⟨h, hd⟩ | ⟨h, hd⟩
  · rw [if_pos h, hd, Int.cast_one, one_mul, one_mul, Int.cast_lt]
  · rw [if_neg (not_le.2 h), hd, Int.cast_neg, Int.cast_one, neg_one_mul, neg_one_mul,
      neg_lt_neg_iff, Int.cast_lt]

theorem volts_mem_iff {q : ℤ} (h : (q : ℚ) ≤ direction vStart vEnd * vEnd * 1000) :
    volts (direction vStart vEnd) q ∈ Set.uIcc vStart vEnd ↔
      direction vStart vEnd * vStart * 1000 ≤ (q : ℚ) := by
  rw [volts]
  rcases direction_cases vStart vEnd with ⟨hle, hd⟩ | ⟨hlt, hd⟩
  · rw [hd, Int.cast_one, one_mul] at h
    rw [hd, Int.cast_one, one_mul, one_mul, Set.uIcc_of_le hle, Set.mem_Icc,
      le_div_iff₀ (by norm_num), div_le_iff₀ (by norm_num)]
    exact and_iff_left h
  · rw [hd, Int.cast_neg, Int.cast_one, neg_one_mul, neg_mul] at h
    rw [hd, Int.cast_neg, Int.cast_one, neg_one_mul, neg_one_mul, Set.uIcc_of_ge hlt.le,
      Set.mem_Icc, le_div_iff₀ (by norm_num), div_le_iff₀ (by norm_num), neg_mul, neg_le]
    exact and_iff_right (le_neg.2 h)

theorem sound_iff_climb (vStart vEnd stepV : ℚ) :
    Sound vStart vEnd stepV ↔
      SoundClimb (|stepV| * 1000) (direction vStart vEnd * vStart * 1000)
        (direction vStart vEnd * vEnd * 1000)
        (direction vStart vEnd * roundHalfEven (vStart * 1000)) := by
  constructor
  · intro h
    constructor
    · obtain ⟨turns, hends⟩ := h.ends
      rw [voltages_eq] at hends
      exact ⟨turns, hends⟩
    · intro turns
      have hstrict := h.strict turns
      rw [voltages_eq, List.pairwise_map] at hstrict
      exact hstrict.imp further_iff.1
    · intro turns q hq
      have hbetween := h.between turns
      rw [voltages_eq] at hbetween
      exact (volts_mem_iff (le_of_mem_climb hq)).1 (hbetween _ (List.mem_map_of_mem hq))
  · intro h
    constructor
    · obtain ⟨turns, hends⟩ := h.ends
      refine ⟨turns, ?_⟩
      rw [voltages_eq]
      exact hends
    · intro turns
      rw [voltages_eq, List.pairwise_map]
      exact (h.strict turns).imp further_iff.2
    · intro turns v hv
      rw [voltages_eq] at hv
      obtain ⟨q, hq, rfl⟩ := List.mem_map.1 hv
      exact (volts_mem_iff (le_of_mem_climb hq)).2 (h.above turns q hq)

theorem round3_mul (vStart : ℚ) : round3 vStart * 1000 = roundHalfEven (vStart * 1000) :=
  div_mul_cancel₀ _ (by norm_num)

theorem odd_direction_mul {c : ℤ} : Odd (direction vStart vEnd * c) ↔ Odd c := by
  rcases direction_cases vStart vEnd with ⟨-, hd⟩ | ⟨-, hd⟩
  · rw [hd, one_mul]
  · rw [hd, neg_one_mul, odd_neg]

/-- A sweep is sound exactly if it does not even begin, or if the start is not rounded out of the
range and the step is more than half the resolution. Half the resolution does only from an odd start
that is the last voltage as well. -/
theorem sound_iff (vStart vEnd stepV : ℚ) :
    Sound vStart vEnd stepV ↔
      0 < direction vStart vEnd * (round3 vStart - vEnd) ∨
      0 ≤ direction vStart vEnd * (round3 vStart - vStart) ∧
        (1 / 2000 < |stepV| ∨
          |stepV| = 1 / 2000 ∧ Odd (roundHalfEven (vStart * 1000)) ∧
            0 < direction vStart vEnd * (round3 vStart - vEnd) + 1 / 1000) := by
  have hs : 0 ≤ |stepV| * 1000 := by positivity
  have hround := round3_mul vStart
  have hbeyond : direction vStart vEnd * vEnd * 1000 <
      ((direction vStart vEnd * roundHalfEven (vStart * 1000) : ℤ) : ℚ) ↔
      0 < direction vStart vEnd * (round3 vStart - vEnd) := by
    rw [Int.cast_mul, ← hround]
    constructor <;> intro h <;> linarith
  have hstart : direction vStart vEnd * vStart * 1000 ≤
      ((direction vStart vEnd * roundHalfEven (vStart * 1000) : ℤ) : ℚ) ↔
      0 ≤ direction vStart vEnd * (round3 vStart - vStart) := by
    rw [Int.cast_mul, ← hround]
    constructor <;> intro h <;> linarith
  have hlast : direction vStart vEnd * vEnd * 1000 <
      ((direction vStart vEnd * roundHalfEven (vStart * 1000) : ℤ) : ℚ) + 1 ↔
      0 < direction vStart vEnd * (round3 vStart - vEnd) + 1 / 1000 := by
    rw [Int.cast_mul, ← hround]
    constructor <;> intro h <;> linarith
  have hstep : 1 / 2 < |stepV| * 1000 ↔ 1 / 2000 < |stepV| := by
    constructor <;> intro h <;> linarith
  have hhalf : |stepV| * 1000 = 1 / 2 ↔ |stepV| = 1 / 2000 := by
    constructor <;> intro h <;> linarith
  rw [sound_iff_climb, soundClimb_iff hs, hbeyond, hstart, hlast, hstep, hhalf, odd_direction_mul]

/-- Steps of 0.4 mV from 12 V never come to 12.1 V, and a sweep from 1.0004 V starts below it. -/
theorem sweep_stuck_and_below : ¬ Sound 12 12.1 0.0004 ∧ ¬ Sound 1.0004 2 0.1 := by
  have hround {q : ℚ} {n : ℤ} (h : |q - n| < 1 / 2) : roundHalfEven q = n :=
    roundHalfEven_eq_iff.2 (.inl h)
  constructor
  · have hdir : direction 12 12.1 = 1 := if_pos (by norm_num)
    have hstart : roundHalfEven (12 * 1000) = 12000 := hround (by norm_num)
    rw [sound_iff_climb, soundClimb_iff (by positivity), hdir, hstart,
      abs_of_pos (by norm_num : (0 : ℚ) < 0.0004)]
    norm_num
  · have hdir : direction 1.0004 2 = 1 := if_pos (by norm_num)
    have hstart : roundHalfEven (1.0004 * 1000) = 1000 := hround (by norm_num [abs_of_pos])
    rw [sound_iff_climb, soundClimb_iff (by positivity), hdir, hstart,
      abs_of_pos (by norm_num : (0 : ℚ) < 0.1)]
    norm_num

end

end LiveVoltageSweeper

end MesCore
