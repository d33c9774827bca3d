import Mathlib.Algebra.Ring.Int.Parity
import Mathlib.Data.Rat.Floor
import Mathlib.Tactic.Linarith

namespace MesCore
set_option autoImplicit true

def roundHalfEven (q : ℚ) : ℤ :=
  let rest := q - ⌊q⌋
  if rest < 1 / 2 then ⌊q⌋
  else if 1 / 2 < rest then ⌊q⌋ + 1
  else if ⌊q⌋ % 2 = 0 then ⌊q⌋
  else ⌊q⌋ + 1

/-- The integers that are nearest to a number, of two equally near ones the even one. -/
def NearestEven (q : ℚ) (n : ℤ) : Prop := |q - n| < 1 / 2 ∨ |q - n| = 1 / 2 ∧ Even n

theorem NearestEven.le {q : ℚ} {n : ℤ} (h : NearestEven q n) : |q - n| ≤ 1 / 2 := by
  rcases h with h | ⟨h, -⟩
  · exact h.le
  · exact h.le

theorem roundHalfEven_eq (q : ℚ) : roundHalfEven q =
    if q - ⌊q⌋ < 1 / 2 then ⌊q⌋ else if 1 / 2 < q - ⌊q⌋ then ⌊q⌋ + 1
    else if ⌊q⌋ % 2 = 0 then ⌊q⌋ else ⌊q⌋ + 1 := rfl

theorem nearestEven_roundHalfEven (q : ℚ) : NearestEven q (roundHalfEven q) := by
  have hlow := Int.floor_le q
  have hhigh := Int.lt_floor_add_one q
  have hup : q - ((⌊q⌋ + 1 : ℤ) : ℚ) = -(1 - (q - ⌊q⌋)) := by
    rw [Int.cast_add, Int.cast_one]
    ring
  rw [roundHalfEven_eq]
  rcases lt_trichotomy (q - ⌊q⌋) (1 / 2) with hlt | hhalf | hgt
  · rw [if_pos hlt, NearestEven, abs_of_nonneg (by linarith)]
    exact .inl hlt
  · rw [if_neg hhalf.not_lt, if_neg hhalf.not_gt]
    by_cases heven : ⌊q⌋ % 2 = 0
    · rw [if_pos heven, NearestEven, hhalf, abs_of_pos (by norm_num)]
      exact .inr ⟨rfl, Int.even_iff.2 heven⟩
    · have hnext : Even (⌊q⌋ + 1) := Int.even_add_one.2 fun h => heven (Int.even_iff.1 h)
      rw [if_neg heven, NearestEven, hup, hhalf, abs_neg, abs_of_pos (by norm_num)]
      exact .inr ⟨by norm_num, hnext⟩
  · rw [if_neg hgt.not_gt, if_pos hgt, NearestEven, hup, abs_neg, abs_of_pos (by linarith)]
    exact .inl (by linarith)

theorem NearestEven.unique {q : ℚ} {m n : ℤ} (hm : NearestEven q m) (hn : NearestEven q n) :
    m = n := by
  by_contra hne
  have hgap : (1 : ℚ) ≤ |(m : ℚ) - n| := by
    have hsub : m - n ≠ 0 := sub_ne_zero.2 hne
    exact_mod_cast Int.one_le_abs hsub
  have htri : |(m : ℚ) - n| ≤ |q - m| + |q - n| := by
    rw [abs_sub_comm q m]
    exact abs_sub_le (m : ℚ) q n
  have hm' := hm.le
  have hn' := hn.le
  have hone : |(m : ℚ) - n| = 1 := by linarith
  rcases hm with hm | ⟨-, hm⟩
  · linarith
  rcases hn with hn | ⟨-, hn⟩
  · linarith
  have heven : Even (m - n) := hm.sub hn
  have hint : |m - n| = 1 := by exact_mod_cast hone
  rw [← even_abs, hint] at heven
  exact Int.not_even_one heven

theorem roundHalfEven_eq_iff {q : ℚ} {n : ℤ} : roundHalfEven q = n ↔ NearestEven q n := by
  constructor
  · rintro rfl
    exact nearestEven_roundHalfEven q
  · exact (nearestEven_roundHalfEven q).unique

theorem roundHalfEven_neg (q : ℚ) : roundHalfEven (-q) = -roundHalfEven q := by
  have habs : |-q - (-roundHalfEven q : ℤ)| = |q - roundHalfEven q| := by
    rw [Int.cast_neg, neg_sub_neg, abs_sub_comm]
  rw [roundHalfEven_eq_iff, NearestEven, habs, even_neg]
  exact nearestEven_roundHalfEven q

theorem roundHalfEven_add_of_lt {n : ℤ} {s : ℚ} (hs : 0 ≤ s) (h : s < 1 / 2) :
    roundHalfEven (n + s) = n := by
  rw [roundHalfEven_eq_iff, NearestEven, add_sub_cancel_left, abs_of_nonneg hs]
  exact .inl h

theorem roundHalfEven_add_half_even {n : ℤ} (h : Even n) :
    roundHalfEven (n + 1 / 2) = n := by
  rw [roundHalfEven_eq_iff, NearestEven, add_sub_cancel_left, abs_of_pos (by norm_num)]
  exact .inr ⟨rfl, h⟩

theorem roundHalfEven_add_half_odd {n : ℤ} (h : Odd n) :
    roundHalfEven (n + 1 / 2) = n + 1 := by
  have hback : (n : ℚ) + 1 / 2 - (n + 1 : ℤ) = -(1 / 2) := by
    rw [Int.cast_add, Int.cast_one]
    ring
  rw [roundHalfEven_eq_iff, NearestEven, hback, abs_neg, abs_of_pos (by norm_num)]
  exact .inr ⟨rfl, h.add_one⟩

theorem lt_roundHalfEven_add {n : ℤ} {s : ℚ} (h : 1 / 2 < s) : n < roundHalfEven (n + s) := by
  have hle := (abs_le.1 (nearestEven_roundHalfEven (n + s)).le).2
  have hlt : (n : ℚ) < roundHalfEven (n + s) := by linarith
  exact_mod_cast hlt

/-- The number goes to the next integer, not back to the one before it. -/
def RoundsUp (q : ℚ) : Prop := 1 / 2 < q - ⌊q⌋ ∨ q - ⌊q⌋ = 1 / 2 ∧ Odd ⌊q⌋

theorem roundHalfEven_up {q : ℚ} (h : RoundsUp q) : roundHalfEven q = ⌊q⌋ + 1 := by
  rw [roundHalfEven_eq]
  rcases h with h | ⟨h, hodd⟩
  · rw [if_neg h.not_gt, if_pos h]
  · have hne : ⌊q⌋ % 2 ≠ 0 := fun heven =>
      (Int.not_even_iff_odd.2 hodd) (Int.even_iff.2 heven)
    rw [if_neg h.not_lt, if_neg h.not_gt, if_neg hne]

theorem roundHalfEven_down {q : ℚ} (h : ¬ RoundsUp q) : roundHalfEven q = ⌊q⌋ := by
  rw [RoundsUp, not_or, not_lt, not_and, Int.not_odd_iff_even] at h
  obtain ⟨hle, heven⟩ := h
  rw [roundHalfEven_eq]
  rcases hle.lt_or_eq with hlt | hhalf
  · exact if_pos hlt
  · rw [if_neg hhalf.not_lt, if_neg hhalf.not_gt, if_pos (Int.even_iff.1 (heven hhalf))]

/-- A lower bound is kept if an integer lies in between, or by rounding up. -/
theorem le_roundHalfEven_iff {q x : ℚ} (h : x ≤ q) :
    x ≤ roundHalfEven q ↔ (∃ k : ℤ, x ≤ k ∧ k ≤ q) ∨ RoundsUp q := by
  have hnext := Int.lt_floor_add_one q
  by_cases hup : RoundsUp q
  · refine ⟨fun _ => .inr hup, fun _ => ?_⟩
    rw [roundHalfEven_up hup, Int.cast_add, Int.cast_one]
    linarith
  · rw [roundHalfEven_down hup]
    constructor
    · exact fun hx => .inl ⟨⌊q⌋, hx, Int.floor_le q⟩
    · rintro (⟨k, hx, hk⟩ | h)
      · have hle : (k : ℚ) ≤ ⌊q⌋ := Int.cast_le.2 (Int.le_floor.2 hk)
        exact hx.trans hle
      · exact (hup h).elim

theorem roundHalfEven_le_iff {q x : ℚ} (h : q ≤ x) :
    roundHalfEven q ≤ x ↔ (∃ k : ℤ, q ≤ k ∧ k ≤ x) ∨ ¬ RoundsUp q := by
  have hfloor := Int.floor_le q
  by_cases hup : RoundsUp q
  · have hrest : 0 < q - ⌊q⌋ := by
      rcases hup with hup | ⟨hup, -⟩
      · linarith
      · linarith
    rw [roundHalfEven_up hup]
    constructor
    · intro hx
      refine .inl ⟨⌊q⌋ + 1, ?_, hx⟩
      rw [Int.cast_add, Int.cast_one]
      exact (Int.lt_floor_add_one q).le
    · rintro (⟨k, hk, hx⟩ | h)
      · have hlt : ⌊q⌋ < k := by
          have hcast : (⌊q⌋ : ℚ) < k := by linarith
          exact_mod_cast hcast
        have hle : ((⌊q⌋ + 1 : ℤ) : ℚ) ≤ k := Int.cast_le.2 hlt
        exact hle.trans hx
      · exact (h hup).elim
  · refine ⟨fun _ => .inr hup, fun _ => ?_⟩
    rw [roundHalfEven_down hup]
    exact hfloor.trans h

end MesCore
