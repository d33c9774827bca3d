import Mathlib.Algebra.Order.Archimedean.Basic
import Mathlib.Algebra.Order.Interval.Set.Group
import Mathlib.Data.Rat.Floor
import Mathlib.Order.Interval.Set.UnorderedInterval
import Mathlib.Tactic.FieldSimp
import Mathlib.Tactic.Linarith

namespace MesCore
set_option autoImplicit true

namespace DPS150

/-- The limits of the connected supply. -/
structure Limits where
  maxVoltage : ℚ
  maxCurrent : ℚ

/-- The quantity that a sweep moves. -/
inductive Axis
  | voltage
  | current
  deriving DecidableEq

namespace Axis

def other : Axis → Axis
  | .voltage => .current
  | .current => .voltage

def limit (psu : Limits) : Axis → ℚ
  | .voltage => psu.maxVoltage
  | .current => psu.maxCurrent

def clamped (psu : Limits) (axis : Axis) (v : ℚ) : ℚ := max 0 (min v (axis.limit psu))

end Axis

structure SweepArgs where
  start : ℚ
  stop : ℚ
  step : ℚ
  hold : ℚ
  fixed : ℚ
  hasCallback : Bool

/-- Arguments that have passed the checks of a sweep. -/
structure Accepted (psu : Limits) (axis : Axis) extends SweepArgs where
  step_pos : 0 < step
  start_mem : start ∈ Set.Icc 0 (axis.limit psu)
  stop_mem : stop ∈ Set.Icc 0 (axis.limit psu)
  fixed_mem : fixed ∈ Set.Icc 0 (axis.other.limit psu)

namespace Accepted
section
variable {psu : Limits} {axis : Axis} (s : Accepted psu axis)

/-- `1 if stop >= start else -1`. -/
def direction : ℚ := if s.start ≤ s.stop then 1 else -1

/-- The condition of the loop. -/
def Continues (v : ℚ) : Prop :=
  (0 < s.direction ∧ v ≤ s.stop + s.step / 100) ∨
    (s.direction < 0 ∧ s.stop - s.step / 100 ≤ v)

instance (v : ℚ) : Decidable (s.Continues v) := inferInstanceAs (Decidable (_ ∨ _))

def next (v : ℚ) : ℚ := v + s.step * s.direction

/-- What is left of the way, with the tolerance of the loop. -/
def remaining (v : ℚ) : ℚ := s.direction * (s.stop - v) + s.step / 100

def turnsLeft (v : ℚ) : Nat := (⌊s.remaining v / s.step⌋ + 1).toNat

end
end Accepted

namespace Accepted
section
variable {psu : Limits} {axis : Axis} {s : Accepted psu axis}

theorem direction_cases (s : Accepted psu axis) :
    (s.direction = 1 ∧ s.start ≤ s.stop) ∨ (s.direction = -1 ∧ s.stop < s.start) := by
  rw [direction]
  split
  · exact .inl ⟨rfl, ‹_›⟩
  · exact .inr ⟨rfl, not_le.1 ‹_›⟩

theorem continues_iff (v : ℚ) : s.Continues v ↔ 0 ≤ s.remaining v := by
  rw [Continues, remaining]
  obtain ⟨hdir, -⟩ | ⟨hdir, -⟩ := s.direction_cases
  · rw [hdir]
    constructor
    · intro h
      linarith [(or_iff_left (by norm_num)).1 h]
    · intro h
      exact .inl ⟨one_pos, by linarith⟩
  · rw [hdir]
    constructor
    · intro h
      linarith [(or_iff_right (by norm_num)).1 h]
    · intro h
      exact .inr ⟨by norm_num, by linarith⟩

theorem remaining_next (v : ℚ) : s.remaining (s.next v) = s.remaining v - s.step := by
  rw [remaining, next, remaining]
  obtain ⟨hdir, -⟩ | ⟨hdir, -⟩ := s.direction_cases
  · rw [hdir]
    ring
  · rw [hdir]
    ring

theorem turns_next (v : ℚ) :
    ⌊s.remaining (s.next v) / s.step⌋ + 1 = ⌊s.remaining v / s.step⌋ := by
  rw [remaining_next, sub_div, div_self s.step_pos.ne', Int.floor_sub_one]
  exact sub_add_cancel _ 1

theorem turnsLeft_continues {v : ℚ} (h : s.Continues v) :
    s.turnsLeft v = s.turnsLeft (s.next v) + 1 := by
  have hfloor : 0 ≤ ⌊s.remaining v / s.step⌋ :=
    Int.floor_nonneg.2 (div_nonneg ((continues_iff v).1 h) s.step_pos.le)
  rw [turnsLeft, turnsLeft, turns_next]
  omega

end

/-- The values that `v` runs through in the loop. -/
def points (s : Accepted psu axis) (v : ℚ) : List ℚ :=
  if _h : s.Continues v then v :: s.points (s.next v) else []
  termination_by s.turnsLeft v
  decreasing_by
    rw [turnsLeft_continues _h]
    exact Nat.lt_succ_self _

section
variable {psu : Limits} {axis : Axis} {s : Accepted psu axis} {v x : ℚ}

theorem length_points (s : Accepted psu axis) (v : ℚ) : (s.points v).length = s.turnsLeft v := by
  induction v using points.induct s with
  | case1 v h ih => rw [points, dif_pos h, List.length_cons, ih, turnsLeft_continues h]
  | case2 v h =>
    have hneg : s.remaining v / s.step < 0 :=
      div_neg_of_neg_of_pos (not_le.1 fun hle => h ((continues_iff v).2 hle)) s.step_pos
    have hfloor : ⌊s.remaining v / s.step⌋ < 0 := Int.floor_lt.2 (by exact_mod_cast hneg)
    rw [points, dif_neg h, turnsLeft, List.length_nil]
    omega

theorem Continues.before {k : Nat} (hx : s.Continues (v + (k : ℚ) * (s.step * s.direction))) :
    s.Continues v := by
  rw [continues_iff] at hx ⊢
  have hk : 0 ≤ (k : ℚ) * s.step := mul_nonneg (Nat.cast_nonneg k) s.step_pos.le
  rw [remaining] at hx ⊢
  obtain ⟨hdir, -⟩ | ⟨hdir, -⟩ := s.direction_cases
  · rw [hdir] at hx ⊢
    linarith
  · rw [hdir] at hx ⊢
    linarith

theorem mem_points :
    x ∈ s.points v ↔ ∃ k : Nat, x = v + (k : ℚ) * (s.step * s.direction) ∧ s.Continues x := by
  constructor
  · intro hx
    induction v using points.induct s with
    | case1 v h ih =>
      rw [points, dif_pos h] at hx
      cases hx with
      | head => exact ⟨0, by simp, h⟩
      | tail _ hx =>
        obtain ⟨k, rfl, hk⟩ := ih hx
        refine ⟨k + 1, ?_, hk⟩
        rw [next]
        push_cast
        ring
    | case2 v h =>
      rw [points, dif_neg h] at hx
      cases hx
  · intro h
    obtain ⟨k, rfl, hk⟩ := h
    induction k generalizing v with
    | zero =>
      rw [points, dif_pos hk.before]
      simp
    | succ k ih =>
      have hshift : v + ((k + 1 : Nat) : ℚ) * (s.step * s.direction) =
          s.next v + (k : ℚ) * (s.step * s.direction) := by
        rw [next]
        push_cast
        ring
      rw [points, dif_pos hk.before]
      rw [hshift] at hk ⊢
      exact List.mem_cons_of_mem _ (ih hk)

theorem remaining_start (s : Accepted psu axis) :
    s.remaining s.start / s.step = |s.stop - s.start| / s.step + 1 / 100 := by
  have habs : s.direction * (s.stop - s.start) = |s.stop - s.start| := by
    obtain ⟨hdir, hle⟩ | ⟨hdir, hlt⟩ := s.direction_cases
    · rw [hdir, one_mul, abs_of_nonneg (sub_nonneg.2 hle)]
    · rw [hdir, neg_one_mul, abs_of_neg (sub_neg.2 hlt)]
  rw [remaining, habs, add_div]
  congr 1
  have hstep := s.step_pos.ne'
  field_simp

theorem clamped_mem (s : Accepted psu axis) (v : ℚ) :
    axis.clamped psu v ∈ Set.Icc 0 (axis.limit psu) :=
  ⟨le_max_left _ _, max_le (s.start_mem.1.trans s.start_mem.2) (min_le_right _ _)⟩

/-- The ways in which a step leads past the end point, and is not clamped back to it. -/
structure Overshoots (s : Accepted psu axis) (k : Nat) : Prop where
  beyond : s.direction * (s.start + (k : ℚ) * (s.step * s.direction) - s.stop) ∈
    Set.Ioc 0 (s.step / 100)
  inside : s.stop ≠ if s.start ≤ s.stop then axis.limit psu else 0

theorem points_start (s : Accepted psu axis) :
    (∀ x ∈ s.points s.start, axis.clamped psu x ∈ Set.uIcc s.start s.stop) ↔
      ∀ k, ¬ s.Overshoots k := by
  constructor
  · intro h k hk
    obtain ⟨hbeyond, hinside⟩ := hk
    have hcontinues : s.Continues (s.start + (k : ℚ) * (s.step * s.direction)) := by
      rw [continues_iff, remaining]
      linarith [hbeyond.2]
    have hmem := h _ (mem_points.2 ⟨k, rfl, hcontinues⟩)
    generalize s.start + (k : ℚ) * (s.step * s.direction) = v at hbeyond hmem
    obtain ⟨hdir, hle⟩ | ⟨hdir, hlt⟩ := s.direction_cases
    · rw [if_pos hle] at hinside
      rw [Set.uIcc_of_le hle] at hmem
      have hv : s.stop < v := by linarith [hdir ▸ hbeyond.1]
      have hmin : s.stop < min v (axis.limit psu) := lt_min hv (lt_of_le_of_ne s.stop_mem.2 hinside)
      exact absurd hmem.2 (not_le.2 (lt_max_of_lt_right hmin))
    · rw [if_neg (not_le.2 hlt)] at hinside
      rw [Set.uIcc_of_ge hlt.le] at hmem
      have hv : v < s.stop := by linarith [hdir ▸ hbeyond.1]
      have hmax : max 0 (min v (axis.limit psu)) < s.stop :=
        max_lt (lt_of_le_of_ne s.stop_mem.1 hinside.symm) (min_lt_of_left_lt hv)
      exact absurd hmem.1 (not_le.2 hmax)
  · intro h x hx
    obtain ⟨k, rfl, hk⟩ := mem_points.1 hx
    rw [continues_iff, remaining] at hk
    have hway : 0 ≤ (k : ℚ) * s.step := mul_nonneg (Nat.cast_nonneg k) s.step_pos.le
    have hnot := fun hbeyond hinside => h k ⟨hbeyond, hinside⟩
    obtain ⟨hdir, hle⟩ | ⟨hdir, hlt⟩ := s.direction_cases
    · rw [hdir, if_pos hle] at hnot
      rw [hdir] at hk ⊢
      rw [Set.uIcc_of_le hle]
      have hstart : s.start ≤ s.start + (k : ℚ) * (s.step * 1) := by linarith
      have hstop : min (s.start + (k : ℚ) * (s.step * 1)) (axis.limit psu) ≤ s.stop := by
        by_cases hv : s.start + (k : ℚ) * (s.step * 1) ≤ s.stop
        · exact min_le_of_left_le hv
        · have hlimit := not_not.1 (hnot ⟨by linarith, by linarith⟩)
          exact min_le_of_right_le hlimit.ge
      exact ⟨le_max_of_le_right (le_min hstart s.start_mem.2), max_le s.stop_mem.1 hstop⟩
    · rw [hdir, if_neg (not_le.2 hlt)] at hnot
      rw [hdir] at hk ⊢
      rw [Set.uIcc_of_ge hlt.le]
      have hstart : s.start + (k : ℚ) * (s.step * -1) ≤ s.start := by linarith
      have hstop : s.stop ≤ max 0 (min (s.start + (k : ℚ) * (s.step * -1)) (axis.limit psu)) := by
        by_cases hv : s.stop ≤ s.start + (k : ℚ) * (s.step * -1)
        · exact le_max_of_le_right (le_min hv s.stop_mem.2)
        · have hzero := not_not.1 (hnot ⟨by linarith, by linarith⟩)
          exact le_max_of_le_left hzero.le
      exact ⟨hstop, max_le s.start_mem.1 (min_le_of_left_le hstart)⟩

end

end Accepted

end DPS150
end MesCore
