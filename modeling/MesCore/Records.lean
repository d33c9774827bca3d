import Mathlib.Data.List.Basic
import Mathlib.Algebra.GroupWithZero.Nat

namespace MesCore
set_option autoImplicit true

/-- How the records of a stream delimit themselves: the length of the record at the front, as
soon as enough of it is there to tell. What follows the record does not matter. -/
structure RecordFormat (α : Type u) where
  size : List α → Option Nat
  pos : ∀ {l n}, size l = some n → 0 < n
  append : ∀ {l n} (m : List α), size l = some n → size (l ++ m) = some n
  take : ∀ {l n}, size l = some n → n ≤ l.length → size (l.take n) = some n

namespace RecordFormat
variable (F : RecordFormat α)

def cutFrom : Nat → List α → List (List α)
  | 0, _ => []
  | fuel + 1, l =>
    match F.size l with
    | none => []
    | some n => if l.length < n then [] else l.take n :: cutFrom fuel (l.drop n)

/-- The records at the front of a list. What cannot be a whole record is left out, with all that
follows it. -/
def cut (l : List α) : List (List α) := F.cutFrom l.length l

/-- One record and nothing else. -/
def Whole (r : List α) : Prop := F.size r = some r.length

/-- Records and nothing else. -/
def Tidy (l : List α) : Prop := (F.cut l).flatten = l

variable {F} {l m r t : List α} {rs : List (List α)} {n : Nat}

theorem cutFrom_nil (fuel : Nat) : F.cutFrom fuel [] = [] := by
  cases fuel with
  | zero => rfl
  | succ fuel =>
    rw [cutFrom]
    split
    · rfl
    · rename_i n hn
      rw [if_pos (by rw [List.length_nil]; exact F.pos hn)]

/-- More fuel than the list is long changes nothing. -/
theorem cutFrom_fuel (fuel fuel' : Nat) (h : l.length ≤ fuel) (h' : l.length ≤ fuel') :
    F.cutFrom fuel l = F.cutFrom fuel' l := by
  induction fuel generalizing l fuel' with
  | zero =>
    rw [List.eq_nil_of_length_eq_zero (Nat.le_zero.1 h), cutFrom_nil, cutFrom_nil]
  | succ fuel ih =>
    cases fuel' with
    | zero =>
      rw [List.eq_nil_of_length_eq_zero (Nat.le_zero.1 h'), cutFrom_nil, cutFrom_nil]
    | succ fuel' =>
      rw [cutFrom, cutFrom]
      split
      · rfl
      · rename_i n hn
        have hpos := F.pos hn
        split
        · rfl
        · rw [ih fuel' (by rw [List.length_drop]; omega) (by rw [List.length_drop]; omega)]

theorem cut_nil : F.cut [] = [] := cutFrom_nil _

theorem cut_of_none (h : F.size l = none) : F.cut l = [] := by
  unfold cut
  cases l.length with
  | zero => rfl
  | succ fuel => rw [cutFrom, h]

theorem cut_of_some (h : F.size l = some n) :
    F.cut l = if l.length < n then [] else l.take n :: F.cut (l.drop n) := by
  have hpos := F.pos h
  unfold cut
  cases hlen : l.length with
  | zero =>
    rw [if_pos hpos]
    rfl
  | succ fuel =>
    rw [cutFrom, h]
    dsimp only
    rw [hlen]
    split
    · rfl
    · rw [cutFrom_fuel fuel (l.drop n).length (by rw [List.length_drop]; omega) (Nat.le_refl _)]

theorem Whole.cut_append (h : F.Whole r) (l : List α) : F.cut (r ++ l) = r :: F.cut l := by
  rw [cut_of_some (F.append l h), if_neg (by rw [List.length_append]; omega), List.take_left,
    List.drop_left]

theorem cut_flatten_append (h : ∀ r ∈ rs, F.Whole r) (l : List α) :
    F.cut (rs.flatten ++ l) = rs ++ F.cut l := by
  induction rs with
  | nil => rfl
  | cons r rs ih =>
    rw [List.flatten_cons, List.append_assoc, (h r (List.mem_cons_self ..)).cut_append,
      ih fun s hs => h s (List.mem_cons_of_mem _ hs), List.cons_append]

theorem cut_flatten (h : ∀ r ∈ rs, F.Whole r) : F.cut rs.flatten = rs := by
  have hcut := cut_flatten_append h []
  rwa [List.append_nil, cut_nil, List.append_nil] at hcut

theorem Whole.cut_prefix (h : F.Whole r) (ht : t <+: r) (hne : t ≠ r) : F.cut t = [] := by
  obtain ⟨more, rfl⟩ := ht
  have hmore : 0 < more.length := by
    apply List.length_pos_of_ne_nil
    rintro rfl
    exact hne (List.append_nil _).symm
  cases hsize : F.size t with
  | none => exact cut_of_none hsize
  | some n =>
    have heq : some n = some (t ++ more).length := (F.append more hsize).symm.trans h
    have hlen := Option.some.inj heq
    rw [List.length_append] at hlen
    rw [cut_of_some hsize, if_pos (by omega)]

theorem cut_induction {P : List α → Prop} (l : List α)
    (nil : ∀ l, F.cut l = [] → P l)
    (cons : ∀ r l, F.Whole r → F.cut (r ++ l) = r :: F.cut l → P l → P (r ++ l)) : P l := by
  induction hlen : l.length using Nat.strongRecOn generalizing l with
  | ind k ih =>
    cases hsize : F.size l with
    | none => exact nil l (cut_of_none hsize)
    | some n =>
      by_cases hn : l.length < n
      · exact nil l (by rw [cut_of_some hsize, if_pos hn])
      · have hpos := F.pos hsize
        have hwhole : F.Whole (l.take n) := by
          unfold Whole
          rw [F.take hsize (by omega), List.length_take, Nat.min_eq_left (by omega)]
        have hrest := ih (l.drop n).length (by rw [List.length_drop]; omega) (l.drop n) rfl
        have hstep := cons (l.take n) (l.drop n) hwhole (hwhole.cut_append _) hrest
        rwa [List.take_append_drop] at hstep

theorem whole_of_mem_cut (h : r ∈ F.cut l) : F.Whole r := by
  revert h
  refine cut_induction (F := F) (P := fun l => r ∈ F.cut l → F.Whole r) l ?_ ?_
  · intro l hl h
    rw [hl] at h
    cases h
  · intro s l hs hl ih h
    rw [hl] at h
    rcases List.mem_cons.1 h with rfl | h
    · exact hs
    · exact ih h

theorem flatten_cut_start (l : List α) : (F.cut l).flatten <+: l := by
  refine cut_induction (F := F) (P := fun l => (F.cut l).flatten <+: l) l ?_ ?_
  · intro l hl
    rw [hl]
    exact List.nil_prefix
  · intro s l hs hl ih
    rw [hl, List.flatten_cons]
    exact (List.prefix_append_right_inj s).2 ih

theorem tidy_flatten (h : ∀ r ∈ rs, F.Whole r) : F.Tidy rs.flatten := by
  rw [Tidy, cut_flatten h]

theorem Tidy.cut_append (h : F.Tidy l) (m : List α) : F.cut (l ++ m) = F.cut l ++ F.cut m := by
  have hcut := cut_flatten_append (fun r (hr : r ∈ F.cut l) => whole_of_mem_cut hr) m
  rwa [h] at hcut

theorem Tidy.append (h : F.Tidy l) (h' : F.Tidy m) : F.Tidy (l ++ m) := by
  rw [Tidy, h.cut_append, List.flatten_append, h, h']

/-- What remains when records are taken from the front of records is records. -/
theorem Tidy.of_append (h : F.Tidy l) (hm : F.Tidy (l ++ m)) : F.Tidy m := by
  rw [Tidy, h.cut_append, List.flatten_append, h] at hm
  exact List.append_cancel_left hm

theorem Whole.tidy (h : F.Whole r) : F.Tidy r := by
  have hrs : ∀ s ∈ [r], F.Whole s := by
    intro s hs
    rwa [List.mem_singleton.1 hs]
  have htidy := tidy_flatten hrs
  rwa [List.flatten_singleton] at htidy

theorem length_cut_le (pieces : List (List α)) :
    (pieces.flatMap F.cut).flatten.length ≤ pieces.flatten.length := by
  induction pieces with
  | nil => exact Nat.le_refl _
  | cons p pieces ih =>
    rw [List.flatMap_cons, List.flatten_append, List.length_append, List.flatten_cons,
      List.length_append]
    exact Nat.add_le_add (flatten_cut_start p).length_le ih

theorem tidy_of_length (pieces : List (List α))
    (h : (pieces.flatMap F.cut).flatten.length = pieces.flatten.length) :
    ∀ p ∈ pieces, F.Tidy p := by
  induction pieces with
  | nil =>
    intro p hp
    cases hp
  | cons p pieces ih =>
    rw [List.flatMap_cons, List.flatten_append, List.length_append, List.flatten_cons,
      List.length_append] at h
    have hp := (flatten_cut_start (F := F) p).length_le
    have hps := length_cut_le (F := F) pieces
    intro q hq
    rcases List.mem_cons.1 hq with rfl | hq
    · exact (flatten_cut_start q).eq_of_length (by omega)
    · exact ih (by omega) q hq

theorem flatten_cut {pieces : List (List α)} (h : ∀ p ∈ pieces, F.Tidy p) :
    (pieces.flatMap F.cut).flatten = pieces.flatten := by
  induction pieces with
  | nil => rfl
  | cons p pieces ih =>
    rw [List.flatMap_cons, List.flatten_append, h p (List.mem_cons_self ..),
      ih fun q hq => h q (List.mem_cons_of_mem _ hq), List.flatten_cons]

end RecordFormat

end MesCore
