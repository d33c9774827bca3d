import Mathlib.Data.List.Basic
import Mathlib.Tactic.Common

namespace MesCore
set_option autoImplicit true

/-- The pieces of a text between separators that are not empty. -/
def wordsOn (p : α → Bool) (l : List α) : List (List α) :=
  (l.splitOnP p).filter fun w => !w.isEmpty

section
variable {p q : α → Bool} {l m : List α} {c : α}

theorem wordsOn_nil (p : α → Bool) : wordsOn p [] = [] := by
  rw [wordsOn, List.splitOnP_nil]
  rfl

theorem wordsOn_append_cons (hc : p c = true) (l m : List α) :
    wordsOn p (l ++ c :: m) = wordsOn p l ++ wordsOn p m := by
  rw [wordsOn, List.splitOnP_append_cons l m hc, List.filter_append]
  rfl

theorem wordsOn_cons (hc : p c = true) (l : List α) : wordsOn p (c :: l) = wordsOn p l := by
  have hsplit := wordsOn_append_cons hc [] l
  rwa [wordsOn_nil, List.nil_append, List.nil_append] at hsplit

theorem wordsOn_concat (hc : p c = true) (l : List α) : wordsOn p (l ++ [c]) = wordsOn p l := by
  rw [wordsOn_append_cons hc, wordsOn_nil, List.append_nil]

theorem wordsOn_pad_left (hm : ∀ c ∈ m, p c = true) (l : List α) :
    wordsOn p (m ++ l) = wordsOn p l := by
  induction m with
  | nil => rfl
  | cons c m ih =>
    rw [List.forall_mem_cons] at hm
    rw [List.cons_append, wordsOn_cons hm.1, ih hm.2]

theorem wordsOn_pad_right (hm : ∀ c ∈ m, p c = true) (l : List α) :
    wordsOn p (l ++ m) = wordsOn p l := by
  induction m generalizing l with
  | nil => rw [List.append_nil]
  | cons c m ih =>
    rw [List.forall_mem_cons] at hm
    rw [List.append_cons, ih hm.2, wordsOn_concat hm.1]

theorem wordsOn_word (hne : l ≠ []) (h : ∀ c ∈ l, p c = false) : wordsOn p l = [l] := by
  have hsplit : l.splitOnP p = [l] := List.splitOnP_eq_singleton fun c hc => by simp [h c hc]
  rw [wordsOn, hsplit, List.filter_cons_of_pos (by simpa using hne), List.filter_nil]

theorem wordsOn_intercalate (hc : p c = true) {ws : List (List α)}
    (hws : ∀ w ∈ ws, w ≠ [] ∧ ∀ d ∈ w, p d = false) : wordsOn p ([c].intercalate ws) = ws := by
  induction ws with
  | nil => exact wordsOn_nil p
  | cons w ws ih =>
    rw [List.forall_mem_cons] at hws
    cases ws with
    | nil =>
      rw [List.intercalate_singleton]
      exact wordsOn_word hws.1.1 hws.1.2
    | cons v vs =>
      rw [List.intercalate_cons_cons, List.append_assoc, List.singleton_append,
        wordsOn_append_cons hc, wordsOn_word hws.1.1 hws.1.2, ih hws.2]
      rfl

theorem wordsOn_congr (h : ∀ c ∈ l, p c = q c) : wordsOn p l = wordsOn q l := by
  have hsplit : l.splitOnP p = l.splitOnP q := by
    induction l with
    | nil => rfl
    | cons c l ih =>
      rw [List.forall_mem_cons] at h
      rw [List.splitOnP_cons_eq_if_modifyHead, List.splitOnP_cons_eq_if_modifyHead, h.1, ih h.2]
  rw [wordsOn, wordsOn, hsplit]

theorem exists_mem_splitOnP (hc : p c = false) (h : c ∈ l) : ∃ w ∈ l.splitOnP p, c ∈ w := by
  induction l with
  | nil => cases h
  | cons d l ih =>
    rw [List.splitOnP_cons_eq_if_modifyHead]
    by_cases hd : p d = true
    · rw [if_pos hd]
      rcases List.mem_cons.1 h with rfl | h
      · rw [hc] at hd
        cases hd
      · obtain ⟨w, hw, hcw⟩ := ih h
        exact ⟨w, List.mem_cons_of_mem _ hw, hcw⟩
    · rw [if_neg hd]
      cases hs : l.splitOnP p with
      | nil => exact absurd hs (List.splitOnP_ne_nil p l)
      | cons v vs =>
        rw [List.modifyHead_cons]
        rcases List.mem_cons.1 h with rfl | h
        · exact ⟨c :: v, List.mem_cons_self, List.mem_cons_self⟩
        · obtain ⟨w, hw, hcw⟩ := ih h
          rw [hs] at hw
          rcases List.mem_cons.1 hw with rfl | hw
          · exact ⟨d :: w, List.mem_cons_self, List.mem_cons_of_mem d hcw⟩
          · exact ⟨w, List.mem_cons_of_mem _ hw, hcw⟩

theorem exists_mem_wordsOn (hc : p c = false) (h : c ∈ l) : ∃ w ∈ wordsOn p l, c ∈ w := by
  obtain ⟨w, hw, hcw⟩ := exists_mem_splitOnP hc h
  have hne : (!w.isEmpty) = true := by
    rw [Bool.not_eq_true', List.isEmpty_eq_false_iff]
    exact List.ne_nil_of_mem hcw
  exact ⟨w, List.mem_filter.2 ⟨hw, hne⟩, hcw⟩

end

end MesCore
