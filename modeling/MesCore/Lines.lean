import Mathlib.Data.List.DropRight
import Mathlib.Data.List.Infix
import Mathlib.Tactic.Common

namespace MesCore
set_option autoImplicit true

def finished [BEq α] (sep : α) (t : List α) : List (List α) := (t.splitOn sep).dropLast

def unfinished [BEq α] (sep : α) (t : List α) : List α := (t.splitOn sep).getLast?.getD []

section
variable [BEq α] (sep : α) (t : List α)

theorem splitOn_eq : t.splitOn sep = finished sep t ++ [unfinished sep t] := by
  have hne := List.splitOn_ne_nil sep t
  rw [finished, unfinished, List.getLast?_eq_some_getLast hne, Option.getD_some,
    List.dropLast_append_getLast hne]

theorem finished_of_splitOn {ls : List (List α)} {r : List α} (h : t.splitOn sep = ls ++ [r]) :
    finished sep t = ls := by
  rw [finished, h, List.dropLast_concat]

theorem unfinished_of_splitOn {ls : List (List α)} {r : List α} (h : t.splitOn sep = ls ++ [r]) :
    unfinished sep t = r := by
  rw [unfinished, h, List.getLast?_concat, Option.getD_some]

end

section
variable [BEq α] [LawfulBEq α] {sep : α} {s t l : List α}

theorem sep_notMem_of_splitOn (h : l ∈ t.splitOn sep) : sep ∉ l := by
  induction t generalizing l with
  | nil =>
    rw [List.splitOn_nil, List.mem_singleton] at h
    rw [h]
    exact List.not_mem_nil
  | cons c t ih =>
    rw [List.splitOn_cons_eq_if_modifyHead] at h
    split at h
    · rcases List.mem_cons.1 h with rfl | h
      · exact List.not_mem_nil
      · exact ih h
    · rename_i hc
      cases hs : t.splitOn sep with
      | nil => exact (List.splitOn_ne_nil _ _ hs).elim
      | cons k ks =>
        rw [hs, List.modifyHead_cons] at h
        rcases List.mem_cons.1 h with rfl | h
        · have hk : sep ∉ k := ih (hs ▸ List.mem_cons_self ..)
          rw [List.mem_cons, not_or]
          exact ⟨fun heq => hc (heq ▸ BEq.rfl), hk⟩
        · exact ih (hs ▸ List.mem_cons_of_mem _ h)

theorem sep_notMem_unfinished : sep ∉ unfinished sep t := by
  refine sep_notMem_of_splitOn (t := t) ?_
  rw [splitOn_eq]
  exact List.mem_append_right _ (List.mem_singleton_self _)

theorem splitOn_lines {ls : List (List α)} (h : ∀ l ∈ ls, sep ∉ l) (t : List α) :
    (ls.flatMap (· ++ [sep]) ++ t).splitOn sep = ls ++ t.splitOn sep := by
  induction ls with
  | nil => rfl
  | cons l ls ih =>
    rw [List.forall_mem_cons] at h
    rw [List.flatMap_cons, List.append_assoc, List.append_assoc, List.singleton_append,
      List.splitOn_append_cons_self_of_not_mem h.1, ih h.2, List.cons_append]

theorem unfinished_eq_self (h : sep ∉ t) : unfinished sep t = t := by
  rw [unfinished, List.splitOn_eq_singleton h]
  rfl

/-- A stream is its finished pieces, each with its separator, and the rest. -/
theorem unsplit (sep : α) (t : List α) :
    (finished sep t).flatMap (· ++ [sep]) ++ unfinished sep t = t := by
  have hjoin (ls : List (List α)) (r : List α) :
      [sep].intercalate (ls ++ [r]) = ls.flatMap (· ++ [sep]) ++ r := by
    induction ls with
    | nil => simp
    | cons l ls ih =>
      rw [List.cons_append, List.intercalate_cons_of_ne_nil (by simp), ih, List.flatMap_cons]
      simp only [List.append_assoc]
  rw [← hjoin, ← splitOn_eq, List.intercalate_splitOn]

omit [BEq α] [LawfulBEq α] in
theorem intercalate_sep {ls : List (List α)} (hls : ls ≠ []) :
    [sep].intercalate ls ++ [sep] = ls.flatMap (· ++ [sep]) := by
  induction ls with
  | nil => exact (hls rfl).elim
  | cons l ls ih =>
    cases ls with
    | nil => simp
    | cons k ks =>
      rw [List.intercalate_cons_cons, List.append_assoc, ih (List.cons_ne_nil k ks)]
      rfl

theorem infix_of_mem_splitOn (h : l ∈ t.splitOn sep) : l <:+: t := by
  rw [splitOn_eq] at h
  rw [← unsplit sep t, List.flatMap_def]
  rcases List.mem_append.1 h with h | h
  · have hline := List.infix_of_mem_flatten (List.mem_map_of_mem (f := (· ++ [sep])) h)
    exact (List.prefix_append l [sep]).isInfix.trans (hline.trans (List.prefix_append _ _).isInfix)
  · rw [List.mem_singleton.1 h]
    exact (List.suffix_append _ _).isInfix

theorem splitOn_append : (s ++ t).splitOn sep =
    finished sep s ++ (unfinished sep s ++ t).splitOn sep := by
  conv_lhs => rw [← unsplit sep s, List.append_assoc]
  refine splitOn_lines (fun l hl => sep_notMem_of_splitOn (t := s) ?_) _
  rw [splitOn_eq]
  exact List.mem_append_left _ hl

theorem splitOn_append_eq (sep : α) (s t : List α) : (s ++ t).splitOn sep =
    finished sep s ++ finished sep (unfinished sep s ++ t) ++
      [unfinished sep (unfinished sep s ++ t)] := by
  rw [splitOn_append, splitOn_eq sep (unfinished sep s ++ t), List.append_assoc]

theorem finished_append : finished sep (s ++ t) =
    finished sep s ++ finished sep (unfinished sep s ++ t) :=
  finished_of_splitOn sep _ (splitOn_append_eq sep s t)

theorem unfinished_append : unfinished sep (s ++ t) = unfinished sep (unfinished sep s ++ t) :=
  unfinished_of_splitOn sep _ (splitOn_append_eq sep s t)

theorem finished_prefix (sep : α) (h : s <+: t) : finished sep s <+: finished sep t := by
  obtain ⟨u, rfl⟩ := h
  rw [finished_append]
  exact List.prefix_append ..

theorem splitOn_concat_of_ne {c : α} (hc : c ≠ sep) :
    (t ++ [c]).splitOn sep = finished sep t ++ [unfinished sep t ++ [c]] := by
  rw [splitOn_append, List.splitOn_eq_singleton]
  rw [List.mem_append, List.mem_singleton, not_or]
  exact ⟨sep_notMem_unfinished, hc.symm⟩

theorem splitOn_reverse : t.reverse.splitOn sep = (t.splitOn sep).reverse.map List.reverse := by
  induction t with
  | nil => rfl
  | cons c t ih =>
    rw [List.reverse_cons, List.splitOn_cons_eq_if_modifyHead]
    split
    · rename_i hc
      rw [beq_iff_eq.1 hc, List.splitOn_append_cons_self, ih]
      simp
    · rename_i hc
      rw [splitOn_concat_of_ne fun heq => hc (beq_iff_eq.2 heq), finished, unfinished, ih]
      cases hs : t.splitOn sep with
      | nil => exact (List.splitOn_ne_nil _ _ hs).elim
      | cons l ls => simp

end

def solid (p : α → Bool) (l : List α) : Bool := l.any fun a => !p a

/-- A list of pieces without the padding at its two ends. -/
def trimEnds (p : α → Bool) (ls : List (List α)) : List (List α) :=
  ((ls.modifyHead (List.dropWhile p)).reverse.modifyHead (List.rdropWhile p)).reverse

section
variable {p : α → Bool}

theorem solid_reverse (l : List α) : solid p l.reverse = solid p l := List.any_reverse

end

section
variable [BEq α] [LawfulBEq α] {sep : α} {t : List α} {p : α → Bool}

/-- Padding that is dropped in front of a stream comes off its first solid piece. -/
theorem splitOn_dropWhile (hsep : p sep = true) :
    ((t.dropWhile p).splitOn sep).filter (solid p) =
      ((t.splitOn sep).filter (solid p)).modifyHead (List.dropWhile p) := by
  induction t with
  | nil => rfl
  | cons c t ih =>
    rw [List.dropWhile_cons]
    split
    · rename_i hc
      rw [ih, List.splitOn_cons_eq_if_modifyHead]
      split
      · rfl
      · cases hs : t.splitOn sep with
        | nil => rfl
        | cons l ls =>
          have hsolid : solid p (c :: l) = solid p l := by
            rw [solid, solid, List.any_cons, hc]
            rfl
          rw [List.modifyHead_cons, List.filter_cons, List.filter_cons, hsolid]
          split
          · rw [List.modifyHead_cons, List.modifyHead_cons, List.dropWhile_cons_of_pos hc]
          · rfl
    · rename_i hc
      have hne : (c == sep) = false := by
        rw [beq_eq_false_iff_ne]
        rintro rfl
        exact hc hsep
      rw [List.splitOn_cons_eq_if_modifyHead, hne, if_neg Bool.false_ne_true]
      cases hs : t.splitOn sep with
      | nil => rfl
      | cons l ls =>
        have hsolid : solid p (c :: l) = true := by
          rw [solid, List.any_cons, Bool.eq_false_iff.2 hc]
          rfl
        rw [List.modifyHead_cons, List.filter_cons_of_pos hsolid, List.modifyHead_cons,
          List.dropWhile_cons_of_neg hc]

theorem splitOn_rdropWhile (hsep : p sep = true) :
    ((t.rdropWhile p).splitOn sep).filter (solid p) =
      (((t.splitOn sep).filter (solid p)).reverse.modifyHead (List.rdropWhile p)).reverse := by
  have hmap (ls : List (List α)) :
      (ls.reverse.map List.reverse).filter (solid p) =
        (ls.filter (solid p)).reverse.map List.reverse := by
    rw [List.filter_map, List.filter_reverse]
    congr 2
    exact List.filter_congr fun l _ => solid_reverse l
  have hhead (ls : List (List α)) : (ls.map List.reverse).modifyHead (List.dropWhile p) =
      (ls.modifyHead (List.rdropWhile p)).map List.reverse := by
    cases ls with
    | nil => rfl
    | cons l ls =>
      rw [List.map_cons, List.modifyHead_cons, List.modifyHead_cons, List.map_cons, List.rdropWhile,
        List.reverse_reverse]
  rw [List.rdropWhile, splitOn_reverse, hmap, splitOn_dropWhile hsep, splitOn_reverse, hmap, hhead,
    ← List.map_reverse, List.map_map, List.reverse_involutive.comp_self, List.map_id]

theorem splitOn_strip (hsep : p sep = true) :
    (((t.dropWhile p).rdropWhile p).splitOn sep).filter (solid p) =
      trimEnds p ((t.splitOn sep).filter (solid p)) := by
  rw [splitOn_rdropWhile hsep, splitOn_dropWhile hsep, trimEnds]

end

section
variable {p : α → Bool} {f : List α → List α} {ls : List (List α)}

theorem modifyHead_eq_self_iff : ls.modifyHead f = ls ↔ ∀ l, ls.head? = some l → f l = l := by
  cases ls with
  | nil => exact ⟨fun _ _ h => (nomatch h), fun _ => rfl⟩
  | cons l ls =>
    rw [List.modifyHead_cons, List.head?_cons]
    constructor
    · rintro h k ⟨⟩
      exact (List.cons.inj h).1
    · intro h
      rw [h l rfl]

theorem length_trimEnds : (trimEnds p ls).length = ls.length := by
  rw [trimEnds, List.length_reverse, List.length_modifyHead, List.length_reverse,
    List.length_modifyHead]

theorem flatten_modifyHead (hf : ∀ l, f l <:+: l) (ls : List (List α)) :
    (ls.modifyHead f).flatten.length ≤ ls.flatten.length ∧
      ((ls.modifyHead f).flatten.length = ls.flatten.length → ls.modifyHead f = ls) := by
  cases ls with
  | nil => exact ⟨Nat.le_refl _, fun _ => rfl⟩
  | cons l ls =>
    have hle := (hf l).length_le
    rw [List.modifyHead_cons, List.flatten_cons, List.flatten_cons, List.length_append,
      List.length_append]
    refine ⟨by omega, fun heq => ?_⟩
    rw [(hf l).eq_of_length (by omega)]

theorem length_flatten_reverse (ls : List (List α)) :
    ls.reverse.flatten.length = ls.flatten.length := by
  rw [List.length_flatten, List.length_flatten, List.map_reverse, List.sum_reverse]

/-- Trimming only takes elements away, and what it takes none from it leaves as it is. -/
theorem flatten_trimEnds (ls : List (List α)) :
    (trimEnds p ls).flatten.length ≤ ls.flatten.length ∧
      ((trimEnds p ls).flatten.length = ls.flatten.length → trimEnds p ls = ls) := by
  have hleft := flatten_modifyHead (fun l => (List.dropWhile_suffix (l := l) p).isInfix) ls
  have hright := flatten_modifyHead (fun l => (List.rdropWhile_prefix p l).isInfix)
    (ls.modifyHead (List.dropWhile p)).reverse
  rw [trimEnds]
  simp only [length_flatten_reverse] at hright ⊢
  constructor
  · omega
  · intro hlength
    have hhead := hleft.2 (by omega)
    rw [hright.2 (by omega), List.reverse_reverse, hhead]

/-- Nothing is trimmed where the first piece begins and the last one ends without padding. -/
theorem trimEnds_eq_self_iff : trimEnds p ls = ls ↔
    (∀ l, ls.head? = some l → l.dropWhile p = l) ∧
      ∀ l, ls.getLast? = some l → l.rdropWhile p = l := by
  rw [← modifyHead_eq_self_iff, List.getLast?_eq_head?_reverse, ← modifyHead_eq_self_iff]
  constructor
  · intro h
    have hleft := flatten_modifyHead (fun l => (List.dropWhile_suffix (l := l) p).isInfix) ls
    have hright := flatten_modifyHead (fun l => (List.rdropWhile_prefix p l).isInfix)
      (ls.modifyHead (List.dropWhile p)).reverse
    have hlength := congrArg (fun ls => ls.flatten.length) h
    simp only [trimEnds, length_flatten_reverse] at hlength hright
    have hhead := hleft.2 (by omega)
    rw [trimEnds, hhead] at h
    exact ⟨hhead, List.reverse_eq_iff.1 h⟩
  · rintro ⟨hhead, hlast⟩
    rw [trimEnds, hhead, hlast, List.reverse_reverse]

/-- Trimming leaves out no piece, so it only gives back what stands alone and is trimmed. -/
theorem trimEnds_eq_iff {as bs : List (List α)} : trimEnds p (as ++ ls ++ bs) = ls ↔
    as = [] ∧ bs = [] ∧ trimEnds p ls = ls := by
  constructor
  · intro h
    have hlength := congrArg List.length h
    rw [length_trimEnds, List.length_append, List.length_append] at hlength
    have has : as = [] := List.length_eq_zero_iff.1 (by omega)
    have hbs : bs = [] := List.length_eq_zero_iff.1 (by omega)
    rw [has, hbs, List.append_nil, List.nil_append] at h
    exact ⟨has, hbs, h⟩
  · rintro ⟨rfl, rfl, h⟩
    rw [List.append_nil, List.nil_append, h]

end

/-- A list in pieces of `k + 1` elements, and a last one of what is left. -/
def blocks (k : Nat) (l : List α) : List (List α) :=
  if _h : l = [] then [] else l.take (k + 1) :: blocks k (l.drop (k + 1))
  termination_by l.length
  decreasing_by
    have hpos := List.length_pos_iff.2 _h
    rw [List.length_drop]
    omega

theorem flatten_blocks (k : Nat) (l : List α) : (blocks k l).flatten = l := by
  induction l using blocks.induct k with
  | case1 =>
    rw [blocks, dif_pos rfl]
    rfl
  | case2 l h ih => rw [blocks, dif_neg h, List.flatten_cons, ih, List.take_append_drop]

end MesCore
