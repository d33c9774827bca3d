import Mathlib.Data.List.Infix
import Mathlib.Tactic.Common

namespace MesCore
set_option autoImplicit true

theorem prefix_append_cons {x l r : List α} {c : α} (hx : c ∉ x) (h : x <+: l ++ c :: r) :
    x <+: l := by
  induction x generalizing l with
  | nil => exact List.nil_prefix
  | cons a x ih =>
    rw [List.mem_cons, not_or] at hx
    cases l with
    | nil => exact absurd (List.cons_prefix_cons.1 h).1.symm hx.1
    | cons b l =>
      obtain ⟨hab, h⟩ := List.cons_prefix_cons.1 h
      exact List.cons_prefix_cons.2 ⟨hab, ih hx.2 h⟩

theorem infix_append_cons {x l r : List α} {c : α} (hx : c ∉ x) (h : x <:+: l ++ c :: r) :
    x <:+: l ∨ x <:+: r := by
  induction l with
  | nil =>
    rcases List.infix_cons_iff.1 h with h | h
    · exact .inl (prefix_append_cons (l := []) hx h).isInfix
    · exact .inr h
  | cons a l ih =>
    rcases List.infix_cons_iff.1 h with h | h
    · exact .inl (prefix_append_cons (l := a :: l) hx h).isInfix
    · rcases ih h with h | h
      · exact .inl (h.trans (List.suffix_cons a l).isInfix)
      · exact .inr h

theorem infix_of_append {x w r : List α} (hw : ∀ c ∈ w, c ∉ x) (h : x <:+: w ++ r) : x <:+: r := by
  induction w with
  | nil => exact h
  | cons c w ih =>
    have hx := hw c (List.mem_cons_self ..)
    rcases infix_append_cons (l := []) hx h with h | h
    · rw [List.infix_nil.1 h]
      exact List.nil_infix
    · exact ih (fun d hd => hw d (List.mem_cons_of_mem _ hd)) h

theorem infix_pair {a c : List α} {x y : α} (ha : x ∉ a) (hc : x ∉ c)
    (h : [x, y] <:+: a ++ x :: c) : [y] <+: c := by
  induction a with
  | nil =>
    rcases List.infix_cons_iff.1 h with h | h
    · exact (List.cons_prefix_cons.1 h).2
    · exact absurd (h.subset (List.mem_cons_self ..)) hc
  | cons b a ih =>
    rw [List.mem_cons, not_or] at ha
    rcases List.infix_cons_iff.1 h with h | h
    · exact absurd (List.cons_prefix_cons.1 h).1 ha.1
    · exact ih ha.2 h

section
variable [DecidableEq α] {x s w : List α} {q : α}

theorem prefix_of_replaced (hne : w ≠ []) (hw : ∀ c ∈ w, c ∉ x)
    (h : x <+: s.flatMap fun c => if c = q then w else [c]) : x <+: s := by
  induction s generalizing x with
  | nil => exact h
  | cons c s ih =>
    cases x with
    | nil => exact List.nil_prefix
    | cons a x =>
      rw [List.flatMap_cons] at h
      split at h
      · obtain ⟨b, w, rfl⟩ := List.exists_cons_of_ne_nil hne
        have hb := hw b (List.mem_cons_self ..)
        rw [List.cons_append] at h
        exact (hb ((List.cons_prefix_cons.1 h).1 ▸ List.mem_cons_self ..)).elim
      · obtain ⟨hac, h⟩ := List.cons_prefix_cons.1 h
        have htail := ih (fun d hd hx => hw d hd (List.mem_cons_of_mem _ hx)) h
        exact List.cons_prefix_cons.2 ⟨hac, htail⟩

/-- Replacing one symbol by others that a word does not have makes up no occurrence of it. -/
theorem infix_of_replaced (hne : w ≠ []) (hw : ∀ c ∈ w, c ∉ x)
    (h : x <:+: s.flatMap fun c => if c = q then w else [c]) : x <:+: s := by
  induction s with
  | nil => exact h
  | cons c s ih =>
    have hbehind (h : x <:+: s.flatMap fun c => if c = q then w else [c]) : x <:+: c :: s :=
      (ih h).trans (List.suffix_cons c s).isInfix
    by_cases hc : c = q
    · rw [List.flatMap_cons, if_pos hc] at h
      exact hbehind (infix_of_append hw h)
    · rw [List.flatMap_cons, if_neg hc, List.singleton_append] at h
      rcases List.infix_cons_iff.1 h with h | h
      · refine (prefix_of_replaced (q := q) hne hw ?_).isInfix
        rwa [List.flatMap_cons, if_neg hc, List.singleton_append]
      · exact hbehind h

end

theorem infix_lines {x t : List α} {sep : α} (hx : sep ∉ x) {ls : List (List α)}
    (h : x <:+: ls.flatMap (· ++ [sep]) ++ t) : (∃ l ∈ ls, x <:+: l) ∨ x <:+: t := by
  induction ls with
  | nil => exact .inr h
  | cons l ls ih =>
    rw [List.flatMap_cons, List.append_assoc, List.append_assoc, List.singleton_append] at h
    rcases infix_append_cons hx h with h | h
    · exact .inl ⟨l, List.mem_cons_self .., h⟩
    · rcases ih h with ⟨k, hk, h⟩ | h
      · exact .inl ⟨k, List.mem_cons_of_mem _ hk, h⟩
      · exact .inr h

/-- A text of one line that no line shows is not complete before the lines are. -/
theorem lines_before {x t q : List α} {sep : α} (hx : sep ∉ x) (hne : x ≠ []) {ls : List (List α)}
    (hls : ∀ l ∈ ls, ¬ x <:+: l) (hq : q <+: ls.flatMap (· ++ [sep]) ++ t) (h : x <:+: q) :
    ls.flatMap (· ++ [sep]) <+: q := by
  rcases List.prefix_or_prefix_of_prefix hq (List.prefix_append ..) with hshort | hlong
  · have hin : x <:+: ls.flatMap (· ++ [sep]) ++ [] := by
      rw [List.append_nil]
      exact h.trans hshort.isInfix
    rcases infix_lines hx hin with ⟨l, hl, hin⟩ | hin
    · exact (hls l hl hin).elim
    · exact (hne (List.infix_nil.1 hin)).elim
  · exact hlong

/-- Words to look for. A word may come with a continuation that takes a match of it back. -/
structure Lexicon (α : Type) where
  word : List α → Option (List α) → Prop
  nonempty : word w f → w ≠ []

/-- A word of the lexicon, `n` long, stands at position `i` and nothing behind it takes it back. -/
def Lexicon.Occurs (L : Lexicon α) (s : List α) (i n : Nat) : Prop :=
  ∃ w f, L.word w f ∧ w.length = n ∧ w <+: s.drop i ∧ ∀ x ∈ f, ¬ w ++ x <+: s.drop i

def Lexicon.Found (L : Lexicon α) (s : List α) : Prop := ∃ i n, L.Occurs s i n

section
variable {L : Lexicon α} {s t : List α} {i k n : Nat}

theorem Lexicon.Occurs.pos (h : L.Occurs s i n) : 0 < n := by
  obtain ⟨w, f, hw, rfl, _, _⟩ := h
  exact List.length_pos_iff.2 (L.nonempty hw)

theorem Lexicon.Occurs.le (h : L.Occurs s i n) : i + n ≤ s.length := by
  have hpos := h.pos
  obtain ⟨w, f, _, rfl, hp, _⟩ := h
  have hle := hp.length_le
  rw [List.length_drop] at hle
  omega

theorem Lexicon.occurs_drop : L.Occurs (s.drop k) i n ↔ L.Occurs s (k + i) n := by
  rw [Occurs, Occurs, List.drop_drop]

theorem Lexicon.Occurs.cut (h : L.Occurs (s ++ t) i n) (hle : i + n ≤ s.length) :
    L.Occurs s i n := by
  obtain ⟨w, f, hw, rfl, hp, hf⟩ := h
  have hdrop : (s ++ t).drop i = s.drop i ++ t := List.drop_append_of_le_length (by omega)
  rw [hdrop] at hp hf
  refine ⟨w, f, hw, rfl, ?_, fun x hx hwx => hf x hx (hwx.trans (List.prefix_append _ _))⟩
  refine List.prefix_of_prefix_length_le hp (List.prefix_append _ _) ?_
  rw [List.length_drop]
  omega

theorem Lexicon.occurs_append_left : L.Occurs (t ++ s) (t.length + i) n ↔ L.Occurs s i n := by
  rw [← occurs_drop, List.drop_left]

theorem Lexicon.Occurs.of_suffix (h : L.Occurs s i n) (hs : s <:+ t) :
    L.Occurs t (t.length - s.length + i) n := by
  obtain ⟨r, rfl⟩ := hs
  rw [List.length_append, Nat.add_sub_cancel]
  exact occurs_append_left.2 h

theorem Lexicon.Found.of_suffix (h : L.Found s) (hs : s <:+ t) : L.Found t := by
  obtain ⟨i, n, hi⟩ := h
  exact ⟨_, n, hi.of_suffix hs⟩

theorem Lexicon.not_found_nil : ¬ L.Found [] := by
  rintro ⟨i, n, h⟩
  have hle := h.le
  have hpos := h.pos
  rw [List.length_nil] at hle
  omega

/-- No word, and nothing that takes one back, goes over a separator. -/
def Lexicon.Inside (L : Lexicon α) (sep : α) : Prop :=
  ∀ w f, L.word w f → sep ∉ w ∧ ∀ x ∈ f, sep ∉ x

/-- What follows takes an occurrence back. -/
def Lexicon.TakenBack (L : Lexicon α) (s t : List α) : Prop :=
  ∃ i n, L.Occurs s i n ∧ ¬ L.Occurs (s ++ t) i n

theorem Lexicon.Inside.occurs {sep : α} (hL : L.Inside sep) (hi : i ≤ s.length) (t u : List α)
    (h : L.Occurs (s ++ sep :: t) i n) : L.Occurs (s ++ sep :: u) i n := by
  obtain ⟨w, f, hw, hn, hp, hf⟩ := h
  obtain ⟨hsep, hcont⟩ := hL w f hw
  have hdrop (v : List α) : (s ++ sep :: v).drop i = s.drop i ++ sep :: v :=
    List.drop_append_of_le_length hi
  rw [hdrop] at hp hf
  refine ⟨w, f, hw, hn, ?_, fun x hx hwx => hf x hx ?_⟩
  · rw [hdrop]
    exact (prefix_append_cons hsep hp).trans (List.prefix_append ..)
  · rw [hdrop] at hwx
    have hnone : sep ∉ w ++ x := by
      rw [List.mem_append, not_or]
      exact ⟨hsep, hcont x hx⟩
    exact (prefix_append_cons hnone hwx).trans (List.prefix_append ..)

theorem Lexicon.Occurs.behind {sep : α} (h : L.Occurs (s ++ sep :: t) i n)
    (hi : s.length < i) : L.Occurs t (i - (s.length + 1)) n := by
  have hlen : (s ++ [sep]).length + (i - (s.length + 1)) = i := by
    rw [List.length_append, List.length_singleton]
    omega
  rw [← List.singleton_append, ← List.append_assoc, ← hlen] at h
  exact occurs_append_left.1 h

/-- What is found in a text with a separator is found behind it or whatever follows it. -/
theorem Lexicon.Inside.found {sep : α} (hL : L.Inside sep) (h : L.Found (s ++ sep :: t)) :
    L.Found t ∨ ∀ u, L.Found (s ++ sep :: u) := by
  obtain ⟨i, n, h⟩ := h
  by_cases hi : i ≤ s.length
  · exact .inr fun u => ⟨i, n, hL.occurs hi t u h⟩
  · exact .inl ⟨_, n, h.behind (Nat.lt_of_not_le hi)⟩

theorem Lexicon.Inside.takenBack {sep : α} (hL : L.Inside sep)
    (h : L.TakenBack (s ++ sep :: t) u) : L.Found t := by
  obtain ⟨i, n, h, hnot⟩ := h
  by_cases hi : i ≤ s.length
  · have hstays := hL.occurs hi t (t ++ u) h
    rw [← List.cons_append, ← List.append_assoc] at hstays
    exact (hnot hstays).elim
  · exact ⟨_, n, h.behind (Nat.lt_of_not_le hi)⟩

/-- What is found at the end of a part stays found unless it is taken back. -/
theorem Lexicon.Found.append (h : L.Found t) (hs : t <:+ s) (u : List α) :
    L.Found (s ++ u) ∨ L.TakenBack s u := by
  obtain ⟨i, n, h⟩ := h
  have hin := h.of_suffix hs
  by_cases hstays : L.Occurs (s ++ u) (s.length - t.length + i) n
  · exact .inl ⟨_, n, hstays⟩
  · exact .inr ⟨_, n, hin, hstays⟩

end

end MesCore
