import MesCore.Occurrence

namespace MesCore
set_option autoImplicit true

theorem infix_append_cons_iff {x l r : List α} {c : α} (hx : c ∉ x) :
    x <:+: l ++ c :: r ↔ x <:+: l ∨ x <:+: r := by
  constructor
  · exact infix_append_cons hx
  · rintro (h | h)
    · exact h.trans (List.prefix_append l _).isInfix
    · exact h.trans ((List.suffix_cons c r).trans (List.suffix_append l _)).isInfix

theorem infix_cons_iff_of_notMem {x r : List α} {c : α} (hx : c ∉ x) :
    x <:+: c :: r ↔ x <:+: r := by
  refine (infix_append_cons_iff (l := []) hx).trans (or_iff_right_of_imp ?_)
  intro h
  rw [List.infix_nil.1 h]
  exact List.nil_infix

theorem infix_append_iff_of_disjoint {x w r : List α} (hw : ∀ c ∈ w, c ∉ x) :
    x <:+: w ++ r ↔ x <:+: r :=
  ⟨infix_of_append hw, fun h => h.trans (List.suffix_append w r).isInfix⟩

theorem infix_concat_iff_of_disjoint {x w r : List α} (hw : ∀ c ∈ w, c ∉ x) :
    x <:+: r ++ w ↔ x <:+: r := by
  have hreverse : ∀ c ∈ w.reverse, c ∉ x.reverse := fun c hc hx =>
    hw c (List.mem_reverse.1 hc) (List.mem_reverse.1 hx)
  rw [← List.reverse_infix, List.reverse_append, infix_append_iff_of_disjoint hreverse,
    List.reverse_infix]

theorem infix_words {x : List α} {sep : α} (hx : sep ∉ x) {ws : List (List α)}
    (h : x <:+: ws.flatMap (sep :: ·)) : x = [] ∨ ∃ w ∈ ws, x <:+: w := by
  have hturn (ws : List (List α)) :
      ws.flatMap (sep :: ·) ++ [sep] = sep :: ws.flatMap (· ++ [sep]) := by
    induction ws with
    | nil => rfl
    | cons w ws ih =>
      rw [List.flatMap_cons, List.flatMap_cons, List.append_assoc, ih, List.append_assoc]
      rfl
  have hlines := h.trans (List.prefix_append _ [sep]).isInfix
  rw [hturn, infix_cons_iff_of_notMem hx, ← List.append_nil (ws.flatMap _)] at hlines
  rcases infix_lines hx hlines with hw | hnil
  · exact .inr hw
  · exact .inl (List.infix_nil.1 hnil)

def unpair (ps : List (α × α)) : List α := ps.flatMap fun p => [p.1, p.2]

/-- The pairs that a text of pairs spells from its second symbol on. -/
def straddle : List (α × α) → List (α × α)
  | p :: q :: ps => (p.2, q.1) :: straddle (q :: ps)
  | _ => []

section
variable {ps qs : List (α × α)} {p q : α × α}

theorem unpair_cons (p : α × α) (ps : List (α × α)) :
    unpair (p :: ps) = p.1 :: p.2 :: unpair ps := rfl

theorem unpair_prefix_iff : unpair ps <+: unpair qs ↔ ps <+: qs := by
  induction ps generalizing qs with
  | nil => exact iff_of_true List.nil_prefix List.nil_prefix
  | cons p ps ih =>
    cases qs with
    | nil => simp [unpair]
    | cons q qs =>
      rw [unpair_cons, unpair_cons, List.cons_prefix_cons, List.cons_prefix_cons, ih,
        List.cons_prefix_cons, ← and_assoc, Prod.ext_iff]

theorem unpair_prefix_tail_iff : unpair ps <+: q.2 :: unpair qs ↔ ps <+: straddle (q :: qs) := by
  induction ps generalizing q qs with
  | nil => exact iff_of_true List.nil_prefix List.nil_prefix
  | cons p ps ih =>
    cases qs with
    | nil => simp [unpair, straddle]
    | cons r qs =>
      rw [unpair_cons, unpair_cons, List.cons_prefix_cons, List.cons_prefix_cons, ih, straddle,
        List.cons_prefix_cons, ← and_assoc, Prod.ext_iff]

theorem infix_straddle_cons_iff :
    ps <:+: straddle (q :: qs) ↔ ps <+: straddle (q :: qs) ∨ ps <:+: straddle qs := by
  cases qs with
  | nil =>
    have hnil : straddle [q] = [] := rfl
    have hnil' : straddle ([] : List (α × α)) = [] := rfl
    rw [hnil, hnil', List.infix_nil, List.prefix_nil, or_self]
  | cons r qs => rw [straddle, List.infix_cons_iff]

theorem unpair_infix_iff : unpair ps <:+: unpair qs ↔ ps <:+: qs ∨ ps <:+: straddle qs := by
  induction qs with
  | nil =>
    cases ps with
    | nil => exact iff_of_true List.infix_rfl (.inl List.infix_rfl)
    | cons p ps => simp [unpair, straddle]
  | cons q qs ih =>
    rw [unpair_cons, List.infix_cons_iff, List.infix_cons_iff, ← unpair_cons, unpair_prefix_iff,
      unpair_prefix_tail_iff, ih, List.infix_cons_iff, infix_straddle_cons_iff]
    tauto

theorem map_infix_map_iff {f : α → β} (hf : Function.Injective f) {x y : List α} :
    x.map f <:+: y.map f ↔ x <:+: y := by
  constructor
  · intro h
    obtain ⟨x', hx', hmap⟩ := List.infix_map_iff.1 h
    rwa [List.map_injective_iff.2 hf hmap]
  · exact fun h => h.map f

end

end MesCore
