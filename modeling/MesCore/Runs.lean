import Mathlib.Tactic.Common

namespace MesCore
set_option autoImplicit true

/-- The runs of a system that takes an action or refuses it, by allowed actions only. -/
inductive Run (step : σ → α → Option σ) (allowed : σ → α → Prop) : σ → List α → σ → Prop
  | nil (s : σ) : Run step allowed s [] s
  | cons : allowed s a → step s a = some s' → Run step allowed s' as s'' →
      Run step allowed s (a :: as) s''

section
variable {step : σ → α → Option σ} {allowed : σ → α → Prop} {s s' : σ} {as : List α}

/-- What an allowed step keeps, a run keeps. -/
theorem Run.invariant (Inv : σ → Prop) (h : Run step allowed s as s')
    (hstep : ∀ {s a s'}, Inv s → allowed s a → step s a = some s' → Inv s') (hs : Inv s) :
    Inv s' := by
  induction h with
  | nil s => exact hs
  | cons ha hs' _ ih => exact ih (hstep hs ha hs')

/-- Where every action of one kind spends some of a budget and no other action adds to it, a run
takes no more of them than the budget allows. -/
theorem Run.spends (Inv : σ → Prop) (budget : σ → Nat) (kind : α → Bool)
    (h : Run step allowed s as s')
    (hstep : ∀ {s a s'}, Inv s → allowed s a → step s a = some s' →
      Inv s' ∧ (kind a).toNat + budget s' ≤ budget s) (hs : Inv s) :
    as.countP kind + budget s' ≤ budget s := by
  induction h with
  | nil s => simp
  | @cons s a t as s' ha ht _ ih =>
    obtain ⟨hinv, hspent⟩ := hstep hs ha ht
    have hrest := ih hinv
    rw [List.countP_cons]
    cases hkind : kind a with
    | true =>
      rw [hkind, Bool.toNat_true] at hspent
      rw [if_pos rfl]
      omega
    | false =>
      rw [if_neg Bool.false_ne_true]
      omega

theorem Run.mono {allowed' : σ → α → Prop} (h : Run step allowed s as s')
    (hallowed : ∀ s a, allowed s a → allowed' s a) : Run step allowed' s as s' := by
  induction h with
  | nil s => exact .nil s
  | cons ha hs' _ ih => exact .cons (hallowed _ _ ha) hs' ih

theorem Run.append {s'' : σ} {bs : List α} (h : Run step allowed s as s')
    (h' : Run step allowed s' bs s'') : Run step allowed s (as ++ bs) s'' := by
  induction h with
  | nil s => exact h'
  | cons ha hs' _ ih => exact .cons ha hs' (ih h')

end

def runFrom (step : σ → α → Option σ) (s : σ) : List α → Option σ
  | [] => some s
  | a :: as => (step s a).bind fun s' => runFrom step s' as

theorem runFrom_getD {step : σ → α → Option σ} {s d : σ} {as : List α}
    (h : (runFrom step s as).isSome = true) :
    runFrom step s as = some ((runFrom step s as).getD d) :=
  (Option.getD_of_ne_none (Option.isSome_iff_ne_none.1 h) d).symm

theorem Run.of_runFrom {step : σ → α → Option σ} {allowed : σ → α → Prop} {s s' : σ} {as : List α}
    (h : runFrom step s as = some s') (ha : ∀ a ∈ as, ∀ s, allowed s a) :
    Run step allowed s as s' := by
  induction as generalizing s with
  | nil =>
    cases h
    exact .nil _
  | cons a as ih =>
    obtain ⟨t, ht, h⟩ := Option.bind_eq_some_iff.1 h
    exact .cons (ha a (List.mem_cons_self ..) s) ht
      (ih h fun b hb => ha b (List.mem_cons_of_mem _ hb))

end MesCore
