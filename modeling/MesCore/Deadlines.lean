import MesCore.Runs

namespace MesCore
set_option autoImplicit true

/-- What bounds a call with a deadline: whether the deadline has passed, how many statements the
call has left then, and how many these are at most once it watches the clock. -/
structure Deadline (κ : Type) where
  late : κ → Bool
  toGo : κ → Nat
  limit : Nat

namespace Deadline
variable (D : Deadline κ)

/-- What a step of the system does to a call. Before the call watches the clock its deadline does
not pass; behind that, a statement of its own brings a late call nearer to its end. -/
inductive Step (own : Bool) : Option κ → Option κ → Prop
  | none : Step own none none
  | made : D.late c = false → Step own none (some c)
  | early : D.limit < D.toGo c → D.late c' = D.late c → Step own (some c) (some c')
  | watching : D.toGo c ≤ D.limit → D.toGo c' ≤ D.limit →
      (D.late c = true → D.late c' = true ∧ own.toNat + D.toGo c' ≤ D.toGo c) →
      Step own (some c) (some c')

/-- A late call watches the clock. -/
def Watched (o : Option κ) : Prop := ∀ c, o = some c → D.late c = true → D.toGo c ≤ D.limit

/-- The call is late, and watches the clock. -/
def Overdue (o : Option κ) : Prop := ∃ c, o = some c ∧ D.late c = true ∧ D.toGo c ≤ D.limit

def left (o : Option κ) : Nat := (o.map D.toGo).getD 0

section
variable {D} {own : Bool} {o o' : Option κ} {c c' : κ}

theorem Step.same (hlate : D.late c' = D.late c) (htoGo : D.toGo c' = D.toGo c) :
    D.Step false (some c) (some c') := by
  rcases Nat.lt_or_ge D.limit (D.toGo c) with h | h
  · exact .early h hlate
  · apply Step.watching h (htoGo ▸ h)
    intro hc
    apply And.intro (hlate.trans hc)
    simp [htoGo]

theorem Step.map (f : κ → κ) (hlate : ∀ c, D.late (f c) = D.late c)
    (htoGo : ∀ c, D.toGo (f c) = D.toGo c) (o : Option κ) : D.Step false o (o.map f) := by
  cases o with
  | none => exact .none
  | some c => exact .same (hlate c) (htoGo c)

theorem Step.refl (o : Option κ) : D.Step false o o := by
  cases o with
  | none => exact .none
  | some c => exact .same rfl rfl

theorem Step.watched (h : D.Step own o o') (ho : D.Watched o) : D.Watched o' := by
  intro c' hc' hlate
  cases h with
  | none => cases hc'
  | made hearly =>
    cases hc'
    rw [hlate] at hearly
    cases hearly
  | early hlimit hsame =>
    cases hc'
    have hwatched := ho _ rfl (hsame ▸ hlate)
    omega
  | watching _ hbound _ =>
    cases hc'
    exact hbound

theorem Step.overdue (h : D.Step own o o') (ho : D.Overdue o) :
    D.Overdue o' ∧ own.toNat + D.left o' ≤ D.left o := by
  obtain ⟨c, hc, hlate, hbound⟩ := ho
  cases h with
  | none => cases hc
  | made _ => cases hc
  | early hlimit _ =>
    cases hc
    omega
  | @watching _ c' _ hbound' hnearer =>
    cases hc
    obtain ⟨hlate', hspent⟩ := hnearer hlate
    exact ⟨⟨c', rfl, hlate', hbound'⟩, hspent⟩

end

section
variable {D} {step : σ → α → Option σ} {allowed : σ → α → Prop} (calls : σ → ι → Option κ)
  (own : ι → α → Bool) {s s' : σ} {as : List α}

theorem watched_run
    (hstep : ∀ {s a s'}, step s a = some s' → ∀ i, D.Step (own i a) (calls s i) (calls s' i))
    (h : Run step allowed s as s') (hs : ∀ i, D.Watched (calls s i)) :
    ∀ i, D.Watched (calls s' i) := by
  apply h.invariant fun s => ∀ i, D.Watched (calls s i)
  · exact fun hs _ ht i => (hstep ht i).watched (hs i)
  · exact hs

theorem overdue_run
    (hstep : ∀ {s a s'}, step s a = some s' → ∀ i, D.Step (own i a) (calls s i) (calls s' i))
    (h : Run step allowed s as s') {i : ι} (hs : D.Overdue (calls s i)) :
    as.countP (own i) ≤ D.limit := by
  have hspent := h.spends (fun s => D.Overdue (calls s i)) (fun s => D.left (calls s i)) (own i)
    (fun hi _ ht => (hstep ht i).overdue hi) hs
  obtain ⟨c, hc, _, hbound⟩ := hs
  have hleft : D.left (calls s i) = D.toGo c := by
    rw [hc]
    rfl
  omega

end
end Deadline
end MesCore
