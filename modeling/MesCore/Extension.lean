import MesCore.Interaction

namespace MesCore
set_option autoImplicit true

/-- An interface with more calls, each with answers and failures of its own. -/
@[reducible] def Interface.extend (I : Interface) (C : Type) (A : C → Type) (E : Type) :
    Interface where
  Call := I.Call ⊕ C
  Ans := Sum.elim I.Ans A
  Err := I.Err ⊕ E
  Note := I.Note
  Vars := I.Vars

section
variable {I : Interface} {C : Type} {A : C → Type} {E : Type}

/-- The larger device as the smaller interface sees it; `other` says how a failure of the rest
looks from there. -/
def Device.restrict (d : Device (I.extend C A E)) (other : E → I.Err) : Device I where
  State := d.State
  respond c s :=
    match d.respond (.inl c) s with
    | (.ok a, s') => (.ok a, s')
    | (.error (.inl e), s') => (.error e, s')
    | (.error (.inr x), s') => (.error (other x), s')

def Entry.embed : Entry I → Entry (I.extend C A E)
  | .call c (.ok a) => .call (I := I.extend C A E) (.inl c) (.ok a)
  | .call c (.error e) => .call (I := I.extend C A E) (.inl c) (.error (.inl e))
  | .note n => .note (I := I.extend C A E) n

variable {d : Device (I.extend C A E)} {other : E → I.Err}

/-- A program of the smaller interface, run on the larger device. -/
def lift (p : Prog (d.restrict other) α) : Prog d α := fun w =>
  match p ⟨w.vars, w.dev, []⟩ with
  | .ok a w' => .ok a ⟨w'.vars, w'.dev, w.trace ++ w'.trace.map Entry.embed⟩
  | .error e w' => .error (.inl e) ⟨w'.vars, w'.dev, w.trace ++ w'.trace.map Entry.embed⟩

theorem Within.lift {F : Frame I} {G : Frame (I.extend C A E)} {p : Prog (d.restrict other) α}
    (h : Within F p) (hentry : ∀ e, F.entry e → G.entry e.embed)
    (hvars : ∀ u v, F.vars u v → G.vars u v) : Within G (lift p) := by
  intro w
  obtain ⟨⟨seg, hseg, hall⟩, hv⟩ := h ⟨w.vars, w.dev, []⟩
  rw [MesCore.lift]
  rw [List.nil_append] at hseg
  have hmap : ∀ e ∈ seg.map (Entry.embed (C := C) (A := A) (E := E)), G.entry e := by
    intro e he
    obtain ⟨e₀, he₀, rfl⟩ := List.mem_map.1 he
    exact hentry e₀ (hall e₀ he₀)
  cases hrun : p ⟨w.vars, w.dev, []⟩ with
  | ok a w' =>
    rw [hrun, World.after_ok] at hseg hv
    exact ⟨⟨_, by rw [← hseg]; rfl, hmap⟩, hvars _ _ hv⟩
  | error e w' =>
    rw [hrun, World.after_error] at hseg hv
    exact ⟨⟨_, by rw [← hseg]; rfl, hmap⟩, hvars _ _ hv⟩

end

end MesCore
