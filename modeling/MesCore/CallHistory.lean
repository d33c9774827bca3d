import MesCore.Interaction

namespace MesCore
set_option autoImplicit true

variable {I : Interface} {d : Device I}

/-- On any world, the entries that a run adds to the history satisfy `P` where it returns and `R`
where it raises. -/
structure Leaves (p : Prog d α) (P : α → List (Entry I) → Prop)
    (R : I.Err → List (Entry I) → Prop) :
    Prop where
  runs : ∀ w, wp p (fun a w' => ∃ seg, w'.trace = w.trace ++ seg ∧ P a seg)
    (fun e w' => ∃ seg, w'.trace = w.trace ++ seg ∧ R e seg) w

namespace Leaves
section
variable {P P' : α → List (Entry I) → Prop} {R R' : I.Err → List (Entry I) → Prop} {p : Prog d α}

theorem ok {w w' : World d} {a : α} (h : Leaves p P R) (hp : p w = .ok a w') :
    P a (w.since w') := by
  obtain ⟨seg, htrace, hP⟩ := (h.runs w).ok hp
  rwa [World.since_eq htrace]

theorem error {w w' : World d} {e : I.Err} (h : Leaves p P R) (hp : p w = .error e w') :
    R e (w.since w') := by
  obtain ⟨seg, htrace, hR⟩ := (h.runs w).error hp
  rwa [World.since_eq htrace]

theorem after {S : List (Entry I) → Prop} (h : Leaves p (fun _ => S) (fun _ => S)) (w : World d) :
    S (w.since (World.after (p w))) := by
  cases hp : p w with
  | ok a w' => exact h.ok hp
  | error e w' => exact h.error hp

theorem mono (h : Leaves p P R) (hP : ∀ a seg, P a seg → P' a seg)
    (hR : ∀ e seg, R e seg → R' e seg) : Leaves p P' R' := by
  refine ⟨fun w => ?_⟩
  apply (h.runs w).mono
  · intro a w' h
    obtain ⟨seg, htrace, h⟩ := h
    exact ⟨seg, htrace, hP a seg h⟩
  · intro e w' h
    obtain ⟨seg, htrace, h⟩ := h
    exact ⟨seg, htrace, hR e seg h⟩

theorem and (h : Leaves p P R) (h' : Leaves p P' R') :
    Leaves p (fun a seg => P a seg ∧ P' a seg) fun e seg => R e seg ∧ R' e seg := by
  refine ⟨fun w => ?_⟩
  unfold wp
  cases hp : p w with
  | ok a w' =>
    obtain ⟨seg, htrace, hP⟩ := (h.runs w).ok hp
    refine ⟨seg, htrace, hP, ?_⟩
    rw [← World.since_eq htrace]
    exact h'.ok hp
  | error e w' =>
    obtain ⟨seg, htrace, hR⟩ := (h.runs w).error hp
    refine ⟨seg, htrace, hR, ?_⟩
    rw [← World.since_eq htrace]
    exact h'.error hp

theorem of_within {F : Frame I} (h : Within F p) :
    Leaves p (fun _ seg => ∀ e ∈ seg, F.entry e) fun _ seg => ∀ e ∈ seg, F.entry e := by
  refine ⟨fun w => h.wp.mono (fun _ w' hr => ?_) fun _ w' hr => ?_⟩
  · exact ⟨w.since w', World.trace_since hr.grows, hr.since⟩
  · exact ⟨w.since w', World.trace_since hr.grows, hr.since⟩

theorem pure {a : α} (h : P a []) : Leaves (Pure.pure a : Prog d α) P R :=
  ⟨fun _ => ⟨[], (List.append_nil _).symm, h⟩⟩

theorem fail {e : I.Err} (h : R e []) : Leaves (MesCore.fail e : Prog d α) P R :=
  ⟨fun _ => ⟨[], (List.append_nil _).symm, h⟩⟩

theorem call {c : I.Call} {P : I.Ans c → List (Entry I) → Prop} (hP : ∀ a, P a [.call c (.ok a)])
    (hR : ∀ e, R e [.call c (.error e)]) : Leaves (MesCore.call c : Prog d (I.Ans c)) P R :=
  ⟨fun _ => wp_call (fun a _ => ⟨_, rfl, hP a⟩) fun e _ => ⟨_, rfl, hR e⟩⟩

theorem respond {c : I.Call} {P : I.Ans c → List (Entry I) → Prop}
    (hP : ∀ a s s', d.respond c s = (.ok a, s') → P a [.call c (.ok a)])
    (hR : ∀ e s s', d.respond c s = (.error e, s') → R e [.call c (.error e)]) :
    Leaves (MesCore.call c : Prog d (I.Ans c)) P R :=
  ⟨fun w => wp_respond (fun a s h => ⟨_, rfl, hP a w.dev s h⟩)
    fun e s h => ⟨_, rfl, hR e w.dev s h⟩⟩

theorem getVars {P : I.Vars → List (Entry I) → Prop} (h : ∀ v, P v []) :
    Leaves (MesCore.getVars : Prog d I.Vars) P R :=
  ⟨fun w => ⟨[], (List.append_nil _).symm, h w.vars⟩⟩

theorem modifyVars {f : I.Vars → I.Vars} {P : Unit → List (Entry I) → Prop} (h : P () []) :
    Leaves (MesCore.modifyVars f : Prog d Unit) P R :=
  ⟨fun _ => ⟨[], (List.append_nil _).symm, h⟩⟩

theorem note {n : I.Note} {P : Unit → List (Entry I) → Prop} (h : P () [.note n]) :
    Leaves (MesCore.note n : Prog d Unit) P R :=
  ⟨fun _ => ⟨[.note n], rfl, h⟩⟩

theorem extend {w w' : World d} {s : List (Entry I)} (htrace : w'.trace = w.trace ++ s)
    (h : Leaves p (fun a seg => P a (s ++ seg)) fun e seg => R e (s ++ seg)) :
    wp p (fun a w'' => ∃ seg, w''.trace = w.trace ++ seg ∧ P a seg)
      (fun e w'' => ∃ seg, w''.trace = w.trace ++ seg ∧ R e seg) w' := by
  apply (h.runs w').mono
  · intro a w'' h
    obtain ⟨seg, htrace', hP⟩ := h
    exact ⟨s ++ seg, by rw [htrace', htrace, List.append_assoc], hP⟩
  · intro e w'' h
    obtain ⟨seg, htrace', hR⟩ := h
    exact ⟨s ++ seg, by rw [htrace', htrace, List.append_assoc], hR⟩

theorem bind {Q : β → List (Entry I) → Prop} {q : Prog d β} {k : β → Prog d α}
    (hq : Leaves q Q R)
    (hk : ∀ b s, Q b s → Leaves (k b) (fun a seg => P a (s ++ seg)) fun e seg => R e (s ++ seg)) :
    Leaves (q >>= k) P R := by
  refine ⟨fun w => ?_⟩
  apply (hq.runs w).bind
  intro b w' h
  obtain ⟨s, htrace, hQ⟩ := h
  exact extend htrace (hk b s hQ)

theorem bind_call {c : I.Call} {k : I.Ans c → Prog d α} (hR : ∀ e, R e [.call c (.error e)])
    (hk : ∀ b, Leaves (k b) (fun a seg => P a (.call c (.ok b) :: seg))
      fun e seg => R e (.call c (.ok b) :: seg)) :
    Leaves (MesCore.call c >>= k) P R := by
  apply bind (Q := fun b s => s = [.call c (.ok b)]) (call (fun _ => rfl) hR)
  intro b s hs
  subst hs
  exact hk b

theorem attempt {S : I.Err → List (Entry I) → Prop} {catches : I.Err → Bool}
    {handler : I.Err → Prog d α} (hp : Leaves p P S)
    (hcaught : ∀ e s, S e s → catches e = true →
      Leaves (handler e) (fun a seg => P a (s ++ seg)) fun e' seg => R e' (s ++ seg))
    (hlost : ∀ e s, S e s → catches e = false → R e s) :
    Leaves (MesCore.attempt p catches handler) P R := by
  refine ⟨fun w => ?_⟩
  rw [wp_attempt]
  apply (hp.runs w).mono
  · exact fun _ _ h => h
  · intro e w' h
    obtain ⟨s, htrace, hS⟩ := h
    split
    · exact extend htrace (hcaught e s hS ‹_›)
    · exact ⟨s, htrace, hlost e s hS (Bool.eq_false_iff.2 ‹_›)⟩

/-- The history of a run, and what the run is known to do to the variables. -/
theorem wp_within {F : Frame I} {w : World d} (h : Leaves p P R) (hF : Within F p) :
    wp p (fun a w' => F.vars w.vars w'.vars ∧ ∃ seg, w'.trace = w.trace ++ seg ∧ P a seg)
      (fun e w' => F.vars w.vars w'.vars ∧ ∃ seg, w'.trace = w.trace ++ seg ∧ R e seg) w := by
  unfold wp
  cases hp : p w with
  | ok a w' => exact ⟨(hF.ok hp).2, (h.runs w).ok hp⟩
  | error e w' => exact ⟨(hF.error hp).2, (h.runs w).error hp⟩

theorem ensuring {S : α → List (Entry I) → Prop} {T : I.Err → List (Entry I) → Prop}
    {q : Prog d Unit} (hp : Leaves p S T)
    (hok : ∀ a s, S a s → Leaves q (fun _ seg => P a (s ++ seg)) fun e seg => R e (s ++ seg))
    (herr : ∀ e s, T e s → Leaves q (fun _ seg => R e (s ++ seg)) fun e' seg => R e' (s ++ seg)) :
    Leaves (MesCore.ensuring p q) P R := by
  refine ⟨fun w => ?_⟩
  rw [wp_ensuring]
  apply (hp.runs w).mono
  · intro a w' h
    obtain ⟨s, htrace, hS⟩ := h
    exact extend (P := fun _ => P a) htrace (hok a s hS)
  · intro e w' h
    obtain ⟨s, htrace, hT⟩ := h
    exact extend (P := fun _ => R e) htrace (herr e s hT)

end
end Leaves

/-- Every run adds these observations to the history, whichever way it ends. -/
abbrev Emits (obs : Entry I → Option γ) (p : Prog d α) (os : List γ) : Prop :=
  Leaves p (fun _ seg => seg.filterMap obs = os) fun _ seg => seg.filterMap obs = os

namespace Emits
section
variable {obs : Entry I → Option γ} {p : Prog d α} {os : List γ}

theorem trace {w : World d} (h : Emits obs p os) :
    (World.after (p w)).trace.filterMap obs = w.trace.filterMap obs ++ os := by
  cases hp : p w with
  | ok a w' =>
    obtain ⟨seg, htrace, hos⟩ := (h.runs w).ok hp
    rw [World.after_ok, htrace, List.filterMap_append, hos]
  | error e w' =>
    obtain ⟨seg, htrace, hos⟩ := (h.runs w).error hp
    rw [World.after_error, htrace, List.filterMap_append, hos]

theorem call (c : I.Call) (h : ∀ r, [Entry.call c r].filterMap obs = os) :
    Emits obs (MesCore.call c : Prog d (I.Ans c)) os :=
  Leaves.call (fun a => h (.ok a)) fun e => h (.error e)

theorem pure (a : α) : Emits obs (Pure.pure a : Prog d α) [] := Leaves.pure rfl

theorem fail (e : I.Err) : Emits obs (MesCore.fail e : Prog d α) [] := Leaves.fail rfl

theorem bind {q : Prog d β} {k : β → Prog d α} (hq : Emits obs q os)
    (hk : ∀ b, Emits obs (k b) []) :
    Emits obs (q >>= k) os := by
  apply Leaves.bind hq
  intro b s hs
  apply (hk b).mono
  · intro a seg hseg
    rw [List.filterMap_append, hs, hseg, List.append_nil]
  · intro e seg hseg
    rw [List.filterMap_append, hs, hseg, List.append_nil]

theorem attempt {handler : I.Err → Prog d α} (hp : Emits obs p []) (catches : I.Err → Bool)
    (hh : ∀ e, Emits obs (handler e) []) : Emits obs (MesCore.attempt p catches handler) [] := by
  apply Leaves.attempt hp
  · intro e s hs _
    apply (hh e).mono
    · intro a seg hseg
      rw [List.filterMap_append, hs, hseg, List.append_nil]
    · intro e seg hseg
      rw [List.filterMap_append, hs, hseg, List.append_nil]
  · exact fun _ _ hs _ => hs

end
end Emits

/-- Every run of `p` leads along `R`, returning or raising. -/
def Along (R : World d → World d → Prop) (p : Prog d α) : Prop := ∀ w, R w (World.after (p w))

namespace Along
section
variable {R : World d → World d → Prop}

theorem ok {p : Prog d α} {w w' : World d} {a : α} (h : Along R p) (hp : p w = .ok a w') :
    R w w' := by
  have hw := h w
  rwa [hp] at hw

theorem error {p : Prog d α} {w w' : World d} {e : I.Err} (h : Along R p)
    (hp : p w = .error e w') : R w w' := by
  have hw := h w
  rwa [hp] at hw

variable [IsTrans (World d) R]

theorem bind {q : Prog d β} {k : β → Prog d α} (hq : Along R q) (hk : ∀ b, Along R (k b)) :
    Along R (q >>= k) := by
  intro w
  rw [bind_apply]
  cases h : q w with
  | ok b w' => exact IsTrans.trans _ _ _ (hq.ok h) (hk b w')
  | error e w' => exact hq.error h

theorem attempt {p : Prog d α} {catches : I.Err → Bool} {handler : I.Err → Prog d α}
    (hp : Along R p) (hh : ∀ e, Along R (handler e)) :
    Along R (MesCore.attempt p catches handler) := by
  intro w
  unfold MesCore.attempt
  cases h : p w with
  | ok a w' => exact hp.ok h
  | error e w' =>
    dsimp only
    split
    · exact IsTrans.trans _ _ _ (hp.error h) (hh e w')
    · exact hp.error h

end
end Along

end MesCore
