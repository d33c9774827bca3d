import MesCore.Interaction

namespace MesCore
set_option autoImplicit true

/-- Every switch on is followed by a switch off. -/
def SwitchedOff (on off : Entry I → Prop) (seg : List (Entry I)) : Prop :=
  ∀ before e after, seg = before ++ e :: after → on e → ∃ x ∈ after, off x

section
variable {I : Interface} {on off : Entry I → Prop} {seg pre mid : List (Entry I)} {e : Entry I}

theorem settled_of_quiet (h : ∀ e ∈ seg, ¬ on e) : SwitchedOff on off seg := by
  intro before e after hseg hon
  refine (h e ?_ hon).elim
  rw [hseg]
  exact List.mem_append_right _ List.mem_cons_self

theorem settled_iff (hpre : ∀ e ∈ pre, ¬ on e) (he : on e) (hmid : ∀ e ∈ mid, ¬ on e) :
    SwitchedOff on off (pre ++ e :: mid) ↔ ∃ x ∈ mid, off x := by
  constructor
  · exact fun h => h pre e mid rfl he
  · rintro hoff before e' after hseg hon
    rcases List.append_eq_append_iff.1 hseg with ⟨l, rfl, hl⟩ | ⟨l, rfl, hl⟩
    · cases l with
      | nil =>
        cases hl
        exact hoff
      | cons x l =>
        cases hl
        exact (hmid e' (List.mem_append_right _ List.mem_cons_self) hon).elim
    · cases l with
      | nil =>
        cases hl
        exact hoff
      | cons x l =>
        cases hl
        exact (hpre _ (List.mem_append_right _ List.mem_cons_self) hon).elim

end

@[reducible] def without (P : Entry I → Prop) : Frame I where
  entry e := ¬ P e
  vars _ _ := True
  refl _ := trivial
  trans _ _ := trivial

section
variable {I : Interface} {d : Device I} {on off : Entry I → Prop}

/-- Switch on, use, switch off, in a row: nothing switches off when the use raises. -/
def bracket (switchOn use : Prog d Bool) (switchOff rest otherwise : Prog d Unit) :
    Prog d Unit := do
  let armed ← switchOn
  if armed then do
    let able ← use
    onlyIf able switchOff
    rest
  else otherwise

def arming (approach : Prog d Bool) (switch : Prog d Unit) : Prog d Bool := do
  let clear ← approach
  if clear then do
    switch
    pure true
  else pure false

/-- A run switches on with its last step and then returns `a`, or not at all. -/
def Arms (on : Entry I → Prop) (p : Prog d α) (a : α) : Prop :=
  ∀ w : World d, Frame.Rel (without on) w (World.after (p w)) ∨
    ∃ w₁ pre e, p w = .ok a w₁ ∧ w₁.trace = w.trace ++ (pre ++ [e]) ∧ on e ∧ ∀ x ∈ pre, ¬ on x

def Disarms (on off : Entry I → Prop) (p : Prog d Unit) : Prop :=
  ∀ w : World d, ∃ seg, (World.after (p w)).trace = w.trace ++ seg ∧ (∃ x ∈ seg, off x) ∧
    ∀ x ∈ seg, ¬ on x

theorem Frame.Rel.without_or {P Q : Entry I → Prop} {w w' : World d}
    (h : Frame.Rel (without fun e => P e ∨ Q e) w w') :
    Frame.Rel (without P) w w' ∧ Frame.Rel (without Q) w w' :=
  ⟨h.mono (fun _ he hp => he (.inl hp)) fun _ _ h => h,
    h.mono (fun _ he hq => he (.inr hq)) fun _ _ h => h⟩

theorem arming_ok {approach : Prog d Bool} {switch : Prog d Unit} {w w₁ : World d}
    (h : arming approach switch w = .ok true w₁) :
    ∃ w₀, approach w = .ok true w₀ ∧ switch w₀ = .ok () w₁ := by
  obtain ⟨clear, w₀, hrun, h⟩ := bind_ok h
  cases clear with
  | false => cases h
  | true =>
    obtain ⟨_, w', hs, h⟩ := bind_ok h
    cases h
    exact ⟨w₀, hrun, hs⟩

theorem Arms.call {c : I.Call} {a : I.Ans c} (h : ∀ r, on (.call c r) ↔ r = .ok a) :
    Arms on (call c : Prog d (I.Ans c)) a := by
  intro w
  cases hr : MesCore.call c w with
  | ok b w' =>
    by_cases hb : b = a
    · subst hb
      exact .inr ⟨w', [], _, rfl, (call_ok hr).2, (h _).2 rfl, by simp⟩
    · refine .inl ⟨⟨[_], (call_ok hr).2, ?_⟩, trivial⟩
      intro e he
      rw [List.mem_singleton.1 he]
      exact fun hon => hb (Except.ok.inj ((h _).1 hon))
  | error e w' =>
    refine .inl ⟨⟨[_], (call_error hr).2, ?_⟩, trivial⟩
    intro e he
    rw [List.mem_singleton.1 he]
    intro hon
    cases (h _).1 hon

theorem Arms.of_within {p : Prog d α} (h : Within (without on) p) (a : α) : Arms on p a :=
  fun w => .inl (h w)

theorem Arms.bind {p : Prog d α} {k : α → Prog d β} {b : β} (hp : Within (without on) p)
    (hk : ∀ a, Arms on (k a) b) : Arms on (p >>= k) b := by
  intro w
  have hpre := hp w
  cases hrun : p w with
  | error e w₁ =>
    rw [hrun] at hpre
    rw [bind_of_error hrun]
    exact .inl hpre
  | ok a w₁ =>
    rw [hrun, World.after_ok] at hpre
    rw [bind_of_ok hrun]
    rcases hk a w₁ with hquiet | ⟨w₂, pre, e, hs, htrace, hon, hnone⟩
    · exact .inl (hpre.trans hquiet)
    · obtain ⟨⟨seg, hseg, hsegNone⟩, -⟩ := hpre
      refine .inr ⟨w₂, seg ++ pre, e, hs, ?_, hon, ?_⟩
      · rw [htrace, hseg]
        simp only [List.append_assoc]
      · intro x hx
        rcases List.mem_append.1 hx with h | h
        · exact hsegNone x h
        · exact hnone x h

theorem Arms.andReturn {p : Prog d α} {a : α} (h : Arms on p a) (b : β) :
    Arms on (p >>= fun _ => pure b) b := by
  intro w
  rcases h w with hquiet | ⟨w₁, pre, e, hrun, hrest⟩
  · left
    cases hrun : p w with
    | error e w₁ =>
      rw [hrun] at hquiet
      rw [bind_of_error hrun]
      exact hquiet
    | ok a w₁ =>
      rw [hrun] at hquiet
      rw [bind_of_ok hrun]
      exact hquiet
  · refine .inr ⟨w₁, pre, e, ?_, hrest⟩
    rw [bind_of_ok hrun]
    rfl

theorem Arms.attempt {p : Prog d α} {a : α} {handler : I.Err → Prog d α} (h : Arms on p a)
    (catches : I.Err → Bool) (hh : ∀ e, Within (without on) (handler e)) :
    Arms on (attempt p catches handler) a := by
  intro w
  rcases h w with hquiet | ⟨w₁, pre, e, hrun, hrest⟩
  · left
    rw [MesCore.attempt]
    cases hrun : p w with
    | ok a w₁ =>
      rw [hrun] at hquiet
      exact hquiet
    | error e w₁ =>
      rw [hrun] at hquiet
      dsimp only
      split
      · exact Frame.Rel.trans hquiet (hh e w₁)
      · exact hquiet
  · refine .inr ⟨w₁, pre, e, ?_, hrest⟩
    rw [MesCore.attempt, hrun]

theorem Arms.arming {approach : Prog d Bool} {switch : Prog d Unit}
    (happroach : Within (without on) approach) (hswitch : Arms on switch ()) :
    Arms on (arming approach switch) true := by
  refine .bind happroach fun clear => ?_
  cases clear with
  | false => exact .of_within (.pure false) true
  | true => exact hswitch.andReturn true

section
variable {switchOn use : Prog d Bool} {switchOff rest otherwise : Prog d Unit}

theorem bracket_quiet {w w₁ : World d} {armed : Bool} (h : switchOn w = .ok armed w₁)
    (huse : Within (without fun e => on e ∨ off e) use) (hoff : Disarms on off switchOff)
    (hrest : Within (without fun e => on e ∨ off e) rest)
    (hother : Within (without on) otherwise) :
    Frame.Rel (without on) w₁
      (World.after (bracket switchOn use switchOff rest otherwise w)) := by
  have hswitch (w : World d) : Frame.Rel (without on) w (World.after (switchOff w)) := by
    obtain ⟨seg, htrace, -, hquiet⟩ := hoff w
    exact ⟨⟨seg, htrace, hquiet⟩, trivial⟩
  rw [bracket, bind_of_ok h]
  cases armed with
  | false => exact hother w₁
  | true =>
    have huse' : Within (without on) use := fun w => (huse w).without_or.1
    have hrest' : Within (without on) rest := fun w => (hrest w).without_or.1
    refine (huse'.bind fun able => ?_) w₁
    have hswitch' : Within (without on) switchOff := hswitch
    exact (hswitch'.onlyIf able).bind fun _ => hrest'

theorem switchOff_issued (hoff : Disarms on off switchOff)
    (hrest : Within (without fun e => on e ∨ off e) rest) (w : World d) :
    w.trace <+: (World.after ((switchOff >>= fun _ => rest) w)).trace ∧
      ∃ x ∈ w.since (World.after ((switchOff >>= fun _ => rest) w)), off x := by
  obtain ⟨seg, htrace, ⟨x, hx, hxoff⟩, -⟩ := hoff w
  cases h : switchOff w with
  | error e w' =>
    rw [h, World.after_error] at htrace
    rw [bind_of_error h, World.after_error]
    refine ⟨⟨seg, htrace.symm⟩, x, ?_, hxoff⟩
    rw [World.since_eq htrace]
    exact hx
  | ok a w' =>
    rw [h, World.after_ok] at htrace
    rw [bind_of_ok h]
    have hgrow : w.trace <+: w'.trace := ⟨seg, htrace.symm⟩
    refine ⟨hgrow.trans (hrest w').grows, x, World.mem_since_left hgrow (hrest w').grows ?_, hxoff⟩
    rw [World.since_eq htrace]
    exact hx

/-- What is in use gets switched off exactly if its use returns that it can be. -/
theorem use_off_iff (huse : Within (without fun e => on e ∨ off e) use)
    (hoff : Disarms on off switchOff) (hrest : Within (without fun e => on e ∨ off e) rest)
    (w : World d) :
    (∃ x ∈ w.since (World.after ((do
        let able ← use
        onlyIf able switchOff
        rest : Prog d Unit) w)), off x) ↔ ∃ w₁, use w = .ok true w₁ := by
  have hrest' : Within (without off) rest := fun w => (hrest w).without_or.2
  have hused := (huse w).without_or.2
  cases hu : use w with
  | error err w₁ =>
    rw [hu, World.after_error] at hused
    rw [bind_of_error hu, World.after_error]
    refine iff_of_false ?_ (by rintro ⟨w₁, h⟩; cases h)
    rintro ⟨x, hx, hxoff⟩
    exact hused.since x hx hxoff
  | ok able w₁ =>
    rw [hu, World.after_ok] at hused
    rw [bind_of_ok hu]
    cases able with
    | false =>
      refine iff_of_false ?_ (by rintro ⟨w₁, h⟩; cases h)
      rintro ⟨x, hx, hxoff⟩
      exact (hused.trans (hrest' w₁)).since x hx hxoff
    | true =>
      refine iff_of_true ?_ ⟨w₁, rfl⟩
      obtain ⟨hgrow, x, hx, hxoff⟩ := switchOff_issued hoff hrest w₁
      exact ⟨x, World.mem_since_right hused.grows hgrow hx, hxoff⟩

/-- The line is switched off exactly if the use goes through once it is on. -/
theorem bracket_settled_iff (harms : Arms on switchOn true)
    (huse : Within (without fun e => on e ∨ off e) use) (hoff : Disarms on off switchOff)
    (hrest : Within (without fun e => on e ∨ off e) rest)
    (hother : Within (without on) otherwise) (w : World d) :
    SwitchedOff on off (w.since (World.after (bracket switchOn use switchOff rest otherwise w))) ↔
      ∀ w₁, switchOn w = .ok true w₁ → (∃ e ∈ w.since w₁, on e) → ∃ w₂, use w₁ = .ok true w₂ := by
  rcases harms w with hquiet | ⟨w₁, pre, e, hrun, htrace, hon, hpre⟩
  · -- nothing was switched on: both sides hold
    have hnever : ∀ w₁, switchOn w = .ok true w₁ → ¬ ∃ e ∈ w.since w₁, on e := by
      rintro w₁ hrun ⟨e, he, hon⟩
      rw [hrun, World.after_ok] at hquiet
      exact hquiet.since e he hon
    refine iff_of_true ?_ fun w₁ hrun hex => (hnever w₁ hrun hex).elim
    cases hrun : switchOn w with
    | error err w₁ =>
      rw [hrun, World.after_error] at hquiet
      rw [bracket, bind_of_error hrun, World.after_error]
      exact settled_of_quiet hquiet.since
    | ok armed w₁ =>
      rw [hrun, World.after_ok] at hquiet
      exact settled_of_quiet
        (hquiet.trans (bracket_quiet hrun huse hoff hrest hother)).since
  · have hcond : (∀ w', switchOn w = .ok true w' → (∃ e ∈ w.since w', on e) →
        ∃ w₂, use w' = .ok true w₂) ↔ ∃ w₂, use w₁ = .ok true w₂ := by
      constructor
      · refine fun h => h w₁ hrun ⟨e, ?_, hon⟩
        rw [World.since_eq htrace]
        simp
      · intro h w' hrun'
        cases hrun.symm.trans hrun'
        exact fun _ => h
    have hlater := bracket_quiet hrun huse hoff hrest hother
    obtain ⟨⟨mid, hmid, hquiet⟩, -⟩ := hlater
    have hseg : w.since (World.after (bracket switchOn use switchOff rest otherwise w)) =
        pre ++ e :: mid := by
      rw [World.since_eq (hmid.trans (by rw [htrace, List.append_assoc]))]
      simp
    have hrunRest : bracket switchOn use switchOff rest otherwise w =
        (do
          let able ← use
          onlyIf able switchOff
          rest) w₁ := by
      rw [bracket, bind_of_ok hrun]
      rfl
    rw [hcond, hseg, settled_iff hpre hon hquiet, ← World.since_eq hmid, hrunRest]
    exact use_off_iff huse hoff hrest w₁

end

end

end MesCore
