import Mathlib.Tactic.Common

namespace MesCore
set_option autoImplicit true

/-- What a program shares with the world outside it: the calls it makes, the type of each
answer, the ways a call fails, the marks it leaves in its history, and its own variables. -/
structure Interface where
  Call : Type
  Ans : Call → Type
  Err : Type
  Note : Type
  Vars : Type

/-- A device answers every call from a state of its own. Nothing else is known about it. -/
structure Device (I : Interface) where
  State : Type
  respond : (c : I.Call) → State → Except I.Err (I.Ans c) × State

inductive Entry (I : Interface)
  | call (c : I.Call) (r : Except I.Err (I.Ans c))
  | note (n : I.Note)

structure World (d : Device I) where
  vars : I.Vars
  dev : d.State
  trace : List (Entry I)

/-- A program runs against a device; an exception keeps everything done before it. -/
abbrev Prog (d : Device I) (α : Type) := EStateM I.Err (World d) α

variable {I : Interface} {d : Device I}

def call (c : I.Call) : Prog d (I.Ans c) := fun w =>
  match d.respond c w.dev with
  | (.ok a, s) => .ok a { w with dev := s, trace := w.trace ++ [.call c (.ok a)] }
  | (.error e, s) => .error e { w with dev := s, trace := w.trace ++ [.call c (.error e)] }

def note (n : I.Note) : Prog d Unit := fun w =>
  .ok () { w with trace := w.trace ++ [.note n] }

def getVars : Prog d I.Vars := fun w => .ok w.vars w

def modifyVars (f : I.Vars → I.Vars) : Prog d Unit := fun w => .ok () { w with vars := f w.vars }

def fail (e : I.Err) : Prog d α := fun w => .error e w

/-- `if c: p`. -/
def onlyIf (c : Bool) (p : Prog d Unit) : Prog d Unit := if c then p else pure ()

/-- `try: p` with one `except` clause, for the errors `catches` selects. -/
def attempt (p : Prog d α) (catches : I.Err → Bool) (handler : I.Err → Prog d α) : Prog d α :=
  fun w =>
    match p w with
    | .ok a w' => .ok a w'
    | .error e w' => if catches e then handler e w' else .error e w'

/-- `try: p finally: q`. An error of `q` replaces the outcome of `p`. -/
def ensuring (p : Prog d α) (q : Prog d Unit) : Prog d α := fun w =>
  match p w with
  | .ok a w' =>
    match q w' with
    | .ok _ w'' => .ok a w''
    | .error e w'' => .error e w''
  | .error e w' =>
    match q w' with
    | .ok _ w'' => .error e w''
    | .error e' w'' => .error e' w''

/-- Run `p` up to `n + 1` times, waiting after a failure that may be retried. -/
def retry (retryable : I.Err → Bool) (wait : Prog d Unit) (p : Prog d α) : Nat → Prog d α
  | 0 => p
  | n + 1 => attempt p retryable fun _ => do wait; retry retryable wait p n

def World.after : EStateM.Result I.Err (World d) α → World d
  | .ok _ w => w
  | .error _ w => w

def returned : EStateM.Result I.Err (World d) α → Bool
  | .ok _ _ => true
  | .error _ _ => false

theorem of_returned {r : EStateM.Result I.Err (World d) α} (h : returned r = true) :
    ∃ a w, r = .ok a w := by
  cases r with
  | ok a w => exact ⟨a, w, rfl⟩
  | error e w => cases h

/-- The part of the history that `w'` adds to the history of `w`. -/
def World.since (w w' : World d) : List (Entry I) := w'.trace.drop w.trace.length

@[simp] theorem World.after_ok (a : α) (w : World d) :
    World.after (EStateM.Result.ok a w : EStateM.Result I.Err (World d) α) = w := rfl

@[simp] theorem World.after_error (e : I.Err) (w : World d) :
    World.after (EStateM.Result.error e w : EStateM.Result I.Err (World d) α) = w := rfl

theorem World.since_eq {w w' : World d} (h : w'.trace = w.trace ++ seg) : w.since w' = seg := by
  rw [World.since, h, List.drop_left]

theorem World.trace_since {w w' : World d} (h : w.trace <+: w'.trace) :
    w'.trace = w.trace ++ w.since w' := by
  obtain ⟨s, hs⟩ := h
  rw [World.since_eq hs.symm, hs]

theorem World.since_append {w w' w'' : World d} (h : w.trace <+: w'.trace)
    (h' : w'.trace <+: w''.trace) : w.since w'' = w.since w' ++ w'.since w'' := by
  apply World.since_eq
  rw [World.trace_since h', World.trace_since h, List.append_assoc]

theorem World.mem_since_left {w w' w'' : World d} (h : w.trace <+: w'.trace)
    (h' : w'.trace <+: w''.trace) (he : e ∈ w.since w') : e ∈ w.since w'' := by
  rw [World.since_append h h']
  exact List.mem_append_left _ he

theorem World.mem_since_right {w w' w'' : World d} (h : w.trace <+: w'.trace)
    (h' : w'.trace <+: w''.trace) (he : e ∈ w'.since w'') : e ∈ w.since w'' := by
  rw [World.since_append h h']
  exact List.mem_append_right _ he

theorem World.since_infix {w₀ w w' w₁ : World d} (h₀ : w₀.trace <+: w.trace)
    (h : w.trace <+: w'.trace) (h₁ : w'.trace <+: w₁.trace) : w.since w' <:+: w₀.since w₁ := by
  refine ⟨w₀.since w, w'.since w₁, ?_⟩
  rw [World.since_append (h₀.trans h) h₁, World.since_append h₀ h]

theorem bind_apply (p : Prog d α) (k : α → Prog d β) (w : World d) :
    (p >>= k) w = match p w with
      | .ok a w' => k a w'
      | .error e w' => .error e w' := by
  change EStateM.bind p k w = _
  unfold EStateM.bind
  cases p w <;> rfl

theorem bind_ok {p : Prog d α} {k : α → Prog d β} {w w'' : World d} {b : β}
    (h : (p >>= k) w = .ok b w'') : ∃ a w', p w = .ok a w' ∧ k a w' = .ok b w'' := by
  rw [bind_apply] at h
  split at h
  · exact ⟨_, _, ‹_›, h⟩
  · cases h

theorem bind_error {p : Prog d α} {k : α → Prog d β} {w w'' : World d} {e : I.Err}
    (h : (p >>= k) w = .error e w'') :
    p w = .error e w'' ∨ ∃ a w', p w = .ok a w' ∧ k a w' = .error e w'' := by
  rw [bind_apply] at h
  split at h
  · exact .inr ⟨_, _, ‹_›, h⟩
  · cases h
    exact .inl ‹_›

theorem bind_of_ok {p : Prog d α} {k : α → Prog d β} {w w' : World d} {a : α}
    (h : p w = .ok a w') : (p >>= k) w = k a w' := by
  rw [bind_apply, h]

theorem bind_of_error {p : Prog d α} {k : α → Prog d β} {w w' : World d} {e : I.Err}
    (h : p w = .error e w') : (p >>= k) w = .error e w' := by
  rw [bind_apply, h]

theorem pure_ok {a b : α} {w w' : World d} (h : (pure a : Prog d α) w = .ok b w') :
    a = b ∧ w = w' := by
  cases h
  exact ⟨rfl, rfl⟩

theorem attempt_ok {p : Prog d α} {catches : I.Err → Bool} {handler : I.Err → Prog d α}
    {w w'' : World d} {a : α} (h : attempt p catches handler w = .ok a w'') :
    p w = .ok a w'' ∨
      ∃ e w', p w = .error e w' ∧ catches e = true ∧ handler e w' = .ok a w'' := by
  unfold attempt at h
  split at h
  · cases h
    exact .inl ‹_›
  · split at h
    · exact .inr ⟨_, _, ‹_›, ‹_›, h⟩
    · cases h

theorem attempt_error {p : Prog d α} {catches : I.Err → Bool} {handler : I.Err → Prog d α}
    {w w'' : World d} {e : I.Err} (h : attempt p catches handler w = .error e w'') :
    p w = .error e w'' ∨ ∃ e₁ w', p w = .error e₁ w' ∧ handler e₁ w' = .error e w'' := by
  unfold attempt at h
  split at h
  · cases h
  · split at h
    · exact .inr ⟨_, _, ‹_›, h⟩
    · cases h
      exact .inl ‹_›

theorem ensuring_ok {p : Prog d α} {q : Prog d Unit} {w w'' : World d} {a : α}
    (h : ensuring p q w = .ok a w'') : ∃ w', p w = .ok a w' ∧ q w' = .ok () w'' := by
  unfold ensuring at h
  split at h
  · split at h
    · cases h
      exact ⟨_, ‹_›, ‹_›⟩
    · cases h
  · split at h <;> cases h

theorem call_ok {c : I.Call} {a : I.Ans c} {w w' : World d} (h : call c w = .ok a w') :
    w'.vars = w.vars ∧ w'.trace = w.trace ++ [.call c (.ok a)] := by
  unfold call at h
  split at h
  · cases h
    exact ⟨rfl, rfl⟩
  · cases h

theorem call_error {c : I.Call} {e : I.Err} {w w' : World d} (h : call c w = .error e w') :
    w'.vars = w.vars ∧ w'.trace = w.trace ++ [.call c (.error e)] := by
  unfold call at h
  split at h
  · cases h
  · cases h
    exact ⟨rfl, rfl⟩

theorem call_answer {c : I.Call} {a : I.Ans c} {w w' : World d} (h : call c w = .ok a w') :
    (d.respond c w.dev).1 = .ok a := by
  unfold call at h
  split at h
  · rename_i hr
    cases h
    rw [hr]
  · cases h

theorem call_respond {c : I.Call} {a : I.Ans c} {w w' : World d} (h : call c w = .ok a w') :
    d.respond c w.dev = (.ok a, w'.dev) := by
  unfold call at h
  split at h
  · rename_i hr
    cases h
    exact hr
  · cases h

theorem call_of_respond {c : I.Call} {a : I.Ans c} {w : World d} {s : d.State}
    (h : d.respond c w.dev = (.ok a, s)) :
    call c w = .ok a { w with dev := s, trace := w.trace ++ [.call c (.ok a)] } := by
  unfold call
  rw [h]

theorem call_grows {c : I.Call} {a : I.Ans c} {w w' : World d} (h : call c w = .ok a w') :
    w.trace <+: w'.trace := ⟨_, (call_ok h).2.symm⟩

theorem call_since {c : I.Call} {a : I.Ans c} {w w' : World d} (h : call c w = .ok a w') :
    w.since w' = [.call c (.ok a)] := World.since_eq (call_ok h).2

/-- The weakest precondition of a program: `Q` where it returns, `E` where it raises. -/
def wp (p : Prog d α) (Q : α → World d → Prop) (E : I.Err → World d → Prop) (w : World d) : Prop :=
  match p w with
  | .ok a w' => Q a w'
  | .error e w' => E e w'

section
variable {Q Q' : α → World d → Prop} {E E' : I.Err → World d → Prop} {w : World d}

theorem wp.ok {p : Prog d α} {w' : World d} (h : wp p Q E w) (hp : p w = .ok a w') : Q a w' := by
  rwa [wp, hp] at h

theorem wp.error {p : Prog d α} {w' : World d} (h : wp p Q E w) (hp : p w = .error e w') :
    E e w' := by
  rwa [wp, hp] at h

theorem wp.mono {p : Prog d α} (h : wp p Q E w) (hQ : ∀ a w', Q a w' → Q' a w')
    (hE : ∀ e w', E e w' → E' e w') : wp p Q' E' w := by
  unfold wp at *
  split
  · rw [‹p w = _›] at h
    exact hQ _ _ h
  · rw [‹p w = _›] at h
    exact hE _ _ h

theorem wp_pure (a : α) : wp (pure a : Prog d α) Q E w ↔ Q a w := Iff.rfl

theorem wp_fail (e : I.Err) : wp (fail e : Prog d α) Q E w ↔ E e w := Iff.rfl

theorem wp_bind (p : Prog d β) (k : β → Prog d α) :
    wp (p >>= k) Q E w ↔ wp p (fun b w' => wp (k b) Q E w') E w := by
  unfold wp
  rw [bind_apply]
  cases p w <;> rfl

theorem wp.bind {p : Prog d β} {k : β → Prog d α} {R : β → World d → Prop} (h : wp p R E w)
    (hk : ∀ b w', R b w' → wp (k b) Q E w') : wp (p >>= k) Q E w :=
  (wp_bind p k).2 (h.mono hk fun _ _ he => he)

theorem wp_onlyIf {Q : Unit → World d → Prop} {c : Bool} {p : Prog d Unit}
    (hp : c = true → wp p Q E w) (hc : c = false → Q () w) : wp (onlyIf c p) Q E w := by
  cases c with
  | true => exact hp rfl
  | false => exact hc rfl

theorem wp_getVars {Q : I.Vars → World d → Prop} : wp getVars Q E w ↔ Q w.vars w := Iff.rfl

theorem wp_modifyVars {Q : Unit → World d → Prop} (f : I.Vars → I.Vars) :
    wp (modifyVars f) Q E w ↔ Q () { w with vars := f w.vars } := Iff.rfl

theorem wp_note {Q : Unit → World d → Prop} (n : I.Note) :
    wp (note n) Q E w ↔ Q () { w with trace := w.trace ++ [.note n] } := Iff.rfl

theorem wp_respond {c : I.Call} {Q : I.Ans c → World d → Prop}
    (hQ : ∀ a s, d.respond c w.dev = (.ok a, s) →
      Q a { w with dev := s, trace := w.trace ++ [.call c (.ok a)] })
    (hE : ∀ e s, d.respond c w.dev = (.error e, s) →
      E e { w with dev := s, trace := w.trace ++ [.call c (.error e)] }) :
    wp (call c) Q E w := by
  unfold wp call
  cases h : d.respond c w.dev with
  | mk r s =>
    cases r with
    | ok a => exact hQ a s h
    | error e => exact hE e s h

theorem wp_call {c : I.Call} {Q : I.Ans c → World d → Prop}
    (hQ : ∀ a s, Q a { w with dev := s, trace := w.trace ++ [.call c (.ok a)] })
    (hE : ∀ e s, E e { w with dev := s, trace := w.trace ++ [.call c (.error e)] }) :
    wp (call c) Q E w :=
  wp_respond (fun a s _ => hQ a s) fun e s _ => hE e s

theorem wp_attempt (p : Prog d α) (catches : I.Err → Bool) (handler : I.Err → Prog d α) :
    wp (attempt p catches handler) Q E w ↔
      wp p Q (fun e w' => if catches e then wp (handler e) Q E w' else E e w') w := by
  unfold wp attempt
  cases p w with
  | ok a w' => rfl
  | error e w' =>
    dsimp only
    by_cases h : catches e = true
    · simp only [if_pos h]
    · simp only [if_neg h]

/-- The postcondition on errors of a program that does not fail. -/
abbrev never : I.Err → World d → Prop := fun _ _ => False

theorem wp.succeeds {p : Prog d α} (h : wp p Q never w) : wp p Q E w :=
  h.mono (fun _ _ h => h) fun _ _ h => h.elim

theorem wp.returns {p : Prog d α} (h : wp p Q never w) : ∃ a w', p w = .ok a w' ∧ Q a w' := by
  unfold wp at h
  split at h
  · exact ⟨_, _, ‹_›, h⟩
  · exact h.elim

theorem wp.after {p : Prog d α} {P : World d → Prop} (h : wp p (fun _ => P) (fun _ => P) w) :
    P (World.after (p w)) := by
  unfold wp at h
  split at h <;> rw [‹p w = _›] <;> exact h

theorem wp.attempt_of_never {p : Prog d α} {catches : I.Err → Bool} {handler : I.Err → Prog d α}
    (h : wp p Q never w) : wp (attempt p catches handler) Q E w :=
  (wp_attempt p catches handler).2 h.succeeds

theorem wp.retry_of_never {p : Prog d α} {retryable : I.Err → Bool} {wait : Prog d Unit} (n : Nat)
    (h : wp p Q never w) : wp (retry retryable wait p n) Q E w := by
  cases n with
  | zero => exact h.succeeds
  | succ n => exact h.attempt_of_never

theorem wp_ensuring (p : Prog d α) (q : Prog d Unit) :
    wp (ensuring p q) Q E w ↔
      wp p (fun a w' => wp q (fun _ w'' => Q a w'') E w')
        (fun e w' => wp q (fun _ w'' => E e w'') E w') w := by
  unfold wp ensuring
  cases p w with
  | ok a w' => dsimp only; cases q w' <;> rfl
  | error e w' => dsimp only; cases q w' <;> rfl

theorem wp.retry {p : Prog d α} {retryable : I.Err → Bool} {wait : Prog d Unit}
    {Inv : World d → Prop} (hp : ∀ w, Inv w → wp p Q (fun e w' => E e w' ∧ Inv w') w)
    (hwait : ∀ w, Inv w → wp wait (fun _ => Inv) (fun e w' => E e w' ∧ Inv w') w) (n : Nat)
    (hw : Inv w) : wp (retry retryable wait p n) Q (fun e w' => E e w' ∧ Inv w') w := by
  induction n generalizing w with
  | zero => exact hp w hw
  | succ n ih =>
    rw [MesCore.retry, wp_attempt]
    refine (hp w hw).mono (fun _ _ h => h) fun e w' h => ?_
    split
    · rw [wp_bind]
      exact (hwait w' h.2).mono (fun _ w'' hi => ih hi) fun _ _ h => h
    · exact h

end

/-- A bound on what a run may do: which entries it may add and how it may move the variables. -/
structure Frame (I : Interface) where
  entry : Entry I → Prop
  vars : I.Vars → I.Vars → Prop
  refl : ∀ v, vars v v
  trans : ∀ {u v w}, vars u v → vars v w → vars u w

def Frame.Rel (F : Frame I) (w w' : World d) : Prop :=
  (∃ seg, w'.trace = w.trace ++ seg ∧ ∀ e ∈ seg, F.entry e) ∧ F.vars w.vars w'.vars

/-- Every run of `p` stays within the frame, returning or raising. -/
def Within (F : Frame I) (p : Prog d α) : Prop := ∀ w, F.Rel w (World.after (p w))

section
variable {F G : Frame I} {w w' w'' : World d}

theorem Frame.Rel.rfl : F.Rel w w := ⟨⟨[], by simp⟩, F.refl _⟩

theorem Frame.Rel.trans (h : F.Rel w w') (h' : F.Rel w' w'') : F.Rel w w'' := by
  obtain ⟨⟨s, hs, hf⟩, hv⟩ := h
  obtain ⟨⟨t, ht, hg⟩, hv'⟩ := h'
  refine ⟨⟨s ++ t, by rw [ht, hs, List.append_assoc], ?_⟩, F.trans hv hv'⟩
  intro e he
  rcases List.mem_append.1 he with h | h
  · exact hf e h
  · exact hg e h

theorem Frame.Rel.grows (h : F.Rel w w') : w.trace <+: w'.trace := by
  obtain ⟨⟨s, hs, _⟩, _⟩ := h
  exact ⟨s, hs.symm⟩

theorem Frame.Rel.since (h : F.Rel w w') : ∀ e ∈ w.since w', F.entry e := by
  obtain ⟨⟨s, hs, hf⟩, _⟩ := h
  rw [World.since_eq hs]
  exact hf

theorem Frame.Rel.mono (h : F.Rel w w') (he : ∀ e, F.entry e → G.entry e)
    (hv : ∀ u v, F.vars u v → G.vars u v) : G.Rel w w' := by
  obtain ⟨⟨s, hs, hf⟩, hv'⟩ := h
  exact ⟨⟨s, hs, fun e h => he e (hf e h)⟩, hv _ _ hv'⟩

theorem Within.wp {p : Prog d α} (h : Within F p) :
    wp p (fun _ w' => F.Rel w w') (fun _ w' => F.Rel w w') w := by
  have hw := h w
  unfold MesCore.wp
  cases hp : p w <;> rw [hp] at hw <;> exact hw

theorem Within.ok {p : Prog d α} (h : Within F p) (hp : p w = .ok a w') : F.Rel w w' :=
  h.wp.ok hp

theorem Within.error {p : Prog d α} (h : Within F p) (hp : p w = .error e w') : F.Rel w w' :=
  h.wp.error hp

theorem Within.of_wp {p : Prog d α}
    (h : ∀ w, MesCore.wp p (fun _ w' => F.Rel w w') (fun _ w' => F.Rel w w') w) : Within F p := by
  intro w
  have hw := h w
  unfold MesCore.wp at hw
  cases hp : p w <;> rw [hp] at hw <;> exact hw

theorem Within.mono {p : Prog d α} (h : Within F p) (he : ∀ e, F.entry e → G.entry e)
    (hv : ∀ u v, F.vars u v → G.vars u v) : Within G p :=
  fun w => (h w).mono he hv

theorem Within.pure (a : α) : Within F (pure a : Prog d α) := fun _ => .rfl

theorem Within.fail (e : I.Err) : Within F (fail e : Prog d α) := fun _ => .rfl

theorem Within.getVars : Within F (getVars : Prog d I.Vars) := fun _ => .rfl

theorem Within.call (c : I.Call) (h : ∀ r, F.entry (.call c r)) :
    Within F (call c : Prog d (I.Ans c)) := by
  apply Within.of_wp
  intro w
  apply wp_call
  · intro a s
    exact ⟨⟨[_], rfl, by simpa using h _⟩, F.refl _⟩
  · intro e s
    exact ⟨⟨[_], rfl, by simpa using h _⟩, F.refl _⟩

theorem Within.note (n : I.Note) (h : F.entry (.note n)) : Within F (note n : Prog d Unit) :=
  fun _ => ⟨⟨[_], rfl, by simpa using h⟩, F.refl _⟩

theorem Within.modifyVars (f : I.Vars → I.Vars) (h : ∀ v, F.vars v (f v)) :
    Within F (modifyVars f : Prog d Unit) :=
  fun _ => ⟨⟨[], by simp [MesCore.modifyVars]⟩, h _⟩

theorem Within.bind {p : Prog d α} {k : α → Prog d β} (hp : Within F p)
    (hk : ∀ a, Within F (k a)) : Within F (p >>= k) := by
  apply Within.of_wp
  intro w
  rw [wp_bind]
  exact hp.wp.mono
    (fun a w' h => (hk a).wp.mono (fun _ _ h' => h.trans h') (fun _ _ h' => h.trans h'))
    (fun _ _ h => h)

theorem Within.attempt {p : Prog d α} {handler : I.Err → Prog d α} (hp : Within F p)
    (catches : I.Err → Bool) (hh : ∀ e, Within F (handler e)) :
    Within F (attempt p catches handler) := by
  apply Within.of_wp
  intro w
  rw [wp_attempt]
  refine hp.wp.mono (fun _ _ h => h) fun e w' h => ?_
  split
  · exact (hh e).wp.mono (fun _ _ h' => h.trans h') (fun _ _ h' => h.trans h')
  · exact h

theorem Within.ensuring {p : Prog d α} {q : Prog d Unit} (hp : Within F p) (hq : Within F q) :
    Within F (ensuring p q) := by
  apply Within.of_wp
  intro w
  rw [wp_ensuring]
  exact hp.wp.mono
    (fun _ _ h => hq.wp.mono (fun _ _ h' => h.trans h') (fun _ _ h' => h.trans h'))
    (fun _ _ h => hq.wp.mono (fun _ _ h' => h.trans h') (fun _ _ h' => h.trans h'))

theorem Within.retry {p : Prog d α} {wait : Prog d Unit} (hp : Within F p) (hw : Within F wait)
    (retryable : I.Err → Bool) (n : Nat) : Within F (retry retryable wait p n) := by
  induction n with
  | zero => exact hp
  | succ n ih => exact hp.attempt _ fun _ => hw.bind fun _ => ih

theorem Within.onlyIf (c : Bool) {p : Prog d Unit} (hp : Within F p) :
    Within F (onlyIf c p) := by
  cases c with
  | true => exact hp
  | false => exact .pure ()

theorem Within.ite {c : Prop} [Decidable c] {p q : Prog d α} (hp : Within F p)
    (hq : Within F q) : Within F (if c then p else q) := by
  split
  · exact hp
  · exact hq

end

end MesCore
