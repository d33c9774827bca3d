import MesCore.CallHistory

namespace MesCore
set_option autoImplicit true

variable {I : Interface} {d : Device I}

/-- A course of events a device can take: every entry is its answer at that point. -/
inductive History (d : Device I) : d.State → List (Entry I) → d.State → Prop
  | nil (s : d.State) : History d s [] s
  | call (c : I.Call) : History d (d.respond c s).2 seg s' →
      History d s (.call c (d.respond c s).1 :: seg) s'
  | note (n : I.Note) : History d s seg s' → History d s (.note n :: seg) s'

theorem History.append (h : History d s seg s') (h' : History d s' seg' s'') :
    History d s (seg ++ seg') s'' := by
  induction h with
  | nil s => exact h'
  | call c _ ih => exact .call c (ih h')
  | note n _ ih => exact .note n (ih h')

theorem History.split (h : History d s (seg ++ seg') s'') :
    ∃ s', History d s seg s' ∧ History d s' seg' s'' := by
  induction seg generalizing s with
  | nil => exact ⟨s, .nil s, h⟩
  | cons e seg ih =>
    cases h with
    | call c h =>
      obtain ⟨s', h₁, h₂⟩ := ih h
      exact ⟨s', .call c h₁, h₂⟩
    | note n h =>
      obtain ⟨s', h₁, h₂⟩ := ih h
      exact ⟨s', .note n h₁, h₂⟩

/-- Programs that touch the device by calls of one kind, and by nothing else. -/
inductive CallsOnly (kind : I.Call → Prop) : {α : Type} → Prog d α → Prop
  | pure (a : α) : CallsOnly kind (Pure.pure a)
  | fail (e : I.Err) : CallsOnly kind (fail e : Prog d α)
  | getVars : CallsOnly kind getVars
  | modifyVars (f : I.Vars → I.Vars) : CallsOnly kind (modifyVars f)
  | note (n : I.Note) : CallsOnly kind (note n)
  | call (c : I.Call) : kind c → CallsOnly kind (call c)
  | bind : CallsOnly kind p → (∀ a, CallsOnly kind (k a)) → CallsOnly kind (p >>= k)
  | attempt : CallsOnly kind p → (∀ e, CallsOnly kind (handler e)) →
      CallsOnly kind (attempt p catches handler)
  | ensuring : CallsOnly kind p → CallsOnly kind q → CallsOnly kind (ensuring p q)

/-- The device took a course of events from one world to the other, by calls of one kind. -/
def Recorded (kind : I.Call → Prop) (w w' : World d) : Prop :=
  ∃ seg, w'.trace = w.trace ++ seg ∧ History d w.dev seg w'.dev ∧
    ∀ c r, .call c r ∈ seg → kind c

section
variable {kind kind' : I.Call → Prop} {w w' w'' : World d}

theorem Recorded.refl (h : w'.trace = w.trace) (hdev : w'.dev = w.dev) : Recorded kind w w' := by
  refine ⟨[], by rw [h, List.append_nil], by rw [hdev]; exact .nil _, ?_⟩
  intro c r hmem
  cases hmem

theorem Recorded.trans (h : Recorded kind w w') (h' : Recorded kind w' w'') :
    Recorded kind w w'' := by
  obtain ⟨seg, hseg, hhist, hkind⟩ := h
  obtain ⟨seg', hseg', hhist', hkind'⟩ := h'
  refine ⟨seg ++ seg', by rw [hseg', hseg, List.append_assoc], hhist.append hhist', ?_⟩
  intro c r hmem
  rcases List.mem_append.1 hmem with hmem | hmem
  · exact hkind c r hmem
  · exact hkind' c r hmem

theorem Recorded.grows (h : Recorded kind w w') : w.trace <+: w'.trace := by
  obtain ⟨seg, hseg, _⟩ := h
  exact ⟨seg, hseg.symm⟩

theorem Recorded.since (h : Recorded kind w w') : ∀ c r, .call c r ∈ w.since w' → kind c := by
  obtain ⟨seg, hseg, _, hkind⟩ := h
  rw [World.since_eq hseg]
  exact hkind

theorem Recorded.history (h : Recorded kind w w') : History d w.dev (w.since w') w'.dev := by
  obtain ⟨seg, hseg, hhist, _⟩ := h
  rw [World.since_eq hseg]
  exact hhist

theorem recorded_call {c : I.Call} (hc : kind c) {w : World d} :
    wp (call c) (fun _ => Recorded kind w) (fun _ => Recorded kind w) w := by
  have hone (r : Except I.Err (I.Ans c)) (s : d.State) (hr : d.respond c w.dev = (r, s)) :
      Recorded kind w { w with dev := s, trace := w.trace ++ [.call c r] } := by
    refine ⟨[.call c r], rfl, ?_, ?_⟩
    · have h : History d w.dev [.call c (d.respond c w.dev).1] (d.respond c w.dev).2 :=
        .call c (.nil _)
      rw [hr] at h
      exact h
    · intro c' r' hmem
      cases List.mem_singleton.1 hmem
      exact hc
  exact wp_respond (fun a s => hone (.ok a) s) fun e s => hone (.error e) s

theorem CallsOnly.wp {p : Prog d α} (h : CallsOnly kind p) :
    ∀ w, MesCore.wp p (fun _ => Recorded kind w) (fun _ => Recorded kind w) w := by
  induction h with
  | pure a => exact fun w => .refl rfl rfl
  | fail e => exact fun w => .refl rfl rfl
  | getVars => exact fun w => .refl rfl rfl
  | modifyVars f => exact fun w => .refl rfl rfl
  | note n =>
    intro w
    refine ⟨[.note n], rfl, .note n (.nil _), ?_⟩
    intro c r hmem
    cases List.mem_singleton.1 hmem
  | call c hc => exact fun w => recorded_call hc
  | bind _ _ ihp ihk =>
    intro w
    rw [wp_bind]
    apply (ihp w).mono
    · intro a w' h
      exact (ihk a w').mono (fun _ _ h' => h.trans h') fun _ _ h' => h.trans h'
    · exact fun _ _ h => h
  | attempt _ _ ihp ihh =>
    intro w
    rw [wp_attempt]
    apply (ihp w).mono
    · exact fun _ _ h => h
    · intro e w' h
      split
      · exact (ihh e w').mono (fun _ _ h' => h.trans h') fun _ _ h' => h.trans h'
      · exact h
  | ensuring _ _ ihp ihq =>
    intro w
    rw [wp_ensuring]
    apply (ihp w).mono
    · intro a w' h
      exact (ihq w').mono (fun _ _ h' => h.trans h') fun _ _ h' => h.trans h'
    · intro e w' h
      exact (ihq w').mono (fun _ _ h' => h.trans h') fun _ _ h' => h.trans h'

theorem CallsOnly.ok {p : Prog d α} (h : CallsOnly kind p) (hp : p w = .ok a w') :
    Recorded kind w w' :=
  (h.wp w).ok hp

theorem CallsOnly.leaves {p : Prog d α} (h : CallsOnly kind p) :
    Leaves p (fun _ seg => ∀ c r, .call c r ∈ seg → kind c)
      fun _ seg => ∀ c r, .call c r ∈ seg → kind c := by
  refine ⟨fun w => (h.wp w).mono (fun _ w' hr => ?_) fun _ w' hr => ?_⟩
  · exact ⟨w.since w', World.trace_since hr.grows, hr.since⟩
  · exact ⟨w.since w', World.trace_since hr.grows, hr.since⟩

theorem CallsOnly.mono {p : Prog d α} (h : CallsOnly kind p) (hk : ∀ c, kind c → kind' c) :
    CallsOnly kind' p := by
  induction h with
  | pure a => exact .pure a
  | fail e => exact .fail e
  | getVars => exact .getVars
  | modifyVars f => exact .modifyVars f
  | note n => exact .note n
  | call c hc => exact .call c (hk c hc)
  | bind _ _ ihp ihk => exact .bind ihp ihk
  | attempt _ _ ihp ihh => exact .attempt ihp ihh
  | ensuring _ _ ihp ihq => exact .ensuring ihp ihq

theorem CallsOnly.ite {c : Prop} [Decidable c] {p q : Prog d α} (hp : CallsOnly kind p)
    (hq : CallsOnly kind q) : CallsOnly kind (if c then p else q) := by
  split
  · exact hp
  · exact hq

theorem CallsOnly.onlyIf (c : Bool) {p : Prog d Unit} (hp : CallsOnly kind p) :
    CallsOnly kind (onlyIf c p) :=
  .ite hp (.pure ())

theorem CallsOnly.retry {p : Prog d α} {wait : Prog d Unit} (hp : CallsOnly kind p)
    (hw : CallsOnly kind wait) (retryable : I.Err → Bool) (n : Nat) :
    CallsOnly kind (retry retryable wait p n) := by
  induction n with
  | zero => exact hp
  | succ n ih => exact hp.attempt fun _ => hw.bind fun _ => ih

end

end MesCore
