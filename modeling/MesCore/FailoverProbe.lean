import MesCore.Runs
import MesCore.Workers

namespace MesCore
set_option autoImplicit true

/-- Where a recovery thread stands in `_probe_primary_recovery`; a thread that is `leaving` has
read the stop flag and has not ended yet. -/
inductive ProbePc
  | unborn
  | loop
  | check
  | dial
  | connecting
  | ping
  | wait
  | leaving
  | ended
  deriving DecidableEq

instance : ThreadPlace ProbePc where
  unborn := .unborn
  alive
    | .unborn | .ended => false
    | _ => true
  unborn_dead := rfl

/-- Where a caller stands in `connect` (up to `launch`) or in `disconnect`. The places from
`isConnected` to `settle` and from `guard` to `launch` hold `_connect_lock`. -/
inductive LifecyclePc
  | idle
  | lock
  | isConnected
  | fallback
  | primary
  | settle (failedOver : Bool)
  | rearm
  | guard
  | clear
  | create
  | launch
  | stop
  | look
  | join (t : Nat)
  | dropPrimary
  | dropFallback
  deriving DecidableEq

inductive LifecycleCall
  | connect
  | disconnect

/-- What a call of a transport comes to. -/
inductive LinkOutcome
  | ok
  | connectionError
  | otherError
  deriving DecidableEq

/-- A `FailoverTransport`, its recovery threads with the attribute `_recovery_thread`, and the
callers of `connect` and `disconnect`. The last two fields are no attributes: a `connect` that
armed the matrix has returned and no `disconnect` was called since, and a `disconnect` has
returned and no `connect` was called since. -/
structure FailoverMatrix (C : Type) extends Crew ProbePc where
  failedOver : Bool := false
  primaryUp : Bool := false
  fallbackUp : Bool := false
  stopSet : Bool := false
  lock : Option C := none
  caller : C → LifecyclePc := fun _ => .idle
  armed : Bool := false
  torn : Bool := false

/-- One step: a caller begins a call or goes on with it, a `join` gives up after its second, a
recovery thread goes on, a `safe_run` fails over, or the links come and go by themselves. -/
inductive MatrixAct (C : Type)
  | begin (c : C) (call : LifecycleCall)
  | advance (c : C) (outcome : LinkOutcome)
  | timeout (c : C)
  | probe (t : Nat) (outcome : LinkOutcome)
  | failOver
  | links (primaryUp fallbackUp : Bool)

section
variable (s : FailoverMatrix C)

def FailoverMatrix.isConnected : Bool := if s.failedOver then s.fallbackUp else s.primaryUp

/-- The next step of a recovery thread: the matrix and the thread's place after it. Whatever the
primary raises is swallowed, and the ping only counts where it is answered. -/
def FailoverMatrix.probeNext (outcome : LinkOutcome) :
    ProbePc → Option (FailoverMatrix C × ProbePc)
  | .unborn | .ended => none
  | .loop => some (s, if s.stopSet then .leaving else .check)
  | .check => some (s, if s.failedOver then .dial else .wait)
  | .dial => some (s, if s.primaryUp then .ping else .connecting)
  | .connecting =>
    match outcome with
    | .ok => some ({ s with primaryUp := true }, .ping)
    | _ => some (s, .wait)
  | .ping =>
    match outcome with
    | .ok => some ({ s with failedOver := false }, .wait)
    | _ => some (s, .wait)
  | .wait => some (s, .loop)
  | .leaving => some (s, .ended)

def FailoverMatrix.probeStep (t : Nat) (outcome : LinkOutcome) : Option (FailoverMatrix C) :=
  (s.probeNext outcome (s.place t)).map fun next =>
    { next.1 with toCrew := s.toCrew.goto t next.2 }

end

section
variable [DecidableEq C] (s : FailoverMatrix C)

def FailoverMatrix.goOn (c : C) (pc : LifecyclePc) : FailoverMatrix C :=
  { s with caller := Function.update s.caller c pc }

/-- Leaving the `with` block, by its end or by an exception. -/
def FailoverMatrix.release (c : C) (pc : LifecyclePc) : FailoverMatrix C :=
  { s with lock := none }.goOn c pc

/-- The next statement of `connect`, `_start_recovery_thread` or `disconnect`. A call that raises
ends there. -/
def FailoverMatrix.advance (c : C) (outcome : LinkOutcome) : Option (FailoverMatrix C) :=
  match s.caller c with
  | .idle => none
  | .lock => if s.lock = none then some ({ s with lock := some c }.goOn c .isConnected) else none
  | .isConnected => some (if s.isConnected then s.release c .idle else s.goOn c .fallback)
  | .fallback =>
    match outcome with
    | .ok => some ({ s with fallbackUp := true }.goOn c .primary)
    | _ => some (s.release c .idle)
  | .primary =>
    match outcome with
    | .ok => some ({ s with primaryUp := true }.goOn c (.settle false))
    | .connectionError => some (s.goOn c (.settle true))
    | .otherError => some (s.release c .idle)
  | .settle failedOver => some ({ s with failedOver := failedOver }.release c .rearm)
  | .rearm => if s.lock = none then some ({ s with lock := some c }.goOn c .guard) else none
  | .guard =>
    match s.thread with
    | some t =>
      some (if s.alive t then { s with armed := true }.release c .idle else s.goOn c .clear)
    | none => some (s.goOn c .clear)
  | .clear => some ({ s with stopSet := false }.goOn c .create)
  | .create => some ({ s with toCrew := s.toCrew.create }.goOn c .launch)
  | .launch =>
    match s.thread with
    | some t =>
      if s.place t = .unborn then
        some ({ s with toCrew := s.toCrew.goto t .loop, armed := true }.release c .idle)
      else some (s.release c .idle)
    | none => some (s.release c .idle)
  | .stop => some ({ s with stopSet := true }.goOn c .look)
  | .look =>
    match s.thread with
    | some t => some (s.goOn c (if s.alive t then .join t else .dropPrimary))
    | none => some (s.goOn c .dropPrimary)
  | .join t => if s.alive t then none else some (s.goOn c .dropPrimary)
  | .dropPrimary =>
    match outcome with
    | .ok => some ({ s with primaryUp := false }.goOn c .dropFallback)
    | _ => some (s.goOn c .idle)
  | .dropFallback =>
    match outcome with
    | .ok => some ({ s with fallbackUp := false, torn := true }.goOn c .idle)
    | _ => some (s.goOn c .idle)

def FailoverMatrix.begin (c : C) : LifecycleCall → FailoverMatrix C
  | .connect => { s with torn := false }.goOn c .lock
  | .disconnect => { s with armed := false }.goOn c .stop

def FailoverMatrix.step : MatrixAct C → Option (FailoverMatrix C)
  | .begin c call => if s.caller c = .idle then some (s.begin c call) else none
  | .advance c outcome => s.advance c outcome
  | .timeout c =>
    match s.caller c with
    | .join _ => some (s.goOn c .dropPrimary)
    | _ => none
  | .probe t outcome => s.probeStep t outcome
  | .failOver => some { s with failedOver := true }
  | .links primaryUp fallbackUp =>
    some { s with primaryUp := primaryUp, fallbackUp := fallbackUp }

end

def LifecyclePc.connecting : LifecyclePc → Bool
  | .lock | .isConnected | .fallback | .primary | .settle _ | .rearm | .guard | .clear | .create
  | .launch => true
  | _ => false

def LifecyclePc.disconnecting : LifecyclePc → Bool
  | .stop | .look | .join _ | .dropPrimary | .dropFallback => true
  | _ => false

section
variable (s : FailoverMatrix C)

def FailoverMatrix.OneProbe : Prop := ∀ t u, s.alive t = true → s.alive u = true → t = u

/-- The probe follows the lifecycle: an armed matrix has a thread whose stop flag is clear, no two
threads run, and after a `disconnect` no thread brings the primary up. -/
def FailoverMatrix.Followed : Prop :=
  (s.armed = true → ∃ t, s.alive t = true ∧ s.stopSet = false) ∧ s.OneProbe ∧
    (s.torn = true → ∀ t outcome s', s.probeStep t outcome = some s' →
      s'.primaryUp = true → s.primaryUp = true)

/-- A `connect` and a `disconnect` do not overlap, and `join` does not give up while the thread
lives. -/
def FailoverMatrix.Joined : MatrixAct C → Prop
  | .begin _ .connect => ∀ c, (s.caller c).disconnecting = false
  | .begin _ .disconnect => ∀ c, (s.caller c).connecting = false
  | .timeout c => ∀ t, s.caller c = .join t → s.alive t = false
  | _ => True

end

/-- The places that hold `_connect_lock`. -/
def LifecyclePc.holds : LifecyclePc → Bool
  | .isConnected | .fallback | .primary | .settle _ | .guard | .clear | .create | .launch => true
  | _ => false

/-- The places of `_start_recovery_thread` behind its guard. -/
def LifecyclePc.arming : LifecyclePc → Bool
  | .clear | .create | .launch => true
  | _ => false

/-- What `_connect_lock` guards, in every run. -/
structure FailoverMatrix.Guarded (s : FailoverMatrix C) : Prop where
  crew : s.toCrew.Sound
  lock : ∀ c, (s.caller c).holds = true → s.lock = some c
  dead : ∀ c, (s.caller c).arming = true → ∀ t, s.alive t = false

theorem LifecyclePc.holds_of_arming {pc : LifecyclePc} (h : pc.arming = true) :
    pc.holds = true := by
  cases pc with
  | clear | create | launch => rfl
  | _ => cases h

section
variable {s s' : FailoverMatrix C} {c : C} {t : Nat} {pc : LifecyclePc} {outcome : LinkOutcome}

theorem FailoverMatrix.guarded_init : ({} : FailoverMatrix C).Guarded where
  crew := Crew.sound_init
  lock _ hc := nomatch hc
  dead _ hc := nomatch hc

/-- Only a live thread takes steps, and what it does to the matrix leaves the crew, the callers,
the lock and the stop flag alone. It leaves its loop only where the stop flag is set. -/
theorem FailoverMatrix.probeStep_cases (h : s.probeStep t outcome = some s') :
    s.alive t = true ∧ ∃ pc up failed,
      s' = { s with toCrew := s.toCrew.goto t pc, primaryUp := up, failedOver := failed } ∧
        (s.place t ≠ .leaving → ThreadPlace.alive pc = true) ∧
        (pc = .leaving → s.stopSet = true) := by
  obtain ⟨⟨m, pc⟩, hnext, rfl⟩ := Option.map_eq_some_iff.1 h
  rw [Crew.alive]
  cases hpc : s.place t with
  | unborn =>
    rw [hpc] at hnext
    cases hnext
  | ended =>
    rw [hpc] at hnext
    cases hnext
  | loop =>
    rw [hpc] at hnext
    cases hnext
    refine ⟨rfl, _, _, _, rfl, fun _ => ?_, fun hleave => ?_⟩
    · split <;> rfl
    · by_contra hset
      rw [if_neg hset] at hleave
      cases hleave
  | check =>
    rw [hpc] at hnext
    cases hnext
    refine ⟨rfl, _, _, _, rfl, fun _ => ?_, fun hleave => ?_⟩
    · split <;> rfl
    · split at hleave <;> cases hleave
  | dial =>
    rw [hpc] at hnext
    cases hnext
    refine ⟨rfl, _, _, _, rfl, fun _ => ?_, fun hleave => ?_⟩
    · split <;> rfl
    · split at hleave <;> cases hleave
  | connecting =>
    rw [hpc] at hnext
    cases outcome <;> cases hnext <;> exact ⟨rfl, _, _, _, rfl, fun _ => rfl, by simp⟩
  | ping =>
    rw [hpc] at hnext
    cases outcome <;> cases hnext <;> exact ⟨rfl, _, _, _, rfl, fun _ => rfl, by simp⟩
  | wait =>
    rw [hpc] at hnext
    cases hnext
    exact ⟨rfl, _, _, _, rfl, fun _ => rfl, by simp⟩
  | leaving =>
    rw [hpc] at hnext
    cases hnext
    exact ⟨rfl, _, _, _, rfl, fun hne => absurd rfl hne, by simp⟩

theorem FailoverMatrix.Guarded.probeStep (h : s.Guarded)
    (hs : s.probeStep t outcome = some s') : s'.Guarded := by
  obtain ⟨hlive, pc, up, failed, rfl, -⟩ := probeStep_cases hs
  refine ⟨h.crew.step hlive pc, h.lock, fun c hc => ?_⟩
  have hdead := h.dead c hc t
  rw [hlive] at hdead
  cases hdead

end

section
variable [DecidableEq C] {s s' : FailoverMatrix C} {c : C} {t : Nat} {pc : LifecyclePc}
  {outcome : LinkOutcome}

theorem FailoverMatrix.Guarded.goOn (h : s.Guarded) (hlock : pc.holds = true → s.lock = some c)
    (hdead : pc.arming = true → ∀ t, s.alive t = false) : (s.goOn c pc).Guarded :=
  ⟨h.crew,
    (Function.forall_update_iff _ fun u (pc : LifecyclePc) => pc.holds = true → s.lock = some u).2
      ⟨hlock, fun u _ => h.lock u⟩,
    (Function.forall_update_iff _ fun _ (pc : LifecyclePc) =>
      pc.arming = true → ∀ t, s.alive t = false).2 ⟨hdead, fun u _ => h.dead u⟩⟩

theorem FailoverMatrix.Guarded.guarded (h : s.Guarded) (hfree : ∀ u, s.lock = some u → u = c)
    (hcaller : s'.caller = Function.update s.caller c pc) (hcrew : s'.toCrew.Sound)
    (hlock : pc.holds = true → s'.lock = some c)
    (hdead : pc.arming = true → ∀ t, s'.alive t = false) : s'.Guarded := by
  have hout (u : C) (hu : u ≠ c) : (s.caller u).holds ≠ true :=
    fun hholds => hu (hfree u (h.lock u hholds))
  refine ⟨hcrew, ?_, ?_⟩
  · rw [hcaller]
    exact (Function.forall_update_iff _ fun u (pc : LifecyclePc) =>
      pc.holds = true → s'.lock = some u).2 ⟨hlock, fun u hu hholds => absurd hholds (hout u hu)⟩
  · rw [hcaller]
    exact (Function.forall_update_iff _ fun _ (pc : LifecyclePc) =>
      pc.arming = true → ∀ t, s'.alive t = false).2
        ⟨hdead, fun u hu harming => absurd (LifecyclePc.holds_of_arming harming) (hout u hu)⟩

/-- The statements of `connect` and `_start_recovery_thread`. -/
inductive FailoverMatrix.Connecting (s : FailoverMatrix C) (c : C) : FailoverMatrix C → Prop
  | lock (hpc : s.caller c = .lock) (hfree : s.lock = none) :
      s.Connecting c ({ s with lock := some c }.goOn c .isConnected)
  | leave (hholds : (s.caller c).holds = true) : s.Connecting c (s.release c .idle)
  | unconnected (hpc : s.caller c = .isConnected) : s.Connecting c (s.goOn c .fallback)
  | fallback (hpc : s.caller c = .fallback) :
      s.Connecting c ({ s with fallbackUp := true }.goOn c .primary)
  | primary (hpc : s.caller c = .primary) :
      s.Connecting c ({ s with primaryUp := true }.goOn c (.settle false))
  | primaryDown (hpc : s.caller c = .primary) : s.Connecting c (s.goOn c (.settle true))
  | settle {failed : Bool} (hpc : s.caller c = .settle failed) :
      s.Connecting c ({ s with failedOver := failed }.release c .rearm)
  | rearm (hpc : s.caller c = .rearm) (hfree : s.lock = none) :
      s.Connecting c ({ s with lock := some c }.goOn c .guard)
  | armed {t : Nat} (hpc : s.caller c = .guard) (hlive : s.alive t = true) :
      s.Connecting c ({ s with armed := true }.release c .idle)
  | unarmed (hpc : s.caller c = .guard) (hdead : ∀ t, s.thread = some t → s.alive t = false) :
      s.Connecting c (s.goOn c .clear)
  | clear (hpc : s.caller c = .clear) :
      s.Connecting c ({ s with stopSet := false }.goOn c .create)
  | create (hpc : s.caller c = .create) :
      s.Connecting c ({ s with toCrew := s.toCrew.create }.goOn c .launch)
  | launch {t : Nat} (hpc : s.caller c = .launch) (ht : s.thread = some t) :
      s.Connecting c ({ s with toCrew := s.toCrew.goto t .loop, armed := true }.release c .idle)

/-- The statements of `disconnect`. -/
inductive FailoverMatrix.Disconnecting (s : FailoverMatrix C) (c : C) : FailoverMatrix C → Prop
  | stop (hpc : s.caller c = .stop) : s.Disconnecting c ({ s with stopSet := true }.goOn c .look)
  | join {t : Nat} (hpc : s.caller c = .look) (ht : s.thread = some t) :
      s.Disconnecting c (s.goOn c (.join t))
  | gone (hpc : s.caller c = .look ∨ ∃ t, s.caller c = .join t ∧ s.alive t = false)
      (hdead : s.caller c = .look → ∀ t, s.thread = some t → s.alive t = false) :
      s.Disconnecting c (s.goOn c .dropPrimary)
  | dropPrimary (hpc : s.caller c = .dropPrimary) :
      s.Disconnecting c ({ s with primaryUp := false }.goOn c .dropFallback)
  | dropFallback (hpc : s.caller c = .dropFallback) :
      s.Disconnecting c ({ s with fallbackUp := false, torn := true }.goOn c .idle)
  | raised (hpc : s.caller c = .dropPrimary ∨ s.caller c = .dropFallback) :
      s.Disconnecting c (s.goOn c .idle)

theorem FailoverMatrix.connecting_of_advance (hc : (s.caller c).connecting = true)
    (hs : s.advance c outcome = some s') : s.Connecting c s' := by
  unfold FailoverMatrix.advance at hs
  have leave (pc : LifecyclePc) (hpc : s.caller c = pc) (hholds : pc.holds = true) :
      s.Connecting c (s.release c .idle) := .leave (by rw [hpc, hholds])
  cases hpc : s.caller c with
  | idle | stop | look | join | dropPrimary | dropFallback =>
    rw [hpc] at hc
    cases hc
  | lock =>
    simp only [hpc] at hs
    split at hs
    · cases hs
      exact .lock hpc ‹_›
    · cases hs
  | isConnected =>
    simp only [hpc] at hs
    cases hs
    split
    · exact leave _ hpc rfl
    · exact .unconnected hpc
  | fallback =>
    simp only [hpc] at hs
    split at hs
    · cases hs
      exact .fallback hpc
    · cases hs
      exact leave _ hpc rfl
  | primary =>
    simp only [hpc] at hs
    split at hs
    · cases hs
      exact .primary hpc
    · cases hs
      exact .primaryDown hpc
    · cases hs
      exact leave _ hpc rfl
  | settle failed =>
    simp only [hpc] at hs
    cases hs
    exact .settle hpc
  | rearm =>
    simp only [hpc] at hs
    split at hs
    · cases hs
      exact .rearm hpc ‹_›
    · cases hs
  | guard =>
    simp only [hpc] at hs
    cases ht : s.thread with
    | none =>
      simp only [ht] at hs
      cases hs
      refine .unarmed hpc fun t hthread => ?_
      rw [ht] at hthread
      cases hthread
    | some t =>
      simp only [ht] at hs
      cases hs
      split
      · exact .armed hpc ‹_›
      · refine .unarmed hpc fun u hthread => ?_
        rw [ht] at hthread
        cases hthread
        exact Bool.eq_false_iff.2 ‹_›
  | clear =>
    simp only [hpc] at hs
    cases hs
    exact .clear hpc
  | create =>
    simp only [hpc] at hs
    cases hs
    exact .create hpc
  | launch =>
    simp only [hpc] at hs
    split at hs
    · split at hs
      · cases hs
        exact .launch hpc ‹_›
      · cases hs
        exact leave _ hpc rfl
    · cases hs
      exact leave _ hpc rfl

theorem FailoverMatrix.disconnecting_of_advance (hc : (s.caller c).disconnecting = true)
    (hs : s.advance c outcome = some s') : s.Disconnecting c s' := by
  unfold FailoverMatrix.advance at hs
  cases hpc : s.caller c with
  | idle | lock | isConnected | fallback | primary | settle | rearm | guard | clear | create
  | launch =>
    rw [hpc] at hc
    cases hc
  | stop =>
    simp only [hpc] at hs
    cases hs
    exact .stop hpc
  | look =>
    simp only [hpc] at hs
    cases ht : s.thread with
    | none =>
      simp only [ht] at hs
      cases hs
      refine .gone (.inl hpc) fun _ t hthread => ?_
      rw [ht] at hthread
      cases hthread
    | some t =>
      simp only [ht] at hs
      cases hs
      split
      · exact .join hpc ht
      · refine .gone (.inl hpc) fun _ u hthread => ?_
        rw [ht] at hthread
        cases hthread
        exact Bool.eq_false_iff.2 ‹_›
  | join t =>
    simp only [hpc] at hs
    split at hs
    · cases hs
    · cases hs
      refine .gone (.inr ⟨t, hpc, Bool.eq_false_iff.2 ‹_›⟩) fun hlook => ?_
      rw [hpc] at hlook
      cases hlook
  | dropPrimary =>
    simp only [hpc] at hs
    split at hs
    · cases hs
      exact .dropPrimary hpc
    · cases hs
      exact .raised (.inl hpc)
  | dropFallback =>
    simp only [hpc] at hs
    split at hs
    · cases hs
      exact .dropFallback hpc
    · cases hs
      exact .raised (.inr hpc)

theorem FailoverMatrix.advance_cases (hs : s.advance c outcome = some s') :
    s.Connecting c s' ∨ s.Disconnecting c s' := by
  cases hpc : s.caller c with
  | idle =>
    unfold FailoverMatrix.advance at hs
    rw [hpc] at hs
    cases hs
  | stop | look | join | dropPrimary | dropFallback =>
    exact .inr (disconnecting_of_advance (by rw [hpc]; rfl) hs)
  | _ => exact .inl (connecting_of_advance (by rw [hpc]; rfl) hs)

theorem FailoverMatrix.Guarded.connecting (h : s.Guarded) (hs : s.Connecting c s') :
    s'.Guarded := by
  have hlock {pc : LifecyclePc} (hpc : s.caller c = pc) (hholds : pc.holds = true) :
      s.lock = some c := h.lock c (by rw [hpc, hholds])
  -- what holds the lock alone
  have hmine (hmine : s.lock = some c) (u : C) (hu : s.lock = some u) : u = c := by
    rw [hmine] at hu
    exact (Option.some.inj hu).symm
  have hnobody (hnone : s.lock = none) (u : C) (hu : s.lock = some u) : u = c := by
    rw [hnone] at hu
    cases hu
  have hdead {pc : LifecyclePc} (hpc : s.caller c = pc) (harming : pc.arming = true) :
      ∀ t, s.alive t = false := h.dead c (by rw [hpc, harming])
  cases hs with
  | lock hpc hfree | rearm hpc hfree =>
    exact h.guarded (hnobody hfree) rfl h.crew (fun _ => rfl) nofun
  | leave hholds => exact h.guarded (hmine (h.lock c hholds)) rfl h.crew nofun nofun
  | unconnected hpc | primaryDown hpc => exact h.goOn (fun _ => hlock hpc rfl) nofun
  | fallback hpc | primary hpc =>
    exact h.guarded (hmine (hlock hpc rfl)) rfl h.crew (fun _ => hlock hpc rfl) nofun
  | settle hpc => exact h.guarded (hmine (hlock hpc rfl)) rfl h.crew nofun nofun
  | armed hpc hlive => exact h.guarded (hmine (hlock hpc rfl)) rfl h.crew nofun nofun
  | unarmed hpc hnone =>
    exact h.goOn (fun _ => hlock hpc rfl) fun _ => h.crew.dead_of_thread hnone
  | clear hpc =>
    exact h.guarded (hmine (hlock hpc rfl)) rfl h.crew (fun _ => hlock hpc rfl)
      fun _ => hdead hpc rfl
  | create hpc =>
    exact h.guarded (hmine (hlock hpc rfl)) rfl (h.crew.create (hdead hpc rfl))
      (fun _ => hlock hpc rfl) fun _ => hdead hpc rfl
  | launch hpc ht =>
    exact h.guarded (hmine (hlock hpc rfl)) rfl (h.crew.launch ht (hdead hpc rfl) _) nofun nofun

/-- A `disconnect` does without the lock, and leaves alone what it guards. -/
theorem FailoverMatrix.Guarded.disconnecting (h : s.Guarded) (hs : s.Disconnecting c s') :
    s'.Guarded := by
  cases hs with
  | stop hpc =>
    have hgo : (s.goOn c .look).Guarded := h.goOn nofun nofun
    exact { hgo with }
  | dropPrimary hpc =>
    have hgo : (s.goOn c .dropFallback).Guarded := h.goOn nofun nofun
    exact { hgo with }
  | dropFallback hpc =>
    have hgo : (s.goOn c .idle).Guarded := h.goOn nofun nofun
    exact { hgo with }
  | join | gone | raised => exact h.goOn nofun nofun

theorem FailoverMatrix.Guarded.advance (h : s.Guarded) (hs : s.advance c outcome = some s') :
    s'.Guarded :=
  (advance_cases hs).elim h.connecting h.disconnecting

theorem FailoverMatrix.Guarded.step {a : MatrixAct C} (h : s.Guarded) (hs : s.step a = some s') :
    s'.Guarded := by
  cases a with
  | begin c call =>
    rw [FailoverMatrix.step] at hs
    split at hs
    · cases hs
      cases call with
      | connect =>
        have hgo : (s.goOn c .lock).Guarded := h.goOn nofun nofun
        exact { hgo with }
      | disconnect =>
        have hgo : (s.goOn c .stop).Guarded := h.goOn nofun nofun
        exact { hgo with }
    · cases hs
  | advance c outcome => exact h.advance hs
  | timeout c =>
    rw [FailoverMatrix.step] at hs
    split at hs
    · cases hs
      exact h.goOn nofun nofun
    · cases hs
  | probe t outcome => exact h.probeStep hs
  | failOver =>
    cases hs
    exact { h with }
  | links primaryUp fallbackUp =>
    cases hs
    exact { h with }

end

/-- The places of `disconnect` that still see whether the thread lives. -/
def LifecyclePc.waiting : LifecyclePc → Bool
  | .look | .join _ => true
  | _ => false

/-- What holds while no `disconnect` is under way. -/
structure FailoverMatrix.Connects (s : FailoverMatrix C) : Prop where
  apart : ∀ c, (s.caller c).disconnecting = false
  tries : ∀ t, s.alive t = true → s.stopSet = false ∧ s.place t ≠ .leaving
  cleared : ∀ c, s.caller c = .create ∨ s.caller c = .launch → s.stopSet = false
  armed : s.armed = true → ∃ t, s.alive t = true
  torn : s.torn = true → (∀ c, (s.caller c).connecting = false) ∧ ∀ t, s.alive t = false

/-- What holds while no `connect` is under way and the matrix is not armed. -/
structure FailoverMatrix.Disconnects (s : FailoverMatrix C) : Prop where
  apart : ∀ c, (s.caller c).connecting = false
  disarmed : s.armed = false
  joined : ∀ c t, s.caller c = .join t → s.thread = some t
  dropped : ∀ c, s.caller c = .dropPrimary ∨ s.caller c = .dropFallback → ∀ t, s.alive t = false
  waited : s.stopSet = true → ∀ t, s.alive t = true → ∃ c, (s.caller c).waiting = true
  leaving : ∀ t, s.place t = .leaving → s.stopSet = true
  torn : s.torn = true → ∀ t, s.alive t = false

def FailoverMatrix.Orderly (s : FailoverMatrix C) : Prop :=
  s.Guarded ∧ (s.Connects ∨ s.Disconnects)

section
variable {s s' : FailoverMatrix C} {c : C} {t : Nat} {pc : LifecyclePc} {outcome : LinkOutcome}

theorem FailoverMatrix.Connects.followed (h : s.Connects) (hg : s.Guarded) : s.Followed := by
  refine ⟨fun harmed => ?_, fun t u => hg.crew.unique, fun htorn t outcome s' hs => ?_⟩
  · obtain ⟨t, hlive⟩ := h.armed harmed
    exact ⟨t, hlive, (h.tries t hlive).1⟩
  · obtain ⟨hlive, -⟩ := probeStep_cases hs
    rw [(h.torn htorn).2 t] at hlive
    cases hlive

theorem FailoverMatrix.Disconnects.followed (h : s.Disconnects) (hg : s.Guarded) :
    s.Followed := by
  refine ⟨fun harmed => ?_, fun t u => hg.crew.unique, fun htorn t outcome s' hs => ?_⟩
  · rw [h.disarmed] at harmed
    cases harmed
  · obtain ⟨hlive, -⟩ := probeStep_cases hs
    rw [h.torn htorn t] at hlive
    cases hlive

theorem FailoverMatrix.Connects.not_torn (h : s.Connects) (hc : (s.caller c).connecting = true) :
    s.torn = false := by
  by_contra htorn
  rw [(h.torn ((Bool.not_eq_false _).mp htorn)).1 c] at hc
  cases hc

theorem FailoverMatrix.Connects.probeStep (h : s.Connects)
    (hs : s.probeStep t outcome = some s') : s'.Connects := by
  obtain ⟨hlive, pc, up, failed, rfl, hstays, hleaves⟩ := probeStep_cases hs
  obtain ⟨hclear, hnot⟩ := h.tries t hlive
  have hpc : pc ≠ .leaving := fun hpc => by
    rw [hleaves hpc] at hclear
    cases hclear
  refine ⟨h.apart, fun u hu => ⟨hclear, ?_⟩, h.cleared, fun _ => ⟨t, ?_⟩, fun htorn => ?_⟩
  · change (s.toCrew.goto t pc).alive u = true at hu
    change (s.toCrew.goto t pc).place u ≠ .leaving
    rw [Crew.alive_goto] at hu
    rw [Crew.place_goto]
    split
    · exact hpc
    · rw [if_neg ‹_›] at hu
      exact (h.tries u hu).2
  · change (s.toCrew.goto t pc).alive t = true
    rw [Crew.alive_goto, if_pos rfl]
    exact hstays hnot
  · rw [(h.torn htorn).2 t] at hlive
    cases hlive

theorem FailoverMatrix.Disconnects.probeStep (h : s.Disconnects)
    (hs : s.probeStep t outcome = some s') : s'.Disconnects := by
  obtain ⟨hlive, pc, up, failed, rfl, hstays, hleaves⟩ := probeStep_cases hs
  have hany {u : Nat} (hdead : ∀ u, s.alive u = false) :
      (s.toCrew.goto t pc).alive u = false := by
    rw [hdead t] at hlive
    cases hlive
  refine ⟨h.apart, h.disarmed, h.joined, fun c hc u => hany (h.dropped c hc),
    fun hset u _ => h.waited hset t hlive, fun u hu => ?_, fun htorn u => hany (h.torn htorn)⟩
  change (s.toCrew.goto t pc).place u = .leaving at hu
  rw [Crew.place_goto] at hu
  split at hu
  · exact hleaves hu
  · exact h.leaving u hu

theorem LifecyclePc.disconnecting_of_waiting (h : pc.waiting = true) :
    pc.disconnecting = true := by
  cases pc with
  | look | join => rfl
  | _ => cases h

theorem FailoverMatrix.Connects.disconnects (h : s.Connects)
    (hidle : ∀ c, (s.caller c).connecting = false) (hdis : s.armed = false) : s.Disconnects := by
  refine ⟨hidle, hdis, fun c t hc => ?_, fun c hc => ?_, fun hset t hlive => ?_, fun t ht => ?_,
    fun htorn => (h.torn htorn).2⟩
  · have hapart := h.apart c
    rw [hc] at hapart
    cases hapart
  · have hapart := h.apart c
    rcases hc with hc | hc <;> rw [hc] at hapart <;> cases hapart
  · rw [(h.tries t hlive).1] at hset
    cases hset
  · have hlive : s.alive t = true := by
      rw [Crew.alive, ht]
      rfl
    exact absurd ht (h.tries t hlive).2

theorem FailoverMatrix.Disconnects.connects (h : s.Disconnects)
    (hidle : ∀ c, (s.caller c).disconnecting = false) : s.Connects := by
  have hclear (t : Nat) (hlive : s.alive t = true) : s.stopSet = false := by
    by_contra hset
    obtain ⟨c, hc⟩ := h.waited ((Bool.not_eq_false _).mp hset) t hlive
    have hno := hidle c
    rw [LifecyclePc.disconnecting_of_waiting hc] at hno
    cases hno
  refine ⟨hidle, fun t hlive => ⟨hclear t hlive, fun ht => ?_⟩, fun c hc => ?_, fun harmed => ?_,
    fun htorn => ⟨h.apart, h.torn htorn⟩⟩
  · have hset := h.leaving t ht
    rw [hclear t hlive] at hset
    cases hset
  · have hapart := h.apart c
    rcases hc with hc | hc <;> rw [hc] at hapart <;> cases hapart
  · rw [h.disarmed] at harmed
    cases harmed

end

section
variable [DecidableEq C] {s s' : FailoverMatrix C} {c : C} {t : Nat} {pc : LifecyclePc}
  {outcome : LinkOutcome}

theorem FailoverMatrix.Connects.goOn (h : s.Connects) (htorn : s.torn = false)
    (hpc : pc.disconnecting = false) (hclear : pc = .create ∨ pc = .launch → s.stopSet = false) :
    (s.goOn c pc).Connects where
  apart := (Function.forall_update_iff _ fun _ (pc : LifecyclePc) =>
    pc.disconnecting = false).2 ⟨hpc, fun u _ => h.apart u⟩
  tries := h.tries
  cleared := (Function.forall_update_iff _ fun _ (pc : LifecyclePc) =>
    pc = .create ∨ pc = .launch → s.stopSet = false).2 ⟨hclear, fun u _ => h.cleared u⟩
  armed := h.armed
  torn ht := by
    change s.torn = true at ht
    rw [htorn] at ht
    cases ht

theorem FailoverMatrix.Connects.release (h : s.Connects) (htorn : s.torn = false)
    (hpc : pc.disconnecting = false) (hclear : pc = .create ∨ pc = .launch → s.stopSet = false) :
    (s.release c pc).Connects :=
  have hfree : ({ s with lock := none } : FailoverMatrix C).Connects := { h with }
  hfree.goOn htorn hpc hclear

/-- Only the statements behind the guard touch the stop flag and the crew, and no thread lives
there. -/
theorem FailoverMatrix.Connects.connecting (h : s.Connects) (hg : s.Guarded)
    (htorn : s.torn = false) (hs : s.Connecting c s') : s'.Connects := by
  cases hs with
  | lock hpc hfree | rearm hpc hfree =>
    have hlock : ({ s with lock := some c } : FailoverMatrix C).Connects := { h with }
    exact hlock.goOn htorn rfl nofun
  | leave hholds => exact h.release htorn rfl nofun
  | unconnected hpc | primaryDown hpc | unarmed hpc hnone => exact h.goOn htorn rfl nofun
  | fallback hpc =>
    have hup : ({ s with fallbackUp := true } : FailoverMatrix C).Connects := { h with }
    exact hup.goOn htorn rfl nofun
  | primary hpc =>
    have hup : ({ s with primaryUp := true } : FailoverMatrix C).Connects := { h with }
    exact hup.goOn htorn rfl nofun
  | @settle failed hpc =>
    have hover : ({ s with failedOver := failed } : FailoverMatrix C).Connects := { h with }
    exact hover.release htorn rfl nofun
  | @armed t hpc hlive =>
    have harmed : ({ s with armed := true } : FailoverMatrix C).Connects :=
      { h with armed := fun _ => ⟨t, hlive⟩ }
    exact harmed.release htorn rfl nofun
  | clear hpc =>
    have hclear : ({ s with stopSet := false } : FailoverMatrix C).Connects :=
      { h with
        tries := fun t hlive => ⟨rfl, (h.tries t hlive).2⟩
        cleared := fun _ _ => rfl }
    exact hclear.goOn htorn rfl fun _ => rfl
  | create hpc =>
    have hcreate : ({ s with toCrew := s.toCrew.create } : FailoverMatrix C).Connects := { h with }
    exact hcreate.goOn htorn rfl fun _ => h.cleared c (.inl hpc)
  | @launch t hpc ht =>
    have hdead : ∀ t, s.alive t = false := hg.dead c (by rw [hpc]; rfl)
    have hclear := h.cleared c (.inr hpc)
    have hlaunch : ({ s with toCrew := s.toCrew.goto t .loop, armed := true } :
        FailoverMatrix C).Connects :=
      { h with
        tries := fun u _ => ⟨hclear, fun hu => ?_⟩
        armed := fun _ => ⟨t, ?_⟩
        torn := fun ht => ?_ }
    · exact hlaunch.release htorn rfl nofun
    · change (s.toCrew.goto t .loop).place u = .leaving at hu
      rw [Crew.place_goto] at hu
      split at hu
      · cases hu
      · have hlive : s.alive u = true := by
          rw [Crew.alive, hu]
          rfl
        rw [hdead u] at hlive
        cases hlive
    · refine (Crew.alive_goto t).trans ?_
      rw [if_pos rfl]
      rfl
    · rw [show s.torn = true from ht] at htorn
      cases htorn

theorem FailoverMatrix.Disconnects.goOn (h : s.Disconnects) (hpc : pc.connecting = false)
    (hjoin : ∀ t, pc = .join t → s.thread = some t)
    (hdead : pc = .dropPrimary ∨ pc = .dropFallback → ∀ t, s.alive t = false)
    (hwait : (s.caller c).waiting = true → pc.waiting = true ∨ ∀ t, s.alive t = false) :
    (s.goOn c pc).Disconnects where
  apart := (Function.forall_update_iff _ fun _ (pc : LifecyclePc) =>
    pc.connecting = false).2 ⟨hpc, fun u _ => h.apart u⟩
  disarmed := h.disarmed
  joined := (Function.forall_update_iff _ fun _ (pc : LifecyclePc) =>
    ∀ t, pc = .join t → s.thread = some t).2 ⟨hjoin, fun u _ => h.joined u⟩
  dropped := (Function.forall_update_iff _ fun _ (pc : LifecyclePc) =>
    pc = .dropPrimary ∨ pc = .dropFallback → ∀ t, s.alive t = false).2
      ⟨hdead, fun u _ => h.dropped u⟩
  waited hset t hlive := by
    obtain ⟨u, hu⟩ := h.waited hset t hlive
    refine (Function.exists_update_iff _ fun _ (pc : LifecyclePc) => pc.waiting = true).2 ?_
    by_cases huc : u = c
    · rw [huc] at hu
      rcases hwait hu with hpc | hnone
      · exact .inl hpc
      · have hdead : s.alive t = false := hnone t
        rw [show s.alive t = true from hlive] at hdead
        cases hdead
    · exact .inr ⟨u, huc, hu⟩
  leaving := h.leaving
  torn := h.torn

theorem FailoverMatrix.Disconnects.disconnecting (h : s.Disconnects) (hg : s.Guarded)
    (hs : s.Disconnecting c s') : s'.Disconnects := by
  cases hs with
  | stop hpc =>
    have hgo : (s.goOn c .look).Disconnects :=
      h.goOn rfl nofun nofun fun _ => .inl rfl
    have hlook : ((s.goOn c .look).caller c).waiting = true := by
      rw [show (s.goOn c .look).caller c = .look from Function.update_self ..]
      rfl
    exact { hgo with
      waited := fun _ _ _ => ⟨c, hlook⟩
      leaving := fun _ _ => rfl }
  | join hpc ht =>
    refine h.goOn rfl (fun u hu => ?_) nofun fun _ => .inl rfl
    cases hu
    exact ht
  | gone hpc hlook =>
    have hdead : ∀ t, s.alive t = false := by
      rcases hpc with hpc | ⟨t, hpc, ht⟩
      · exact hg.crew.dead_of_thread (hlook hpc)
      · exact hg.crew.dead_of_recorded (h.joined c t hpc) ht
    exact h.goOn rfl nofun (fun _ => hdead) fun _ => .inr hdead
  | dropPrimary hpc =>
    have hdead := h.dropped c (.inl hpc)
    have hdown : ({ s with primaryUp := false } : FailoverMatrix C).Disconnects := { h with }
    exact hdown.goOn rfl nofun (fun _ => hdead) fun _ => .inr hdead
  | dropFallback hpc =>
    have hdead := h.dropped c (.inr hpc)
    have hdown : ({ s with fallbackUp := false, torn := true } :
        FailoverMatrix C).Disconnects := { h with torn := fun _ => hdead }
    exact hdown.goOn rfl nofun nofun fun _ => .inr hdead
  | raised hpc => exact h.goOn rfl nofun nofun fun _ => .inr (h.dropped c hpc)

theorem FailoverMatrix.Orderly.begin {call : LifecycleCall} (h : s.Orderly)
    (ha : s.Joined (.begin c call)) (hc : s.caller c = .idle) : (s.begin c call).Orderly := by
  obtain ⟨hg, hmode⟩ := h
  cases call with
  | connect =>
    have hconnects : s.Connects := hmode.elim id fun h => h.connects ha
    have htorn : ({ s with torn := false } : FailoverMatrix C).Connects :=
      { hconnects with torn := nofun }
    have hfree : ({ s with torn := false } : FailoverMatrix C).Guarded := { hg with }
    exact ⟨hfree.goOn nofun nofun, .inl (htorn.goOn rfl rfl nofun)⟩
  | disconnect =>
    have hdisarmed : ({ s with armed := false } : FailoverMatrix C).Disconnects := by
      rcases hmode with h | h
      · have harmed : ({ s with armed := false } : FailoverMatrix C).Connects :=
          { h with armed := nofun }
        exact harmed.disconnects ha rfl
      · exact { h with disarmed := rfl }
    have hfree : ({ s with armed := false } : FailoverMatrix C).Guarded := { hg with }
    refine ⟨hfree.goOn nofun nofun, .inr (hdisarmed.goOn rfl nofun nofun fun hwait => ?_)⟩
    have hidle : (s.caller c).waiting = true := hwait
    rw [hc] at hidle
    cases hidle

theorem FailoverMatrix.Connecting.connecting (hs : s.Connecting c s') :
    (s.caller c).connecting = true := by
  cases hs with
  | leave hholds =>
    cases hpc : s.caller c with
    | isConnected | fallback | primary | settle | guard | clear | create | launch => rfl
    | _ =>
      rw [hpc] at hholds
      cases hholds
  | _ => rw [‹s.caller c = _›]; rfl

theorem FailoverMatrix.Disconnecting.disconnecting (hs : s.Disconnecting c s') :
    (s.caller c).disconnecting = true := by
  cases hs with
  | gone hpc =>
    rcases hpc with hpc | ⟨t, hpc, -⟩
    · rw [hpc]
      rfl
    · rw [hpc]
      rfl
  | raised hpc => rcases hpc with hpc | hpc <;> rw [hpc] <;> rfl
  | _ => rw [‹s.caller c = _›]; rfl

theorem FailoverMatrix.Orderly.advance (h : s.Orderly) (hs : s.advance c outcome = some s') :
    s'.Orderly := by
  obtain ⟨hg, hmode⟩ := h
  refine ⟨hg.advance hs, ?_⟩
  rcases advance_cases hs with hs | hs
  · rcases hmode with h | h
    · exact .inl (h.connecting hg (h.not_torn hs.connecting) hs)
    · have hapart := hs.connecting
      rw [h.apart c] at hapart
      cases hapart
  · rcases hmode with h | h
    · have hapart := hs.disconnecting
      rw [h.apart c] at hapart
      cases hapart
    · exact .inr (h.disconnecting hg hs)

/-- One step lemma: what calls of one kind and the recovery threads do keeps the order. -/
theorem FailoverMatrix.Orderly.step {a : MatrixAct C} (h : s.Orderly) (ha : s.Joined a)
    (hs : s.step a = some s') : s'.Orderly := by
  cases a with
  | begin c call =>
    rw [FailoverMatrix.step] at hs
    split at hs
    · cases hs
      exact h.begin ha ‹_›
    · cases hs
  | advance c outcome => exact h.advance hs
  | timeout c =>
    refine ⟨h.1.step hs, ?_⟩
    rw [FailoverMatrix.step] at hs
    split at hs
    · rename_i t hpc
      cases hs
      rcases h.2 with hcon | hdis
      · have hapart := hcon.apart c
        rw [hpc] at hapart
        cases hapart
      · have hdead := h.1.crew.dead_of_recorded (hdis.joined c t hpc) (ha t hpc)
        exact .inr (hdis.goOn rfl nofun (fun _ => hdead) fun _ => .inr hdead)
    · cases hs
  | probe t outcome =>
    exact ⟨h.1.probeStep hs, h.2.imp (fun h => h.probeStep hs) fun h => h.probeStep hs⟩
  | failOver =>
    cases hs
    exact ⟨{ h.1 with }, h.2.imp (fun h => { h with }) fun h => { h with }⟩
  | links primaryUp fallbackUp =>
    cases hs
    exact ⟨{ h.1 with }, h.2.imp (fun h => { h with }) fun h => { h with }⟩

/-- In a run where no `disconnect` overlaps a `connect` and every join waits for the thread, the
probe follows the lifecycle. -/
theorem probe_follows {l : List (MatrixAct C)}
    (h : Run FailoverMatrix.step FailoverMatrix.Joined {} l s) : s.Followed := by
  have hinit : ({} : FailoverMatrix C).Orderly := by
    refine ⟨FailoverMatrix.guarded_init, .inl ⟨fun _ => rfl, fun t hlive => ?_, ?_, nofun, nofun⟩⟩
    · cases hlive
    · exact fun _ _ => rfl
  have horder : s.Orderly := h.invariant _ (fun hs ha hstep => hs.step ha hstep) hinit
  exact horder.2.elim (fun hcon => hcon.followed horder.1) fun hdis => hdis.followed horder.1

end

/-- The board is off, the matrix starts failed over, and its thread dials the primary. -/
def failedOverStart : List (MatrixAct Unit) :=
  [.begin () .connect, .advance () .ok, .advance () .ok, .advance () .ok,
    .advance () .connectionError, .advance () .ok, .advance () .ok, .advance () .ok,
    .advance () .ok, .advance () .ok, .advance () .ok, .probe 0 .ok, .probe 0 .ok, .probe 0 .ok]

/-- The dialling outlasts the `join` of `disconnect`. -/
def hastyDisconnect : List (MatrixAct Unit) :=
  [.begin () .disconnect, .advance () .ok, .advance () .ok, .timeout (), .advance () .ok,
    .advance () .ok]

def reconnect : List (MatrixAct Unit) :=
  [.begin () .connect, .advance () .ok, .advance () .ok, .advance () .ok,
    .advance () .connectionError, .advance () .ok, .advance () .ok, .advance () .ok]

def abandoned : FailoverMatrix Unit :=
  (runFrom FailoverMatrix.step {} (failedOverStart ++ hastyDisconnect)).getD {}

def rearmed : FailoverMatrix Unit :=
  (runFrom FailoverMatrix.step abandoned reconnect).getD {}

/-- The old thread brings the primary up after `disconnect`, and the next `connect` leaves it with
its stop flag set. -/
theorem probe_abandoned :
    Run FailoverMatrix.step (fun _ _ => True) {} (failedOverStart ++ hastyDisconnect) abandoned ∧
      ¬ abandoned.Followed ∧
        Run FailoverMatrix.step (fun _ _ => True) abandoned reconnect rearmed ∧
          ¬ rearmed.Followed := by
  have habandoned : runFrom FailoverMatrix.step {} (failedOverStart ++ hastyDisconnect) =
      some abandoned := runFrom_getD (by decide +kernel)
  have hrearmed : runFrom FailoverMatrix.step abandoned reconnect = some rearmed :=
    runFrom_getD (by decide +kernel)
  refine ⟨.of_runFrom habandoned fun _ _ _ => trivial, fun ⟨_, _, h⟩ => ?_,
    .of_runFrom hrearmed fun _ _ _ => trivial, fun ⟨h, _⟩ => ?_⟩
  · have hdials : ((abandoned.probeStep 0 .ok).getD {}).primaryUp = true := by decide +kernel
    have hdown : abandoned.primaryUp = false := by decide +kernel
    have hup := h (by decide +kernel) 0 .ok _
      (Option.getD_of_ne_none (Option.isSome_iff_ne_none.1 (by decide +kernel)) {}).symm hdials
    rw [hdown] at hup
    cases hup
  · obtain ⟨t, _, hclear⟩ := h (by decide +kernel)
    have hset : rearmed.stopSet = true := by decide +kernel
    rw [hset] at hclear
    cases hclear

def firstConnect : List (MatrixAct Unit) := List.replicate 10 (.advance () .ok)

/-- The matrix right after its first `connect`. -/
theorem probe_started : ∃ s : FailoverMatrix Unit, s.armed = true ∧ s.Followed := by
  have hrun : runFrom FailoverMatrix.step (({} : FailoverMatrix Unit).begin () .connect)
      firstConnect = some ((runFrom FailoverMatrix.step
        (({} : FailoverMatrix Unit).begin () .connect) firstConnect).getD {}) :=
    runFrom_getD (by decide +kernel)
  have hidle : ({} : FailoverMatrix Unit).Joined (.begin () .connect) := fun _ => rfl
  refine ⟨_, ?_, probe_follows (.cons hidle rfl (Run.of_runFrom hrun fun a ha s => ?_))⟩
  · decide +kernel
  · rw [List.eq_of_mem_replicate ha]
    trivial

end MesCore
