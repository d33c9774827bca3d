import MesCore.McuAppState
import Mathlib.Algebra.Order.Archimedean.Basic
import Mathlib.Data.Nat.Find
import Mathlib.Data.Rat.Floor
import Mathlib.Tactic.Linarith

namespace MesCore
set_option autoImplicit true

namespace McuApp

/-- When `_record_timestamp` reads the clock, and when it stores what it has read. -/
structure Stamp where
  now : ℚ
  stored : ℚ

/-- A transition in another thread. One whose callback raises is never stamped. -/
structure Visit where
  dest : String
  entered : ℚ
  stamp : Option Stamp
  ordered : ∀ st ∈ stamp, entered ≤ st.now ∧ st.now ≤ st.stored

def Visit.settled (e : Visit) : ℚ := (e.stamp.map Stamp.stored).getD e.entered

/-- The transitions of a machine since its creation. The lock lets one begin behind the other. -/
structure Schedule where
  initial : String
  visits : List Visit
  ordered : visits.Pairwise fun e e' => e.settled < e'.entered

/-- The variables at a time, behind the transitions that are still to come. -/
def varsFrom (t : ℚ) (v : App) : List Visit → App
  | [] => v
  | e :: es =>
    if e.entered ≤ t then
      match e.stamp with
      | some st =>
        if st.stored ≤ t then varsFrom t ((v.setState e.dest).record v.state st.now) es
        else v.setState e.dest
      | none => varsFrom t (v.setState e.dest) es
    else v

def Schedule.varsAt (s : Schedule) (t : ℚ) : App := varsFrom t (App.init s.initial) s.visits

/-- One pass of the loop: the clock reading in its condition, and its two reads. -/
structure Pass where
  clock : ℚ
  readState : ℚ
  readStamp : ℚ

/-- How time goes on for a waiting thread. A sleep may take longer than it is told to, and the
clock does not stand still for ever. -/
structure Poller (pollInterval : ℚ) where
  start : ℚ
  first : ℚ
  pass : Nat → Pass
  start_nonneg : 0 ≤ start
  interval_nonneg : 0 ≤ pollInterval
  start_le : start ≤ first
  first_le : first ≤ (pass 0).clock
  reads : ∀ n, (pass n).clock ≤ (pass n).readState ∧ (pass n).readState ≤ (pass n).readStamp
  sleeps : ∀ n, (pass n).readStamp + pollInterval ≤ (pass (n + 1)).clock
  progress : ∀ t, ∃ n, t ≤ (pass n).clock

section
variable {pollInterval : ℚ} {p : Poller pollInterval}

theorem Poller.clock_mono (p : Poller pollInterval) : Monotone fun n => (p.pass n).clock := by
  apply monotone_nat_of_le_succ
  intro n
  linarith [(p.reads n).1, (p.reads n).2, p.sleeps n, p.interval_nonneg]

theorem Poller.lt_find {timeout : ℚ} {n : Nat} (h : (p.pass n).clock - p.start < timeout) :
    n < Nat.find (p.progress (p.start + timeout)) := by
  by_contra hle
  have hmono := p.clock_mono (not_lt.1 hle)
  linarith [Nat.find_spec (p.progress (p.start + timeout))]

variable (s : Schedule) (p) (target : String) (timeout : ℚ)

/-- The test inside the loop. -/
def Schedule.Hit (pass : Pass) : Prop :=
  (s.varsAt pass.readState).state = target ∨
    p.start ≤ ((s.varsAt pass.readStamp).timestamps target).getD (-1)

instance (pass : Pass) : Decidable (s.Hit p target pass) := inferInstanceAs (Decidable (_ ∨ _))

def waitLoop (n : Nat) : Bool :=
  if _h : (p.pass n).clock - p.start < timeout then
    if s.Hit p target (p.pass n) then true else waitLoop (n + 1)
  else false
  termination_by Nat.find (p.progress (p.start + timeout)) - n
  decreasing_by
    have hlt := Poller.lt_find _h
    omega

/-- `wait_for`. -/
def waitFor : Bool :=
  if (s.varsAt p.first).state = target then true else waitLoop p s target timeout 0

end

section
variable {pollInterval : ℚ} {p : Poller pollInterval} {s : Schedule} {target : String} {timeout : ℚ}

theorem waitLoop_iff (n : Nat) : waitLoop p s target timeout n = true ↔
    ∃ m, n ≤ m ∧ (p.pass m).clock - p.start < timeout ∧ s.Hit p target (p.pass m) := by
  induction n using waitLoop.induct p s target timeout with
  | case1 n h hhit =>
    rw [waitLoop, dif_pos h, if_pos hhit]
    exact iff_of_true rfl ⟨n, le_rfl, h, hhit⟩
  | case2 n h hhit ih =>
    rw [waitLoop, dif_pos h, if_neg hhit, ih]
    constructor
    · intro hm
      obtain ⟨m, hle, hm⟩ := hm
      exact ⟨m, Nat.le_of_succ_le hle, hm⟩
    · intro hm
      obtain ⟨m, hle, hm⟩ := hm
      rcases Nat.eq_or_lt_of_le hle with rfl | hlt
      · exact absurd hm.2 hhit
      · exact ⟨m, hlt, hm⟩
  | case3 n h =>
    rw [waitLoop, dif_neg h]
    refine iff_of_false (by simp) fun hm => ?_
    obtain ⟨m, hle, hm, -⟩ := hm
    exact h ((sub_le_sub_right (p.clock_mono hle) _).trans_lt hm)

theorem waitFor_true_iff : waitFor p s target timeout = true ↔
    (s.varsAt p.first).state = target ∨
      ∃ n, (p.pass n).clock - p.start < timeout ∧ s.Hit p target (p.pass n) := by
  rw [waitFor]
  split
  · exact iff_of_true rfl (.inl ‹_›)
  · rw [waitLoop_iff, or_iff_right ‹_›]
    simp only [Nat.zero_le, true_and]

end

def Visit.apply (e : Visit) (v : App) : App :=
  match e.stamp with
  | some st => (v.setState e.dest).record v.state st.now
  | none => v.setState e.dest

section
variable {e : Visit} {es : List Visit} {v : App} {t b c x : ℚ} {st : Stamp} {target : String}

theorem settled_stamped (h : e.stamp = some st) : e.settled = st.stored := by
  rw [Visit.settled, h]
  rfl

theorem Visit.entered_le (e : Visit) : e.entered ≤ e.settled := by
  cases hst : e.stamp with
  | some st =>
    rw [settled_stamped hst]
    exact (e.ordered st hst).1.trans (e.ordered st hst).2
  | none =>
    rw [Visit.settled, hst]
    exact le_rfl

theorem varsFrom_before (h : t < e.entered) : varsFrom t v (e :: es) = v := by
  rw [varsFrom, if_neg (not_le.2 h)]

theorem varsFrom_open (h : e.entered ≤ t) (hopen : t < e.settled) :
    varsFrom t v (e :: es) = v.setState e.dest := by
  rw [varsFrom, if_pos h]
  cases hst : e.stamp with
  | some st =>
    rw [settled_stamped hst] at hopen
    exact if_neg (not_le.2 hopen)
  | none =>
    rw [Visit.settled, hst] at hopen
    exact absurd h (not_le.2 hopen)

theorem varsFrom_done (h : e.settled ≤ t) :
    varsFrom t v (e :: es) = varsFrom t (e.apply v) es := by
  rw [varsFrom, if_pos (e.entered_le.trans h), Visit.apply]
  cases hst : e.stamp with
  | some st =>
    rw [settled_stamped hst] at h
    exact if_pos h
  | none => rfl

theorem apply_state (e : Visit) (v : App) : (e.apply v).state = e.dest := by
  rw [Visit.apply]
  cases e.stamp with
  | some st => rfl
  | none => rfl

theorem apply_timestamps (e : Visit) (v : App) (target : String) :
    (e.apply v).timestamps target = v.timestamps target ∨
      e.dest = target ∧ ∃ st ∈ e.stamp, (e.apply v).timestamps target = some st.now := by
  rw [Visit.apply]
  cases hst : e.stamp with
  | some st =>
    by_cases htarget : e.dest = target
    · refine .inr ⟨htarget, st, rfl, ?_⟩
      rw [← htarget]
      exact Function.update_self ..
    · exact .inl (Function.update_of_ne (Ne.symm htarget) ..)
  | none => exact .inl rfl

theorem apply_stamped (h : e.stamp = some st) (v : App) :
    (e.apply v).timestamps e.dest = some st.now := by
  rw [Visit.apply, h]
  exact Function.update_self ..

theorem varsFrom_later (h : ∀ e ∈ es, t < e.entered) : varsFrom t v es = v := by
  cases es with
  | nil => rfl
  | cons e es => exact varsFrom_before (h e (List.mem_cons_self ..))

/-- A state is current from the moment it is entered until its stamp is stored. -/
theorem state_during (hes : es.Pairwise fun e e' => e.settled < e'.entered) (he : e ∈ es)
    (h : e.entered ≤ t) (hopen : t ≤ e.settled) : (varsFrom t v es).state = e.dest := by
  induction es generalizing v with
  | nil => cases he
  | cons e₀ es ih =>
    obtain ⟨hlater, hes⟩ := List.pairwise_cons.1 hes
    cases he with
    | head =>
      rcases hopen.lt_or_eq with hlt | rfl
      · rw [varsFrom_open h hlt]
        rfl
      · rw [varsFrom_done le_rfl, varsFrom_later hlater]
        exact apply_state e v
    | tail _ he =>
      rw [varsFrom_done ((hlater e he).le.trans h)]
      exact ih hes he

theorem timestamp_keeps (h : ∃ y, v.timestamps target = some y ∧ x ≤ y)
    (hes : ∀ e ∈ es, ∀ st ∈ e.stamp, x ≤ st.now) :
    ∃ y, (varsFrom t v es).timestamps target = some y ∧ x ≤ y := by
  induction es generalizing v with
  | nil => exact h
  | cons e es ih =>
    by_cases hentered : e.entered ≤ t
    · by_cases hsettled : e.settled ≤ t
      · rw [varsFrom_done hsettled]
        apply ih
        · obtain hold | ⟨-, st, hst, hnew⟩ := apply_timestamps e v target
          · rwa [hold]
          · exact ⟨st.now, hnew, hes e (List.mem_cons_self ..) st hst⟩
        · exact fun e' he' => hes e' (List.mem_cons_of_mem _ he')
      · rw [varsFrom_open hentered (not_le.1 hsettled)]
        exact h
    · rw [varsFrom_before (not_le.1 hentered)]
      exact h

theorem timestamp_stored (hes : es.Pairwise fun e e' => e.settled < e'.entered) (he : e ∈ es)
    (hst : e.stamp = some st) (h : st.stored ≤ t) :
    ∃ y, (varsFrom t v es).timestamps e.dest = some y ∧ st.now ≤ y := by
  have hsettled : e.settled ≤ t := by rwa [settled_stamped hst]
  induction es generalizing v with
  | nil => cases he
  | cons e₀ es ih =>
    obtain ⟨hlater, hes⟩ := List.pairwise_cons.1 hes
    cases he with
    | head =>
      rw [varsFrom_done hsettled]
      apply timestamp_keeps ⟨st.now, apply_stamped hst v, le_rfl⟩
      intro e' he' st' hst'
      have hlt := hlater e' he'
      rw [settled_stamped hst] at hlt
      linarith [(e.ordered st hst).2, (e'.ordered st' hst').1]
    | tail _ he =>
      rw [varsFrom_done ((hlater e he).le.trans (e.entered_le.trans hsettled))]
      exact ih hes he

/-- A state that is current has been entered, unless it was current at the start. -/
theorem entered_of_state (hv : v.state ≠ target) (h : (varsFrom t v es).state = target) :
    ∃ e ∈ es, e.dest = target ∧ e.entered ≤ t := by
  induction es generalizing v with
  | nil => exact absurd h hv
  | cons e es ih =>
    by_cases hentered : e.entered ≤ t
    · by_cases htarget : e.dest = target
      · exact ⟨e, List.mem_cons_self .., htarget, hentered⟩
      · by_cases hsettled : e.settled ≤ t
        · rw [varsFrom_done hsettled] at h
          rw [← apply_state e v] at htarget
          obtain ⟨e', he', hdest⟩ := ih htarget h
          exact ⟨e', List.mem_cons_of_mem _ he', hdest⟩
        · rw [varsFrom_open hentered (not_le.1 hsettled)] at h
          exact absurd h htarget
    · rw [varsFrom_before (not_le.1 hentered)] at h
      exact absurd h hv

/-- A state that becomes current between two times is entered between them. -/
theorem entered_between (hes : es.Pairwise fun e e' => e.settled < e'.entered)
    (hb : (varsFrom b v es).state ≠ target) (hbc : b ≤ c)
    (hc : (varsFrom c v es).state = target) :
    ∃ e ∈ es, e.dest = target ∧ b < e.entered ∧ e.entered ≤ c := by
  induction es generalizing v with
  | nil => exact absurd hc hb
  | cons e es ih =>
    obtain ⟨hlater, hes⟩ := List.pairwise_cons.1 hes
    by_cases hentered : e.entered ≤ b
    · by_cases hsettled : e.settled ≤ b
      · rw [varsFrom_done hsettled] at hb
        rw [varsFrom_done (hsettled.trans hbc)] at hc
        obtain ⟨e', he', hdest⟩ := ih hes hb hc
        exact ⟨e', List.mem_cons_of_mem _ he', hdest⟩
      · rw [varsFrom_open hentered (not_le.1 hsettled)] at hb
        by_cases hsettled' : e.settled ≤ c
        · rw [varsFrom_done hsettled'] at hc
          have happly : (e.apply v).state ≠ target := by
            rw [apply_state]
            exact hb
          obtain ⟨e', he', hdest, hle⟩ := entered_of_state happly hc
          exact ⟨e', List.mem_cons_of_mem _ he', hdest,
            (not_le.1 hsettled).trans (hlater e' he'), hle⟩
        · rw [varsFrom_open (hentered.trans hbc) (not_le.1 hsettled')] at hc
          exact absurd hc hb
    · rw [varsFrom_before (not_le.1 hentered)] at hb
      obtain ⟨e', he', hdest, hle⟩ := entered_of_state hb hc
      refine ⟨e', he', hdest, ?_, hle⟩
      cases he' with
      | head => exact not_le.1 hentered
      | tail _ he' => exact (not_le.1 hentered).trans (e.entered_le.trans_lt (hlater e' he'))

theorem stamp_of_timestamp (h : (varsFrom t v es).timestamps target = some x) :
    v.timestamps target = some x ∨
      ∃ e ∈ es, e.dest = target ∧ ∃ st ∈ e.stamp, st.now = x ∧ st.stored ≤ t := by
  induction es generalizing v with
  | nil => exact .inl h
  | cons e es ih =>
    by_cases hentered : e.entered ≤ t
    · by_cases hsettled : e.settled ≤ t
      · rw [varsFrom_done hsettled] at h
        obtain hv | ⟨e', he', hdest⟩ := ih h
        · obtain hold | ⟨hdest, st, hst, hnew⟩ := apply_timestamps e v target
          · exact .inl (hold ▸ hv)
          · rw [hnew] at hv
            rw [settled_stamped hst] at hsettled
            exact .inr ⟨e, List.mem_cons_self .., hdest, st, hst, Option.some.inj hv, hsettled⟩
        · exact .inr ⟨e', List.mem_cons_of_mem _ he', hdest⟩
      · rw [varsFrom_open hentered (not_le.1 hsettled)] at h
        exact .inl h
    · rw [varsFrom_before (not_le.1 hentered)] at h
      exact .inl h

end

/-- The wait catches a state that is current at its start, or is entered in its window, and no
other. -/
structure Catches (s : Schedule) (p : Poller pollInterval) (target : String) (timeout : ℚ) :
    Prop where
  complete : ((s.varsAt p.start).state = target ∨ ∃ e ∈ s.visits, e.dest = target ∧
    e.entered ∈ Set.Icc p.start (p.start + timeout)) → waitFor p s target timeout = true
  sound : waitFor p s target timeout = true → ∃ t, p.start ≤ t ∧ (s.varsAt t).state = target

/-- A pass comes behind a visit that began in the window: it reads the state when the target has
been entered, and stamped or not left again, or it reads the stamp. -/
def Sees (s : Schedule) (p : Poller pollInterval) (target : String) (pass : Pass) : Prop :=
  ∃ e ∈ s.visits, e.dest = target ∧
    ((p.start ≤ e.entered ∧ e.entered ≤ pass.readState ∧
        (e.stamp.isSome = true ∨ (s.varsAt pass.readState).state = target)) ∨
      ∃ st ∈ e.stamp, p.start ≤ st.now ∧ st.stored ≤ pass.readStamp)

/-- A target that is there to be caught is still current at the first look, or some pass before
the deadline comes behind it. -/
def Polled (s : Schedule) (p : Poller pollInterval) (target : String) (timeout : ℚ) : Prop :=
  ((s.varsAt p.start).state = target ∨ ∃ e ∈ s.visits, e.dest = target ∧
    e.entered ∈ Set.Icc p.start (p.start + timeout)) →
    (s.varsAt p.first).state = target ∨
      ∃ n, (p.pass n).clock - p.start < timeout ∧ Sees s p target (p.pass n)

section
variable {pollInterval : ℚ} {p : Poller pollInterval} {s : Schedule} {target : String} {timeout : ℚ}
  {pass : Pass}

theorem timestamp_start (h : p.start ≤ ((s.varsAt t).timestamps target).getD (-1)) :
    ∃ e ∈ s.visits, e.dest = target ∧ ∃ st ∈ e.stamp, p.start ≤ st.now ∧ st.stored ≤ t := by
  cases hx : (s.varsAt t).timestamps target with
  | none =>
    rw [hx, Option.getD_none] at h
    linarith [p.start_nonneg]
  | some x =>
    rw [hx, Option.getD_some] at h
    obtain hinit | ⟨e, he, hdest, st, hst, rfl, hstored⟩ := stamp_of_timestamp hx
    · cases hinit
    · exact ⟨e, he, hdest, st, hst, h, hstored⟩

theorem hit_iff (hfirst : (s.varsAt p.first).state ≠ target) (hle : p.first ≤ pass.readState)
    (hreads : pass.readState ≤ pass.readStamp) : s.Hit p target pass ↔ Sees s p target pass := by
  have hstored {e : Visit} {st : Stamp} (he : e ∈ s.visits) (hdest : e.dest = target)
      (hst : e.stamp = some st) (hstart : p.start ≤ st.now) (hle : st.stored ≤ pass.readStamp) :
      p.start ≤ ((s.varsAt pass.readStamp).timestamps target).getD (-1) := by
    obtain ⟨y, hy, hnow⟩ := timestamp_stored (v := App.init s.initial) s.ordered he hst hle
    rw [hdest] at hy
    rw [Schedule.varsAt, hy]
    exact hstart.trans hnow
  constructor
  · intro h
    rcases h with h | h
    · obtain ⟨e, he, hdest, hlt, hentered⟩ := entered_between s.ordered hfirst hle h
      exact ⟨e, he, hdest, .inl ⟨p.start_le.trans hlt.le, hentered, .inr h⟩⟩
    · obtain ⟨e, he, hdest, hst⟩ := timestamp_start h
      exact ⟨e, he, hdest, .inr hst⟩
  · intro h
    obtain ⟨e, he, hdest, ⟨hstart, hentered, hstamped | hstate⟩ | ⟨st, hst, hstart, hle⟩⟩ := h
    · obtain ⟨st, hst⟩ := Option.isSome_iff_exists.1 hstamped
      by_cases hle : st.stored ≤ pass.readStamp
      · exact .inr (hstored he hdest hst (hstart.trans (e.ordered st hst).1) hle)
      · refine .inl ((state_during s.ordered he hentered ?_).trans hdest)
        rw [settled_stamped hst]
        exact hreads.trans (not_le.1 hle).le
    · exact .inl hstate
    · exact .inr (hstored he hdest hst hstart hle)

theorem Poller.first_readState (p : Poller pollInterval) (n : Nat) :
    p.first ≤ (p.pass n).readState :=
  p.first_le.trans ((p.clock_mono (Nat.zero_le n)).trans (p.reads n).1)

theorem waitFor_iff : waitFor p s target timeout = true ↔
    (s.varsAt p.first).state = target ∨
      ∃ n, (p.pass n).clock - p.start < timeout ∧ Sees s p target (p.pass n) := by
  rw [waitFor_true_iff]
  by_cases hfirst : (s.varsAt p.first).state = target
  · exact iff_of_true (.inl hfirst) (.inl hfirst)
  · rw [or_iff_right hfirst, or_iff_right hfirst]
    constructor
    · intro h
      obtain ⟨n, hn, hhit⟩ := h
      exact ⟨n, hn, (hit_iff hfirst (p.first_readState n) (p.reads n).2).1 hhit⟩
    · intro h
      obtain ⟨n, hn, hsees⟩ := h
      exact ⟨n, hn, (hit_iff hfirst (p.first_readState n) (p.reads n).2).2 hsees⟩

theorem current_of_waitFor (h : waitFor p s target timeout = true) :
    ∃ t, p.start ≤ t ∧ (s.varsAt t).state = target := by
  obtain hfirst | ⟨n, -, hhit | hhit⟩ := waitFor_true_iff.1 h
  · exact ⟨p.first, p.start_le, hfirst⟩
  · exact ⟨_, p.start_le.trans (p.first_readState n), hhit⟩
  · obtain ⟨e, he, rfl, st, hst, hnow, -⟩ := timestamp_start hhit
    refine ⟨max p.start e.entered, le_max_left _ _, ?_⟩
    apply state_during s.ordered he (le_max_right _ _)
    apply max_le _ e.entered_le
    rw [settled_stamped hst]
    exact hnow.trans (e.ordered st hst).2

/-- The wait catches what there is to catch in any schedule exactly when a target entered in its
window is followed by one of its looks before the deadline. -/
theorem catches_iff (s : Schedule) (p : Poller pollInterval) (target : String) (timeout : ℚ) :
    Catches s p target timeout ↔ Polled s p target timeout := by
  constructor
  · intro h hthere
    exact waitFor_iff.1 (h.complete hthere)
  · intro h
    exact ⟨fun hthere => waitFor_iff.2 (h hthere), current_of_waitFor⟩

end

/-- `BOOTING` is entered at 0.75 s and stays. -/
def lateBoot : Schedule where
  initial := "OFFLINE"
  visits := [⟨"BOOTING", 3 / 4, some ⟨3 / 4, 3 / 4⟩, by
    intro st hst
    cases hst
    exact ⟨le_rfl, le_rfl⟩⟩]
  ordered := List.pairwise_singleton ..

def halfSeconds : Poller (1 / 2) where
  start := 0
  first := 0
  pass n := ⟨n / 2, n / 2, n / 2⟩
  start_nonneg := le_rfl
  interval_nonneg := by norm_num
  start_le := le_rfl
  first_le := by norm_num
  reads _ := ⟨le_rfl, le_rfl⟩
  sleeps n := by
    push_cast
    linarith
  progress t := by
    obtain ⟨n, hn⟩ := exists_nat_ge (2 * t)
    exact ⟨n, by linarith⟩

/-- A wait of one second for it returns `False`: its last look was at 0.5 s. -/
theorem wait_misses : ¬ Catches lateBoot halfSeconds "BOOTING" 1 := by
  intro h
  have hthere : ∃ e ∈ lateBoot.visits, e.dest = "BOOTING" ∧
      e.entered ∈ Set.Icc halfSeconds.start (halfSeconds.start + 1) :=
    ⟨_, List.mem_singleton_self _, rfl, by norm_num [halfSeconds], by norm_num [halfSeconds]⟩
  have hoffline : (lateBoot.varsAt halfSeconds.first).state = "OFFLINE" := by
    rw [Schedule.varsAt, lateBoot, varsFrom_before (by norm_num [halfSeconds])]
    rfl
  obtain hfirst | ⟨n, hn, e, he, -, hsees⟩ := waitFor_iff.1 (h.complete (.inr hthere))
  · rw [hoffline] at hfirst
    exact absurd hfirst (by decide)
  · change (n : ℚ) / 2 - 0 < 1 at hn
    have hlt : (n : ℚ) < (2 : Nat) := by
      push_cast
      linarith
    have hle : (n : ℚ) ≤ (1 : Nat) := Nat.cast_le.2 (Nat.le_of_lt_succ (Nat.cast_lt.1 hlt))
    rw [Nat.cast_one] at hle
    rw [List.mem_singleton.1 he] at hsees
    obtain ⟨-, hentered, -⟩ | ⟨st, hst, -, hstored⟩ := hsees
    · change (3 : ℚ) / 4 ≤ (n : ℚ) / 2 at hentered
      linarith
    · cases hst
      change (3 : ℚ) / 4 ≤ (n : ℚ) / 2 at hstored
      linarith

end McuApp
end MesCore
