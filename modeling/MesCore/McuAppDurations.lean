import MesCore.McuAppState
import MesCore.Runs
import Mathlib.Algebra.BigOperators.Group.Finset.Piecewise
import Mathlib.Tactic.Linarith
import Mathlib.Tactic.Ring

namespace MesCore
set_option autoImplicit true

namespace McuApp

/-- A transition that has come to its end, with the time that it was recorded at. -/
def App.enter (dest : String) (now : ℚ) (v : App) : App := (v.setState dest).record v.state now

section
variable {sub : Subclass} {d : Observers} {w : World d}

theorem wp_recordTimestamp (sub : Subclass) (source trigger : String) (w : World d) :
    wp (sub.recordTimestamp source trigger) (fun _ w' => ∃ now, w'.vars = w.vars.record source now)
      (fun _ _ => True) w := by
  rw [Subclass.recordTimestamp, wp_bind]
  apply wp_call
  · intro now s
    rw [wp_bind, wp_modifyVars, wp_bind, wp_getVars, wp_bind]
    apply wp_call
    · intro timestamp s
      exact wp_call (fun _ _ => ⟨now, rfl⟩) fun _ _ => trivial
    · exact fun _ _ => trivial
  · exact fun _ _ => trivial

theorem wp_changeState (t : Transition) (w : World d) :
    wp (Subclass.changeState t) (fun _ w' => w'.vars =
      match t.dest with
      | some dest => w.vars.setState dest
      | none => w.vars)
      (fun _ _ => True) w := by
  rw [Subclass.changeState]
  cases t.dest with
  | some dest => exact rfl
  | none => exact rfl

theorem wp_execute (sub : Subclass) {t : Transition} (hsource : t.source = w.vars.state) :
    wp (sub.execute t) (fun done w' =>
        (done = true → ∃ now, w'.vars = w.vars.enter (t.dest.getD t.source) now) ∧
          (done = false → w'.vars = w.vars))
      (fun _ _ => True) w := by
  rw [Subclass.execute, wp_bind]
  apply (within_evalConditions t.conditions).wp.mono
  · intro accepted w₁ h₁
    cases accepted with
    | false => exact ⟨fun h => absurd h Bool.false_ne_true, fun _ => h₁.2.symm⟩
    | true =>
      rw [if_pos rfl, wp_bind]
      apply (within_runHooks _).wp.mono
      · intro _ w₂ h₂
        rw [wp_bind]
        apply (wp_changeState t w₂).mono
        · intro _ w₃ h₃
          rw [wp_bind]
          apply (within_runHooks _).wp.mono
          · intro _ w₄ h₄
            rw [wp_bind]
            apply (wp_recordTimestamp sub t.source t.trigger w₄).mono
            · intro _ w₅ h₅
              obtain ⟨now, h₅⟩ := h₅
              refine ⟨fun _ => ⟨now, ?_⟩, fun h => absurd h.symm Bool.false_ne_true⟩
              have hvars : w₂.vars = w.vars := (h₁.2.trans h₂.2).symm
              rw [h₅, ← h₄.2, h₃, hvars, App.enter, hsource]
              cases t.dest with
              | some dest => rfl
              | none => rfl
            · exact fun _ _ _ => trivial
          · exact fun _ _ _ => trivial
        · exact fun _ _ _ => trivial
      · exact fun _ _ _ => trivial
  · exact fun _ _ _ => trivial

/-- An execution that does not raise; a condition that fails makes it return `False`. -/
def Subclass.executed (sub : Subclass) (w : World d) (t : Transition) : Option (World d) :=
  match sub.execute t w with
  | .ok _ w' => some w'
  | .error _ _ => none

/-- The transitions that are found in the state of the machine. -/
def Transition.leaves (w : World d) (t : Transition) : Prop := t.source = w.vars.state

theorem executed_maps {t : Transition} {w' : World d} (hleaves : t.leaves w)
    (h : sub.executed w t = some w') :
    (∃ now, w'.vars = w.vars.enter (t.dest.getD t.source) now) ∨ w'.vars = w.vars := by
  rw [Subclass.executed] at h
  cases hexec : sub.execute t w with
  | error e w₁ =>
    rw [hexec] at h
    cases h
  | ok done w₁ =>
    rw [hexec] at h
    cases h
    obtain ⟨htaken, hrefused⟩ := (wp_execute sub hleaves).ok hexec
    cases done with
    | true => exact .inl (htaken rfl)
    | false => exact .inr (hrefused rfl)

/-- Whatever a machine executes, its maps are those of a list of moves. -/
theorem run_moves {ts : List Transition} {w' : World d}
    (h : Run sub.executed (fun w t => t.leaves w) w ts w') :
    ∃ moves : List (ℚ × String),
      (moves.map Prod.snd).Sublist (ts.map fun t => t.dest.getD t.source) ∧
        w'.vars = moves.foldl (fun v m => v.enter m.2 m.1) w.vars := by
  induction h with
  | nil w => exact ⟨[], .slnil, rfl⟩
  | cons hleaves hstep _ ih =>
    obtain ⟨moves, hdests, hvars⟩ := ih
    cases executed_maps hleaves hstep with
    | inl htaken =>
      obtain ⟨now, hnow⟩ := htaken
      rw [hnow] at hvars
      exact ⟨(now, _) :: moves, hdests.cons_cons _, hvars⟩
    | inr hkept =>
      rw [hkept] at hvars
      exact ⟨moves, hdests.cons _, hvars⟩

end

/-- The time that is spent in a state between two times, with the moves in between. -/
def spentFrom (since : ℚ) (current : String) : List (ℚ × String) → ℚ → String → ℚ
  | [], query, s => if current = s then query - since else 0
  | (now, dest) :: moves, query, s =>
    (if current = s then now - since else 0) + spentFrom now dest moves query s

/-- A machine from its creation to a query, with the time and the destination of every
transition. -/
structure Life where
  created : ℚ
  initial : String
  moves : List (ℚ × String)
  query : ℚ
  ordered : (created :: moves.map Prod.fst ++ [query]).Pairwise (· ≤ ·)

namespace Life

def app (l : Life) : App :=
  l.moves.foldl (fun v m => v.enter m.2 m.1) (App.init l.initial)

/-- An entry of `state_durations`, or 0 where there is none. -/
def reported (l : Life) (s : String) : ℚ := (l.app.stateDurations l.query s).getD 0

def spent (l : Life) (s : String) : ℚ := spentFrom l.created l.initial l.moves l.query s

/-- The time of the first transition, or of the query where there is none. -/
def firstMove (l : Life) : ℚ := (l.moves.head?.map Prod.fst).getD l.query

def visited (l : Life) : Finset String := (l.initial :: l.moves.map Prod.snd).toFinset

end Life

/-- `state_durations` accounts for all the time since the machine was created. -/
structure Accounts (l : Life) : Prop where
  each : ∀ s, l.reported s = l.spent s
  nonneg : ∀ s, 0 ≤ l.reported s
  total : ∑ s ∈ l.visited, l.reported s = l.query - l.created

section
variable {v : App} {since query : ℚ} {moves : List (ℚ × String)} {current s : String}

theorem stateDurations_getD (h : v.timestamps v.state = some since) (query : ℚ) (s : String) :
    (v.stateDurations query s).getD 0 =
      (v.durations s).getD 0 + if v.state = s then query - since else 0 := by
  rw [App.stateDurations, h]
  by_cases hs : v.state = s
  · subst hs
    simp
  · rw [if_neg hs, add_zero]
    dsimp only
    rw [Function.update_of_ne (Ne.symm hs)]

theorem enter_timestamp (v : App) (dest : String) (now : ℚ) :
    (v.enter dest now).timestamps (v.enter dest now).state = some now :=
  Function.update_self ..

theorem enter_durations (h : v.timestamps v.state = some since) (dest : String) (now : ℚ)
    (s : String) : ((v.enter dest now).durations s).getD 0 =
      (v.durations s).getD 0 + if v.state = s then now - since else 0 := by
  rw [← stateDurations_getD h, App.enter, App.record, App.setState, App.stateDurations, h]

/-- Once the state of the machine has been stamped, all the time is accounted for. -/
theorem reported_stamped (h : v.timestamps v.state = some since) (query : ℚ) (s : String) :
    ((moves.foldl (fun v m => v.enter m.2 m.1) v).stateDurations query s).getD 0 =
      (v.durations s).getD 0 + spentFrom since v.state moves query s := by
  induction moves generalizing v since with
  | nil => exact stateDurations_getD h query s
  | cons m moves ih =>
    obtain ⟨now, dest⟩ := m
    rw [List.foldl_cons, ih (enter_timestamp v dest now), enter_durations h, spentFrom, add_assoc]
    rfl

theorem reported_nil {l : Life} (h : l.moves = []) (s : String) : l.reported s = 0 := by
  rw [Life.reported, Life.app, h]
  rfl

theorem reported_cons {l : Life} (h : l.moves = (now, dest) :: moves) (s : String) :
    l.reported s = spentFrom now dest moves l.query s := by
  rw [Life.reported, Life.app, h, List.foldl_cons, reported_stamped (enter_timestamp _ dest now)]
  exact zero_add _

theorem spent_eq (l : Life) (s : String) :
    l.spent s = (if l.initial = s then l.firstMove - l.created else 0) + l.reported s := by
  rw [Life.spent, Life.firstMove]
  cases hmoves : l.moves with
  | nil => rw [reported_nil hmoves, add_zero]; rfl
  | cons m moves => rw [reported_cons hmoves]; rfl

theorem spentFrom_nonneg
    (h : (since :: moves.map Prod.fst ++ [query]).Pairwise (· ≤ ·)) (current s : String) :
    0 ≤ spentFrom since current moves query s := by
  induction moves generalizing since current with
  | nil =>
    have hle : since ≤ query := List.rel_of_pairwise_cons h (List.mem_singleton_self _)
    rw [spentFrom]
    split
    · exact sub_nonneg.2 hle
    · exact le_rfl
  | cons m moves ih =>
    have hle : since ≤ m.1 := List.rel_of_pairwise_cons h (List.mem_cons_self ..)
    rw [spentFrom]
    apply add_nonneg
    · split
      · exact sub_nonneg.2 hle
      · exact le_rfl
    · exact ih h.tail m.2

theorem sum_spentFrom {S : Finset String} (hcurrent : current ∈ S) (hmoves : ∀ m ∈ moves, m.2 ∈ S) :
    ∑ s ∈ S, spentFrom since current moves query s = query - since := by
  induction moves generalizing since current with
  | nil =>
    simp only [spentFrom]
    rw [Finset.sum_ite_eq, if_pos hcurrent]
  | cons m moves ih =>
    simp only [spentFrom]
    rw [Finset.sum_add_distrib, Finset.sum_ite_eq, if_pos hcurrent,
      ih (hmoves m (List.mem_cons_self ..)) fun m' hm' => hmoves m' (List.mem_cons_of_mem _ hm')]
    ring

end

theorem sum_spent (l : Life) : ∑ s ∈ l.visited, l.spent s = l.query - l.created := by
  apply sum_spentFrom
  · simp [Life.visited]
  · intro m hm
    rw [Life.visited, List.mem_toFinset]
    exact List.mem_cons_of_mem _ (List.mem_map_of_mem hm)

theorem reported_nonneg (l : Life) (s : String) : 0 ≤ l.reported s := by
  cases hmoves : l.moves with
  | nil => rw [reported_nil hmoves]
  | cons m moves =>
    rw [reported_cons hmoves]
    have hordered := l.ordered
    rw [hmoves] at hordered
    exact spentFrom_nonneg hordered.tail m.2 s

/-- The durations account for all the time exactly when none of it passes before the first
transition, in the state that the machine was created in. -/
theorem accounts_iff (l : Life) : Accounts l ↔ l.firstMove = l.created := by
  constructor
  · intro h
    have heach := h.each l.initial
    rw [spent_eq, if_pos rfl] at heach
    linarith
  · intro h
    have heach (s : String) : l.reported s = l.spent s := by
      rw [spent_eq, h, sub_self, ite_self, zero_add]
    refine ⟨heach, reported_nonneg l, ?_⟩
    simp only [heach]
    exact sum_spent l

def waitingOffline : Life where
  created := 0
  initial := "OFFLINE"
  moves := [(3, "BOOTING")]
  query := 5
  ordered := by norm_num

/-- `OFFLINE` is not in the durations at all. -/
theorem durations_incomplete : ¬ Accounts waitingOffline ∧
    waitingOffline.app.stateDurations 5 "OFFLINE" = none := by
  refine ⟨fun h => ?_, rfl⟩
  have hreported : waitingOffline.reported "OFFLINE" = 0 := rfl
  have hspent : waitingOffline.spent "OFFLINE" = 3 := by
    simp [Life.spent, spentFrom, waitingOffline]
  have heach := h.each "OFFLINE"
  rw [hreported, hspent] at heach
  norm_num at heach

end McuApp
end MesCore
