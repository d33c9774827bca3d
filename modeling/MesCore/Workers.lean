import Mathlib.Logic.Function.Basic
import Mathlib.Tactic.Common

namespace MesCore
set_option autoImplicit true

/-- The places of a thread in its program; `unborn` is the one before it is started. -/
class ThreadPlace (Pc : Type) where
  unborn : Pc
  alive : Pc → Bool
  unborn_dead : alive unborn = false

export ThreadPlace (unborn)

/-- Every thread that was ever created, by number, and the one an owner keeps a reference to. -/
structure Crew (Pc : Type) [ThreadPlace Pc] where
  thread : Option Nat := none
  place : Nat → Pc := fun _ => unborn
  fresh : Nat := 0

section
variable [ThreadPlace Pc] (k : Crew Pc)

/-- `Thread.is_alive`. -/
def Crew.alive (t : Nat) : Bool := ThreadPlace.alive (k.place t)

def Crew.goto (t : Nat) (pc : Pc) : Crew Pc := { k with place := Function.update k.place t pc }

def Crew.create : Crew Pc := { k with thread := some k.fresh, fresh := k.fresh + 1 }

/-- Only the recorded thread may live, and numbers not given out belong to no thread. -/
structure Crew.Sound : Prop where
  current : ∀ t, k.alive t = true → k.thread = some t
  unborn : ∀ t, k.fresh ≤ t → k.place t = unborn
  known : ∀ t, k.thread = some t → t < k.fresh

end

section
variable [ThreadPlace Pc] {k : Crew Pc} {t : Nat} {pc : Pc}

theorem Crew.place_goto (u : Nat) : (k.goto t pc).place u = if u = t then pc else k.place u :=
  Function.update_apply ..

theorem Crew.alive_goto (u : Nat) :
    (k.goto t pc).alive u = if u = t then ThreadPlace.alive pc else k.alive u := by
  rw [alive, place_goto]
  split <;> rfl

theorem Crew.Sound.unique (h : k.Sound) {u : Nat} (ht : k.alive t = true) (hu : k.alive u = true) :
    t = u := by
  have hcur := h.current t ht
  rw [h.current u hu] at hcur
  cases hcur
  rfl

theorem Crew.Sound.dead_of_recorded (h : k.Sound) (ht : k.thread = some t)
    (hdead : k.alive t = false) (u : Nat) : k.alive u = false := by
  by_contra hu
  have hcur := h.current u ((Bool.not_eq_false _).mp hu)
  rw [ht] at hcur
  cases hcur
  exact hu hdead

theorem Crew.Sound.dead_of_none (h : k.Sound) (ht : k.thread = none) (u : Nat) :
    k.alive u = false := by
  by_contra hu
  have hcur := h.current u ((Bool.not_eq_false _).mp hu)
  rw [ht] at hcur
  cases hcur

theorem Crew.Sound.dead_of_thread (h : k.Sound)
    (hdead : ∀ t, k.thread = some t → k.alive t = false) (u : Nat) : k.alive u = false := by
  cases ht : k.thread with
  | none => exact h.dead_of_none ht u
  | some t => exact h.dead_of_recorded ht (hdead t ht) u

theorem Crew.Sound.goto (h : k.Sound) (ht : k.thread = some t)
    (hothers : ∀ u, u ≠ t → k.alive u = false) (pc : Pc) : (k.goto t pc).Sound := by
  refine ⟨fun u hu => ?_, fun u hu => ?_, h.known⟩
  · rw [alive_goto] at hu
    split at hu
    · rename_i hut
      rw [hut]
      exact ht
    · rw [hothers u ‹_›] at hu
      cases hu
  · rw [place_goto, if_neg]
    · exact h.unborn u hu
    · rintro rfl
      exact absurd (h.known u ht) (Nat.not_lt.2 hu)

theorem Crew.Sound.step (h : k.Sound) (hlive : k.alive t = true) (pc : Pc) :
    (k.goto t pc).Sound := by
  refine h.goto (h.current t hlive) (fun u hu => ?_) pc
  by_contra hlive'
  exact hu (h.unique ((Bool.not_eq_false _).mp hlive') hlive)

theorem Crew.Sound.launch (h : k.Sound) (ht : k.thread = some t) (hdead : ∀ u, k.alive u = false)
    (pc : Pc) : (k.goto t pc).Sound := h.goto ht (fun u _ => hdead u) pc

theorem Crew.Sound.create (h : k.Sound) (hdead : ∀ u, k.alive u = false) : k.create.Sound := by
  refine ⟨fun u hu => ?_, fun u hu => h.unborn u (Nat.le_of_succ_le hu), fun u hu => ?_⟩
  · have hlive : k.alive u = true := hu
    rw [hdead u] at hlive
    cases hlive
  · cases hu
    exact Nat.lt_succ_self _

theorem Crew.Sound.drop (h : k.Sound) (hdead : ∀ u, k.alive u = false) :
    ({ k with thread := none } : Crew Pc).Sound := by
  refine ⟨fun u hu => ?_, h.unborn, by rintro u ⟨⟩⟩
  have hlive : k.alive u = true := hu
  rw [hdead u] at hlive
  cases hlive

theorem Crew.sound_init : ({} : Crew Pc).Sound := by
  refine ⟨fun u hu => ?_, fun _ _ => rfl, by rintro u ⟨⟩⟩
  rw [alive, show ({} : Crew Pc).place u = unborn from rfl, ThreadPlace.unborn_dead] at hu
  cases hu

end

/-- At most one caller is inside a call. -/
def Alone (idle : Pc) (caller : C → Pc) : Prop :=
  ∀ c c', caller c ≠ idle → caller c' ≠ idle → c = c'

theorem Alone.of_idle {caller : C → Pc} {idle : Pc} (h : ∀ c, caller c = idle) :
    Alone idle caller := fun c _ hc => absurd (h c) hc

section
variable [DecidableEq C] {caller : C → Pc} {idle pc : Pc} {c : C}

theorem Alone.update (h : ∀ c', caller c' ≠ idle → c' = c) (pc : Pc) :
    Alone idle (Function.update caller c pc) := by
  have hown (u : C) (hu : Function.update caller c pc u ≠ idle) : u = c := by
    by_cases huc : u = c
    · exact huc
    · rw [Function.update_of_ne huc] at hu
      exact h u hu
  intro u u' hu hu'
  rw [hown u hu, hown u' hu']

end

end MesCore
