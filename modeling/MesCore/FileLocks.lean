import Mathlib.Logic.Function.Basic
import Mathlib.Tactic.Common

namespace MesCore
set_option autoImplicit true

/-- The exclusive locks of a file system, each taken through an open file description. -/
structure FileLocks (D N : Type) where
  opened : D → Option N := fun _ => none
  holder : N → Option D := fun _ => none

namespace FileLocks

/-- Only an open description of a file holds the file's lock. -/
def Sound (k : FileLocks D N) : Prop := ∀ n d, k.holder n = some d → k.opened d = some n

section
variable [DecidableEq D] (k : FileLocks D N)

def openFile (d : D) (n : N) : FileLocks D N :=
  { k with opened := Function.update k.opened d (some n) }

/-- `flock` with `LOCK_EX | LOCK_NB`: `none` where another description holds the lock. -/
def tryLock [DecidableEq N] (d : D) : Option (FileLocks D N) :=
  match k.opened d with
  | none => none
  | some n =>
    if ∃ e ∈ k.holder n, e ≠ d then none
    else some { k with holder := Function.update k.holder n (some d) }

def drop (d : D) : N → Option D := fun n => (k.holder n).filter (· ≠ d)

/-- `flock` with `LOCK_UN`. -/
def unlock (d : D) : FileLocks D N := { k with holder := k.drop d }

/-- The description is closed, by its owner or when the owner dies. -/
def close (d : D) : FileLocks D N where
  opened := Function.update k.opened d none
  holder := k.drop d

end

theorem sound_init : ({} : FileLocks D N).Sound := by
  intro n d h
  cases h

section
variable [DecidableEq D] {k k' : FileLocks D N} {d e : D} {n : N}

theorem drop_eq_some : k.drop d n = some e ↔ k.holder n = some e ∧ e ≠ d := by
  rw [drop, Option.filter_eq_some_iff, decide_eq_true_iff]

theorem holder_unlock : (k.unlock d).holder n = some e ↔ k.holder n = some e ∧ e ≠ d := drop_eq_some

theorem holder_close : (k.close d).holder n = some e ↔ k.holder n = some e ∧ e ≠ d := drop_eq_some

theorem opened_openFile (d : D) (n : N) (e : D) :
    (k.openFile d n).opened e = if e = d then some n else k.opened e :=
  Function.update_apply ..

theorem opened_close (d e : D) :
    (k.close d).opened e = if e = d then none else k.opened e :=
  Function.update_apply ..

theorem tryLock_eq_some [DecidableEq N] (hd : k.opened d = some n) :
    k.tryLock d = some k' ↔ (∀ e, k.holder n = some e → e = d) ∧
      k' = { k with holder := Function.update k.holder n (some d) } := by
  unfold tryLock
  rw [hd]
  dsimp only
  split
  · rename_i h
    obtain ⟨e, he, hne⟩ := h
    simp only [reduceCtorEq, false_iff]
    exact fun h => hne (h.1 e he)
  · rename_i h
    have hfree : ∀ e, k.holder n = some e → e = d := by
      intro e he
      by_contra hne
      exact h ⟨e, he, hne⟩
    constructor
    · rintro ⟨⟩
      exact ⟨hfree, rfl⟩
    · rintro ⟨-, rfl⟩
      rfl

theorem tryLock_eq_none [DecidableEq N] (hd : k.opened d = some n) :
    k.tryLock d = none ↔ ∃ e, k.holder n = some e ∧ e ≠ d := by
  unfold tryLock
  rw [hd]
  dsimp only
  split
  · simpa using ‹∃ e ∈ k.holder n, e ≠ d›
  · simpa using ‹¬ ∃ e ∈ k.holder n, e ≠ d›

theorem Sound.openFile (h : k.Sound) (hd : k.opened d = none) (n : N) : (k.openFile d n).Sound := by
  intro m e he
  rw [opened_openFile, if_neg]
  · exact h m e he
  · rintro rfl
    rw [h m e he] at hd
    cases hd

omit [DecidableEq D] in
theorem Sound.grant [DecidableEq N] (h : k.Sound) (hd : k.opened d = some n) :
    ({ k with holder := Function.update k.holder n (some d) } : FileLocks D N).Sound := by
  intro m e he
  dsimp only at he ⊢
  rw [Function.update_apply] at he
  split at he
  · cases he
    rw [‹m = n›]
    exact hd
  · exact h m e he

theorem Sound.unlock (h : k.Sound) (d : D) : (k.unlock d).Sound :=
  fun m e he => h m e (holder_unlock.1 he).1

theorem Sound.close (h : k.Sound) (d : D) : (k.close d).Sound := by
  intro m e he
  obtain ⟨hold, hne⟩ := holder_close.1 he
  rw [opened_close, if_neg hne]
  exact h m e hold

end

end FileLocks

end MesCore
