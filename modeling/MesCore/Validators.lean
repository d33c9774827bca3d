import MesCore.CallHistory
import MesCore.Hardware
import MesCore.Text

namespace MesCore
set_option autoImplicit true

/-- A value of the context dictionary of a result. -/
inductive ContextValue
  | str (s : String)
  | int (n : Int)
  | bool (b : Bool)
  deriving DecidableEq

/-- A verdict: a test that passed carries no error message, one that failed says why. -/
structure ValidatorResult where
  passed : Bool
  metrics : List (String × ℚ)
  context : List (String × ContextValue)
  errorMsg : String
  consistent : passed = true → errorMsg = ""
  diagnostic : passed = false → stripText errorMsg ≠ ""

namespace ValidatorResult

/-- `ValidatorResult(...)`, which raises on a contradictory verdict. -/
def create (passed : Bool) (metrics : List (String × ℚ)) (context : List (String × ContextValue))
    (errorMsg : String) : Except Err ValidatorResult :=
  if hconsistent : passed = true ∧ errorMsg ≠ "" then
    .error (.otherException
      s!"Contradictory State: Test marked as PASSED, but contains error message: '{errorMsg}'")
  else if hdiagnostic : passed = false ∧ stripText errorMsg = "" then
    .error (.otherException
      ("Forensic Violation: Test marked as FAILED, but no error_msg was provided. " ++
        "Hardware failures must include a diagnostic reason."))
  else .ok { passed, metrics, context, errorMsg
             consistent := fun h => not_not.1 fun h' => hconsistent ⟨h, h'⟩
             diagnostic := fun h h' => hdiagnostic ⟨h, h'⟩ }

theorem create_passed (metrics : List (String × ℚ)) (context : List (String × ContextValue)) :
    ∃ r, create true metrics context "" = .ok r ∧ r.passed = true := by
  unfold create
  rw [dif_neg (by simp), dif_neg (by simp)]
  exact ⟨_, rfl, rfl⟩

theorem create_ok {passed : Bool} {metrics : List (String × ℚ)}
    {context : List (String × ContextValue)} {errorMsg : String} {r : ValidatorResult}
    (h : create passed metrics context errorMsg = .ok r) : r.passed = passed := by
  unfold create at h
  split at h
  · cases h
  · split at h
    · cases h
    · cases h
      rfl

end ValidatorResult

/-- A step that raises what the computation of its value raises. -/
def ofExcept {I : Interface} {d : Device I} (x : Except I.Err α) : Prog d α := fun w =>
  match x with
  | .ok a => .ok a w
  | .error e => .error e w

section
variable {I : Interface} {d : Device I} {x : Except I.Err α} {a : α} {w w' : World d}

theorem ofExcept_of_ok (h : x = .ok a) (w : World d) : ofExcept x w = .ok a w := by
  subst h
  rfl

theorem ofExcept_ok (h : ofExcept x w = .ok a w') : x = .ok a ∧ w' = w := by
  unfold ofExcept at h
  split at h
  · cases h
    exact ⟨rfl, rfl⟩
  · cases h

theorem Leaves.ofExcept {P : α → List (Entry I) → Prop} {R : I.Err → List (Entry I) → Prop}
    (hP : ∀ a, x = .ok a → P a []) (hR : ∀ e, x = .error e → R e []) :
    Leaves (d := d) (MesCore.ofExcept x) P R := by
  cases x with
  | ok a => exact .pure (hP a rfl)
  | error e => exact .fail (hR e rfl)

end

end MesCore
