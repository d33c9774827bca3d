import MesCore.Hardware

namespace MesCore
set_option autoImplicit true

/-- The arguments of a `safe_run`. -/
structure SafeRunArgs where
  cmd : String
  timeoutMs : Nat := 30000
  checkExitCode : Bool := false
  autoRetry : Bool := false
  kwargs : List (String × String) := []
  deriving DecidableEq

/-- What the router asks of its two transports. The wake-up is
`fallback.safe_run('\n', timeout_s=1.0, check_exit_code=False)`. -/
inductive RouterCall
  | primary (args : SafeRunArgs)
  | fallback (args : SafeRunArgs)
  | wakeUp
  deriving DecidableEq

/-- The variable is `is_failed_over`. -/
@[reducible] def routerInterface : Interface where
  Call := RouterCall
  Ans := fun _ => CommandResult
  Err := Err
  Note := Empty
  Vars := Bool

/-- Two transports that behave in any way. -/
abbrev Transports := Device routerInterface

variable {d : Transports}

abbrev dispatch (c : RouterCall) : Prog d CommandResult := call (I := routerInterface) c

/-- The `except TransportConnectionError` clause of `FailoverTransport.safe_run`. -/
def engageFallback (args : SafeRunArgs) (e : Err) : Prog d CommandResult := do
  modifyVars fun _ => true
  let _ ← dispatch .wakeUp
  if args.autoRetry then dispatch (.fallback args) else fail e

/-- `FailoverTransport.safe_run`. -/
def routedSafeRun (args : SafeRunArgs) : Prog d CommandResult := do
  let isFailedOver : Bool ← getVars
  if isFailedOver then dispatch (.fallback args)
  else attempt (dispatch (.primary args)) Err.isTransportConnectionError (engageFallback args)

/-- The world after these calls, each returning or raising. -/
def routedRuns (w : World d) (calls : List SafeRunArgs) : World d :=
  calls.foldl (fun w args => World.after (routedSafeRun args w)) w

inductive Leg
  | primary
  | fallback
  deriving DecidableEq

/-- The transport an entry passes the command to, with whatever other arguments. -/
def passedTo (cmd : String) : Entry routerInterface → Option Leg
  | .call (.primary a) _ => if a.cmd = cmd then some .primary else none
  | .call (.fallback a) _ => if a.cmd = cmd then some .fallback else none
  | .call .wakeUp _ | .note _ => none

def argsPassed : Entry routerInterface → Option SafeRunArgs
  | .call (.primary a) _ | .call (.fallback a) _ => some a
  | .call .wakeUp _ | .note _ => none

def reachesFallback : Entry routerInterface → Bool
  | .call (.fallback _) _ | .call .wakeUp _ => true
  | _ => false

/-- The primary raises `TransportConnectionError`. -/
def primarySevered (seg : List (Entry routerInterface)) : Prop :=
  ∃ args e, e.isTransportConnectionError = true ∧
    Entry.call (I := routerInterface) (.primary args) (.error e) ∈ seg

/-- The law of one call that adds `seg` to the history and moves the flag. -/
structure AtMostOnce (args : SafeRunArgs) (failed failed' : Bool)
    (seg : List (Entry routerInterface)) : Prop where
  verbatim : ∀ a ∈ seg.filterMap argsPassed, a = args
  once : args.autoRetry = false → seg.filterMap (passedTo args.cmd) = [.primary] ∨
    seg.filterMap (passedTo args.cmd) = [.fallback]
  wakeUpOnly : args.autoRetry = false → primarySevered seg →
    ∀ e ∈ seg, reachesFallback e = true → ∃ r, e = .call .wakeUp r
  oncePerLeg : seg.filterMap (passedTo args.cmd) <+: [.primary, .fallback] ∨
    seg.filterMap (passedTo args.cmd) = [.fallback]
  severed : primarySevered seg → failed' = true
  others : ¬ primarySevered seg → failed' = failed ∧
    (failed = false → ∀ e ∈ seg, reachesFallback e = false)

section
variable {args : SafeRunArgs} {r r' r'' : Except Err CommandResult}

theorem AtMostOnce.failedOver : AtMostOnce args true true [.call (.fallback args) r] := by
  have hlegs :
      [Entry.call (I := routerInterface) (.fallback args) r].filterMap (passedTo args.cmd) =
      [.fallback] := by simp [passedTo]
  have hsevered : ¬ primarySevered [.call (.fallback args) r] := by
    rintro ⟨a, e, _, hm⟩
    cases List.mem_singleton.1 hm
  exact ⟨by simp [argsPassed], fun _ => .inr hlegs, fun _ h => absurd h hsevered, .inr hlegs,
    fun _ => rfl, fun _ => ⟨rfl, nofun⟩⟩

theorem AtMostOnce.onPrimary (h : ∀ e, r = .error e → e.isTransportConnectionError = false) :
    AtMostOnce args false false [.call (.primary args) r] := by
  have hlegs : [Entry.call (I := routerInterface) (.primary args) r].filterMap (passedTo args.cmd) =
      [.primary] := by simp [passedTo]
  have hsevered : ¬ primarySevered [.call (.primary args) r] := by
    rintro ⟨a, e, he, hm⟩
    cases List.mem_singleton.1 hm
    rw [h e rfl] at he
    cases he
  refine ⟨by simp [argsPassed], fun _ => .inl hlegs, fun _ h => absurd h hsevered, .inl ?_,
    fun h => absurd h hsevered, fun _ => ⟨rfl, fun _ e he => ?_⟩⟩
  · rw [hlegs]
    exact ⟨[.fallback], rfl⟩
  · rw [List.mem_singleton.1 he]
    rfl

theorem AtMostOnce.wokenUp {e : Err} (he : e.isTransportConnectionError = true) :
    AtMostOnce args false true [.call (.primary args) (.error e), .call .wakeUp r] := by
  have hlegs : [Entry.call (I := routerInterface) (.primary args) (.error e),
      .call .wakeUp r].filterMap (passedTo args.cmd) = [.primary] := by simp [passedTo]
  have hsevered : primarySevered [.call (.primary args) (.error e), .call .wakeUp r] :=
    ⟨args, e, he, List.mem_cons_self ..⟩
  refine ⟨by simp [argsPassed], fun _ => .inl hlegs, fun _ _ x hx hr => ?_, .inl ?_, fun _ => rfl,
    fun h => absurd hsevered h⟩
  · rcases List.mem_cons.1 hx with rfl | hx
    · cases hr
    · exact ⟨r, List.mem_singleton.1 hx⟩
  · rw [hlegs]
    exact ⟨[.fallback], rfl⟩

theorem AtMostOnce.retried {e : Err} (he : e.isTransportConnectionError = true)
    (hretry : args.autoRetry = true) : AtMostOnce args false true
      [.call (.primary args) (.error e), .call .wakeUp r, .call (.fallback args) r'] := by
  have hlegs : [Entry.call (I := routerInterface) (.primary args) (.error e), .call .wakeUp r,
      .call (.fallback args) r'].filterMap (passedTo args.cmd) = [.primary, .fallback] := by
    simp [passedTo, List.filterMap_cons]
  have hno : args.autoRetry ≠ false := by
    rw [hretry]
    decide
  refine ⟨by simp [argsPassed], fun h => absurd h hno, fun h => absurd h hno, .inl ?_, fun _ => rfl,
    fun h => ?_⟩
  · rw [hlegs]
  · exact absurd ⟨args, e, he, List.mem_cons_self ..⟩ h

end

theorem wp_dispatch {c : RouterCall} {w : World d} {Q : CommandResult → World d → Prop}
    {E : Err → World d → Prop}
    (hQ : ∀ a s, Q a { w with dev := s, trace := w.trace ++ [.call c (.ok a)] })
    (hE : ∀ e s, E e { w with dev := s, trace := w.trace ++ [.call c (.error e)] }) :
    wp (dispatch c) Q E w := wp_call hQ hE

theorem routedSafeRun_atMostOnce (args : SafeRunArgs) (w : World d) :
    ∃ seg, (World.after (routedSafeRun args w)).trace = w.trace ++ seg ∧
      AtMostOnce args w.vars (World.after (routedSafeRun args w)).vars seg := by
  suffices h : ∀ P : World d → Prop, (∀ w', (∃ seg, w'.trace = w.trace ++ seg ∧
      AtMostOnce args w.vars w'.vars seg) → P w') →
      wp (routedSafeRun args) (fun _ => P) (fun _ => P) w by
    have hw := h _ fun _ h => h
    unfold wp at hw
    cases hr : routedSafeRun args w with
    | ok a w' => rwa [hr] at hw
    | error e w' => rwa [hr] at hw
  intro P hP
  rw [routedSafeRun, wp_bind, wp_getVars]
  cases hv : w.vars with
  | true =>
    refine wp_dispatch (fun a s => hP _ ⟨_, rfl, ?_⟩) (fun e s => hP _ ⟨_, rfl, ?_⟩)
    · rw [hv]
      exact .failedOver
    · rw [hv]
      exact .failedOver
  | false =>
    change wp (attempt (dispatch (.primary args)) _ _) _ _ w
    rw [wp_attempt]
    refine wp_dispatch (fun a s => hP _ ⟨_, rfl, ?_⟩) (fun e s => ?_)
    · rw [hv]
      exact .onPrimary (by rintro e ⟨⟩)
    · dsimp only
      split
      · rename_i he
        rw [engageFallback, wp_bind, wp_modifyVars, wp_bind]
        refine wp_dispatch (fun a s' => ?_) (fun e' s' => hP _ ⟨_, List.append_assoc .., ?_⟩)
        · dsimp only
          split
          · rename_i hretry
            have hgrow (z : Entry routerInterface) : w.trace ++
                [.call (.primary args) (.error e)] ++ [.call .wakeUp (.ok a)] ++ [z] = w.trace ++
                  [.call (.primary args) (.error e), .call .wakeUp (.ok a), z] := by simp
            refine wp_dispatch (fun b s'' => hP _ ⟨_, hgrow _, ?_⟩)
              (fun e' s'' => hP _ ⟨_, hgrow _, ?_⟩)
            · rw [hv]
              exact .retried he hretry
            · rw [hv]
              exact .retried he hretry
          · refine (wp_fail _).2 (hP _ ⟨_, List.append_assoc .., ?_⟩)
            rw [hv]
            exact .wokenUp he
        · rw [hv]
          exact .wokenUp he
      · rename_i he
        refine hP _ ⟨_, rfl, ?_⟩
        rw [hv]
        refine .onPrimary ?_
        rintro _ ⟨⟩
        exact Bool.eq_false_iff.2 he

/-- In any sequence of calls, whatever the transports do, every call keeps the law. -/
theorem calls_atMostOnce (w : World d) (past : List SafeRunArgs) (args : SafeRunArgs) :
    ∃ seg, (routedRuns w (past ++ [args])).trace = (routedRuns w past).trace ++ seg ∧
      AtMostOnce args (routedRuns w past).vars (routedRuns w (past ++ [args])).vars seg := by
  have hlast : routedRuns w (past ++ [args]) =
      World.after (routedSafeRun args (routedRuns w past)) := by
    rw [routedRuns, List.foldl_append]
    rfl
  rw [hlast]
  exact routedSafeRun_atMostOnce args _

end MesCore
