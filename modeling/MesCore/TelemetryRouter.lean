import Mathlib.Data.List.Basic

namespace MesCore
set_option autoImplicit true

/-- What a call on an exporter raises. -/
inductive Raised
  | exception (msg : String)
  | baseException
  deriving DecidableEq

/-- The methods of the exporter protocol. -/
inductive ExporterMethod
  | startSession
  | emitRecord
  | endSession
  deriving DecidableEq

@[reducible] def ExporterMethod.Arg (κ ρ : Type) : ExporterMethod → Type
  | .startSession => κ
  | .emitRecord => ρ
  | .endSession => Bool

/-- A call with its argument. -/
structure ExporterCall (κ ρ : Type) where
  method : ExporterMethod
  arg : method.Arg κ ρ

/-- A data sink: how a call ends, what it leaves of its argument, and the state behind it. Nothing
else is shared: an exporter that keeps a record keeps what it was at that time. -/
structure TelemetryExporter (κ ρ : Type) where
  State : Type
  handle : (method : ExporterMethod) → method.Arg κ ρ → State →
    Except Raised Unit × method.Arg κ ρ × State

namespace CompositeTelemetryExporter

/-- The states of the exporters of a router. -/
@[reducible] def States : List (TelemetryExporter κ ρ) → Type
  | [] => Unit
  | e :: es => e.State × States es

/-- The loop of `start_session`. -/
def startAll (context : κ) : (es : List (TelemetryExporter κ ρ)) → States es →
    Except Raised Unit × κ × States es
  | [], s => (.ok (), context, s)
  | e :: es, (s, ss) =>
    match e.handle .startSession context s with
    | (.ok (), context', s') =>
      let (r, context'', ss') := startAll context' es ss
      (r, context'', (s', ss'))
    | (.error err, context', s') => (.error err, context', (s', ss))

/-- The loop of `emit_record` and `end_session`, with the texts of what was caught. -/
def forwardAll (method : ExporterMethod) (arg : method.Arg κ ρ) :
    (es : List (TelemetryExporter κ ρ)) → States es →
      Except Raised (List String) × method.Arg κ ρ × States es
  | [], s => (.ok [], arg, s)
  | e :: es, (s, ss) =>
    match e.handle method arg s with
    | (.ok (), arg', s') =>
      let (r, arg'', ss') := forwardAll method arg' es ss
      (r, arg'', (s', ss'))
    | (.error (.exception msg), arg', s') =>
      let (r, arg'', ss') := forwardAll method arg' es ss
      (r.map (msg :: ·), arg'', (s', ss'))
    | (.error .baseException, arg', s') => (.error .baseException, arg', (s', ss))

section
variable (repr : List String → String)

/-- `if errors: raise TelemetryDeliveryError(..)`, with `repr` the built-in. -/
def deliver (what : String) : Except Raised (List String) → Except Raised Unit
  | .ok [] => .ok ()
  | .ok errors => .error (.exception s!"Composite router failed {what}: {repr errors}")
  | .error e => .error e

def handle (es : List (TelemetryExporter κ ρ)) :
    (method : ExporterMethod) → method.Arg κ ρ → States es →
      Except Raised Unit × method.Arg κ ρ × States es
  | .startSession, context, s => startAll context es s
  | .emitRecord, record, s =>
    let (r, record', s') := forwardAll .emitRecord record es s
    (deliver repr "to deliver payload" r, record', s')
  | .endSession, passed, s =>
    let (r, passed', s') := forwardAll .endSession passed es s
    (deliver repr "during teardown" r, passed', s')

end

end CompositeTelemetryExporter

/-- `CompositeTelemetryExporter`, which is an exporter itself. -/
@[reducible] def compositeTelemetryExporter (repr : List String → String)
    (es : List (TelemetryExporter κ ρ)) :
    TelemetryExporter κ ρ where
  State := CompositeTelemetryExporter.States es
  handle := CompositeTelemetryExporter.handle repr es

namespace TelemetryExporter

/-- The calls of a session in their order, with what each ends in. -/
def serve (e : TelemetryExporter κ ρ) :
    List (ExporterCall κ ρ) → e.State → List (Except Raised Unit) × e.State
  | [], s => ([], s)
  | call :: calls, s =>
    let (r, _, s') := e.handle call.method call.arg s
    let (rs, s'') := e.serve calls s'
    (r :: rs, s'')

/-- A call goes on to the next exporter, unless it ends here. -/
def passes : ExporterMethod → Except Raised Unit → Bool
  | _, .ok () => true
  | _, .error .baseException => false
  | .startSession, .error (.exception _) => false
  | _, .error (.exception _) => true

/-- One call, if it reaches the exporter, and what goes on of it. -/
def step (e : TelemetryExporter κ ρ) : Option (ExporterCall κ ρ) → e.State →
    Option (Except Raised Unit) × Option (ExporterCall κ ρ) × e.State
  | none, s => (none, none, s)
  | some call, s =>
    let (r, arg, s') := e.handle call.method call.arg s
    (some r, if passes call.method r then some ⟨call.method, arg⟩ else none, s')

/-- An exporter alone with the calls of a session that reach it, and what it passes on. -/
def alone (e : TelemetryExporter κ ρ) : List (Option (ExporterCall κ ρ)) → e.State →
    List (Option (Except Raised Unit)) × List (Option (ExporterCall κ ρ)) × e.State
  | [], s => ([], [], s)
  | call :: calls, s =>
    let (r, next, s') := e.step call s
    let (rs, nexts, s'') := e.alone calls s'
    (r :: rs, next :: nexts, s'')

end TelemetryExporter

namespace CompositeTelemetryExporter
open TelemetryExporter

/-- One exporter after the other, each with the whole session. -/
def columns : (es : List (TelemetryExporter κ ρ)) → List (Option (ExporterCall κ ρ)) →
    States es → List (List (Option (Except Raised Unit))) × States es
  | [], _, s => ([], s)
  | e :: es, calls, (s, ss) =>
    let (rs, nexts, s') := e.alone calls s
    let (rss, ss') := columns es nexts ss
    (rs :: rss, (s', ss'))

/-- The texts of the exceptions in a row, unless something else was raised. -/
def caught : List (Except Raised Unit) → Except Raised (List String)
  | [] => .ok []
  | .ok () :: rs => caught rs
  | .error (.exception msg) :: rs => (caught rs).map (msg :: ·)
  | .error .baseException :: _ => .error .baseException

def firstError : List (Except Raised Unit) → Except Raised Unit
  | [] => .ok ()
  | .ok () :: rs => firstError rs
  | .error e :: _ => .error e

/-- What a call of the router ends in, by what it ended in at the exporters that it reached. -/
def verdict (repr : List String → String) (row : List (Except Raised Unit)) :
    ExporterMethod → Except Raised Unit
  | .startSession => firstError row
  | .emitRecord => deliver repr "to deliver payload" (caught row)
  | .endSession => deliver repr "during teardown" (caught row)

/-- The verdicts over a session, a row of the columns for each call. -/
def verdicts (repr : List String → String) :
    List (ExporterCall κ ρ) → List (List (Option (Except Raised Unit))) → List (Except Raised Unit)
  | [], _ => []
  | call :: calls, cols =>
    verdict repr (cols.filterMap fun col => col.head?.join) call.method ::
      verdicts repr calls (cols.map List.tail)

/-- One call on each exporter in turn, as long as it goes on. -/
def row : (es : List (TelemetryExporter κ ρ)) → Option (ExporterCall κ ρ) → States es →
    List (Option (Except Raised Unit)) × States es
  | [], _, s => ([], s)
  | e :: es, call, (s, ss) =>
    let (r, next, s') := e.step call s
    let (rs, ss') := row es next ss
    (r :: rs, (s', ss'))

theorem columns_cons (es : List (TelemetryExporter κ ρ)) (call : Option (ExporterCall κ ρ))
    (calls : List (Option (ExporterCall κ ρ))) (s : States es) :
    columns es (call :: calls) s =
      (List.zipWith List.cons (row es call s).1 (columns es calls (row es call s).2).1,
        (columns es calls (row es call s).2).2) := by
  induction es generalizing call calls with
  | nil => rfl
  | cons e es ih => simp only [columns, alone, row, ih, List.zipWith_cons_cons]

theorem columns_nil (es : List (TelemetryExporter κ ρ)) (s : States es) :
    (columns es [] s).2 = s := by
  induction es with
  | nil => rfl
  | cons e es ih => exact congrArg (Prod.mk s.1) (ih s.2)

theorem row_none (es : List (TelemetryExporter κ ρ)) (s : States es) :
    (row es none s).1.filterMap id = [] ∧ (row es none s).2 = s := by
  induction es with
  | nil => exact ⟨rfl, rfl⟩
  | cons e es ih =>
    rw [row, step]
    exact ⟨(ih s.2).1, congrArg (Prod.mk s.1) (ih s.2).2⟩

theorem row_length (es : List (TelemetryExporter κ ρ)) (call : Option (ExporterCall κ ρ))
    (s : States es) : (row es call s).1.length = es.length := by
  induction es generalizing call with
  | nil => rfl
  | cons e es ih => rw [row, List.length_cons, ih, List.length_cons]

theorem columns_length (es : List (TelemetryExporter κ ρ))
    (calls : List (Option (ExporterCall κ ρ))) (s : States es) :
    (columns es calls s).1.length = es.length := by
  induction es generalizing calls with
  | nil => rfl
  | cons e es ih => rw [columns, List.length_cons, ih, List.length_cons]

theorem row_cons {e : TelemetryExporter κ ρ} {method : ExporterMethod} {arg arg' : method.Arg κ ρ}
    {s s' : e.State} {r : Except Raised Unit} (h : e.handle method arg s = (r, arg', s'))
    (es : List (TelemetryExporter κ ρ)) (ss : States es) :
    row (e :: es) (some ⟨method, arg⟩) (s, ss) =
      (some r :: (row es (if passes method r then some ⟨method, arg'⟩ else none) ss).1,
        (s', (row es (if passes method r then some ⟨method, arg'⟩ else none) ss).2)) := by
  have hstep : e.step (some ⟨method, arg⟩) s =
      (some r, if passes method r then some ⟨method, arg'⟩ else none, s') := by
    simp only [step, h]
  rw [row, hstep]

theorem startAll_eq (context : κ) (es : List (TelemetryExporter κ ρ)) (s : States es) :
    (startAll context es s).1 =
        firstError ((row es (some ⟨.startSession, context⟩) s).1.filterMap id) ∧
      (startAll context es s).2.2 = (row es (some ⟨.startSession, context⟩) s).2 := by
  induction es generalizing context with
  | nil => exact ⟨rfl, rfl⟩
  | cons e es ih =>
    obtain ⟨s, ss⟩ := s
    rcases h : e.handle .startSession context s with ⟨r, context', s'⟩
    rw [row_cons h, startAll, h]
    have hstop := congrArg (Prod.mk s') (row_none es ss).2
    cases r with
    | ok u => exact ⟨(ih context' ss).1, congrArg (Prod.mk s') (ih context' ss).2⟩
    | error err =>
      cases err with
      | exception msg => exact ⟨rfl, hstop.symm⟩
      | baseException => exact ⟨rfl, hstop.symm⟩

theorem forwardAll_eq (method : ExporterMethod) (hmethod : method ≠ .startSession)
    (arg : method.Arg κ ρ) (es : List (TelemetryExporter κ ρ)) (s : States es) :
    (forwardAll method arg es s).1 = caught ((row es (some ⟨method, arg⟩) s).1.filterMap id) ∧
      (forwardAll method arg es s).2.2 = (row es (some ⟨method, arg⟩) s).2 := by
  induction es generalizing arg with
  | nil => exact ⟨rfl, rfl⟩
  | cons e es ih =>
    obtain ⟨s, ss⟩ := s
    rcases h : e.handle method arg s with ⟨r, arg', s'⟩
    rw [row_cons h, forwardAll, h]
    have hrest := congrArg (Prod.mk s') (ih arg' ss).2
    cases r with
    | ok u => exact ⟨(ih arg' ss).1, hrest⟩
    | error err =>
      cases err with
      | exception msg =>
        have hgoes : passes method (.error (.exception msg)) = true := by
          cases method with
          | startSession => exact absurd rfl hmethod
          | emitRecord | endSession => rfl
        rw [if_pos hgoes]
        exact ⟨congrArg (Except.map (msg :: ·)) (ih arg' ss).1, hrest⟩
      | baseException => exact ⟨rfl, congrArg (Prod.mk s') (row_none es ss).2.symm⟩

theorem handle_eq (repr : List String → String) (es : List (TelemetryExporter κ ρ))
    (call : ExporterCall κ ρ) (s : States es) :
    (handle repr es call.method call.arg s).1 =
        verdict repr ((row es (some call) s).1.filterMap id) call.method ∧
      (handle repr es call.method call.arg s).2.2 = (row es (some call) s).2 := by
  obtain ⟨method, arg⟩ := call
  cases method with
  | startSession => exact startAll_eq arg es s
  | emitRecord =>
    obtain ⟨hr, hs⟩ := forwardAll_eq .emitRecord (by decide) arg es s
    exact ⟨congrArg (deliver repr "to deliver payload") hr, hs⟩
  | endSession =>
    obtain ⟨hr, hs⟩ := forwardAll_eq .endSession (by decide) arg es s
    exact ⟨congrArg (deliver repr "during teardown") hr, hs⟩

theorem heads_zipWith (rs : List (Option (Except Raised Unit)))
    (cols : List (List (Option (Except Raised Unit)))) (h : rs.length = cols.length) :
    (List.zipWith List.cons rs cols).filterMap (fun col => col.head?.join) = rs.filterMap id ∧
      (List.zipWith List.cons rs cols).map List.tail = cols := by
  induction rs generalizing cols with
  | nil =>
    cases cols with
    | nil => exact ⟨rfl, rfl⟩
    | cons col cols => cases h
  | cons r rs ih =>
    cases cols with
    | nil => cases h
    | cons col cols =>
      obtain ⟨hheads, htails⟩ := ih cols (Nat.succ.inj h)
      refine ⟨?_, congrArg (col :: ·) htails⟩
      rw [List.zipWith_cons_cons, List.filterMap_cons, hheads, List.filterMap_cons]
      rfl

/-- A session through the router, call by call, is the session of each exporter alone, one after
the other, and a call of the router ends as its row says. -/
theorem serve_composite (repr : List String → String) (es : List (TelemetryExporter κ ρ))
    (calls : List (ExporterCall κ ρ)) (s : States es) :
    (compositeTelemetryExporter repr es).serve calls s =
      (verdicts repr calls (columns es (calls.map some) s).1,
        (columns es (calls.map some) s).2) := by
  induction calls generalizing s with
  | nil => exact Prod.ext rfl (columns_nil es s).symm
  | cons call calls ih =>
    obtain ⟨hr, hs⟩ := handle_eq repr es call s
    have hlen : (row es (some call) s).1.length =
        (columns es (calls.map some) (row es (some call) s).2).1.length := by
      rw [row_length, columns_length]
    obtain ⟨hheads, htails⟩ := heads_zipWith _ _ hlen
    rw [List.map_cons, columns_cons, verdicts, hheads, htails]
    have hcall : (compositeTelemetryExporter repr es).serve (call :: calls) s =
        ((handle repr es call.method call.arg s).1 ::
          ((compositeTelemetryExporter repr es).serve calls
            (handle repr es call.method call.arg s).2.2).1,
          ((compositeTelemetryExporter repr es).serve calls
            (handle repr es call.method call.arg s).2.2).2) := rfl
    rw [hcall, hr, hs, ih]

end CompositeTelemetryExporter

end MesCore
