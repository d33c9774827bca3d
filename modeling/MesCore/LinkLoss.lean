import MesCore.TransportIndependence
import MesCore.Failover

namespace MesCore
set_option autoImplicit true

def fabricFinished (stdout stderr : String) (n : Nat) : FabricResult where
  stdout := stdout
  stderr := stderr
  exited := some n
  ok := n = 0

/-- `'closed' in str(stderr).lower()`. No character beyond ASCII has one of these letters as its
lower case. -/
def tellsClosed (stderr : String) : Prop :=
  occursIn "closed" (String.ofList (stderr.toList.map Char.toLower))

instance (stderr : String) : Decidable (tellsClosed stderr) :=
  inferInstanceAs (Decidable (occursIn _ _))

/-- `kwargs.pop('sensitive', False)`. -/
def SafeRunArgs.sensitive (args : SafeRunArgs) : Bool :=
  args.kwargs.lookup "sensitive" == some "True"

/-- A fallback that behaves in any way. -/
structure Fallback where
  State : Type
  safeRun : SafeRunArgs → State → Except Err CommandResult × State

/-- `FailoverTransport(primary=EphemeralSSHClient(..), fallback=..)`: the client over a connection
that answers so. -/
def matrixOver (run : String → FabricReply) (fallback : Fallback) : Transports where
  State := SshClient × fallback.State
  respond
    | .primary args, (client, s) =>
      let (r, client) :=
        client.safeRun run args.cmd args.timeoutMs args.checkExitCode args.sensitive
      (r, client, s)
    | .fallback args, (client, s) =>
      let (r, s) := fallback.safeRun args s
      (r, client, s)
    | .wakeUp, (client, s) =>
      let (r, s) := fallback.safeRun { cmd := "\n", timeoutMs := 1000 } s
      (r, client, s)

section
variable {c : SshClient} {run : String → FabricReply} {cmd stdout stderr : String}
  {sensitive : Bool}
  {n : Nat}

theorem silentlyClosed_finished (stdout stderr : String) (n : Nat) :
    (fabricFinished stdout stderr n).silentlyClosed = true ↔ n ≠ 0 ∧ tellsClosed stderr := by
  have hexited : (some (n : Int) == some (-1)) = false := by
    rw [beq_eq_false_iff_ne, ne_eq, Option.some_inj]
    omega
  rw [FabricResult.silentlyClosed, fabricFinished]
  simp only [hexited, Bool.or_false, Bool.and_eq_true, Bool.not_eq_true', decide_eq_false_iff_not,
    decide_eq_true_eq]
  rfl

theorem safeRun_finished (hconn : c.connected = true)
    (hrun : run (c.wrappedCmd sensitive cmd) = .ran (fabricFinished stdout stderr n))
    (timeoutMs : Nat) : c.safeRun run cmd timeoutMs false sensitive =
      if n ≠ 0 ∧ tellsClosed stderr then
        (.error (.transportConnectionError "SSH Socket silently closed during execution."),
          c.disconnect)
      else (.ok (fabricFinished stdout stderr n).commandResult, c) := by
  rw [SshClient.safeRun, hconn, hrun]
  by_cases hclosed : n ≠ 0 ∧ tellsClosed stderr
  · have htest := (silentlyClosed_finished stdout stderr n).2 hclosed
    simp only [htest]
    rw [if_pos hclosed]
    rfl
  · have htest := mt (silentlyClosed_finished stdout stderr n).1 hclosed
    rw [if_neg hclosed]
    simp only [if_neg htest]
    rfl

end

section
variable {run : String → FabricReply} {fallback : Fallback} {w : World (matrixOver run fallback)}
  {args : SafeRunArgs} {stdout stderr : String} {n : Nat}

/-- The router with an SSH client that is connected and not failed over. -/
structure OnPrimary (w : World (matrixOver run fallback)) : Prop where
  notFailedOver : w.vars = false
  connected : w.dev.1.connected = true

/-- The client returns the exit code and keeps its connection, and the router returns that result
without having asked its fallback for anything. -/
def ReportedFinished (w : World (matrixOver run fallback)) (args : SafeRunArgs) (n : Nat) : Prop :=
  ∃ res : CommandResult, res.exited = n ∧
    w.dev.1.safeRun run args.cmd args.timeoutMs false args.sensitive = (.ok res, w.dev.1) ∧
    ∃ w', routedSafeRun args w = .ok res w' ∧ w'.vars = false ∧ w'.dev = w.dev ∧
      w'.trace = w.trace ++ [.call (.primary args) (.ok res)]

theorem dispatch_primary (hcheck : args.checkExitCode = false) {r : Except Err CommandResult}
    {c : SshClient}
    (h : w.dev.1.safeRun run args.cmd args.timeoutMs false args.sensitive = (r, c)) :
    (matrixOver run fallback).respond (.primary args) w.dev = (r, c, w.dev.2) := by
  have hrespond : (matrixOver run fallback).respond (.primary args) w.dev =
      ((w.dev.1.safeRun run args.cmd args.timeoutMs args.checkExitCode args.sensitive).1,
        (w.dev.1.safeRun run args.cmd args.timeoutMs args.checkExitCode args.sensitive).2,
        w.dev.2) := rfl
  rw [hrespond, hcheck, h]

theorem routedSafeRun_returned (hw : w.vars = false) (hcheck : args.checkExitCode = false)
    {res : CommandResult}
    (h : w.dev.1.safeRun run args.cmd args.timeoutMs false args.sensitive = (.ok res, w.dev.1)) :
    ∃ w', routedSafeRun args w = .ok res w' ∧ w'.vars = false ∧ w'.dev = w.dev ∧
      w'.trace = w.trace ++ [.call (.primary args) (.ok res)] := by
  have hcall := call_of_respond (I := routerInterface) (dispatch_primary hcheck h)
  have hrouted : routedSafeRun args w = .ok res
      { w with trace := w.trace ++ [.call (.primary args) (.ok res)] } := by
    have hvars : (getVars : Prog (matrixOver run fallback) _) w = .ok w.vars w := rfl
    rw [routedSafeRun, bind_of_ok hvars, hw]
    rw [hw] at hcall
    change attempt (dispatch (.primary args)) _ _ w = _
    rw [attempt, dispatch, hcall]
    rfl
  exact ⟨_, hrouted, hw, rfl, rfl⟩

/-- A command that has finished is reported as finished, up to the router, exactly when it did not
fail with 'closed' somewhere on its standard error. -/
theorem reportedFinished_iff (hw : OnPrimary w) (hcheck : args.checkExitCode = false)
    (hrun : run (w.dev.1.wrappedCmd args.sensitive args.cmd) =
      .ran (fabricFinished stdout stderr n)) :
    ReportedFinished w args n ↔ n = 0 ∨ ¬ tellsClosed stderr := by
  have hsafe := safeRun_finished hw.connected hrun args.timeoutMs
  constructor
  · rintro ⟨res, -, hres, -⟩
    by_contra hclosed
    rw [not_or, not_not] at hclosed
    rw [hsafe, if_pos hclosed] at hres
    cases hres
  · intro hopen
    rw [if_neg (by tauto)] at hsafe
    exact ⟨_, rfl, hsafe, routedSafeRun_returned hw.notFailedOver hcheck hsafe⟩

end

def steadyFallback : Fallback where
  State := Unit
  safeRun _ _ := (.ok { stdout := "" }, ())

def finishing (stderr : String) (n : Nat) (_ : String) : FabricReply :=
  .ran (fabricFinished "" stderr n)

def freshMatrix (stderr : String) (n : Nat) :
    World (matrixOver (finishing stderr n) steadyFallback) where
  vars := false
  dev := ({}, ())
  trace := []

def uploadReport : SafeRunArgs where
  cmd := "curl -sT report station"
  autoRetry := true

theorem reportedFinished_refused :
    ReportedFinished (freshMatrix "curl: (7) Connection refused" 7) uploadReport 7 :=
  (reportedFinished_iff ⟨rfl, rfl⟩ rfl rfl).2 (.inr (by decide +kernel))

/-- The peer of a `curl` closes the connection: the client takes its own for closed, and the router
runs the command again on the console. -/
theorem reportedFinished_closed :
    let w := freshMatrix "curl: (56) Recv failure: Connection closed by peer" 56
    let w' := World.after (routedSafeRun uploadReport w)
    ¬ ReportedFinished w uploadReport 56 ∧ w'.dev.1.connected = false ∧ w'.vars = true ∧
      w'.trace.filterMap (passedTo uploadReport.cmd) = [.primary, .fallback] := by
  refine ⟨?_, ?_, ?_, ?_⟩
  · rw [reportedFinished_iff ⟨rfl, rfl⟩ rfl rfl]
    decide +kernel
  · decide +kernel
  · decide +kernel
  · decide +kernel

end MesCore
