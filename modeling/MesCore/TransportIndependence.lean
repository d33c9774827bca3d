import MesCore.CommandFraming

namespace MesCore
set_option autoImplicit true

/-- A `Result` of Fabric. -/
structure FabricResult where
  stdout : String
  stderr : String
  exited : Option Int
  ok : Bool

/-- How `Connection.run` ends: with a result, with `CommandTimedOut` and the output so far, with
one of the exceptions of a broken link, or with another one. -/
inductive FabricReply
  | ran (res : FabricResult)
  | timedOut (stdout : Option String)
  | severed (msg : String)
  | raised (e : Err)

structure SshClient where
  forensicJournaling : Bool := false
  connected : Bool := true

def SshClient.disconnect (c : SshClient) : SshClient := { c with connected := false }

/-- `log_cmd`. -/
def sshLogCmd (sensitive : Bool) (cmd : String) : String :=
  if sensitive then "********"
  else if cmd.toList.length < 256 then cmd
  else String.ofList (cmd.toList.take 253) ++ "..."

/-- `wrapped_cmd`. -/
def SshClient.wrappedCmd (c : SshClient) (sensitive : Bool) (cmd : String) : String :=
  if c.forensicJournaling then
    if sensitive then "logger -t MES_Factory 'EXEC: ******** (sensitive)' ; " ++ cmd
    else "logger -t MES_Factory 'EXEC: " ++ quoteCmd (sshLogCmd sensitive cmd) ++ "' ; " ++ cmd
  else cmd

def FabricResult.commandResult (res : FabricResult) : CommandResult where
  stdout := String.ofList (pyStrip res.stdout.toList)
  stderr := String.ofList (pyStrip res.stderr.toList)
  exited := res.exited.getD (-1)
  ok := res.ok

/-- The test for a socket that was closed under the command. -/
def FabricResult.silentlyClosed (res : FabricResult) : Bool :=
  !res.ok && (decide (occursIn "closed" (String.ofList (res.stderr.toList.map Char.toLower))) ||
    res.exited == some (-1))

/-- `EphemeralSSHClient.safe_run` over a connection that answers so. -/
def SshClient.safeRun (c : SshClient) (run : String → FabricReply) (cmd : String) (timeoutMs : Nat)
    (checkExitCode sensitive : Bool) : Except Err CommandResult × SshClient :=
  if !c.connected then
    (.error (.transportConnectionError "Cannot execute: SSH socket is disconnected."), c)
  else
    match run (c.wrappedCmd sensitive cmd) with
    | .ran res =>
      if res.silentlyClosed then
        (.error (.transportConnectionError "SSH Socket silently closed during execution."),
          c.disconnect)
      else if checkExitCode && !res.commandResult.ok then
        (.error (.runtimeError (s!"Command '{sshLogCmd sensitive cmd}' failed with exit code " ++
          s!"{res.commandResult.exited}: {res.commandResult.stderr}")), c)
      else (.ok res.commandResult, c)
    | .timedOut stdout =>
      if checkExitCode then
        (.error (.runtimeError
          s!"Command '{sshLogCmd sensitive cmd}' timed out after {secondsText timeoutMs}s"), c)
      else
        (.ok { stdout := stdout.getD ""
               stderr := s!"Command timed out after {secondsText timeoutMs}s"
               exited := -1
               ok := false }, c)
    | .severed msg =>
      (.error (.transportConnectionError
        s!"Physical TCP/SSH link severed during execution of '{sshLogCmd sensitive cmd}': {msg}"),
        c.disconnect)
    | .raised e => (.error e, c)

/-- What Fabric reports of a command that exits with `n` after these bytes on its standard output
and none on its standard error: the bytes decoded, and `ok` for the exit code zero. -/
def fabricCompleted (o : Bytes) (n : Nat) : FabricResult where
  stdout := String.ofList (decodeReplace o)
  stderr := ""
  exited := some n
  ok := n = 0

theorem safeRun_completed {c : SshClient} {run : String → FabricReply} {cmd : String}
    {sensitive : Bool} {o : Bytes} {n : Nat} (hconn : c.connected = true)
    (hrun : run (c.wrappedCmd sensitive cmd) = .ran (fabricCompleted o n)) (timeoutMs : Nat) :
    c.safeRun run cmd timeoutMs false sensitive = (.ok (fabricCompleted o n).commandResult, c) := by
  have hopen : (fabricCompleted o n).silentlyClosed = false := by
    have hword : ¬ occursIn "closed" (String.ofList (("" : String).toList.map Char.toLower)) := by
      decide
    have hexited : (some (n : Int) == some (-1)) = false := by
      rw [beq_eq_false_iff_ne, ne_eq, Option.some_inj]
      omega
    rw [FabricResult.silentlyClosed, fabricCompleted]
    simp only [decide_eq_false hword, hexited, Bool.or_false, Bool.and_false]
  rw [SshClient.safeRun, hconn, hrun]
  simp only [hopen]
  rfl

def nonBlankLines (s : List Char) : List (List Char) :=
  ((splitNewline s).map pyStrip).filter fun l => !l.isEmpty

section
variable {s t : List Char} {c : Char}

theorem nonBlankLines_eq (s : List Char) : nonBlankLines s =
    ((s.splitOn '\n').map pyStrip).filter fun l => !l.isEmpty := by
  rw [nonBlankLines, splitNewline_eq]

@[simp] theorem nonBlankLines_append_newline (s t : List Char) :
    nonBlankLines (s ++ '\n' :: t) = nonBlankLines s ++ nonBlankLines t := by
  rw [nonBlankLines_eq, List.splitOn_append_cons_self, List.map_append, List.filter_append,
    ← nonBlankLines_eq, ← nonBlankLines_eq]

theorem nonBlankLines_cons_space (hc : isPySpace c = true) (s : List Char) :
    nonBlankLines (c :: s) = nonBlankLines s := by
  by_cases hnl : c = '\n'
  · rw [hnl]
    exact nonBlankLines_append_newline [] s
  · rw [nonBlankLines_eq, nonBlankLines_eq, List.splitOn_cons_eq_if_modifyHead,
      if_neg fun h => hnl (beq_iff_eq.1 h)]
    cases hs : s.splitOn '\n' with
    | nil => exact (List.splitOn_ne_nil _ _ hs).elim
    | cons l ls => rw [List.modifyHead_cons, List.map_cons, pyStrip_cons_space hc, List.map_cons]

theorem nonBlankLines_concat_space (hc : isPySpace c = true) (s : List Char) :
    nonBlankLines (s ++ [c]) = nonBlankLines s := by
  by_cases hnl : c = '\n'
  · rw [hnl, nonBlankLines_append_newline]
    exact List.append_nil _
  · rw [nonBlankLines_eq, nonBlankLines_eq, splitOn_concat_of_ne hnl, splitOn_eq '\n' s,
      List.map_append, List.map_append, List.map_singleton, pyStrip_concat_space hc,
      List.map_singleton]

theorem nonBlankLines_pyStrip (s : List Char) : nonBlankLines (pyStrip s) = nonBlankLines s := by
  have hleft (t : List Char) : nonBlankLines (t.dropWhile isPySpace) = nonBlankLines t := by
    induction t with
    | nil => rfl
    | cons c t ih =>
      by_cases hc : isPySpace c = true
      · rw [List.dropWhile_cons_of_pos hc, ih, nonBlankLines_cons_space hc]
      · rw [List.dropWhile_cons_of_neg hc]
  have hright (t : List Char) : nonBlankLines (t.rdropWhile isPySpace) = nonBlankLines t := by
    induction t using List.reverseRecOn with
    | nil => rfl
    | append_singleton t c ih =>
      by_cases hc : isPySpace c = true
      · rw [List.rdropWhile_concat_pos _ _ _ hc, ih, nonBlankLines_concat_space hc]
      · rw [List.rdropWhile_concat_neg _ _ _ hc]
  rw [pyStrip_eq, hright, hleft]

end

theorem outputLines_eq (out : List Char) :
    outputLines out = (nonBlankLines out).filter fun l => !isKernelLog l := by
  rw [outputLines, nonBlankLines, List.filter_filter]
  apply List.filter_congr
  intro l _
  exact Bool.and_comm ..

theorem nonBlankLines_join (out : List Char) :
    nonBlankLines (joinLines (outputLines out)) = outputLines out := by
  have hline : ∀ l ∈ outputLines out, '\n' ∉ l ∧ pyStrip l = l ∧ l ≠ [] := by
    intro l hl
    obtain ⟨hl, hkept⟩ := List.mem_filter.1 hl
    obtain ⟨k, hk, rfl⟩ := List.mem_map.1 hl
    refine ⟨?_, (stripped_pyStrip k).pyStrip, ?_⟩
    · intro hmem
      rw [splitNewline_eq] at hk
      exact sep_notMem_of_splitOn hk ((pyStrip_isInfix k).subset hmem)
    · intro hnil
      rw [hnil] at hkept
      cases hkept
  generalize outputLines out = ls at hline
  cases ls with
  | nil => rfl
  | cons l ls =>
    have hsplit := List.splitOn_intercalate _ (fun k hk => (hline k hk).1) (List.cons_ne_nil l ls)
    have hmap : (l :: ls).map pyStrip = l :: ls :=
      (List.map_congr_left (g := id) fun k hk => (hline k hk).2.1).trans (List.map_id _)
    rw [nonBlankLines_eq, joinLines, hsplit, hmap, List.filter_eq_self]
    intro k hk
    simp [(hline k hk).2.2]

def onlcrBytes (o : Bytes) : Bytes := o.flatMap fun b => if b = 0x0A then [0x0D, 0x0A] else [b]

/-- The raw bytes of an output on a terminal that maps its line ends or does not, without the
newline behind it. -/
def IsOutput (raw o : Bytes) : Prop := raw = o ∨ raw = onlcrBytes o ++ [0x0D]

theorem onlcrBytes_of_notMem {o : Bytes} (h : 0x0A ∉ o) : onlcrBytes o = o := by
  induction o with
  | nil => rfl
  | cons b o ih =>
    rw [List.mem_cons, not_or] at h
    rw [onlcrBytes, List.flatMap_cons, if_neg (Ne.symm h.1), ← onlcrBytes, ih h.2,
      List.singleton_append]

theorem nonBlankLines_cr (o : Bytes) :
    nonBlankLines (sanitise (o ++ [0x0D])) = nonBlankLines (sanitise o) := by
  rw [sanitise_append_cons (c := '\r') (by decide) (by decide)]
  exact nonBlankLines_concat_space (by decide) _

theorem nonBlankLines_onlcr (o : Bytes) :
    nonBlankLines (sanitise (onlcrBytes o ++ [0x0D])) = nonBlankLines (sanitise o) := by
  induction hn : o.length using Nat.strong_induction_on generalizing o with
  | _ n ih =>
    by_cases hmem : 0x0A ∈ o
    · obtain ⟨a, b, rfl, ha⟩ := List.eq_append_cons_of_mem hmem
      have hb := ih b.length (by rw [← hn, List.length_append, List.length_cons]; omega) b rfl
      have hbytes : onlcrBytes (a ++ 0x0A :: b) ++ [0x0D] =
          (a ++ [0x0D]) ++ 0x0A :: (onlcrBytes b ++ [0x0D]) := by
        rw [onlcrBytes, List.flatMap_append, ← onlcrBytes, onlcrBytes_of_notMem ha,
          List.flatMap_cons, if_pos rfl, ← onlcrBytes]
        simp
      rw [hbytes, sanitise_append_newline, sanitise_append_newline, nonBlankLines_append_newline,
        nonBlankLines_append_newline, hb, nonBlankLines_cr]
    · rw [onlcrBytes_of_notMem hmem, nonBlankLines_cr]

theorem outputLines_console {raw o : Bytes} (h : IsOutput raw o) :
    outputLines (sanitise raw) = outputLines (sanitise o) := by
  rcases h with rfl | rfl
  · rfl
  · rw [outputLines_eq, outputLines_eq, nonBlankLines_onlcr]

section
variable {prompt token cmd : String} {n : Nat} {r : ShellReply} {reply : Reply} {o : Bytes}
  {c : SshClient} {run : String → FabricReply} {sensitive : Bool}

/-- Of a command that both transports complete they report the same status; the console reports
the lines of the output without its escape sequences and without the lines that begin with a
kernel timestamp, SSH reports them all. -/
theorem transports_agree (hshell : isUboot prompt = false) (htok : IsExecToken token)
    (h : r.Answers prompt token cmd n) (ha : r.Apart prompt token cmd n)
    (hheard : reply.heard.flatten = r.stream) (hout : IsOutput r.out o)
    (hconn : c.connected = true)
    (hrun : run (c.wrappedCmd sensitive cmd) = .ran (fabricCompleted o n)) (timeoutMs : Nat) :
    ∃ res, c.safeRun run cmd timeoutMs false sensitive = (.ok res, c) ∧
      (safeRunResult prompt token reply).exited = res.exited ∧
      (safeRunResult prompt token reply).ok = res.ok ∧
      nonBlankLines (safeRunResult prompt token reply).stdout.toList =
        (nonBlankLines (sanitise o)).filter (fun l => !isKernelLog l) ∧
      nonBlankLines res.stdout.toList = nonBlankLines (decodeReplace o) ∧
      (stripAnsi o = o → (nonBlankLines (safeRunResult prompt token reply).stdout.toList =
        nonBlankLines res.stdout.toList ↔
          ∀ l ∈ nonBlankLines (decodeReplace o), isKernelLog l = false)) := by
  have hserial : nonBlankLines (safeRunResult prompt token reply).stdout.toList =
      (nonBlankLines (sanitise o)).filter (fun l => !isKernelLog l) := by
    rw [h.result ha hshell htok hheard, commandResult, String.toList_ofList, nonBlankLines_join,
      outputLines_console hout, outputLines_eq]
  have hssh : nonBlankLines (fabricCompleted o n).commandResult.stdout.toList =
      nonBlankLines (decodeReplace o) := by
    rw [FabricResult.commandResult, fabricCompleted, String.toList_ofList, String.toList_ofList,
      nonBlankLines_pyStrip]
  refine ⟨_, safeRun_completed hconn hrun timeoutMs, ?_, ?_, hserial, hssh, ?_⟩
  · rw [h.result ha hshell htok hheard]
    rfl
  · rw [h.result ha hshell htok hheard]
    rfl
  · intro hplain
    rw [hserial, hssh, sanitise, hplain, List.filter_eq_self]
    simp only [Bool.not_eq_true']

end

def completing (o : Bytes) (n : Nat) (_ : String) : FabricReply := .ran (fabricCompleted o n)

/-- What the two transports report of a command that completes so, as lines: the console without
an echo and in one piece. -/
def bothLines (o : Bytes) (n : Nat) : List (List Char) × List (List Char) :=
  (nonBlankLines (safeRunResult "~# " "0badc0de"
      { heard := [(plainReply none o n "~# ").stream] }).stdout.toList,
    match (SshClient.safeRun {} (completing o n) "dmesg" 30000 false false).1 with
    | .ok res => nonBlankLines res.stdout.toList
    | .error _ => [])

/-- A kernel log, a prompt in the output and a coloured output come back differently. -/
theorem transports_differ :
    bothLines (ascii "[    0.000000] Booting Linux\n") 0 =
        ([], ["[    0.000000] Booting Linux".toList]) ∧
      bothLines (ascii "root@board:~# ls\n") 0 = ([], ["root@board:~# ls".toList]) ∧
        bothLines (escByte :: ascii "[1mup\n") 0 =
          (["up".toList], [Char.ofNat 0x1B :: "[1mup".toList]) := by
  decide +kernel

def uptimeOutput : Bytes := ascii "  up\n\n1 day\n"

/-- The same output on a terminal that maps its line ends. -/
def uptimeReply : ShellReply :=
  { plainReply none (onlcrBytes uptimeOutput ++ [0x0D]) 0 "root@board:~# " with blank := [0x0D] }

def uptimeHeard : Reply where
  heard := [uptimeReply.stream.take 30, uptimeReply.stream.drop 30]

theorem transports_uptime : ∃ res : CommandResult,
    nonBlankLines res.stdout.toList = ["up".toList, "1 day".toList] ∧
      nonBlankLines (safeRunResult "~# " "0badc0de" uptimeHeard).stdout.toList =
        nonBlankLines res.stdout.toList := by
  have htok : IsExecToken "0badc0de" := by decide
  have hplain : Plain "~# ".toList := ⟨by decide, '~', by decide, by decide⟩
  have hanswers : uptimeReply.Answers "~# " "0badc0de" "uptime" 0 := by decide +kernel
  have hapart : uptimeReply.Apart "~# " "0badc0de" "uptime" 0 :=
    ⟨by decide, hplain, by decide +kernel, by decide +kernel, by decide +kernel, by decide +kernel⟩
  have hheard : uptimeHeard.heard.flatten = uptimeReply.stream := by decide +kernel
  have hout : IsOutput uptimeReply.out uptimeOutput := .inr rfl
  have hconn : ({} : SshClient).connected = true := rfl
  have hrun : completing uptimeOutput 0 (({} : SshClient).wrappedCmd false "uptime") =
      .ran (fabricCompleted uptimeOutput 0) := rfl
  obtain ⟨res, -, -, -, -, hlines, hsame⟩ := transports_agree (by decide +kernel) htok hanswers
    hapart hheard hout hconn hrun 5000
  refine ⟨res, ?_, ?_⟩
  · rw [hlines]
    decide +kernel
  · apply (hsame (by decide +kernel)).2
    decide +kernel

end MesCore
