import MesCore.TransportIndependence
import MesCore.Listening
import MesCore.Shell

namespace MesCore
set_option autoImplicit true
open Shell

/-- The pieces of a word that begins inside single quotes and goes on with this escaped text, up to
the quote behind it. -/
def quotedPieces : Text → Text → Word
  | held, [] => [.quoted held]
  | held, '\'' :: cs => .quoted held :: .quoted ['\''] :: quotedPieces [] cs
  | held, c :: cs => quotedPieces (held ++ [c]) cs

/-- `s.replace("'", "'\\''")`. -/
def escapeQuotes (s : Text) : Text := s.flatMap fun c => if c = '\'' then "'\\''".toList else [c]

section
variable {s rest : Text} {c : Char}

theorem quoteCmd_toList (cmd : String) : (quoteCmd cmd).toList = escapeQuotes cmd.toList := by
  rw [quoteCmd, String.toList_ofList]
  rfl

theorem escapeQuotes_quote (s : Text) :
    escapeQuotes ('\'' :: s) = '\'' :: '\\' :: '\'' :: '\'' :: escapeQuotes s := rfl

theorem escapeQuotes_cons (hc : c ≠ '\'') (s : Text) :
    escapeQuotes (c :: s) = c :: escapeQuotes s := by
  rw [escapeQuotes, List.flatMap_cons, if_neg hc]
  rfl

theorem quotedPieces_cons (hc : c ≠ '\'') (held s : Text) :
    quotedPieces held (c :: s) = quotedPieces (held ++ [c]) s := by
  rw [quotedPieces]
  rintro rfl
  exact hc rfl

/-- Escaped text stays within its quotes, whatever it is and whatever follows it. -/
theorem lexFrom_escaped (w : Word) (held s rest : Text) :
    lexFrom (.single w held) (escapeQuotes s ++ '\'' :: rest) =
      lexFrom (.text (some (w ++ quotedPieces held s))) rest := by
  induction s generalizing w held with
  | nil => rfl
  | cons c s ih =>
    by_cases hc : c = '\''
    · subst c
      have hquote : lexFrom (.single w held)
            ('\'' :: '\\' :: '\'' :: '\'' :: (escapeQuotes s ++ '\'' :: rest)) =
          lexFrom (.single (w ++ [.quoted held] ++ [.quoted ['\'']]) [])
            (escapeQuotes s ++ '\'' :: rest) := rfl
      rw [escapeQuotes_quote]
      simp only [List.cons_append]
      rw [hquote, ih, quotedPieces, List.append_assoc, List.append_assoc]
      rfl
    · rw [escapeQuotes_cons hc, List.cons_append, lexFrom, step, if_neg hc, List.nil_append, ih,
        quotedPieces_cons hc]

theorem quotedPieces_eq (held s : Text) :
    ∃ ts : List Text, ts ≠ [] ∧ quotedPieces held s = ts.map .quoted ∧ ts.flatten = held ++ s := by
  induction s generalizing held with
  | nil => exact ⟨[held], List.cons_ne_nil held [], rfl, by simp⟩
  | cons c s ih =>
    by_cases hc : c = '\''
    · subst c
      obtain ⟨ts, -, hpieces, hflat⟩ := ih []
      refine ⟨held :: ['\''] :: ts, List.cons_ne_nil held _, ?_, ?_⟩
      · rw [quotedPieces, hpieces]
        rfl
      · rw [List.flatten_cons, List.flatten_cons, hflat]
        rfl
    · obtain ⟨ts, hne, hpieces, hflat⟩ := ih (held ++ [c])
      refine ⟨ts, hne, ?_, ?_⟩
      · rw [quotedPieces_cons hc, hpieces]
      · rw [hflat, List.append_assoc]
        rfl

theorem mapM_quoted (sub : Text → Option Text) (ts : List Text) :
    (ts.map Piece.quoted).mapM (markPiece sub) = some (ts.map fun t => .quote :: t.map .keep) := by
  induction ts with
  | nil => rfl
  | cons t ts ih => simp [List.mapM_cons, markPiece, ih]

theorem fieldsFrom_quoted (u : Text) (ts : List Text) :
    fieldsFrom (some u) (ts.map fun t => Mark.quote :: t.map .keep).flatten =
      [u ++ ts.flatten] := by
  induction ts generalizing u with
  | nil =>
    rw [List.flatten_nil, List.append_nil]
    rfl
  | cons t ts ih =>
    have hkeep (v t : Text) (ms : List Mark) :
        fieldsFrom (some v) (t.map .keep ++ ms) = fieldsFrom (some (v ++ t)) ms := by
      induction t generalizing v with
      | nil => rw [List.append_nil]; rfl
      | cons c t ih =>
        have hstep := ih (v ++ [c])
        rw [List.append_assoc, List.singleton_append] at hstep
        exact hstep
    rw [List.map_cons, List.flatten_cons, List.cons_append, fieldsFrom, Option.getD_some, hkeep, ih,
      List.flatten_cons, List.append_assoc]

theorem expandWord_quotedPieces (sub : Text → Option Text) (s : Text) :
    expandWord sub (quotedPieces [] s) = some [s] := by
  obtain ⟨ts, hne, hpieces, hflat⟩ := quotedPieces_eq [] s
  obtain ⟨t, ts, rfl⟩ := List.exists_cons_of_ne_nil hne
  rw [List.nil_append] at hflat
  rw [hpieces, expandWord, mapM_quoted]
  change some (fieldsFrom (some []) (t.map Mark.keep ++
    (ts.map fun t => .quote :: t.map .keep).flatten)) = _
  have hfields := fieldsFrom_quoted [] (t :: ts)
  rw [hflat] at hfields
  exact congrArg some hfields

end

section
variable {prompt token : String}

/-- The argument of `printf`: the marker on a line of its own. -/
def markerArg (marker : String) : Word :=
  [.quoted ("\\n".toList ++ marker.toList ++ "\\n".toList)]

/-- The line that `safe_run` injects, as commands. -/
def injectedScript (token cmd : String) : Script :=
  .commands [
    { words := [literal "printf", markerArg (startMarker token)] },
    { words := [literal "sh", literal "-c", quotedPieces [] cmd.toList] },
    { words := [literal "printf", markerArg (magicMarker token ++ ":%d"), [.parameter '?']] }]

theorem quote_notMem_marker {marker : List Char} (h : ∀ c ∈ marker, isWordChar c = true) :
    '\'' ∉ "\\n".toList ++ marker ++ "\\n".toList := by
  have hbreak : '\'' ∉ "\\n".toList := by decide
  intro hmem
  rcases List.mem_append.1 hmem with hmem | hmem
  · rcases List.mem_append.1 hmem with hmem | hmem
    · exact hbreak hmem
    · exact notMem_of_word h (by decide) hmem
  · exact hbreak hmem

theorem lex_injectedCmd (hshell : isUboot prompt = false) (htok : IsExecToken token)
    (cmd : String) :
    lex (injectedCmd prompt token cmd).toList =
      [.word (literal "printf"), .word (markerArg (startMarker token)), .semi,
        .word (literal "sh"), .word (literal "-c"), .word (quotedPieces [] cmd.toList), .semi,
        .word (literal "printf"), .word (markerArg (magicMarker token ++ ":%d")),
        .word [.parameter '?']] := by
  have hstart := quote_notMem_marker htok.startMarker_word
  have hexit : '\'' ∉ "\\n".toList ++ (magicMarker token).toList ++ ':' :: "%d\\n".toList := by
    have hmagic := quote_notMem_marker htok.magicMarker_word
    rw [List.mem_append, not_or] at hmagic ⊢
    exact ⟨hmagic.1, by decide⟩
  have hfirst (rest : Text) : lexFrom (.text none) ("printf ".toList ++ '\'' :: rest) =
      .word (literal "printf") :: lexFrom (.single [] []) rest := rfl
  have hmiddle (w : Word) (rest : Text) :
      lexFrom (.text (some w)) (" ; sh -c ".toList ++ '\'' :: rest) = .word w :: .semi ::
        .word (literal "sh") :: .word (literal "-c") :: lexFrom (.single [] []) rest := rfl
  have hlast (w : Word) (rest : Text) :
      lexFrom (.text (some w)) (" ; printf ".toList ++ '\'' :: rest) = .word w :: .semi ::
        .word (literal "printf") :: lexFrom (.single [] []) rest := rfl
  have hstatus (w : Word) :
      lexFrom (.text (some w)) " $?".toList = [.word w, .word [.parameter '?']] := rfl
  rw [lex, injectedCmd_toList hshell, quoteCmd_toList, hfirst, lexFrom_single hstart, hmiddle,
    lexFrom_escaped, hlast, lexFrom_single hexit, hstatus, markerArg, markerArg,
    String.toList_append]
  simp only [List.append_assoc, List.nil_append]
  rfl

theorem parse_injectedCmd (hshell : isUboot prompt = false) (htok : IsExecToken token)
    (cmd : String) :
    parse (injectedCmd prompt token cmd).toList = some (injectedScript token cmd) := by
  rw [parse, lex_injectedCmd hshell htok]
  rfl

theorem expandWords_sh (sub : Text → Option Text) (cmd : Text) :
    expandWords sub [literal "sh", literal "-c", quotedPieces [] cmd] =
      some ["sh".toList, "-c".toList, cmd] := by
  have hsh : expandWord sub (literal "sh") = some ["sh".toList] := expandWord_plain (by decide)
  have hc : expandWord sub (literal "-c") = some ["-c".toList] := expandWord_plain (by decide)
  exact expandWords_cons hsh (expandWords_cons hc
    (expandWords_cons (expandWord_quotedPieces sub cmd) expandWords_nil))

end

/-- What code writes in a run in which no write fails. -/
inductive Writes : Code → List Bytes → Prop
  | done : Writes .done []
  | subscribe (q : QueueId) : Writes (next q) ws → Writes (.subscribe maxsize next) ws
  | unsubscribe : Writes next ws → Writes (.unsubscribe q next) ws
  | get (r : Option Bytes) : Writes (next r) ws → Writes (.get q next) ws
  | flush : Writes next ws → Writes (.flush next) ws
  | write : Writes (next true) ws → Writes (.write data next) (data :: ws)
  | clock (n : Nat) : Writes (next n) ws → Writes (.clock next) ws
  | written : Writes next ws → Writes (.written next) ws

/-- The newlines of a client that listens to a silent console. -/
def redraws (n : Nat) : List Bytes := List.replicate n (ascii "\n")

section
variable {failed next : Code} {q : QueueId} {ws : List Bytes}

theorem writes_slices {slices : List Bytes} (h : Writes (writeSlices failed next slices) ws) :
    ∃ ws', ws = slices ++ ws' ∧ Writes next ws' := by
  induction slices generalizing ws with
  | nil => exact ⟨ws, rfl, h⟩
  | cons s slices ih =>
    cases h with
    | write h =>
      dsimp only at h
      rw [if_pos rfl] at h
      obtain ⟨ws', rfl, hnext⟩ := ih h
      exact ⟨ws', rfl, hnext⟩

theorem writes_redraw (h : Writes (redraw q next) ws) :
    ∃ n ws', ws = redraws n ++ ws' ∧ Writes next ws' := by
  cases h with
  | clock silent h =>
    dsimp only at h
    split at h
    · exact ⟨0, ws, rfl, h⟩
    · cases h with
      | write h => exact ⟨1, _, rfl, h⟩

theorem writes_expectLoop {pattern : Bytes} {next : Option Bytes → Code} {turns : Nat}
    {raw : Bytes} (h : Writes (expectLoop pattern q next turns raw) ws) :
    ∃ n r ws', ws = redraws n ++ ws' ∧ Writes (next r) ws' := by
  induction turns generalizing raw ws with
  | zero =>
    cases h with
    | unsubscribe h => exact ⟨0, none, ws, rfl, h⟩
  | succ turns ih =>
    have hgo {raw : Bytes} {ws : List Bytes}
        (h : Writes (redraw q (expectLoop pattern q next turns raw)) ws) :
        ∃ n r ws', ws = redraws n ++ ws' ∧ Writes (next r) ws' := by
      obtain ⟨m, ws', rfl, hloop⟩ := writes_redraw h
      obtain ⟨n, r, ws'', rfl, hnext⟩ := ih hloop
      refine ⟨m + n, r, ws'', ?_, hnext⟩
      rw [← List.append_assoc, redraws, redraws, redraws, ← List.replicate_add]
    cases h with
    | get r h =>
      cases r with
      | none => exact hgo h
      | some chunk =>
        dsimp only at h
        split at h
        · cases h with
          | unsubscribe h => exact ⟨0, _, ws, rfl, h⟩
        · exact hgo h

theorem writes_expect {pattern : Bytes} {next : Option Bytes → Code}
    (h : Writes (expect pattern [] next) ws) :
    ∃ n r ws', ws = redraws n ++ ws' ∧ Writes (next r) ws' := by
  cases h with
  | subscribe q h =>
    cases h with
    | clock turns h => exact writes_expectLoop h

variable {prompt token cmd : String}

theorem writes_blank (hcmd : pyStrip cmd.toList = []) (h : Writes (safeRun prompt token cmd) ws) :
    ∃ n, ws = lineSlices "" ++ redraws n := by
  cases h with
  | flush h =>
    rw [if_pos hcmd] at h
    obtain ⟨ws', rfl, hexpect⟩ := writes_slices h
    obtain ⟨n, _, _, rfl, hdone⟩ := writes_expect hexpect
    cases hdone
    exact ⟨n, by rw [List.append_nil]⟩

theorem writes_safeRun (hcmd : pyStrip cmd.toList ≠ [])
    (h : Writes (safeRun prompt token cmd) ws) :
    ∃ m n,
      ws = [0x03] :: (redraws m ++ lineSlices (injectedCmd prompt token cmd) ++ redraws n) := by
  cases h with
  | flush h =>
    rw [if_neg hcmd] at h
    cases h with
    | write h =>
      dsimp only at h
      rw [if_pos rfl] at h
      obtain ⟨m, _, _, rfl, hflush⟩ := writes_expect h
      cases hflush with
      | flush hline =>
        obtain ⟨_, rfl, hwritten⟩ := writes_slices hline
        cases hwritten with
        | written hexpect =>
          obtain ⟨n, _, _, rfl, hdone⟩ := writes_expect hexpect
          cases hdone
          exact ⟨m, n, by rw [List.append_nil, List.append_assoc]⟩

end

def journalled (sensitive : Bool) (cmd : String) : String :=
  if sensitive then "******** (sensitive)" else sshLogCmd false cmd

section
variable {c : SshClient}

theorem wrappedCmd_toList (h : c.forensicJournaling = true) (sensitive : Bool) (cmd : String) :
    (c.wrappedCmd sensitive cmd).toList = "logger -t MES_Factory ".toList ++ '\'' ::
      (escapeQuotes ("EXEC: ".toList ++ (journalled sensitive cmd).toList) ++ '\'' ::
        (" ; ".toList ++ cmd.toList)) := by
  have hexec (s : Text) :
      escapeQuotes ("EXEC: ".toList ++ s) = "EXEC: ".toList ++ escapeQuotes s := by
    rw [escapeQuotes, List.flatMap_append]
    rfl
  have hbegin : "logger -t MES_Factory 'EXEC: ".toList =
      "logger -t MES_Factory ".toList ++ '\'' :: "EXEC: ".toList := by decide
  have hend : "' ; ".toList = '\'' :: " ; ".toList := by decide
  rw [SshClient.wrappedCmd, if_pos h, hexec]
  cases sensitive with
  | true =>
    have hmasked : "logger -t MES_Factory 'EXEC: ******** (sensitive)' ; ".toList =
        "logger -t MES_Factory ".toList ++ '\'' :: ("EXEC: ".toList ++
          (escapeQuotes "******** (sensitive)".toList ++ '\'' :: " ; ".toList)) := by decide
    rw [if_pos rfl, String.toList_append, hmasked, journalled, if_pos rfl]
    simp only [List.append_assoc, List.cons_append]
  | false =>
    rw [if_neg Bool.false_ne_true, journalled, if_neg Bool.false_ne_true]
    simp only [String.toList_append, quoteCmd_toList]
    rw [hbegin, hend]
    simp only [List.append_assoc, List.cons_append]

theorem lex_wrappedCmd (h : c.forensicJournaling = true) (sensitive : Bool) (cmd : String) :
    lex (c.wrappedCmd sensitive cmd).toList =
      .word (literal "logger") :: .word (literal "-t") :: .word (literal "MES_Factory") ::
        .word (quotedPieces [] ("EXEC: ".toList ++ (journalled sensitive cmd).toList)) :: .semi ::
          lex cmd.toList := by
  have hlogger (rest : Text) :
      lexFrom (.text none) ("logger -t MES_Factory ".toList ++ '\'' :: rest) =
        .word (literal "logger") :: .word (literal "-t") :: .word (literal "MES_Factory") ::
          lexFrom (.single [] []) rest := rfl
  have hsemi (w : Word) (rest : Text) : lexFrom (.text (some w)) (" ; ".toList ++ rest) =
      .word w :: .semi :: lexFrom (.text none) rest := rfl
  rw [lex, wrappedCmd_toList h, hlogger, lexFrom_escaped, hsemi]
  rfl

theorem expandWords_logger (sub : Text → Option Text) (s : Text) :
    expandWords sub [literal "logger", literal "-t", literal "MES_Factory", quotedPieces [] s] =
      some ["logger".toList, "-t".toList, "MES_Factory".toList, s] := by
  have hlogger : expandWord sub (literal "logger") = some ["logger".toList] :=
    expandWord_plain (by decide)
  have htag : expandWord sub (literal "-t") = some ["-t".toList] := expandWord_plain (by decide)
  have hname : expandWord sub (literal "MES_Factory") = some ["MES_Factory".toList] :=
    expandWord_plain (by decide)
  exact expandWords_cons hlogger (expandWords_cons htag (expandWords_cons hname
    (expandWords_cons (expandWord_quotedPieces sub s) expandWords_nil)))

end

/-- Whatever the command is, it is one argument of `sh -c` on the line that the serial client types
into a shell, if it is not blank, and one argument of `logger`, before itself, on the line that SSH
runs. U-Boot is given the command as it is, and of a sensitive command the journal shows none of
it. -/
theorem quoting_injectionFree {token : String} (htok : IsExecToken token) {c : SshClient}
    (hjournal : c.forensicJournaling = true) (prompt cmd : String) (sensitive : Bool)
    (sub : Text → Option Text) :
    (∀ ws, Writes (safeRun prompt token cmd) ws → if pyStrip cmd.toList = [] then
        ∃ n, ws = lineSlices "" ++ redraws n
      else ∃ line m n, ws = [0x03] :: (redraws m ++ lineSlices line ++ redraws n) ∧
        if isUboot prompt then line = cmd
        else parse line.toList = some (injectedScript token cmd)) ∧
      expandWords sub [literal "sh", literal "-c", quotedPieces [] cmd.toList] =
        some ["sh".toList, "-c".toList, cmd.toList] ∧
      ∃ arg, lex (c.wrappedCmd sensitive cmd).toList =
          .word (literal "logger") :: .word (literal "-t") :: .word (literal "MES_Factory") ::
            .word arg :: .semi :: lex cmd.toList ∧
        expandWords sub [literal "logger", literal "-t", literal "MES_Factory", arg] =
          some ["logger".toList, "-t".toList, "MES_Factory".toList,
            "EXEC: ".toList ++ (journalled sensitive cmd).toList] := by
  have hserial : if isUboot prompt then injectedCmd prompt token cmd = cmd
      else parse (injectedCmd prompt token cmd).toList = some (injectedScript token cmd) := by
    split
    · rename_i hshell
      rw [injectedCmd, if_pos hshell]
    · rename_i hshell
      exact parse_injectedCmd (Bool.eq_false_iff.2 hshell) htok cmd
  constructor
  · intro ws h
    split
    · exact writes_blank ‹_› h
    · obtain ⟨m, n, hws⟩ := writes_safeRun ‹_› h
      exact ⟨_, m, n, hws, hserial⟩
  · exact ⟨expandWords_sh sub cmd.toList, _, lex_wrappedCmd hjournal sensitive cmd,
      expandWords_logger sub _⟩

def journallingClient : SshClient where
  forensicJournaling := true

/-- A command with a quote at the place where the journal cuts it. -/
def longCmd : String := String.ofList (List.replicate 252 'a') ++ "'; rm -rf /tmp'"

theorem quoting_longCmd : ∃ arg, lex (journallingClient.wrappedCmd false longCmd).toList =
    .word (literal "logger") :: .word (literal "-t") :: .word (literal "MES_Factory") ::
      .word arg :: .semi :: lex longCmd.toList ∧
    expandWords (fun _ => none) [literal "logger", literal "-t", literal "MES_Factory", arg] =
      some ["logger".toList, "-t".toList, "MES_Factory".toList,
        "EXEC: ".toList ++ List.replicate 252 'a' ++ "'...".toList] := by
  have htok : IsExecToken "0badc0de" := by decide
  obtain ⟨-, -, arg, hlex, hargv⟩ :=
    quoting_injectionFree htok (c := journallingClient) rfl "~# " longCmd false fun _ => none
  have hcut : (journalled false longCmd).toList = List.replicate 252 'a' ++ "'...".toList := by
    have hlong : longCmd.toList = List.replicate 252 'a' ++ "'; rm -rf /tmp'".toList := by
      unfold longCmd
      simp only [String.toList_append, String.toList_ofList]
    have hlength : ¬ longCmd.toList.length < 256 := by
      rw [hlong, List.length_append, List.length_replicate]
      decide
    have htake : longCmd.toList.take 253 = List.replicate 252 'a' ++ ['\''] := by
      have hcount : min 253 252 = 252 := by decide
      rw [hlong, List.take_append, List.length_replicate, List.take_replicate, hcount]
      exact congrArg (List.replicate 252 'a' ++ ·) (by decide)
    have hend : ['\''] ++ "...".toList = "'...".toList := by decide
    rw [journalled, if_neg Bool.false_ne_true, sshLogCmd, if_neg Bool.false_ne_true,
      if_neg hlength, String.toList_append, String.toList_ofList, htake, List.append_assoc,
      hend]
  rw [hcut] at hargv
  exact ⟨arg, hlex, hargv⟩

/-- Of a blank command only the end of a line is sent, U-Boot gets one command, and a sensitive
command is not in the journal. -/
theorem quoting_exceptions :
    Writes (safeRun "~# " "0badc0de" " ") [ascii "\n"] ∧
    parse (injectedCmd "=> " "0badc0de" "printenv").toList =
        some (.commands [{ words := [literal "printenv"] }]) ∧
      parse (journallingClient.wrappedCmd true "reboot").toList = some (.commands [
        { words := [literal "logger", literal "-t", literal "MES_Factory",
            [.quoted "EXEC: ******** (sensitive)".toList]] },
        { words := [literal "reboot"] }]) := by
  have hblank : pyStrip " ".toList = [] := by decide
  have hline : lineSlices "" = [ascii "\n"] := by decide +kernel
  constructor
  · apply Writes.flush
    rw [if_pos hblank, hline]
    apply Writes.write
    exact .subscribe 0 (.clock 0 (.unsubscribe .done))
  · decide +kernel

end MesCore
