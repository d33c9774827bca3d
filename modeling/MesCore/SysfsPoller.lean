import MesCore.Rounding
import MesCore.Shell
import MesCore.Text
import Mathlib.Data.Rat.Floor

namespace MesCore
set_option autoImplicit true

open Shell (Text Files)

structure SysfsTargetConfig where
  path : Text
  scale : ℚ := 1
  unit : Text := []

/-- `targets` is a dict: its items in order, no key twice. -/
structure SysfsPollerConfig where
  pollingIntervalS : ℚ := 1
  targets : List (Text × SysfsTargetConfig)
  keys_nodup : (targets.map Prod.fst).Nodup

/-- `id(self)` tells two pollers apart. -/
structure BackgroundSysfsPoller where
  cfg : SysfsPollerConfig
  ident : Nat

inductive Metric
  | number (q : ℚ)
  | state (t : Text)
  deriving DecidableEq

namespace BackgroundSysfsPoller

def logFile (p : BackgroundSysfsPoller) : Text :=
  "/tmp/mes_sysfs_".toList ++ Nat.toDigits 10 p.ident ++ ".log".toList

def pidFile (p : BackgroundSysfsPoller) : Text :=
  "/tmp/mes_sysfs_".toList ++ Nat.toDigits 10 p.ident ++ ".pid".toList

def keys (p : BackgroundSysfsPoller) : List Text := p.cfg.targets.map Prod.fst

def paths (p : BackgroundSysfsPoller) : List Text := p.cfg.targets.map fun kt => kt.2.path

def readTimeout (p : BackgroundSysfsPoller) : ℚ := max (1 / 5) (p.cfg.pollingIntervalS * (1 / 2))

def catCommand (timeout path : Text) : Text :=
  "timeout ".toList ++ timeout ++ " cat ".toList ++ path ++ " 2>/dev/null".toList

def catCommands (timeout : Text) (paths : List Text) : Text :=
  " echo \"||\" ".toList.intercalate (paths.map (catCommand timeout))

section
-- `str` of a float
variable (str : ℚ → Text)

def script (p : BackgroundSysfsPoller) : Text :=
  "while true; do echo $(".toList ++ catCommands (str p.readTimeout) p.paths ++ ") >> ".toList ++
    p.logFile ++ "; sleep ".toList ++ str p.cfg.pollingIntervalS ++ "; done".toList

def deployCmd (p : BackgroundSysfsPoller) : Text :=
  "nohup sh -c '".toList ++ p.script str ++ "' >/dev/null 2>&1 & echo $! > ".toList ++ p.pidFile

end

/-- A first operand that some `echo` takes for an option. -/
def isEchoOption : Text → Bool
  | '-' :: cs => cs ≠ [] && cs.all (['n', 'e', 'E'].contains ·)
  | _ => false

/-- What `echo` writes is left to the implementation. -/
def echoVaries (args : List Text) : Bool :=
  args.head?.any isEchoOption || args.any (·.contains '\\')

section
-- what `echo` writes where that is left to it
variable (otherEcho : List Text → Text)

def echo (args : List Text) : Text :=
  if echoVaries args then otherEcho args else [' '].intercalate args ++ ['\n']

/-- The standard output of the commands the script runs. An operand `cat` cannot open is only
complained about; no read takes as long as its timeout. -/
def commandOutput (files : Files) : List Text → Text
  | [] => []
  | name :: args =>
    if name = "echo".toList then echo otherEcho args
    else if name = "cat".toList then args.flatMap fun path => (files path).getD []
    else if name = "timeout".toList then
      match args with
      | [] => []
      | _ :: argv => commandOutput files argv
    else []

/-- What `sh -c` gets to run. -/
def deployedScript (deploy : Text) : Option Text := do
  let .commands (agent :: _) ← Shell.parse deploy | none
  let argv ← Shell.expandWords (fun _ => none) agent.words
  match argv with
  | [nohup, sh, flag, script] =>
    if nohup = "nohup".toList ∧ sh = "sh".toList ∧ flag = "-c".toList then some script else none
  | _ => none

def iteration (str : ℚ → Text) (p : BackgroundSysfsPoller) (files : Files) : Option Files := do
  let script ← deployedScript (p.deployCmd str)
  let .loop _ body ← Shell.parse script | none
  let run := commandOutput otherEcho
  let (_, files) ← Shell.runList run (Shell.output run 1) ([], files) body
  return files

end

/-- `line.split('||')`. -/
def splitBars (cur : Text) : Text → List Text
  | [] => [cur]
  | '|' :: '|' :: cs => cur :: splitBars [] cs
  | c :: cs => splitBars (cur ++ [c]) cs

def addLine (keys : List Text) (samples : Text → List Text) (line : Text) : Text → List Text :=
  let vals := (splitBars [] line).map pyStrip
  if vals.length ≠ keys.length then samples
  else (keys.zip vals).foldl (fun samples kv =>
    if kv.2 = [] then samples
    else fun k => if k = kv.1 then samples k ++ [kv.2] else samples k) samples

def dataMatrix (keys : List Text) (rawLines : List Text) : Text → List Text :=
  rawLines.foldl (addLine keys) fun _ => []

def aggregate (float : Text → Option ℚ) (key : Text) (target : SysfsTargetConfig)
    (values : List Text) :
    List (Text × Metric) :=
  let unitSuffix := if target.unit = [] then [] else '_' :: target.unit
  match values.mapM float with
  | some nums =>
    match nums.map (· * target.scale) with
    | [] => []
    | n :: ns =>
      [(key ++ "_min".toList ++ unitSuffix, .number (ns.foldl min n)),
        (key ++ "_max".toList ++ unitSuffix, .number (ns.foldl max n)),
        (key ++ "_avg".toList ++ unitSuffix,
          .number (roundHalfEven ((n :: ns).sum / (n :: ns).length * 100) / 100))]
  | none => [(key ++ "_final_state".toList, .state (values.getLast?.getD []))]

/-- The assignments `_parse_data` makes to its dict, in order. -/
def parseData (float : Text → Option ℚ) (p : BackgroundSysfsPoller) (rawLines : List Text) :
    List (Text × Metric) :=
  if rawLines = [] ∨ rawLines = [[]] then []
  else p.cfg.targets.flatMap fun kt => aggregate float kt.1 kt.2 (dataMatrix p.keys rawLines kt.1)

open Shell (OrdinaryWord Token lexFrom literal)

section
variable {timeout path : Text} {paths : List Text}

theorem plain_timeout : OrdinaryWord "timeout".toList := ⟨by decide, by decide⟩

theorem plain_cat : OrdinaryWord "cat".toList := ⟨by decide, by decide⟩

theorem lexFrom_devNull (rest : Text) :
    lexFrom (.text none) ("2>/dev/null".toList ++ rest) =
      .great 2 :: lexFrom (.text (some (literal "/dev/null"))) rest := by
  simp [lexFrom, Shell.step, Shell.textStep, Shell.startRedirect, literal, Shell.backquote]

theorem lexFrom_separator (w : Shell.Word) (rest : Text) :
    lexFrom (.text (some w)) (" echo \"||\" ".toList ++ rest) =
      .word w :: .word (literal "echo") :: .word [.quoted "||".toList] ::
        lexFrom (.text none) rest := by
  simp [lexFrom, Shell.step, Shell.textStep, Shell.flush, literal, Shell.backquote]

def catTokens (timeout : Text) : List Text → List Token
  | [] => []
  | path :: paths =>
    .word (literal "timeout") :: .word (timeout.map .plain) :: .word (literal "cat") ::
      .word (path.map .plain) :: .great 2 :: .word (literal "/dev/null") ::
      if paths = [] then []
      else .word (literal "echo") :: .word [.quoted "||".toList] :: catTokens timeout paths

theorem lexFrom_catCommand (ht : OrdinaryWord timeout) (hp : OrdinaryWord path) (rest : Text) :
    lexFrom (.text none) (catCommand timeout path ++ rest) =
      .word (literal "timeout") :: .word (timeout.map .plain) :: .word (literal "cat") ::
        .word (path.map .plain) :: .great 2 ::
          lexFrom (.text (some (literal "/dev/null"))) rest := by
  have hcat : catCommand timeout path ++ rest = "timeout".toList ++ ' ' :: (timeout ++ ' ' ::
      ("cat".toList ++ ' ' :: (path ++ ' ' :: ("2>/dev/null".toList ++ rest)))) := by
    have h₁ : "timeout ".toList = "timeout".toList ++ [' '] := by simp
    have h₂ : " cat ".toList = ' ' :: ("cat".toList ++ [' ']) := by simp
    have h₃ : " 2>/dev/null".toList = ' ' :: "2>/dev/null".toList := by simp
    unfold catCommand
    rw [h₁, h₂, h₃]
    simp only [List.append_assoc, List.cons_append, List.nil_append]
  rw [hcat, Shell.lexFrom_word plain_timeout, Shell.lexFrom_word ht, Shell.lexFrom_word plain_cat,
    Shell.lexFrom_word hp, lexFrom_devNull]
  rfl

theorem lex_catCommands (ht : OrdinaryWord timeout) (hps : ∀ p ∈ paths, OrdinaryWord p)
    (hne : paths ≠ []) :
    Shell.lex (catCommands timeout paths) = catTokens timeout paths := by
  induction paths with
  | nil => exact (hne rfl).elim
  | cons path paths ih =>
    rw [List.forall_mem_cons] at hps
    rw [Shell.lex, catCommands, List.map_cons]
    cases paths with
    | nil =>
      have h := lexFrom_catCommand ht hps.1 []
      rw [List.append_nil] at h
      rw [List.map_nil, List.intercalate_singleton, h]
      rfl
    | cons q paths =>
      have hnext := ih hps.2 (List.cons_ne_nil _ _)
      rw [Shell.lex] at hnext
      rw [List.map_cons, List.intercalate_cons_cons, ← List.map_cons, List.append_assoc,
        lexFrom_catCommand ht hps.1, ← catCommands, lexFrom_separator, hnext]
      conv_rhs => rw [catTokens]
      rfl

def catWords (timeout : Text) : List Text → List Shell.Word
  | [] => []
  | path :: paths =>
    literal "timeout" :: timeout.map .plain :: literal "cat" :: path.map .plain ::
      if paths = [] then [] else literal "echo" :: [.quoted "||".toList] :: catWords timeout paths

def catArgv (timeout : Text) : List Text → List Text
  | [] => []
  | path :: paths =>
    "timeout".toList :: timeout :: "cat".toList :: path ::
      if paths = [] then [] else "echo".toList :: "||".toList :: catArgv timeout paths

theorem catTokens_no_separator (timeout : Text) (paths : List Text) :
    ∀ t ∈ catTokens timeout paths, t.isSeparator = false := by
  induction paths with
  | nil => intro t ht; cases ht
  | cons path paths ih =>
    rw [catTokens]
    split
    · simp [Token.isSeparator]
    · simpa [Token.isSeparator] using ih

theorem parseSimple_catTokens (timeout : Text) (paths : List Text) :
    Shell.parseSimple (catTokens timeout paths) =
      some ⟨catWords timeout paths,
        paths.map fun _ => ⟨.great 2, literal "/dev/null"⟩⟩ := by
  induction paths with
  | nil => rfl
  | cons path paths ih =>
    rw [catTokens, catWords]
    split
    · rename_i h
      subst h
      rfl
    · simp only [Shell.parseSimple, ih]
      rfl

theorem parse_catCommands (ht : OrdinaryWord timeout) (hps : ∀ p ∈ paths, OrdinaryWord p)
    (hne : paths ≠ []) :
    Shell.parse (catCommands timeout paths) = some (.commands [⟨catWords timeout paths,
      paths.map fun _ => ⟨.great 2, literal "/dev/null"⟩⟩]) := by
  obtain ⟨path, rest, rfl⟩ := List.exists_cons_of_ne_nil hne
  have hseg : Shell.segments [] (catTokens timeout (path :: rest)) =
      [catTokens timeout (path :: rest)] := by
    rw [Shell.segments_eq (catTokens_no_separator _ _)]
    rfl
  have hparse := parseSimple_catTokens timeout (path :: rest)
  have hcommand : Shell.parseCommand (catTokens timeout (path :: rest)) =
      Shell.parseSimple (catTokens timeout (path :: rest)) := by
    rw [catTokens, Shell.parseCommand, if_neg (by decide)]
  rw [Shell.parse, lex_catCommands ht hps hne, hseg]
  change Shell.Script.commands <$> [catTokens timeout (path :: rest)].mapM Shell.parseCommand = _
  rw [List.mapM_cons, hcommand, hparse]
  rfl

theorem expandWords_catWords {sub : Text → Option Text} (ht : OrdinaryWord timeout)
    (hps : ∀ p ∈ paths, OrdinaryWord p) :
    Shell.expandWords sub (catWords timeout paths) = some (catArgv timeout paths) := by
  induction paths with
  | nil => rfl
  | cons path paths ih =>
    rw [List.forall_mem_cons] at hps
    have hliteral (s : String) (hs : s.toList ≠ []) :
        Shell.expandWord sub (literal s) = some [s.toList] := Shell.expandWord_plain hs
    have htail : Shell.expandWords sub (if paths = [] then [] else
        literal "echo" :: [.quoted "||".toList] :: catWords timeout paths) =
        some (if paths = [] then []
          else "echo".toList :: "||".toList :: catArgv timeout paths) := by
      split
      · exact Shell.expandWords_nil
      · exact Shell.expandWords_cons (hliteral "echo" (by decide)) <|
          Shell.expandWords_cons (Shell.expandWord_quoted _) (ih hps.2)
    rw [catWords, catArgv]
    exact Shell.expandWords_cons (hliteral "timeout" (by decide)) <|
      Shell.expandWords_cons (Shell.expandWord_plain ht.nonempty) <|
      Shell.expandWords_cons (hliteral "cat" (by decide)) <|
      Shell.expandWords_cons (Shell.expandWord_plain hps.1.nonempty) htail

/-- The operands of the one `cat` the targets share. -/
def catOperands (timeout : Text) : List Text → List Text
  | [] => []
  | path :: paths =>
    path :: if paths = [] then [] else "echo".toList :: "||".toList :: catArgv timeout paths

theorem commandOutput_catArgv (otherEcho : List Text → Text) (files : Files) (timeout : Text)
    (paths : List Text) : commandOutput otherEcho files (catArgv timeout paths) =
      (catOperands timeout paths).flatMap fun path => (files path).getD [] := by
  cases paths with
  | nil => rfl
  | cons path paths =>
    rw [catArgv, catOperands, commandOutput, if_neg (by decide), if_neg (by decide), if_pos rfl]
    rw [commandOutput, if_neg (by decide), if_pos rfl]

/-- However many targets there are, the substitution runs a single command. -/
theorem output_catCommands (otherEcho : List Text → Text) (files : Files)
    (ht : OrdinaryWord timeout)
    (hps : ∀ p ∈ paths, OrdinaryWord p) (hne : paths ≠ []) :
    Shell.output (commandOutput otherEcho) 1 files (catCommands timeout paths) =
      some ((catOperands timeout paths).flatMap fun path => (files path).getD []) := by
  have hredirect : (paths.map fun _ => (⟨.great 2, literal "/dev/null"⟩ : Shell.Redirect)).mapM
      (Shell.expandRedirect fun _ => none) =
        some (List.replicate paths.length (.great 2, Shell.devNull)) := by
    clear hps hne
    induction paths with
    | nil => rfl
    | cons path paths ih =>
      have hexpand : Shell.expandRedirect (fun _ => none) ⟨.great 2, literal "/dev/null"⟩ =
          some (.great 2, Shell.devNull) := by decide
      rw [List.map_cons, List.mapM_cons, ih, hexpand]
      rfl
  rw [Shell.output, parse_catCommands ht hps hne]
  change Prod.fst <$> (Shell.runSimple _ (Shell.output _ 0) ([], files) _ >>= pure) = _
  have hsub : (Shell.output (commandOutput otherEcho) 0 files) = fun _ => none := rfl
  rw [Shell.runSimple, hsub, expandWords_catWords ht hps]
  simp only [Option.bind_eq_bind, Option.bind_some]
  rw [hredirect]
  simp only [Option.bind_some, Shell.openRedirect_stderr, Option.pure_def, Option.map_eq_map,
    Option.map_some, Shell.write, List.nil_append, commandOutput_catArgv]

theorem no_quote_of_plain {t : Text} (ht : OrdinaryWord t) : '\'' ∉ t := by
  intro h
  have := List.all_eq_true.1 ht.ordinary _ h
  revert this
  decide

theorem closed_catCommand (ht : OrdinaryWord timeout) (hp : OrdinaryWord path) :
    Shell.Closed (catCommand timeout path) := by
  have hplain {t : Text} (h : OrdinaryWord t) : Shell.Closed t :=
    Shell.closed_of_ordinary <| List.all_eq_true.2 fun c hc => by
      simp [List.all_eq_true.1 h.ordinary c hc]
  have h₁ : Shell.Closed "timeout ".toList := Shell.closed_of_ordinary (by decide)
  have h₂ : Shell.Closed " cat ".toList := Shell.closed_of_ordinary (by decide)
  have h₃ : Shell.Closed " 2>/dev/null".toList := Shell.closed_of_ordinary (by decide)
  exact (((h₁.append (hplain ht)).append h₂).append (hplain hp)).append h₃

theorem closed_catCommands (ht : OrdinaryWord timeout) (hps : ∀ p ∈ paths, OrdinaryWord p) :
    Shell.Closed (catCommands timeout paths) := by
  have hsep : Shell.Closed " echo \"||\" ".toList := by
    have h₁ : Shell.Closed " echo ".toList := Shell.closed_of_ordinary (by decide)
    have h₂ : Shell.Closed ('"' :: "||".toList ++ ['"']) := Shell.closed_double (by decide)
    have hsplit :
        " echo \"||\" ".toList = " echo ".toList ++ ('"' :: "||".toList ++ ['"']) ++ [' '] := by
      simp
    rw [hsplit]
    exact (h₁.append h₂).append .single_blank
  induction paths with
  | nil => intro w t rest; simp [catCommands]
  | cons path paths ih =>
    rw [List.forall_mem_cons] at hps
    rw [catCommands, List.map_cons]
    cases paths with
    | nil =>
      rw [List.map_nil, List.intercalate_singleton]
      exact closed_catCommand ht hps.1
    | cons q paths =>
      rw [List.map_cons, List.intercalate_cons_cons, ← List.map_cons]
      exact ((closed_catCommand ht hps.1).append hsep).append (ih hps.2)

theorem quote_not_mem_catCommands (ht : OrdinaryWord timeout) (hps : ∀ p ∈ paths, OrdinaryWord p) :
    '\'' ∉ catCommands timeout paths := by
  have hone {path : Text} (hp : OrdinaryWord path) : '\'' ∉ catCommand timeout path := by
    unfold catCommand
    simp [no_quote_of_plain ht, no_quote_of_plain hp]
  induction paths with
  | nil => simp [catCommands]
  | cons path paths ih =>
    rw [List.forall_mem_cons] at hps
    rw [catCommands, List.map_cons]
    cases paths with
    | nil =>
      rw [List.map_nil, List.intercalate_singleton]
      exact hone hps.1
    | cons q paths =>
      rw [List.map_cons, List.intercalate_cons_cons, ← List.map_cons]
      rw [List.mem_append, List.mem_append, not_or, not_or]
      exact ⟨⟨hone hps.1, by simp⟩, ih hps.2⟩

end

/-- A float prints as digits, a point, signs and an exponent. -/
structure FloatText (str : ℚ → Text) : Prop where
  nonempty : ∀ q, str q ≠ []
  chars : ∀ q, ∀ c ∈ str q, c.isDigit = true ∨ c ∈ ['.', '-', '+', 'e']

theorem ordinary_of_digit {c : Char} (hc : c.isDigit = true) : Shell.ordinary c = true := by
  rw [Shell.ordinary, Bool.not_eq_true', Bool.eq_false_iff]
  intro h
  have hall : [' ', '\t', '\n', ';', '&', '>', '\'', '"', '$', '\\', '#', '|', '<', '(', ')',
      Shell.backquote, '*', '?', '[', '~'].all (fun c => !c.isDigit) = true := by decide
  have hnot := List.all_eq_true.1 hall c (List.contains_iff_mem.1 h)
  rw [hc] at hnot
  cases hnot

theorem FloatText.plain {str : ℚ → Text} (hstr : FloatText str) (q : ℚ) : OrdinaryWord (str q) := by
  refine ⟨hstr.nonempty q, List.all_eq_true.2 fun c hc => ?_⟩
  rcases hstr.chars q c hc with h | h
  · exact ordinary_of_digit h
  · have hall : ['.', '-', '+', 'e'].all Shell.ordinary = true := by decide
    exact List.all_eq_true.1 hall c h

theorem plain_digits (n : Nat) : (Nat.toDigits 10 n).all Shell.ordinary = true :=
  List.all_eq_true.2 fun _ hc =>
    ordinary_of_digit (Nat.isDigit_of_mem_toDigits (by decide) (by decide) hc)

theorem plain_logFile (p : BackgroundSysfsPoller) : OrdinaryWord p.logFile := by
  unfold logFile
  refine ⟨List.append_ne_nil_of_right_ne_nil _ (by decide), ?_⟩
  rw [List.all_append, List.all_append, plain_digits]
  decide

theorem plain_pidFile (p : BackgroundSysfsPoller) : OrdinaryWord p.pidFile := by
  unfold pidFile
  refine ⟨List.append_ne_nil_of_right_ne_nil _ (by decide), ?_⟩
  rw [List.all_append, List.all_append, plain_digits]
  decide

section
variable {str : ℚ → Text} {p : BackgroundSysfsPoller}

/-- The body of the loop: the readings echoed into the log, then the pause. -/
def loopBody (str : ℚ → Text) (p : BackgroundSysfsPoller) : List Shell.Simple :=
  [⟨[literal "echo", [.command (catCommands (str p.readTimeout) p.paths)]],
      [⟨.dgreat 1, p.logFile.map .plain⟩]⟩,
    ⟨[literal "sleep", (str p.cfg.pollingIntervalS).map .plain], []⟩]

theorem script_eq (str : ℚ → Text) (p : BackgroundSysfsPoller) : p.script str =
    "while".toList ++ ' ' :: ("true".toList ++ ';' :: ' ' :: ("do".toList ++ ' ' ::
      ("echo".toList ++ ' ' :: '$' :: '(' :: (catCommands (str p.readTimeout) p.paths ++ ')' ::
        ' ' :: '>' :: '>' :: ' ' :: (p.logFile ++ ';' :: ' ' :: ("sleep".toList ++ ' ' ::
          (str p.cfg.pollingIntervalS ++ ';' :: ' ' :: "done".toList))))))) := by
  have h₁ :
      "while true; do echo $(".toList = "while".toList ++ ' ' :: ("true".toList ++ ';' :: ' ' ::
      ("do".toList ++ ' ' :: ("echo".toList ++ ' ' :: '$' :: '(' :: []))) := by simp
  have h₂ : ") >> ".toList = ')' :: ' ' :: '>' :: '>' :: ' ' :: [] := by simp
  have h₃ : "; sleep ".toList = ';' :: ' ' :: ("sleep".toList ++ ' ' :: []) := by simp
  have h₄ : "; done".toList = ';' :: ' ' :: "done".toList := by simp
  unfold script
  rw [h₁, h₂, h₃, h₄]
  simp only [List.append_assoc, List.cons_append, List.nil_append]

theorem lex_script (hstr : FloatText str) (hps : ∀ t ∈ p.paths, OrdinaryWord t) :
    Shell.lex (p.script str) =
      [.word (literal "while"), .word (literal "true"), .semi, .word (literal "do"),
        .word (literal "echo"), .word [.command (catCommands (str p.readTimeout) p.paths)],
        .dgreat 1, .word (p.logFile.map .plain), .semi, .word (literal "sleep"),
        .word ((str p.cfg.pollingIntervalS).map .plain), .semi, .word (literal "done")] := by
  have hword (s : String) (hne : s.toList ≠ []) (hall : s.toList.all Shell.ordinary = true) :
      OrdinaryWord s.toList := ⟨hne, hall⟩
  have happend (w : Shell.Word) (rest : Text) :
      lexFrom (.text (some w)) (' ' :: '>' :: '>' :: ' ' :: rest) =
      .word w :: .dgreat 1 :: lexFrom (.text none) rest := by
    simp [lexFrom, Shell.step, Shell.textStep, Shell.startRedirect, Shell.flush]
  have hblank (rest : Text) : lexFrom (.text none) (' ' :: rest) = lexFrom (.text none) rest := rfl
  rw [Shell.lex, script_eq, Shell.lexFrom_word (hword "while" (by decide) (by decide)),
    Shell.lexFrom_word_semi (hword "true" (by decide) (by decide)), hblank,
    Shell.lexFrom_word (hword "do" (by decide) (by decide)),
    Shell.lexFrom_word (hword "echo" (by decide) (by decide)),
    Shell.lexFrom_substitution (closed_catCommands (hstr.plain _) hps), happend,
    Shell.lexFrom_word_semi (plain_logFile p), hblank,
    Shell.lexFrom_word (hword "sleep" (by decide) (by decide)),
    Shell.lexFrom_word_semi (hstr.plain _), hblank,
    Shell.lexFrom_last (hword "done" (by decide) (by decide))]
  rfl

theorem parse_script (hstr : FloatText str) (hps : ∀ t ∈ p.paths, OrdinaryWord t) :
    Shell.parse (p.script str) = some (.loop ⟨[literal "true"], []⟩ (loopBody str p)) := by
  have hbody (seg : List Token) (segs : List (List Token)) (h : seg ≠ [.word (literal "done")]) :
      Shell.parseBody (seg :: segs) = (do
        let s ← Shell.parseCommand seg
        let body ← Shell.parseBody segs
        return (s :: body.1, body.2)) := if_neg h
  have hecho (w log : Shell.Word) :
      Shell.parseCommand [.word (literal "echo"), .word w, .dgreat 1, .word log] =
        some ⟨[literal "echo", w], [⟨.dgreat 1, log⟩]⟩ := by
    rw [Shell.parseCommand, if_neg (by decide)]
    rfl
  have hsleep (w : Shell.Word) : Shell.parseCommand [.word (literal "sleep"), .word w] =
      some ⟨[literal "sleep", w], []⟩ := by
    rw [Shell.parseCommand, if_neg (by decide)]
    rfl
  have htrue : Shell.parseCommand [.word (literal "true")] = some ⟨[literal "true"], []⟩ := by
    rw [Shell.parseCommand, if_neg (by decide)]
    rfl
  have hdone : Shell.parseBody [[.word (literal "done")]] = some ([], []) := if_pos rfl
  have hseg (w log pause : Shell.Word) : Shell.segments []
      [.word (literal "while"), .word (literal "true"), .semi, .word (literal "do"),
        .word (literal "echo"), .word w, .dgreat 1, .word log, .semi, .word (literal "sleep"),
        .word pause, .semi, .word (literal "done")] =
      [[.word (literal "while"), .word (literal "true")],
        [.word (literal "do"), .word (literal "echo"), .word w, .dgreat 1, .word log],
        [.word (literal "sleep"), .word pause], [.word (literal "done")]] := by
    simp [Shell.segments]
  rw [Shell.parse, lex_script hstr hps, hseg]
  dsimp only
  rw [if_pos ⟨rfl, rfl⟩, htrue, hbody _ _ (by simp), hecho, hbody _ _ (by simp), hsleep, hdone]
  rfl

theorem quote_not_mem_script (hstr : FloatText str) (hps : ∀ t ∈ p.paths, OrdinaryWord t) :
    '\'' ∉ p.script str := by
  have hcats := quote_not_mem_catCommands (hstr.plain p.readTimeout) hps
  have hlog := no_quote_of_plain (plain_logFile p)
  have hpause := no_quote_of_plain (hstr.plain p.cfg.pollingIntervalS)
  unfold script
  simp [hcats, hlog, hpause]

theorem parse_deployCmd (hstr : FloatText str) (hps : ∀ t ∈ p.paths, OrdinaryWord t) :
    Shell.parse (p.deployCmd str) = some (.commands
      [⟨[literal "nohup", literal "sh", literal "-c", [.quoted (p.script str)]],
          [⟨.great 1, literal "/dev/null"⟩, ⟨.greatAnd 2, literal "1"⟩]⟩,
        ⟨[literal "echo", [.parameter '!']], [⟨.great 1, p.pidFile.map .plain⟩]⟩]) := by
  have hword (s : String) (hne : s.toList ≠ []) (hall : s.toList.all Shell.ordinary = true) :
      OrdinaryWord s.toList := ⟨hne, hall⟩
  have hdeploy :
      p.deployCmd str = "nohup".toList ++ ' ' :: ("sh".toList ++ ' ' :: ("-c".toList ++ ' ' ::
      '\'' :: (p.script str ++
        '\'' :: (" >/dev/null 2>&1 & echo $! > ".toList ++ p.pidFile)))) := by
    have h₁ : "nohup sh -c '".toList = "nohup".toList ++ ' ' :: ("sh".toList ++ ' ' ::
        ("-c".toList ++ ' ' :: '\'' :: [])) := by simp
    have h₂ : "' >/dev/null 2>&1 & echo $! > ".toList =
        '\'' :: " >/dev/null 2>&1 & echo $! > ".toList := by simp
    unfold deployCmd
    rw [h₁, h₂]
    simp only [List.append_assoc, List.cons_append, List.nil_append]
  have hquote (rest : Text) : lexFrom (.text none) ('\'' :: (p.script str ++ '\'' :: rest)) =
      lexFrom (.text (some [.quoted (p.script str)])) rest := by
    rw [Shell.lexFrom_quote, Shell.lexFrom_single (quote_not_mem_script hstr hps),
      List.nil_append, List.nil_append]
  have htail (w : Shell.Word) (rest : Text) :
      lexFrom (.text (some w)) (" >/dev/null 2>&1 & echo $! > ".toList ++ rest) =
        .word w :: .great 1 :: .word (literal "/dev/null") :: .greatAnd 2 :: .word (literal "1") ::
          .amp :: .word (literal "echo") :: .word [.parameter '!'] :: .great 1 ::
          lexFrom (.text none) rest := by
    simp [lexFrom, Shell.step, Shell.textStep, Shell.startRedirect, Shell.flush, literal,
      Shell.backquote]
  have hseg (w pid : Shell.Word) : Shell.segments []
      [.word (literal "nohup"), .word (literal "sh"), .word (literal "-c"), .word w, .great 1,
        .word (literal "/dev/null"), .greatAnd 2, .word (literal "1"), .amp, .word (literal "echo"),
        .word [.parameter '!'], .great 1, .word pid] =
      [[.word (literal "nohup"), .word (literal "sh"), .word (literal "-c"), .word w, .great 1,
          .word (literal "/dev/null"), .greatAnd 2, .word (literal "1")],
        [.word (literal "echo"), .word [.parameter '!'], .great 1, .word pid]] := by
    simp [Shell.segments]
  have hlex : Shell.lex (p.deployCmd str) =
      [.word (literal "nohup"), .word (literal "sh"), .word (literal "-c"),
        .word [.quoted (p.script str)], .great 1, .word (literal "/dev/null"), .greatAnd 2,
        .word (literal "1"), .amp, .word (literal "echo"), .word [.parameter '!'], .great 1,
        .word (p.pidFile.map .plain)] := by
    rw [Shell.lex, hdeploy, Shell.lexFrom_word (hword "nohup" (by decide) (by decide)),
      Shell.lexFrom_word (hword "sh" (by decide) (by decide)),
      Shell.lexFrom_word (hword "-c" (by decide) (by decide)), hquote, htail,
      Shell.lexFrom_last (plain_pidFile p)]
    rfl
  rw [Shell.parse, hlex, hseg]
  dsimp only
  rw [if_neg (by decide), List.mapM_cons, List.mapM_cons, Shell.parseCommand, if_neg (by decide),
    Shell.parseCommand, if_neg (by decide)]
  rfl

theorem deployedScript_eq (hstr : FloatText str) (hps : ∀ t ∈ p.paths, OrdinaryWord t) :
    deployedScript (p.deployCmd str) = some (p.script str) := by
  have hwords : Shell.expandWords (fun _ => none)
      [literal "nohup", literal "sh", literal "-c", [.quoted (p.script str)]] =
        some ["nohup".toList, "sh".toList, "-c".toList, p.script str] :=
    Shell.expandWords_cons (Shell.expandWord_plain (by decide)) <|
      Shell.expandWords_cons (Shell.expandWord_plain (by decide)) <|
      Shell.expandWords_cons (Shell.expandWord_plain (by decide)) <|
      Shell.expandWords_cons (Shell.expandWord_quoted _) Shell.expandWords_nil
  rw [deployedScript, parse_deployCmd hstr hps]
  simp [hwords]

end

end BackgroundSysfsPoller

end MesCore
