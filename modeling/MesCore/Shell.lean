import Mathlib.Data.List.Induction

namespace Shell
set_option autoImplicit true

abbrev Text := List Char

/-- A part of a word: a character as it stands, a quoted run, the script of `$(…)`, or a special
parameter. -/
inductive Piece
  | plain (c : Char)
  | quoted (t : Text)
  | command (script : Text)
  | parameter (name : Char)
  deriving DecidableEq

abbrev Word := List Piece

inductive Token
  | word (w : Word)
  | semi
  | amp
  | newline
  | great (fd : Nat)
  | dgreat (fd : Nat)
  | greatAnd (fd : Nat)
  /-- Syntax that is not covered, or a quote left open. -/
  | unsupported
  deriving DecidableEq

/-- Where the lexer stands. In `$(…)` it counts the parentheses outside quotes. -/
inductive Mode
  | text (cur : Option Word)
  | single (w : Word) (t : Text)
  | double (w : Word) (t : Text)
  | command (w : Word) (depth : Nat) (quote : Option Char) (t : Text)
  | great (fd : Nat)
  | dollar (w : Word)
  | escape (cur : Option Word)
  | comment
  | stuck
  deriving DecidableEq

def flush : Option Word → List Token
  | none => []
  | some w => [.word w]

def backquote : Char := Char.ofNat 0x60

/-- `>` after the word so far: a lone digit is the descriptor it redirects. -/
def startRedirect : Option Word → List Token × Mode
  | some [.plain c] =>
    if c.isDigit then ([], .great (c.toNat - 48)) else ([.word [.plain c]], .great 1)
  | cur => (flush cur, .great 1)

def textStep (cur : Option Word) (c : Char) : List Token × Mode :=
  if c = ' ' ∨ c = '\t' then (flush cur, .text none)
  else if c = '\n' then (flush cur ++ [.newline], .text none)
  else if c = ';' then (flush cur ++ [.semi], .text none)
  else if c = '&' then (flush cur ++ [.amp], .text none)
  else if c = '>' then startRedirect cur
  else if c = '\'' then ([], .single (cur.getD []) [])
  else if c = '"' then ([], .double (cur.getD []) [])
  else if c = '$' then ([], .dollar (cur.getD []))
  else if c = '\\' then ([], .escape cur)
  else if c = '#' ∧ cur = none then ([], .comment)
  else if c ∈ ['|', '<', '(', ')', backquote, '*', '?', '[', '~'] then ([.unsupported], .stuck)
  else ([], .text (some (cur.getD [] ++ [.plain c])))

def step : Mode → Char → List Token × Mode
  | .text cur, c => textStep cur c
  | .single w t, c =>
    if c = '\'' then ([], .text (some (w ++ [.quoted t]))) else ([], .single w (t ++ [c]))
  | .double w t, c =>
    if c = '"' then ([], .text (some (w ++ [.quoted t])))
    else if c ∈ ['$', backquote, '\\'] then ([.unsupported], .stuck)
    else ([], .double w (t ++ [c]))
  | .command w depth (some q) t, c =>
    ([], .command w depth (if c = q then none else some q) (t ++ [c]))
  | .command w depth none t, c =>
    if c = ')' then
      if depth = 0 then ([], .text (some (w ++ [.command t])))
      else ([], .command w (depth - 1) none (t ++ [c]))
    else if c = '(' then ([], .command w (depth + 1) none (t ++ [c]))
    else if c = '\'' ∨ c = '"' then ([], .command w depth (some c) (t ++ [c]))
    else if c ∈ ['\\', '#', backquote] then ([.unsupported], .stuck)
    else ([], .command w depth none (t ++ [c]))
  | .great fd, c =>
    if c = '>' then ([.dgreat fd], .text none)
    else if c = '&' then ([.greatAnd fd], .text none)
    else (.great fd :: (textStep none c).1, (textStep none c).2)
  | .dollar w, c =>
    if c = '(' then ([], .command w 0 none [])
    else if c = '!' ∨ c = '?' then ([], .text (some (w ++ [.parameter c])))
    else ([.unsupported], .stuck)
  | .escape cur, c =>
    if c = '\n' then ([], .text cur) else ([], .text (some (cur.getD [] ++ [.quoted [c]])))
  | .comment, c => if c = '\n' then ([.newline], .text none) else ([], .comment)
  | .stuck, _ => ([], .stuck)

def finish : Mode → List Token
  | .text cur => flush cur
  | .great fd => [.great fd]
  | .comment => []
  | .stuck => []
  | _ => [.unsupported]

def lexFrom : Mode → Text → List Token
  | m, [] => finish m
  | m, c :: cs => (step m c).1 ++ lexFrom (step m c).2 cs

def lex (t : Text) : List Token := lexFrom (.text none) t

structure Redirect where
  op : Token
  target : Word
  deriving DecidableEq

/-- A simple command: its words, and its redirections in order. -/
structure Simple where
  words : List Word := []
  redirects : List Redirect := []
  deriving DecidableEq

/-- A list of simple commands, or one `while` loop over such a list. -/
inductive Script
  | commands (cs : List Simple)
  | loop (condition : Simple) (body : List Simple)
  deriving DecidableEq

def parseSimple : List Token → Option Simple
  | [] => some {}
  | .word w :: ts => do
    let s ← parseSimple ts
    return { s with words := w :: s.words }
  | op :: .word target :: ts =>
    match op with
    | .great _ | .dgreat _ | .greatAnd _ => do
      let s ← parseSimple ts
      return { s with redirects := ⟨op, target⟩ :: s.redirects }
    | _ => none
  | _ => none

/-- The tokens between separators. A separator ends a command, so none has to follow the last. -/
def segments (cur : List Token) : List Token → List (List Token)
  | [] => if cur = [] then [] else [cur]
  | t :: ts =>
    if t = .newline ∧ cur = [] then segments [] ts
    else if t = .semi ∨ t = .newline ∨ t = .amp then cur :: segments [] ts
    else segments (cur ++ [t]) ts

def literal (s : String) : Word := s.toList.map .plain

def reserved : List Word :=
  ["if", "then", "else", "elif", "fi", "do", "done", "case", "esac", "while", "until", "for",
    "\x7b", "\x7d",
    "!", "in"].map literal

def parseCommand : List Token → Option Simple
  | [] => none
  | .word w :: ts => if w ∈ reserved ∨ .plain '=' ∈ w then none else parseSimple (.word w :: ts)
  | ts => parseSimple ts

/-- The commands up to `done`, and what follows it. -/
def parseBody : List (List Token) → Option (List Simple × List (List Token))
  | [] => none
  | seg :: segs =>
    if seg = [.word (literal "done")] then some ([], segs)
    else do
      let s ← parseCommand seg
      let (body, rest) ← parseBody segs
      return (s :: body, rest)

def parse (t : Text) : Option Script :=
  match segments [] (lex t) with
  | (.word w :: condition) :: (.word d :: first) :: segs =>
    if w = literal "while" ∧ d = literal "do" then do
      let condition ← parseCommand condition
      let (body, rest) ← parseBody (first :: segs)
      if rest = [] then return .loop condition body else none
    else .commands <$> ((.word w :: condition) :: (.word d :: first) :: segs).mapM parseCommand
  | segs => .commands <$> segs.mapM parseCommand

/-- An expanded word before field splitting: characters that stay, characters a substitution
produced, and the place of a quoted run. -/
inductive Mark
  | keep (c : Char)
  | produced (c : Char)
  | quote
  deriving DecidableEq

def isIfs (c : Char) : Bool := c = ' ' || c = '\t' || c = '\n'

def fieldsFrom (cur : Option Text) : List Mark → List Text
  | [] => cur.toList
  | .keep c :: ms => fieldsFrom (some (cur.getD [] ++ [c])) ms
  | .quote :: ms => fieldsFrom (some (cur.getD [])) ms
  | .produced c :: ms =>
    if isIfs c then cur.toList ++ fieldsFrom none ms
    else fieldsFrom (some (cur.getD [] ++ [c])) ms

/-- What a command substitution puts in the place of the output. -/
def substituted (out : Text) : Text := (out.reverse.dropWhile (· = '\n')).reverse

abbrev Files := Text → Option Text

section
variable (sub : Text → Option Text)

def markPiece : Piece → Option (List Mark)
  | .plain c => some [.keep c]
  | .quoted t => some (.quote :: t.map .keep)
  | .command script => (fun out => (substituted out).map .produced) <$> sub script
  | .parameter _ => none

def expandWord (w : Word) : Option (List Text) := do
  let ms ← w.mapM (markPiece sub)
  return fieldsFrom none ms.flatten

def expandWords (ws : List Word) : Option (List Text) := do
  let fields ← ws.mapM (expandWord sub)
  return fields.flatten

end

section
variable (run : Files → List Text → Text) (sub : Files → Text → Option Text)

/-- Where a command's standard output goes. Standard error is not followed. -/
inductive Sink
  | stdout
  | file (path : Text)
  | lost
  deriving DecidableEq

def setFile (files : Files) (path content : Text) : Files :=
  fun p => if p = path then some content else files p

def devNull : Text := "/dev/null".toList

def openRedirect (st : Sink × Files) : Token × Text → Sink × Files
  | (.great fd, path) =>
    if path = devNull then (if fd = 1 then .lost else st.1, st.2)
    else (if fd = 1 then .file path else st.1, setFile st.2 path [])
  | (.dgreat fd, path) =>
    if path = devNull then (if fd = 1 then .lost else st.1, st.2)
    else (if fd = 1 then .file path else st.1, setFile st.2 path ((st.2 path).getD []))
  | (.greatAnd fd, _) => (if fd = 1 then .lost else st.1, st.2)
  | _ => st

def write (out : Text) (stdout : Text) : Sink × Files → Text × Files
  | (.stdout, files) => (stdout ++ out, files)
  | (.file path, files) => (stdout, setFile files path ((files path).getD [] ++ out))
  | (.lost, files) => (stdout, files)

def expandRedirect (sub : Text → Option Text) (r : Redirect) : Option (Token × Text) := do
  match ← expandWord sub r.target with
  | [path] => some (r.op, path)
  | _ => none

/-- Words and redirections are expanded, then the files opened, then the command runs. -/
def runSimple (st : Text × Files) (s : Simple) : Option (Text × Files) := do
  let argv ← expandWords (sub st.2) s.words
  let redirects ← s.redirects.mapM (expandRedirect (sub st.2))
  let opened := redirects.foldl openRedirect (.stdout, st.2)
  return write (run opened.2 argv) st.1 opened

def runList (st : Text × Files) (cs : List Simple) : Option (Text × Files) :=
  cs.foldlM (runSimple run sub) st

end

/-- The output of a script, substitutions nested as deep as the first argument says. -/
def output (run : Files → List Text → Text) : Nat → Files → Text → Option Text
  | 0, _, _ => none
  | depth + 1, files, t =>
    match parse t with
    | some (.commands cs) => Prod.fst <$> runList run (output run depth) ([], files) cs
    | _ => none

def ordinary (c : Char) : Bool :=
  !([' ', '\t', '\n', ';', '&', '>', '\'', '"', '$', '\\', '#', '|', '<', '(', ')', backquote, '*',
    '?', '[', '~'].contains c)

/-- A word of nothing but ordinary characters. -/
structure OrdinaryWord (t : Text) : Prop where
  nonempty : t ≠ []
  ordinary : t.all ordinary = true

section
variable {t rest : Text} {cur : Option Word} {c : Char}

theorem textStep_ordinary (cur : Option Word) (hc : ordinary c = true) :
    textStep cur c = ([], .text (some (cur.getD [] ++ [.plain c]))) := by
  simp only [ordinary, List.contains_cons, List.contains_nil, Bool.or_false, Bool.not_or,
    Bool.and_eq_true, Bool.not_eq_eq_eq_not, Bool.not_true, beq_eq_false_iff_ne, ne_eq] at hc
  simp [textStep, hc]

theorem lexFrom_ordinary (ht : t.all ordinary = true) (w : Word) (rest : Text) :
    lexFrom (.text (some w)) (t ++ rest) = lexFrom (.text (some (w ++ t.map .plain))) rest := by
  induction t generalizing w with
  | nil => simp
  | cons c t ih =>
    rw [List.all_cons, Bool.and_eq_true] at ht
    rw [List.cons_append, lexFrom, step, textStep_ordinary _ ht.1]
    simp [ih ht.2]

theorem lexFrom_plain (ht : OrdinaryWord t) (rest : Text) :
    lexFrom (.text none) (t ++ rest) = lexFrom (.text (some (t.map .plain))) rest := by
  obtain ⟨hne, hall⟩ := ht
  cases t with
  | nil => exact (hne rfl).elim
  | cons c t =>
    rw [List.all_cons, Bool.and_eq_true] at hall
    rw [List.cons_append, lexFrom, step, textStep_ordinary _ hall.1]
    exact lexFrom_ordinary hall.2 _ _

theorem lexFrom_blank (cur : Option Word) (rest : Text) :
    lexFrom (.text cur) (' ' :: rest) = flush cur ++ lexFrom (.text none) rest := rfl

theorem lexFrom_semi (cur : Option Word) (rest : Text) :
    lexFrom (.text cur) (';' :: rest) = flush cur ++ .semi :: lexFrom (.text none) rest := by
  change (flush cur ++ [.semi]) ++ _ = _
  rw [List.append_assoc]
  rfl

theorem lexFrom_word (ht : OrdinaryWord t) (rest : Text) :
    lexFrom (.text none) (t ++ ' ' :: rest) =
      .word (t.map .plain) :: lexFrom (.text none) rest := by
  rw [lexFrom_plain ht, lexFrom_blank]
  rfl

theorem lexFrom_word_semi (ht : OrdinaryWord t) (rest : Text) :
    lexFrom (.text none) (t ++ ';' :: rest) =
      .word (t.map .plain) :: .semi :: lexFrom (.text none) rest := by
  rw [lexFrom_plain ht, lexFrom_semi]
  rfl

theorem lexFrom_last (ht : OrdinaryWord t) : lexFrom (.text none) t = [.word (t.map .plain)] := by
  have h := lexFrom_plain ht []
  rw [List.append_nil] at h
  rw [h]
  rfl

/-- A run in single quotes is one quoted piece, whatever it holds but a single quote. -/
theorem lexFrom_single (ht : '\'' ∉ t) (w : Word) (u rest : Text) :
    lexFrom (.single w u) (t ++ '\'' :: rest) =
      lexFrom (.text (some (w ++ [.quoted (u ++ t)]))) rest := by
  induction t generalizing u with
  | nil =>
    rw [List.append_nil]
    rfl
  | cons c t ih =>
    rw [List.mem_cons, not_or] at ht
    rw [List.cons_append, lexFrom, step, if_neg (Ne.symm ht.1)]
    simp [ih ht.2]

theorem lexFrom_quote (rest : Text) :
    lexFrom (.text none) ('\'' :: rest) = lexFrom (.single [] []) rest := rfl

/-- A text that leaves a command substitution as it found it, but for the text itself. -/
def Closed (s : Text) : Prop :=
  ∀ w t rest, lexFrom (.command w 0 none t) (s ++ rest) = lexFrom (.command w 0 none (t ++ s)) rest

theorem Closed.append {s s' : Text} (h : Closed s) (h' : Closed s') : Closed (s ++ s') := by
  intro w t rest
  rw [List.append_assoc, h, h', List.append_assoc]

theorem Closed.single_blank : Closed [' '] := fun _ _ _ => rfl

theorem closed_of_ordinary (ht : t.all (fun c => ordinary c || c == ' ' || c == '>') = true) :
    Closed t := by
  induction t with
  | nil => intro w t rest; simp
  | cons c t ih =>
    rw [List.all_cons, Bool.and_eq_true] at ht
    intro w u rest
    have hc : step (.command w 0 none u) c = ([], .command w 0 none (u ++ [c])) := by
      have h := ht.1
      simp only [ordinary, List.contains_cons, List.contains_nil, Bool.or_false, Bool.not_or,
        Bool.and_eq_true, Bool.or_eq_true, Bool.not_eq_eq_eq_not, Bool.not_true,
        beq_eq_false_iff_ne, beq_iff_eq, ne_eq] at h
      rcases h with (h | rfl) | rfl
      · simp [step, h]
      · rfl
      · rfl
    rw [List.cons_append, lexFrom, hc, List.nil_append, ih ht.2, List.append_assoc,
      List.singleton_append]

theorem closed_double (ht : '"' ∉ t) : Closed ('"' :: t ++ ['"']) := by
  have hinside : ∀ w u rest, lexFrom (.command w 0 (some '"') u) (t ++ '"' :: rest) =
      lexFrom (.command w 0 none (u ++ t ++ ['"'])) rest := by
    induction t with
    | nil => intro w u rest; simp [lexFrom, step]
    | cons c t ih =>
      rw [List.mem_cons, not_or] at ht
      intro w u rest
      rw [List.cons_append, lexFrom, step, if_neg (Ne.symm ht.1), List.nil_append, ih ht.2]
      simp
  intro w u rest
  rw [List.cons_append, List.cons_append, List.append_assoc, List.singleton_append, lexFrom]
  change lexFrom (.command w 0 (some '"') (u ++ ['"'])) _ = _
  rw [hinside]
  simp

theorem lexFrom_substitution {s : Text} (hs : Closed s) (rest : Text) :
    lexFrom (.text none) ('$' :: '(' :: (s ++ ')' :: rest)) =
      lexFrom (.text (some [.command s])) rest := by
  change lexFrom (.command [] 0 none []) (s ++ ')' :: rest) = _
  rw [hs]
  rfl

end

section
variable {sub : Text → Option Text} {t : Text}

theorem fieldsFrom_keep (u t : Text) : fieldsFrom (some u) (t.map .keep) = [u ++ t] := by
  induction t generalizing u with
  | nil => simp [fieldsFrom]
  | cons c t ih => simp [fieldsFrom, ih]

theorem mapM_markPiece (t : Text) :
    (t.map Piece.plain).mapM (markPiece sub) = some (t.map fun c => [Mark.keep c]) := by
  induction t with
  | nil => rfl
  | cons c t ih => simp [List.mapM_cons, markPiece, ih]

theorem expandWord_plain (ht : t ≠ []) : expandWord sub (t.map .plain) = some [t] := by
  cases t with
  | nil => exact (ht rfl).elim
  | cons c t =>
    have hmarks : ((c :: t).map fun c => [Mark.keep c]).flatten = (c :: t).map .keep := by
      rw [← List.flatMap_def, List.map_eq_flatMap]
    rw [expandWord, mapM_markPiece]
    change some (fieldsFrom none _) = _
    rw [hmarks, List.map_cons, fieldsFrom]
    exact congrArg some (fieldsFrom_keep _ t)

theorem expandWord_quoted (t : Text) : expandWord sub [.quoted t] = some [t] := by
  change some (fieldsFrom none (.quote :: t.map .keep ++ [])) = _
  rw [List.append_nil, fieldsFrom]
  exact congrArg some (fieldsFrom_keep [] t)

/-- The fields a command substitution that stands alone leaves. -/
def splitFields (out : Text) : List Text := fieldsFrom none ((substituted out).map .produced)

theorem expandWord_command {script out : Text} (h : sub script = some out) :
    expandWord sub [.command script] = some (splitFields out) := by
  simp [expandWord, markPiece, h, splitFields]

theorem fieldsFrom_newline (cur : Option Text) (ms : List Mark) :
    fieldsFrom cur (ms ++ [.produced '\n']) = fieldsFrom cur ms := by
  induction ms generalizing cur with
  | nil => simp [fieldsFrom, isIfs]
  | cons m ms ih =>
    cases m with
    | keep c => exact ih _
    | quote => exact ih _
    | produced c =>
      rw [List.cons_append, fieldsFrom, fieldsFrom]
      split
      · rw [ih]
      · exact ih _

theorem splitFields_eq (out : Text) : splitFields out = fieldsFrom none (out.map .produced) := by
  induction out using List.reverseRecOn with
  | nil => rfl
  | append_singleton out c ih =>
    by_cases hc : c = '\n'
    · have hsub : substituted (out ++ [c]) = substituted out := by
        simp [substituted, hc]
      rw [splitFields, hsub, ← splitFields, ih, hc, List.map_append]
      exact (fieldsFrom_newline _ _).symm
    · have hsub : substituted (out ++ [c]) = out ++ [c] := by
        simp [substituted, hc]
      rw [splitFields, hsub]

theorem fieldsFrom_word {w : Text} (hw : ∀ c ∈ w, isIfs c = false) (u : Text) (ms : List Mark) :
    fieldsFrom (some u) (w.map .produced ++ ms) = fieldsFrom (some (u ++ w)) ms := by
  induction w generalizing u with
  | nil => simp
  | cons c w ih =>
    rw [List.forall_mem_cons] at hw
    rw [List.map_cons, List.cons_append, fieldsFrom, if_neg (by simp [hw.1])]
    simp [ih hw.2]

theorem splitFields_lines {ws : List Text} (hne : ∀ w ∈ ws, w ≠ [])
    (hifs : ∀ w ∈ ws, ∀ c ∈ w, isIfs c = false) :
    splitFields (ws.flatMap (· ++ ['\n'])) = ws := by
  rw [splitFields_eq]
  induction ws with
  | nil => rfl
  | cons w ws ih =>
    rw [List.forall_mem_cons] at hne hifs
    obtain ⟨c, w', hw⟩ := List.exists_cons_of_ne_nil hne.1
    have hifs' := hifs.1
    rw [hw, List.forall_mem_cons] at hifs'
    rw [List.flatMap_cons, List.map_append, List.map_append, hw, List.map_cons, List.cons_append,
      List.cons_append, fieldsFrom, if_neg (by simp [hifs'.1]), List.append_assoc,
      fieldsFrom_word hifs'.2]
    have hrest := ih hne.2 hifs.2
    change (c :: w') :: fieldsFrom none (ws.flatMap (· ++ ['\n']) |>.map .produced) = _
    rw [hrest]

end

def Token.isSeparator (t : Token) : Bool := t = .semi || t = .newline || t = .amp

theorem segments_eq {ts : List Token} (h : ∀ t ∈ ts, t.isSeparator = false) (cur : List Token) :
    segments cur ts = if cur ++ ts = [] then [] else [cur ++ ts] := by
  induction ts generalizing cur with
  | nil => rw [segments, List.append_nil]
  | cons t ts ih =>
    rw [List.forall_mem_cons] at h
    have ht : ¬ t = .semi ∧ ¬ t = .newline ∧ ¬ t = .amp := by
      simpa [Token.isSeparator, and_assoc] using h.1
    rw [segments, if_neg (by simp [ht]), if_neg (by simp [ht]), ih h.2, List.append_assoc,
      List.singleton_append]

theorem expandWords_cons {sub : Text → Option Text} {w : Word} {ws : List Word}
    {fields more : List Text}
    (hw : expandWord sub w = some fields) (hws : expandWords sub ws = some more) :
    expandWords sub (w :: ws) = some (fields ++ more) := by
  unfold expandWords at hws ⊢
  simp only [Option.bind_eq_bind, Option.pure_def, Option.bind_eq_some_iff,
    Option.some.injEq] at hws
  obtain ⟨rest, hrest, hmore⟩ := hws
  simp [List.mapM_cons, hw, hrest, hmore]

theorem expandWords_nil {sub : Text → Option Text} : expandWords sub [] = some [] := rfl

@[simp] theorem setFile_setFile (files : Files) (path a b : Text) :
    setFile (setFile files path a) path b = setFile files path b := by
  funext p
  rw [setFile, setFile, setFile]
  split
  · rfl
  · rfl

theorem setFile_self (files : Files) (path a : Text) :
    setFile files path a path = some a := if_pos rfl

/-- Throwing standard error away changes neither where the output goes nor the files. -/
theorem openRedirect_stderr (n : Nat) (st : Sink × Files) :
    (List.replicate n (Token.great 2, devNull)).foldl openRedirect st = st := by
  induction n with
  | zero => rfl
  | succ n ih => exact ih

end Shell
