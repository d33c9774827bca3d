import MesCore.Shell

namespace Shell
set_option autoImplicit true

/-- A token of a line with here-documents. -/
inductive LineToken
  | token (t : Token)
  | dless
  deriving DecidableEq

/-- Does `<<` follow a descriptor it would redirect? -/
def isDescriptor : Option Word → Bool
  | some [.plain c] => c.isDigit
  | _ => false

/-- The tokens of the first line of a script, and what follows it. A newline inside quotes does not
end the line. `<<-` and `n<<` are not covered. -/
def lexLine : Mode → Text → List LineToken × Option Text
  | m, [] => ((finish m).map .token, none)
  | .text cur, '<' :: '<' :: cs =>
    if isDescriptor cur || cs.head? == some '-' then ([.token .unsupported], none)
    else
      let line := lexLine (.text none) cs
      ((flush cur).map .token ++ .dless :: line.1, line.2)
  | m, c :: cs =>
    if (step m c).1.getLast? = some .newline then ((step m c).1.dropLast.map .token, some cs)
    else
      let line := lexLine (step m c).2 cs
      ((step m c).1.map .token ++ line.1, line.2)

/-- The tokens of a line without its here-documents, and the words behind `<<`. -/
def takeHere : List LineToken → Option (List Token × List Word)
  | [] => some ([], [])
  | .token t :: ts => do
    let (us, ds) ← takeHere ts
    return (t :: us, ds)
  | .dless :: .token (.word d) :: ts => do
    let (us, ds) ← takeHere ts
    return (us, d :: ds)
  | .dless :: _ => none

def unquote : Piece → Option Text
  | .plain c => some [c]
  | .quoted t => some t
  | .command _ | .parameter _ => none

/-- The delimiter that a word stands for. Without a quote in it the lines would be expanded, which
is not covered. -/
def delimiter (w : Word) : Option Text := do
  let ts ← w.mapM unquote
  if w.any (fun | .quoted _ => true | _ => false) then return ts.flatten else none

/-- The lines up to the delimiter, and those behind it. What a script without the delimiter means is
not said. -/
def readBody (delim : Text) : List Text → Option (List Text × List Text)
  | [] => none
  | l :: ls =>
    if l = delim then some ([], ls)
    else do
      let (body, rest) ← readBody delim ls
      return (l :: body, rest)

def readBodies : List Text → List Text → Option (List (List Text) × List Text)
  | [], ls => some ([], ls)
  | delim :: delims, ls => do
    let (body, ls) ← readBody delim ls
    let (bodies, rest) ← readBodies delims ls
    return (body :: bodies, rest)

/-- A command on a line of its own, the text of its last here-document, and the script behind it. -/
structure HereCommand where
  command : Simple
  input : Text
  rest : Text

def parseHere (t : Text) : Option HereCommand := do
  let (ts, below) := lexLine (.text none) t
  let (us, words) ← takeHere ts
  let command ← parseCommand us
  let delims ← words.mapM delimiter
  let (bodies, rest) ← readBodies delims ((below.getD []).splitOn '\n')
  let input := (bodies.getLast?.getD []).flatMap (· ++ ['\n'])
  return { command, input, rest := ['\n'].intercalate rest }

section
variable (run : Files → List Text → Text → Text) (others : Text → Files → Files)

/-- Runs the first command of a script with its here-document as standard input. What the rest of
the script does is a parameter. -/
def runHere (files : Files) (t : Text) : Option Files := do
  let here ← parseHere t
  let argv ← expandWords (fun _ => none) here.command.words
  let redirects ← here.command.redirects.mapM (expandRedirect fun _ => none)
  let opened := redirects.foldl openRedirect (.stdout, files)
  let files := (write (run opened.2 argv here.input) [] opened).2
  return if here.rest = [] then files else others here.rest files

end

section
variable {t : Text} {c : Char}

theorem lexLine_step {m m' : Mode} {ts : List Token} (hc : c ≠ '<') (h : step m c = (ts, m'))
    (hts : ts.getLast? ≠ some .newline) (rest : Text) :
    lexLine m (c :: rest) = (ts.map .token ++ (lexLine m' rest).1, (lexLine m' rest).2) := by
  rw [lexLine]
  · rw [h, if_neg hts]
  · intro _ _ _ hless
    exact (hc hless).elim

theorem lexLine_quiet {m m' : Mode} (hc : c ≠ '<') (h : step m c = ([], m')) (rest : Text) :
    lexLine m (c :: rest) = lexLine m' rest :=
  lexLine_step hc h (by simp) rest

theorem lexLine_blank (w : Word) (rest : Text) : lexLine (.text (some w)) (' ' :: rest) =
    (.token (.word w) :: (lexLine (.text none) rest).1, (lexLine (.text none) rest).2) := by
  have hstep : step (.text (some w)) ' ' = ([.word w], .text none) := rfl
  exact lexLine_step (by decide) hstep (by simp) rest

theorem lexLine_dless {rest : Text} (h : rest.head? ≠ some '-') :
    lexLine (.text none) ('<' :: '<' :: rest) =
      (.dless :: (lexLine (.text none) rest).1, (lexLine (.text none) rest).2) := by
  have hdash : (rest.head? == some '-') = false := beq_eq_false_iff_ne.2 h
  rw [lexLine, hdash]
  rfl

/-- A redirection of standard output, up to the blank in front of its target. -/
theorem lexLine_great (rest : Text) : lexLine (.text none) ('>' :: ' ' :: rest) =
    (.token (.great 1) :: (lexLine (.text none) rest).1, (lexLine (.text none) rest).2) := by
  have hgreat : step (.text none) '>' = ([], .great 1) := rfl
  have hblank : step (.great 1) ' ' = ([.great 1], .text none) := rfl
  rw [lexLine_quiet (by decide) hgreat]
  exact lexLine_step (by decide) hblank (by simp) rest

theorem lexLine_newline (w : Word) (rest : Text) :
    lexLine (.text (some w)) ('\n' :: rest) = ([.token (.word w)], some rest) := rfl

theorem step_ordinary (cur : Option Word) (hc : ordinary c = true) :
    step (.text cur) c = ([], .text (some (cur.getD [] ++ [.plain c]))) := textStep_ordinary cur hc

theorem ordinary_ne_less (hc : ordinary c = true) : c ≠ '<' := by
  rintro rfl
  exact absurd hc (by decide)

theorem lexLine_ordinary (ht : t.all ordinary = true) (w : Word) (rest : Text) :
    lexLine (.text (some w)) (t ++ rest) = lexLine (.text (some (w ++ t.map .plain))) rest := by
  induction t generalizing w with
  | nil => simp
  | cons c t ih =>
    rw [List.all_cons, Bool.and_eq_true] at ht
    rw [List.cons_append, lexLine_quiet (ordinary_ne_less ht.1) (step_ordinary _ ht.1), ih ht.2]
    simp

theorem lexLine_plain (ht : OrdinaryWord t) (rest : Text) :
    lexLine (.text none) (t ++ rest) = lexLine (.text (some (t.map .plain))) rest := by
  obtain ⟨hne, hall⟩ := ht
  obtain ⟨c, t, rfl⟩ := List.exists_cons_of_ne_nil hne
  rw [List.all_cons, Bool.and_eq_true] at hall
  rw [List.cons_append, lexLine_quiet (ordinary_ne_less hall.1) (step_ordinary _ hall.1)]
  exact lexLine_ordinary hall.2 _ _

theorem lexLine_single (ht : '\'' ∉ t) (w : Word) (u rest : Text) :
    lexLine (.single w u) (t ++ '\'' :: rest) =
      lexLine (.text (some (w ++ [.quoted (u ++ t)]))) rest := by
  induction t generalizing u with
  | nil =>
    rw [List.nil_append, List.append_nil]
    exact lexLine_quiet (by decide) rfl rest
  | cons c t ih =>
    rw [List.mem_cons, not_or] at ht
    have hkept : step (.single w u) c = ([], .single w (u ++ [c])) := if_neg (Ne.symm ht.1)
    have hnext : lexLine (.single w u) (c :: (t ++ '\'' :: rest)) =
        lexLine (.single w (u ++ [c])) (t ++ '\'' :: rest) := by
      rw [lexLine]
      · rw [hkept]
        rfl
      · rintro _ _ ⟨⟩
    rw [List.cons_append, hnext, ih ht.2, List.append_assoc, List.singleton_append]

end

section
variable {delim : Text} {ls : List Text}

theorem readBody_delim (h : delim ∉ ls) (ms : List Text) :
    readBody delim (ls ++ delim :: ms) = some (ls, ms) := by
  induction ls with
  | nil => rw [List.nil_append, readBody, if_pos rfl]
  | cons l ls ih =>
    rw [List.mem_cons, not_or] at h
    rw [List.cons_append, readBody, if_neg (Ne.symm h.1), ih h.2]
    rfl

theorem readBody_mem (h : delim ∈ ls) (ms : List Text) :
    ∃ body rest, readBody delim (ls ++ ms) = some (body, rest ++ ms) := by
  obtain ⟨body, rest, rfl, hbody⟩ := List.eq_append_cons_of_mem h
  refine ⟨body, rest, ?_⟩
  rw [List.append_assoc, List.cons_append, readBody_delim hbody]

theorem intercalate_ne_nil {sep : Text} (hne : delim ≠ []) (h : delim ∈ ls) :
    sep.intercalate ls ≠ [] := by
  induction ls with
  | nil => cases h
  | cons l ls ih =>
    cases ls with
    | nil =>
      rw [List.mem_singleton] at h
      rw [List.intercalate_singleton, ← h]
      exact hne
    | cons k ls =>
      rw [List.intercalate_cons_cons]
      rcases List.mem_cons.1 h with rfl | h
      · simp [hne]
      · simp [ih h]

end

end Shell
