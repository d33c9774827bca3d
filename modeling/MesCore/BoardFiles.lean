import MesCore.HereDocument
import MesCore.Lines

namespace MesCore
set_option autoImplicit true
open Shell

/-- `cmd` of `board_write_file`. -/
def writeFileCmd (path content : String) : String :=
  "cat << 'MES_EOF' > " ++ path ++ "\n" ++ content ++ "\nMES_EOF"

def mesEof : Text := "MES_EOF".toList

/-- `cat > path`. -/
def catTo (path : Text) : Simple where
  words := [literal "cat"]
  redirects := [⟨.great 1, path.map .plain⟩]

section
variable {path content : String}

theorem writeFileCmd_toList (path content : String) : (writeFileCmd path content).toList =
    "cat".toList ++ ' ' :: '<' :: '<' :: ' ' :: '\'' :: (mesEof ++ '\'' :: ' ' :: '>' :: ' ' ::
      (path.toList ++ '\n' :: (content.toList ++ '\n' :: mesEof))) := by
  have hbegin : "cat << 'MES_EOF' > ".toList = "cat".toList ++
      ' ' :: '<' :: '<' :: ' ' :: '\'' :: (mesEof ++ ['\'', ' ', '>', ' ']) := rfl
  have hnewline : "\n".toList = ['\n'] := by decide
  have hend : "\nMES_EOF".toList = '\n' :: mesEof := by decide
  unfold writeFileCmd
  simp only [String.toList_append]
  rw [hbegin, hnewline, hend]
  simp only [List.append_assoc, List.cons_append, List.nil_append]

theorem lexLine_writeFileCmd (hpath : OrdinaryWord path.toList) (content : String) :
    lexLine (.text none) (writeFileCmd path content).toList =
      ([.token (.word (literal "cat")), .dless, .token (.word [.quoted mesEof]), .token (.great 1),
        .token (.word (path.toList.map .plain))], some (content.toList ++ '\n' :: mesEof)) := by
  have hcat : OrdinaryWord "cat".toList := ⟨by decide, by decide⟩
  have hblank (rest : Text) : lexLine (.text none) (' ' :: rest) = lexLine (.text none) rest :=
    lexLine_quiet (by decide) rfl rest
  have hquote (rest : Text) : lexLine (.text none) ('\'' :: rest) = lexLine (.single [] []) rest :=
    lexLine_quiet (by decide) rfl rest
  rw [writeFileCmd_toList, lexLine_plain hcat, lexLine_blank, lexLine_dless (by simp),
    hblank, hquote,
    lexLine_single (by decide), lexLine_blank, lexLine_great, lexLine_plain hpath, lexLine_newline]
  rfl

theorem parseHere_writeFileCmd (hpath : OrdinaryWord path.toList) (content : String) :
    parseHere (writeFileCmd path content).toList =
      (readBody mesEof (content.toList.splitOn '\n' ++ [mesEof])).map fun (body, rest) =>
        { command := catTo path.toList
          input := body.flatMap (· ++ ['\n'])
          rest := ['\n'].intercalate rest } := by
  have hlines : (content.toList ++ '\n' :: mesEof).splitOn '\n' =
      content.toList.splitOn '\n' ++ [mesEof] := by
    have hlast : mesEof.splitOn '\n' = [mesEof] := List.splitOn_eq_singleton (by decide)
    rw [List.splitOn_append_cons_self, hlast]
  rw [parseHere, lexLine_writeFileCmd hpath]
  change (readBodies [mesEof] ((content.toList ++ '\n' :: mesEof).splitOn '\n')).bind _ = _
  rw [hlines, readBodies]
  cases readBody mesEof (content.toList.splitOn '\n' ++ [mesEof]) with
  | none => rfl
  | some r => rfl

/-- The file is written by `cat`, and what follows the here-document is run. -/
theorem runHere_writeFileCmd {run : Files → List Text → Text → Text}
    (hcat : ∀ files input, run files ["cat".toList] input = input) (others : Text → Files → Files)
    (files : Files) (hpath : OrdinaryWord path.toList) {body rest : List Text}
    (hread : readBody mesEof (content.toList.splitOn '\n' ++ [mesEof]) = some (body, rest)) :
    runHere run others files (writeFileCmd path content).toList =
      let files := if path.toList = devNull then files
        else setFile files path.toList (body.flatMap (· ++ ['\n']))
      some (if ['\n'].intercalate rest = [] then files
        else others (['\n'].intercalate rest) files) := by
  have hword : expandWord (fun _ => none) (literal "cat") = some ["cat".toList] :=
    expandWord_plain (by decide)
  have hargv : expandWords (fun _ => none) [literal "cat"] = some ["cat".toList] :=
    expandWords_cons hword expandWords_nil
  have htarget : expandRedirect (fun _ => none) ⟨.great 1, path.toList.map .plain⟩ =
      some (.great 1, path.toList) := by
    rw [expandRedirect, expandWord_plain hpath.nonempty]
    rfl
  have hredirects : [Redirect.mk (.great 1) (path.toList.map .plain)].mapM
      (expandRedirect fun _ => none) = some [(.great 1, path.toList)] := by
    rw [List.mapM_cons, htarget]
    rfl
  have hwritten (out : Text) :
      (write out [] ([(Token.great 1, path.toList)].foldl openRedirect (.stdout, files))).2 =
        if path.toList = devNull then files else setFile files path.toList out := by
    rw [List.foldl_cons, List.foldl_nil, openRedirect]
    split
    · rfl
    · rw [if_pos rfl, write, setFile_self, setFile_setFile]
      rfl
  rw [runHere, parseHere_writeFileCmd hpath, hread]
  simp only [Option.map_some, Option.bind_eq_bind, Option.bind_some, catTo, hargv, hredirects, hcat,
    hwritten]
  rfl

/-- The command makes the file the content and one newline and does nothing else, whatever else the
board could run. The path is that of a regular file, and the content has no NUL. -/
def WritesExactly (run : Files → List Text → Text → Text) (path content : String) : Prop :=
  ∀ others files, runHere run others files (writeFileCmd path content).toList =
    some (setFile files path.toList (content.toList ++ ['\n']))

theorem contentLines (content : Text) :
    (content.splitOn '\n').flatMap (· ++ ['\n']) = content ++ ['\n'] := by
  have hlines : ['\n'].intercalate (content.splitOn '\n') ++ ['\n'] = _ :=
    intercalate_sep (List.splitOn_ne_nil '\n' content)
  rw [List.intercalate_splitOn] at hlines
  exact hlines.symm

/-- The content is written and nothing of it is run exactly when none of its lines is the
terminator: the path is no matter, as long as it is that of a file. -/
theorem writesExactly_iff {run : Files → List Text → Text → Text}
    (hcat : ∀ files input, run files ["cat".toList] input = input)
    (hpath : OrdinaryWord path.toList) (content : String) :
    WritesExactly run path content ↔
      path.toList ≠ devNull ∧ mesEof ∉ content.toList.splitOn '\n' := by
  constructor
  · intro h
    -- on a board where the rest of the content would delete everything
    have hspoiled {body rest : List Text}
        (hread : readBody mesEof (content.toList.splitOn '\n' ++ [mesEof]) = some (body, rest)) :
        path.toList ≠ devNull ∧ ['\n'].intercalate rest = [] := by
      have hrun := runHere_writeFileCmd hcat (fun _ _ _ => none) (fun _ => none) hpath hread
      rw [h] at hrun
      have hcontent := congrFun (Option.some.inj hrun) path.toList
      rw [setFile_self] at hcontent
      split at hcontent
      · split at hcontent
        · cases hcontent
        · exact ⟨‹_›, ‹_›⟩
      · cases hcontent
    by_cases hmem : mesEof ∈ content.toList.splitOn '\n'
    · obtain ⟨body, rest, hread⟩ := readBody_mem hmem [mesEof]
      have hlast : mesEof ∈ rest ++ [mesEof] := List.mem_append_right _ (List.mem_singleton_self _)
      exact (intercalate_ne_nil (by decide) hlast (hspoiled hread).2).elim
    · exact ⟨(hspoiled (readBody_delim hmem [])).1, hmem⟩
  · intro h others files
    have hrun := runHere_writeFileCmd hcat others files hpath (readBody_delim h.2 [])
    rw [hrun, if_neg h.1, contentLines]
    rfl

end

/-- A board on which `cat` copies its standard input and nothing else prints. -/
def catOnly (_ : Files) (argv : List Text) (input : Text) : Text :=
  if argv = ["cat".toList] then input else []

theorem writesExactly_motd : WritesExactly catOnly "/etc/motd" "Welcome\n  MES_EOF\n" :=
  (writesExactly_iff (fun _ _ => rfl) ⟨by decide, by decide⟩ _).2 (by decide +kernel)

/-- A line of the content ends the document, and what follows it is run. -/
theorem writesExactly_terminator :
    ¬ WritesExactly catOnly "/etc/motd" "Welcome\nMES_EOF\nreboot" ∧
      (runHere catOnly (fun script files => setFile files "/ran".toList script) (fun _ => none)
        (writeFileCmd "/etc/motd" "Welcome\nMES_EOF\nreboot").toList).map
          (fun files => (files "/etc/motd".toList, files "/ran".toList)) =
        some (some "Welcome\n".toList, some "reboot\nMES_EOF".toList) := by
  constructor
  · rw [writesExactly_iff (fun _ _ => rfl) ⟨by decide, by decide⟩]
    decide +kernel
  · decide +kernel

end MesCore
