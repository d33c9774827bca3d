import MesCore.UbootShell

namespace MesCore
set_option autoImplicit true

def parsePrintenv (cmd : List Char) : Option (List Char) :=
  if "printenv ".toList <+: cmd then some (cmd.drop 9) else none

/-- The name and the value of a `setenv` whose argument is quoted as a whole. -/
def parseSetenv (cmd : List Char) : Option (List Char × List Char) :=
  if "setenv ".toList <+: cmd then
    match (cmd.drop 7).dropWhile (· ≠ ' ') with
    | ' ' :: '\'' :: quoted =>
      if quoted.dropWhile (· ≠ '\'') = ['\''] then
        some ((cmd.drop 7).takeWhile (· ≠ ' '), quoted.takeWhile (· ≠ '\''))
      else none
    | _ => none
  else none

def answerText (env : String → Option String) (cmd : String) : List Char :=
  match parsePrintenv cmd.toList with
  | some name =>
    match env (String.ofList name) with
    | some value => envLine (String.ofList name) value ++ ['\n']
    | none => []
  | none => []

def carriedOut (env : String → Option String) (cmd : String) : String → Option String :=
  match parseSetenv cmd.toList with
  | some (name, value) => Function.update env (String.ofList name) (some (String.ofList value))
  | none => env

section
variable {env : String → Option String}

theorem parsePrintenv_printenvCmd (name : String) :
    parsePrintenv (printenvCmd name).toList = some name.toList := by
  rw [parsePrintenv, printenvCmd, String.toList_append, if_pos (List.prefix_append ..)]
  rfl

theorem setenvCmd_toList (name value : String) : (setenvCmd name value).toList =
    "setenv ".toList ++ (name.toList ++ ' ' :: '\'' :: (value.toList ++ ['\''])) := by
  have hopen : " '".toList = [' ', '\''] := by decide
  have hclose : "'".toList = ['\''] := by decide
  rw [setenvCmd]
  simp only [String.toList_append, hopen, hclose, List.append_assoc, List.cons_append,
    List.nil_append]

theorem dropWhile_notMem_append {c : Char} {l : List Char} (hc : c ∉ l) (t : List Char) :
    (l ++ c :: t).dropWhile (· ≠ c) = c :: t ∧ (l ++ c :: t).takeWhile (· ≠ c) = l := by
  have hl : ∀ d ∈ l, decide (d ≠ c) = true := by
    intro d hd
    apply decide_eq_true
    rintro rfl
    exact hc hd
  rw [List.dropWhile_append_of_pos hl, List.takeWhile_append_of_pos hl,
    List.dropWhile_cons_of_neg (by simp), List.takeWhile_cons_of_neg (by simp), List.append_nil]
  exact ⟨rfl, rfl⟩

theorem parseSetenv_setenvCmd (name : VarName) (value : String) :
    parseSetenv (setenvCmd name.text value).toList =
      if '\'' ∈ value.toList then none else some (name.text.toList, value.toList) := by
  obtain ⟨hdrop, htake⟩ := dropWhile_notMem_append (name.notMem (c := ' ') (.inl (by decide)))
    ('\'' :: (value.toList ++ ['\'']))
  have hargs : ("setenv ".toList ++ (name.text.toList ++ ' ' :: '\'' ::
      (value.toList ++ ['\'']))).drop 7 =
        name.text.toList ++ ' ' :: '\'' :: (value.toList ++ ['\'']) := rfl
  rw [parseSetenv, setenvCmd_toList, if_pos (List.prefix_append ..), hargs, hdrop, htake]
  by_cases hq : '\'' ∈ value.toList
  · obtain ⟨a, b, hab, ha⟩ := List.eq_append_cons_of_mem hq
    obtain ⟨hdrop, -⟩ := dropWhile_notMem_append ha (b ++ ['\''])
    have hmore : '\'' :: (b ++ ['\'']) ≠ ['\''] := by simp
    rw [if_pos hq, hab, List.append_assoc, List.cons_append]
    simp only [hdrop, if_neg hmore]
  · obtain ⟨hdrop, htake⟩ := dropWhile_notMem_append hq []
    simp only [hdrop, htake, if_pos, if_neg hq]

end

section
variable {env : String → Option String} {prompt : UbootPrompt} {name : VarName} {value : VarValue}

theorem parseSetenv_printenvCmd (name : String) : parseSetenv (printenvCmd name).toList = none := by
  have hother : ¬ "setenv ".toList <+: (printenvCmd name).toList := by
    have hword : "setenv ".toList = 's' :: "etenv ".toList := by decide
    have hprint : "printenv".toList = 'p' :: "rintenv".toList := by decide
    intro h
    rw [printenvCmd_toList, hword, hprint, List.cons_append, List.cons_prefix_cons] at h
    exact absurd h.1 (by decide)
  rw [parseSetenv, if_neg hother]

theorem carriedOut_printenvCmd (env : String → Option String) (name : String) :
    carriedOut env (printenvCmd name) = env := by
  rw [carriedOut, parseSetenv_printenvCmd]

theorem carriedOut_setenvCmd (env : String → Option String) (name : VarName) (value : String) :
    carriedOut env (setenvCmd name.text value) =
      if '\'' ∈ value.toList then env else Function.update env name.text (some value) := by
  rw [carriedOut, parseSetenv_setenvCmd]
  by_cases hq : '\'' ∈ value.toList
  · rw [if_pos hq, if_pos hq]
  · rw [if_neg hq, if_neg hq]
    dsimp only
    rw [String.ofList_toList, String.ofList_toList]

theorem answerText_printenvCmd {name value : String} (h : env name = some value) :
    answerText env (printenvCmd name) = envLine name value ++ ['\n'] := by
  rw [answerText, parsePrintenv_printenvCmd]
  dsimp only
  rw [String.ofList_toList, h]

/-- An answer with the echo of the command and the bare prompt. -/
def echoingReply (prompt : UbootPrompt) : UbootReply prompt where
  echo := true
  cr := false
  promptLine := prompt.text.toList
  printable := prompt.printable
  shown := List.infix_refl _

/-- The echo of a command, and behind it the answer and the prompt. -/
def echoingChunks (prompt : UbootPrompt) (env : String → Option String) (cmd : String) :
    List Bytes :=
  [encodeUtf8 (cmd.toList ++ ['\n']), encodeUtf8 (answerText env cmd ++ prompt.text.toList)]

theorem echoingChunks_flatten {name value : String} (h : env name = some value) :
    (echoingChunks prompt env (printenvCmd name)).flatten =
      (echoingReply prompt).stream name value := by
  rw [echoingChunks, List.flatten_cons, List.flatten_singleton, ← encodeUtf8_append,
    answerText_printenvCmd h, UbootReply.stream, UbootReply.lines, echoingReply]
  simp

/-- A U-Boot that is its environment, and whose echo comes ahead of the answer. -/
def echoingConsole (prompt : UbootPrompt) : UbootConsole prompt where
  State := String → Option String
  env s := s
  reply s cmd := { heard := echoingChunks prompt s cmd }
  next := carriedOut
  prints _ _ _ h := ⟨echoingReply prompt, echoingChunks_flatten h⟩
  keeps s name := carriedOut_printenvCmd s name.text
  sets s name value hq := by rw [carriedOut_setenvCmd, if_neg hq]

theorem stripAnsi_echo (name : VarName) :
    stripAnsi ([] ++ encodeUtf8 ((printenvCmd name.text).toList ++ ['\n'])) =
      encodeUtf8 ((printenvCmd name.text).toList ++ ['\n']) := by
  apply stripAnsi_eq_self
  apply notMem_encodeUtf8 (c := Char.ofNat 0x1B) (by decide)
  rw [List.mem_append, not_or]
  exact ⟨notMem_of_printable (printenvCmd_printable name) (by decide), by decide⟩

theorem printedValue_echo (h : prompt.text.toList <:+: (printenvCmd name.text).toList) :
    printedValue name.text (safeRunResult prompt.text ""
      { heard := echoingChunks prompt env (printenvCmd name.text) }).stdout = none := by
  have hseen : encodeUtf8 prompt.text.toList <:+:
      encodeUtf8 ((printenvCmd name.text).toList ++ ['\n']) :=
    infix_encodeUtf8 (h.trans (List.prefix_append ..).isInfix)
  have hlf : '\n' ∉ (printenvCmd name.text).toList :=
    notMem_of_printable (printenvCmd_printable name) (by decide)
  have hclean : cleanLines prompt.text ((printenvCmd name.text).toList ++ ['\n']) = [] := by
    rw [cleanLines, splitNewline_eq, List.splitOn_append_cons_self_of_not_mem hlf,
      List.splitOn_nil, List.map_cons, (printenvCmd_stripped name).pyStrip,
      List.filter_cons_of_neg (by simp [h])]
    rfl
  rw [safeRunResult, echoingChunks, expectScan, stripAnsi_echo,
    if_pos hseen]
  dsimp only
  rw [promptResult_uboot, decodeReplace_encode, cleanStdout_eq, hclean]
  apply if_neg
  decide

end

section
variable {env : String → Option String} {prompt : UbootPrompt} {name : VarName} {value : VarValue}

theorem printedValue_echoing (name : VarName)
    (h : ¬ VarReadable prompt.text name.text value.text) (henv : env name.text = some value.text) :
    printedValue name.text (safeRunResult prompt.text ""
      { heard := echoingChunks prompt env (printenvCmd name.text) }).stdout = none := by
  by_cases hecho : prompt.text.toList <:+: (printenvCmd name.text).toList
  · exact printedValue_echo hecho
  · have hillegible : ¬ Legible prompt.text name.text value.text := fun hl => h ⟨hl, hecho⟩
    have hfirst : ¬ encodeUtf8 prompt.text.toList <:+:
        encodeUtf8 ((printenvCmd name.text).toList ++ ['\n']) := by
      intro hin
      have hread := infix_decodeReplace hin
      rw [decodeReplace_encode] at hread
      have hlf : '\n' ∉ prompt.text.toList := notMem_of_printable prompt.printable (by decide)
      rcases infix_append_cons hlf hread with hin | hin
      · exact hecho hin
      · exact prompt.ne_nil (List.infix_nil.1 hin)
    have hwhole : [] ++ encodeUtf8 ((printenvCmd name.text).toList ++ ['\n']) ++
        encodeUtf8 (answerText env (printenvCmd name.text) ++ prompt.text.toList) =
          (echoingReply prompt).stream name.text value.text := by
      rw [← echoingChunks_flatten henv, echoingChunks, List.flatten_cons, List.flatten_singleton,
        List.nil_append]
    rw [safeRunResult, echoingChunks, expectScan, stripAnsi_echo, if_neg hfirst, expectScan, hwhole,
      stripAnsi_eq_self ((echoingReply prompt).escape_notMem name value),
      if_pos ((echoingReply prompt).shows name.text value.text)]
    dsimp only
    rw [promptResult_uboot, UbootReply.stream, decodeReplace_encode]
    apply (echoingReply prompt).printedValue_illegible hillegible
    · exact notMem_of_printable (echoingReply prompt).printable (by decide)
    · exact (echoingReply prompt).shown

theorem UbootConsole.getVar_eq (C : UbootConsole prompt) (s : C.State) (name : String) :
    UBootShell.getVar ⟨prompt.text⟩ C.safeRun name s =
      .ok (printedValue name (safeRunResult prompt.text "" (C.reply s (printenvCmd name))).stdout,
        C.next s (printenvCmd name)) := rfl

theorem UbootConsole.setVar_eq (C : UbootConsole prompt) (s : C.State) (name value : String) :
    UBootShell.setVar ⟨prompt.text⟩ C.safeRun name value s =
      .ok ((), C.next s (setenvCmd name value)) := rfl

theorem stateT_bind_ok {σ α β : Type} {x : StateT σ (Except Err) α} {s s' : σ} {a : α}
    (h : x s = .ok (a, s')) (f : α → StateT σ (Except Err) β) : (x >>= f) s = f a s' := by
  change (x s >>= fun p => f p.1 p.2) = f a s'
  rw [h]
  rfl

theorem VarReadable.readsBack (h : VarReadable prompt.text name.text value.text) :
    ReadsBack prompt name value := by
  intro C s hs
  obtain ⟨r, hr⟩ := C.prints s name value hs
  rw [C.getVar_eq, r.printedValue_readable name h hr]

theorem ReadsBack.readable (h : ReadsBack prompt name value) :
    VarReadable prompt.text name.text value.text := by
  by_contra hun
  let env : String → Option String := Function.update (fun _ => none) name.text (some value.text)
  have henv : env name.text = some value.text := Function.update_self ..
  have hgot := ((echoingConsole prompt).getVar_eq env name.text).symm.trans
    (h (echoingConsole prompt) env henv)
  have hlost := (printedValue_echoing name hun henv).symm.trans (Prod.mk.inj (Except.ok.inj hgot)).1
  cases hlost

end

def rootpathName : VarName := ⟨"rootpath", by decide, List.all_eq_true.1 (by decide)⟩

def bootargsName : VarName := ⟨"bootargs", by decide, List.all_eq_true.1 (by decide)⟩

section
variable {prompt : UbootPrompt} {old : VarValue} {l : List Char}

theorem mem_pyStrip {c : Char} (hc : isPySpace c = false) (h : c ∈ l) : c ∈ pyStrip l := by
  have hin : [c] <:+: pyStrip l := by
    apply infix_pyStrip ((List.singleton_infix_iff ..).2 h)
    · intro d hd
      cases hd
      exact hc
    · intro d hd
      cases hd
      exact hc
  exact (List.singleton_infix_iff ..).1 hin

theorem stripText_toList (s : String) : (stripText s).toList = pyStrip s.toList :=
  String.toList_ofList

theorem nfsRoot_stripText (s : String) : occursIn nfsRoot (stripText s) ↔ occursIn nfsRoot s := by
  rw [occursIn, occursIn, stripText_toList]
  constructor
  · intro h
    exact h.trans (pyStrip_isInfix _)
  · intro h
    exact (stripped_of_pyStrip (by decide)).infix_pyStrip h

theorem orDefaultBootargs_some {args : String} (h : args ≠ "") :
    orDefaultBootargs (some args) = args := if_neg h

/-- The characters by which the prompts of U-Boot differ from the variables of the NFS root. -/
def isPromptMark (c : Char) : Bool := ['>', 'U', 'x', 'V'].contains c

theorem UbootPrompt.marked (prompt : UbootPrompt) :
    ∃ c ∈ prompt.text.toList, isPromptMark c = true := by
  obtain ⟨p, hp, hin⟩ := List.any_eq_true.1 prompt.uboot
  have hmark : ["=>", "U-Boot", "barebox", "Verdin"].all
      (fun p => p.toList.any isPromptMark) = true := by decide
  obtain ⟨c, hc, hmem⟩ := List.any_eq_true.1 (List.all_eq_true.1 hmark p hp)
  exact ⟨c, (of_decide_eq_true hin).subset hc, hmem⟩

/-- The default arguments with the suffix, or a part of these, are readable. -/
theorem readable_of_default
    (h : pyStrip old.text.toList <:+: (defaultBootargs ++ nfsSuffix).toList) :
    VarReadable prompt.text "bootargs" old.text := by
  have hunmarked {l : List Char} (h : l.all (fun c => !isPromptMark c) = true) :
      ∀ c ∈ l, isPromptMark c = false := by
    intro c hc
    exact (Bool.not_eq_true' _).mp (List.all_eq_true.1 h c hc)
  have hfree {l : List Char} (hl : ∀ c ∈ l, isPromptMark c = false) :
      ¬ prompt.text.toList <:+: l := by
    intro hin
    obtain ⟨c, hc, hmark⟩ := prompt.marked
    rw [hl c (hin.subset hc)] at hmark
    cases hmark
  have hname : ∀ c ∈ "bootargs".toList, isPromptMark c = false := hunmarked (by decide)
  have hdefault : ∀ c ∈ (defaultBootargs ++ nfsSuffix).toList, isPromptMark c = false :=
    hunmarked (by decide)
  have hold : ∀ c ∈ old.text.toList, isPromptMark c = false := by
    have hsolid {c : Char} (hmark : isPromptMark c = true) : isPySpace c = false := by
      have hall : ['>', 'U', 'x', 'V'].all (fun c => !isPySpace c) = true := by decide
      exact (Bool.not_eq_true' _).mp
        (List.all_eq_true.1 hall c (List.contains_iff_mem.1 hmark))
    intro c hc
    by_contra hmark
    rw [Bool.not_eq_false] at hmark
    have hstays := hdefault c (h.subset (mem_pyStrip (hsolid hmark) hc))
    rw [hstays] at hmark
    cases hmark
  have hstrip : pyStrip (envLine "bootargs" old.text) =
      "bootargs".toList ++ '=' :: old.text.toList.rdropWhile isPySpace :=
    pyStrip_envLine bootargsName old.text
  have hmarker {x : List Char} (hx : Stripped x) (heq : '=' ∉ x)
      (hname : ¬ x <:+: "bootargs".toList)
      (hdefault : ¬ x <:+: (defaultBootargs ++ nfsSuffix).toList) :
      ¬ x <:+: envLine "bootargs" old.text := by
    intro hin
    rcases infix_append_cons heq hin with hin | hin
    · exact hname hin
    · exact hdefault ((hx.infix_pyStrip hin).trans h)
  constructor
  · constructor
    · apply hfree
      intro c hc
      rcases List.mem_append.1 hc with hc | hc
      · exact hname c hc
      · rcases List.mem_cons.1 hc with rfl | hc
        · decide
        · exact hold c hc
    · rw [hstrip]
      rfl
    · apply hmarker (stripped_of_pyStrip (by decide)) (by decide) (by decide) (by decide +kernel)
    · apply hmarker (stripped_of_pyStrip (by decide)) (by decide) (by decide) (by decide +kernel)
  · exact hfree (hunmarked (by decide))

theorem UbootConsole.nfsMount_eq (C : UbootConsole prompt) {s s₁ : C.State}
    {serverIp exportPath : String} {found : Option String}
    (hs₁ : C.next s (setenvCmd "rootpath" (serverIp ++ ":" ++ exportPath)) = s₁)
    (hfound : printedValue "bootargs"
      (safeRunResult prompt.text "" (C.reply s₁ (printenvCmd "bootargs"))).stdout = found) :
    UBootShell.nfsMount ⟨prompt.text⟩ C.safeRun serverIp exportPath s =
      .ok (true, if occursIn nfsRoot (orDefaultBootargs found) then
          C.next s₁ (printenvCmd "bootargs")
        else C.next (C.next s₁ (printenvCmd "bootargs"))
          (setenvCmd "bootargs" (orDefaultBootargs found ++ nfsSuffix))) := by
  have hset := C.setVar_eq s "rootpath" (serverIp ++ ":" ++ exportPath)
  have hget := C.getVar_eq s₁ "bootargs"
  rw [hs₁] at hset
  rw [hfound] at hget
  rw [UBootShell.nfsMount, stateT_bind_ok hset, stateT_bind_ok hget]
  by_cases hroot : occursIn nfsRoot (orDefaultBootargs found)
  · simp only [hroot, not_true_eq_false, if_false, if_true]
    rfl
  · simp only [hroot, not_false_eq_true, if_true, if_false]
    exact stateT_bind_ok (C.setVar_eq _ "bootargs" (orDefaultBootargs found ++ nfsSuffix)) _

end

section
variable {prompt : UbootPrompt} {old : VarValue}

def NfsExport.rootpath (x : NfsExport) : VarValue where
  text := x.serverIp ++ ":" ++ x.exportPath
  nonempty := by simp
  printable := x.printable

/-- The arguments that go before the suffix are the default or the old ones, stripped. -/
theorem orDefaultBootargs_subset {p : Char → Prop} (hdefault : ∀ c ∈ defaultBootargs.toList, p c)
    (old : String) (hold : ∀ c ∈ old.toList, p c) :
    ∀ c ∈ (orDefaultBootargs (some (stripText old))).toList, p c := by
  by_cases h : stripText old = ""
  · rw [h]
    exact hdefault
  · rw [orDefaultBootargs_some h, stripText_toList]
    intro c hc
    exact hold c ((pyStrip_isInfix _).subset hc)

def mountedArgs (old : VarValue) : VarValue where
  text := orDefaultBootargs (some (stripText old.text)) ++ nfsSuffix
  nonempty := by
    have hne : nfsSuffix.toList ≠ [] := by decide
    rw [String.toList_append]
    simp [hne]
  printable := by
    have hdefault : ∀ c ∈ defaultBootargs.toList, isPrintable c = true :=
      List.all_eq_true.1 (by decide)
    have hsuffix : ∀ c ∈ nfsSuffix.toList, isPrintable c = true := List.all_eq_true.1 (by decide)
    intro c hc
    rw [String.toList_append] at hc
    rcases List.mem_append.1 hc with hc | hc
    · exact orDefaultBootargs_subset hdefault old.text old.printable c hc
    · exact hsuffix c hc

/-- An argument list without an NFS root is quoted right if the old one has no quote. -/
theorem mountedArgs_unquoted (h : occursIn nfsRoot old.text ∨ '\'' ∉ old.text.toList)
    (hroot : ¬ occursIn nfsRoot (orDefaultBootargs (some (stripText old.text)))) :
    '\'' ∉ (mountedArgs old).text.toList := by
  have hquote : '\'' ∉ old.text.toList := by
    apply h.resolve_left
    intro hin
    by_cases hne : stripText old.text = ""
    · rw [← nfsRoot_stripText, hne] at hin
      exact absurd hin (by decide)
    · rw [orDefaultBootargs_some hne, nfsRoot_stripText] at hroot
      exact hroot hin
  have hdefault : ∀ c ∈ defaultBootargs.toList, c ≠ '\'' := by
    have hnone : '\'' ∉ defaultBootargs.toList := by decide
    rintro c hc rfl
    exact hnone hc
  have hsuffix : '\'' ∉ nfsSuffix.toList := by decide
  rw [mountedArgs, String.toList_append, List.mem_append, not_or]
  refine ⟨fun hmem => ?_, hsuffix⟩
  refine orDefaultBootargs_subset hdefault old.text ?_ _ hmem rfl
  rintro c hc rfl
  exact hquote hc

/-- VarReadable arguments survive `nfs_mount`, if they can be quoted or have their NFS root. -/
theorem VarReadable.preserves (h : VarReadable prompt.text "bootargs" old.text)
    (hquote : occursIn nfsRoot old.text ∨ '\'' ∉ old.text.toList) : Preserves prompt old := by
  intro C s x hs
  let s₁ := C.next s (setenvCmd "rootpath" x.rootpath.text)
  let s₂ := C.next s₁ (printenvCmd "bootargs")
  let args := orDefaultBootargs (some (stripText old.text))
  have hs₁ : C.env s₁ "bootargs" = some old.text := by
    have hset := congrFun (C.sets s rootpathName x.rootpath x.unquoted) "bootargs"
    rwa [Function.update_of_ne (by decide), hs] at hset
  have hs₂ : C.env s₂ "bootargs" = some old.text :=
    (congrFun (C.keeps s₁ bootargsName) "bootargs").trans hs₁
  have hmount : UBootShell.nfsMount ⟨prompt.text⟩ C.safeRun x.serverIp x.exportPath s =
      .ok (true, if occursIn nfsRoot args then s₂
        else C.next s₂ (setenvCmd "bootargs" (args ++ nfsSuffix))) := by
    obtain ⟨r, hr⟩ := C.prints s₁ bootargsName old hs₁
    have hread : printedValue "bootargs" (safeRunResult prompt.text ""
        (C.reply s₁ (printenvCmd "bootargs"))).stdout = some (stripText old.text) :=
      r.printedValue_readable bootargsName h hr
    exact C.nfsMount_eq rfl hread
  refine ⟨_, hmount, ?_⟩
  rw [mountedBootargs]
  by_cases hroot : occursIn nfsRoot args
  · rw [if_pos hroot, if_pos hroot]
    exact hs₂
  · have hset := congrFun (C.sets s₂ bootargsName (mountedArgs old)
      (mountedArgs_unquoted hquote hroot)) "bootargs"
    rw [if_neg hroot, if_neg hroot]
    exact hset.trans (Function.update_self ..)

end

section
variable {prompt : UbootPrompt} {old : VarValue}

def sampleExport : NfsExport :=
  ⟨"10.0.0.5", "/srv/nfs/rootfs", List.all_eq_true.1 (by decide), by decide⟩

/-- What `nfs_mount` leaves on the echoing console, by what `get_var` has found. -/
theorem Preserves.mounted (h : Preserves prompt old) (found : Option String)
    (hfound : ∀ env : String → Option String, env "bootargs" = some old.text →
      printedValue "bootargs" (safeRunResult prompt.text ""
        { heard := echoingChunks prompt env (printenvCmd "bootargs") }).stdout = found)
    (hroot : ¬ occursIn nfsRoot (orDefaultBootargs found)) :
    (if '\'' ∈ (orDefaultBootargs found ++ nfsSuffix).toList then old.text
      else orDefaultBootargs found ++ nfsSuffix) = mountedBootargs old.text := by
  let s : String → Option String := Function.update (fun _ => none) "bootargs" (some old.text)
  let s₁ := carriedOut s (setenvCmd "rootpath" sampleExport.rootpath.text)
  let args := orDefaultBootargs found ++ nfsSuffix
  have hs : s "bootargs" = some old.text :=
    Function.update_self "bootargs" (some old.text) fun _ => none
  have hs₁ : s₁ "bootargs" = some old.text := by
    have hset : s₁ = _ := carriedOut_setenvCmd s rootpathName sampleExport.rootpath.text
    have hunquoted : '\'' ∉ sampleExport.rootpath.text.toList := sampleExport.unquoted
    rw [hset, if_neg hunquoted, Function.update_of_ne (by decide), hs]
  have hnext : (echoingConsole prompt).next s (setenvCmd "rootpath"
      (sampleExport.serverIp ++ ":" ++ sampleExport.exportPath)) = s₁ := rfl
  have hmount := (echoingConsole prompt).nfsMount_eq hnext (hfound s₁ hs₁)
  rw [if_neg hroot] at hmount
  obtain ⟨s', hs', henv⟩ := h (echoingConsole prompt) s sampleExport hs
  have hleft : carriedOut (carriedOut s₁ (printenvCmd "bootargs")) (setenvCmd "bootargs" args) =
      s' := (Prod.mk.inj (Except.ok.inj (hmount.symm.trans hs'))).2
  rw [carriedOut_printenvCmd] at hleft
  have hset : s' = if '\'' ∈ args.toList then s₁ else Function.update s₁ "bootargs" (some args) :=
    hleft.symm.trans (carriedOut_setenvCmd s₁ bootargsName args)
  have hvalue : s' "bootargs" = some (mountedBootargs old.text) := henv
  rw [hset] at hvalue
  split at hvalue
  · rename_i hq
    rw [if_pos hq]
    exact Option.some_inj.1 (hs₁.symm.trans hvalue)
  · rename_i hq
    rw [if_neg hq]
    exact Option.some_inj.1 ((Function.update_self "bootargs" (some args) s₁).symm.trans hvalue)

theorem Preserves.readable (h : Preserves prompt old) :
    VarReadable prompt.text "bootargs" old.text := by
  by_contra hun
  have hmounted := h.mounted none
    (fun env henv => printedValue_echoing bootargsName hun henv) (by decide)
  have hunquoted : '\'' ∉ (orDefaultBootargs none ++ nfsSuffix).toList := by decide
  rw [if_neg hunquoted, mountedBootargs] at hmounted
  apply hun
  apply readable_of_default
  split at hmounted
  · rw [← hmounted]
    exact pyStrip_isInfix _
  · have hargs := (String.append_left_inj _).1 hmounted
    by_cases hblank : stripText old.text = ""
    · rw [← stripText_toList, hblank]
      exact List.nil_infix
    · rw [orDefaultBootargs_some hblank] at hargs
      rw [← stripText_toList, ← hargs, String.toList_append]
      exact (List.prefix_append ..).isInfix

theorem Preserves.unquoted (h : Preserves prompt old) :
    occursIn nfsRoot old.text ∨ '\'' ∉ old.text.toList := by
  by_contra hboth
  rw [not_or, not_not] at hboth
  obtain ⟨hroot, hquote⟩ := hboth
  have hstripped : '\'' ∈ (stripText old.text).toList := by
    rw [stripText_toList]
    exact mem_pyStrip (by decide) hquote
  have hne : stripText old.text ≠ "" := by
    intro hblank
    rw [hblank] at hstripped
    cases hstripped
  have hargs : ¬ occursIn nfsRoot (orDefaultBootargs (some (stripText old.text))) := by
    rwa [orDefaultBootargs_some hne, nfsRoot_stripText]
  have hmounted := h.mounted (some (stripText old.text)) (fun env henv =>
    (echoingReply prompt).printedValue_readable bootargsName h.readable
      (echoingChunks_flatten henv)) hargs
  have hquoted : '\'' ∈ (orDefaultBootargs (some (stripText old.text)) ++ nfsSuffix).toList := by
    rw [orDefaultBootargs_some hne, String.toList_append]
    exact List.mem_append_left _ hstripped
  rw [if_pos hquoted, mountedBootargs, if_neg hargs] at hmounted
  apply hroot
  rw [hmounted, occursIn, String.toList_append]
  have hsuffix : nfsRoot.toList <:+: nfsSuffix.toList := by decide
  exact hsuffix.trans (List.suffix_append ..).isInfix

end

/-- From every console `get_var` returns the value of a variable, exactly if the value is readable.
On every console `nfs_mount` keeps the old arguments, exactly if they are readable and either can be
quoted or have their NFS root. -/
theorem uboot_variables_iff (prompt : UbootPrompt) (name : VarName) (value : VarValue) :
    (ReadsBack prompt name value ↔ VarReadable prompt.text name.text value.text) ∧
      (Preserves prompt value ↔ VarReadable prompt.text "bootargs" value.text ∧
        (occursIn nfsRoot value.text ∨ '\'' ∉ value.text.toList)) :=
  ⟨⟨ReadsBack.readable, VarReadable.readsBack⟩, fun h => ⟨h.readable, h.unquoted⟩,
    fun h => h.1.preserves h.2⟩

def defaultPrompt : UbootPrompt :=
  ⟨"=>", by decide, List.all_eq_true.1 (by decide), stripped_of_pyStrip (by decide)⟩

def arrowArgs : VarValue :=
  ⟨"console=ttyS0,115200 note=>ok", by decide, List.all_eq_true.1 (by decide)⟩

/-- They are not read back, and `nfs_mount` replaces them. -/
theorem arrowArgs_lost :
    ¬ ReadsBack defaultPrompt bootargsName arrowArgs ∧ ¬ Preserves defaultPrompt arrowArgs := by
  let C := echoingConsole defaultPrompt
  let s : C.State := Function.update (fun _ => none) "bootargs" (some arrowArgs.text)
  have hs : C.env s "bootargs" = some arrowArgs.text := by decide +kernel
  constructor
  · intro h
    have hnone : (UBootShell.getVar ⟨"=>"⟩ C.safeRun "bootargs" s).toOption.map Prod.fst =
        some none := by decide +kernel
    have hread := congrArg (fun r => r.toOption.map Prod.fst) (h C s hs)
    cases hnone.symm.trans hread
  · intro h
    have hdefault : (UBootShell.nfsMount ⟨"=>"⟩ C.safeRun "10.0.0.5" "/srv/nfs/rootfs"
        s).toOption.map (fun r => C.env r.2 "bootargs") =
          some (some (defaultBootargs ++ nfsSuffix)) := by decide +kernel
    obtain ⟨s', hs', hargs⟩ := h C s sampleExport hs
    have hmounted := congrArg (fun r => r.toOption.map fun r => C.env r.2 "bootargs") hs'
    have hother : mountedBootargs arrowArgs.text ≠ defaultBootargs ++ nfsSuffix := by decide +kernel
    have hsame := Option.some_inj.1 (hdefault.symm.trans hmounted)
    exact hother (Option.some_inj.1 (hargs.symm.trans hsame.symm))

end MesCore
