import MesCore.CommandFraming

namespace MesCore
set_option autoImplicit true

/-- The characters that end a line for `str.splitlines`. -/
def endsLine (c : Char) : Bool :=
  let n := c.toNat
  (0x0A ≤ n && n ≤ 0x0D) || (0x1C ≤ n && n ≤ 0x1E) || n == 0x85 || n == 0x2028 || n == 0x2029

/-- `str.splitlines`. -/
def splitLines : List Char → List (List Char)
  | [] => []
  | '\r' :: '\n' :: cs => [] :: splitLines cs
  | c :: cs =>
    if endsLine c then [] :: splitLines cs
    else match splitLines cs with
      | [] => [[c]]
      | l :: ls => (c :: l) :: ls

/-- `dut.safe_run(cmd, expected_prompt=prompt)`. -/
abbrev SafeRun (σ : Type) := String → String → StateT σ (Except Err) CommandResult

structure UBootShell where
  prompt : String := "=>"

def printenvCmd (name : String) : String := "printenv " ++ name

def setenvCmd (name value : String) : String := "setenv " ++ name ++ " '" ++ value ++ "'"

/-- What `get_var` makes of a line of the output. -/
def lineValue (name : String) (line : List Char) : Option String :=
  let line := pyStrip line
  if name.toList ++ ['='] <+: line then
    some (String.ofList (pyStrip (line.dropWhile (· ≠ '=')).tail))
  else none

/-- The value that `get_var` reads in the output of `printenv`. -/
def printedValue (name stdout : String) : Option String :=
  if occursIn "not defined" stdout ∨ occursIn "Error:" stdout then none
  else (splitLines stdout.toList).findSome? (lineValue name)

def UBootShell.getVar (sh : UBootShell) (safeRun : SafeRun σ) (name : String) :
    StateT σ (Except Err) (Option String) := do
  let res ← safeRun (printenvCmd name) sh.prompt
  return printedValue name res.stdout

def UBootShell.setVar (sh : UBootShell) (safeRun : SafeRun σ) (name value : String) :
    StateT σ (Except Err) Unit := do
  let _ ← safeRun (setenvCmd name value) sh.prompt

def defaultBootargs : String := "console=${console}"

def nfsRoot : String := "root=/dev/nfs"

def nfsSuffix : String := " root=/dev/nfs nfsroot=${serverip}:${rootpath},v3,tcp rw ip=dhcp"

/-- `value or "console=${console}"`. -/
def orDefaultBootargs : Option String → String
  | some args => if args = "" then defaultBootargs else args
  | none => defaultBootargs

def UBootShell.nfsMount (sh : UBootShell) (safeRun : SafeRun σ) (serverIp exportPath : String) :
    StateT σ (Except Err) Bool := do
  sh.setVar safeRun "rootpath" (serverIp ++ ":" ++ exportPath)
  let bootargs := orDefaultBootargs (← sh.getVar safeRun "bootargs")
  if ¬ occursIn nfsRoot bootargs then
    sh.setVar safeRun "bootargs" (bootargs ++ nfsSuffix)
  return true

/-- Neither a control character nor a line or paragraph separator. -/
def isPrintable (c : Char) : Bool :=
  let n := c.toNat
  0x20 ≤ n && !(0x7F ≤ n && n ≤ 0x9F) && n != 0x2028 && n != 0x2029

/-- A prompt by which `safe_run` knows U-Boot. -/
structure UbootPrompt where
  text : String
  uboot : isUboot text = true
  printable : ∀ c ∈ text.toList, isPrintable c = true
  stripped : Stripped text.toList

/-- Of a name in the environment, which `=` ends. -/
def isNameChar (c : Char) : Bool := isPrintable c && !isPySpace c && c != '='

structure VarName where
  text : String
  nonempty : text.toList ≠ []
  word : ∀ c ∈ text.toList, isNameChar c = true

structure VarValue where
  text : String
  nonempty : text.toList ≠ []
  printable : ∀ c ∈ text.toList, isPrintable c = true

/-- `name=value`. -/
def envLine (name value : String) : List Char := name.toList ++ '=' :: value.toList

/-- How the console shows an answer: with an echo of the command or without, with carriage returns
before its line feeds or without, and with the prompt in the last line. -/
structure UbootReply (prompt : UbootPrompt) where
  echo : Bool
  cr : Bool
  promptLine : List Char
  printable : ∀ c ∈ promptLine, isPrintable c = true
  shown : prompt.text.toList <:+: promptLine

def UbootReply.lines {prompt : UbootPrompt} (r : UbootReply prompt) (name value : String) :
    List (List Char) :=
  let texts := if r.echo then [(printenvCmd name).toList, envLine name value]
    else [envLine name value]
  if r.cr then texts.map (· ++ ['\r']) else texts

/-- The bytes of the answer to `printenv` of this variable. -/
def UbootReply.stream {prompt : UbootPrompt} (r : UbootReply prompt) (name value : String) :
    Bytes :=
  encodeUtf8 ((r.lines name value).flatMap (· ++ ['\n']) ++ r.promptLine)

/-- U-Boot at its prompt on the serial line. `printenv` shows a variable, in chunks of any size,
and `setenv` sets it to a value that is quoted once. -/
structure UbootConsole (prompt : UbootPrompt) where
  State : Type
  env : State → String → Option String
  reply : State → String → Reply
  next : State → String → State
  prints : ∀ (s : State) (name : VarName) (value : VarValue),
    env s name.text = some value.text → ∃ r : UbootReply prompt,
      (reply s (printenvCmd name.text)).heard.flatten = r.stream name.text value.text
  keeps : ∀ (s : State) (name : VarName), env (next s (printenvCmd name.text)) = env s
  sets : ∀ (s : State) (name : VarName) (value : VarValue), '\'' ∉ value.text.toList →
    env (next s (setenvCmd name.text value.text)) =
      Function.update (env s) name.text (some value.text)

/-- `EphemeralSerialClient.safe_run` on this console. A command to U-Boot has no token. -/
def UbootConsole.safeRun {prompt : UbootPrompt} (C : UbootConsole prompt) : SafeRun C.State :=
  fun cmd expectedPrompt s => .ok (safeRunResult expectedPrompt "" (C.reply s cmd), C.next s cmd)

/-- `get_var` returns the stripped value, whatever console shows it. -/
def ReadsBack (prompt : UbootPrompt) (name : VarName) (value : VarValue) : Prop :=
  ∀ (C : UbootConsole prompt) (s : C.State), C.env s name.text = some value.text →
    UBootShell.getVar ⟨prompt.text⟩ C.safeRun name.text s =
      .ok (some (stripText value.text), C.next s (printenvCmd name.text))

/-- The arguments of `nfs_mount`, fit for a variable that is quoted once. -/
structure NfsExport where
  serverIp : String
  exportPath : String
  printable : ∀ c ∈ (serverIp ++ ":" ++ exportPath).toList, isPrintable c = true
  unquoted : '\'' ∉ (serverIp ++ ":" ++ exportPath).toList

/-- What `bootargs` should be after `nfs_mount`: the arguments there were, or the default in place
of blank ones, and the suffix unless there is an NFS root already. -/
def mountedBootargs (old : String) : String :=
  let args := orDefaultBootargs (some (stripText old))
  if occursIn nfsRoot args then old else args ++ nfsSuffix

def Preserves (prompt : UbootPrompt) (old : VarValue) : Prop :=
  ∀ (C : UbootConsole prompt) (s : C.State) (x : NfsExport),
    C.env s "bootargs" = some old.text →
      ∃ s', UBootShell.nfsMount ⟨prompt.text⟩ C.safeRun x.serverIp x.exportPath s = .ok (true, s') ∧
        C.env s' "bootargs" = some (mountedBootargs old.text)

/-- The line does not show the prompt and does not look like the kernel log or an error. -/
structure Legible (prompt name value : String) : Prop where
  line : ¬ prompt.toList <:+: envLine name value
  log : isKernelLog (pyStrip (envLine name value)) = false
  undefined : ¬ "not defined".toList <:+: envLine name value
  error : ¬ "Error:".toList <:+: envLine name value

/-- The echo of the command does not show the prompt either. -/
structure VarReadable (prompt name value : String) : Prop extends Legible prompt name value where
  echo : ¬ prompt.toList <:+: (printenvCmd name).toList

section
variable {c : Char} {l t : List Char} {ls : List (List Char)}

theorem notMem_of_printable (h : ∀ c ∈ l, isPrintable c = true) (hc : isPrintable c = false) :
    c ∉ l := by
  intro hmem
  rw [h c hmem] at hc
  cases hc

theorem endsLine_of_printable (h : isPrintable c = true) : endsLine c = false := by
  simp only [isPrintable, Bool.and_eq_true, decide_eq_true_eq, Bool.not_eq_true',
    Bool.and_eq_false_iff, decide_eq_false_iff_not, bne_iff_ne, ne_eq] at h
  simp only [endsLine, Bool.or_eq_false_iff, Bool.and_eq_false_iff, decide_eq_false_iff_not,
    beq_eq_false_iff_ne, ne_eq]
  omega

theorem splitLines_cons (hc : endsLine c = false) (t : List Char) : splitLines (c :: t) =
    match splitLines t with
    | [] => [[c]]
    | l :: ls => (c :: l) :: ls := by
  have hcr : ∀ cs, c = '\r' → t = '\n' :: cs → False := by
    intro cs hcr _
    rw [hcr] at hc
    exact absurd hc (by decide)
  rw [splitLines.eq_3 _ _ hcr, hc]
  rfl

theorem splitLines_line (hl : ∀ c ∈ l, endsLine c = false) (hne : l ≠ []) :
    splitLines l = [l] := by
  induction l with
  | nil => exact (hne rfl).elim
  | cons c l ih =>
    rw [List.forall_mem_cons] at hl
    rw [splitLines_cons hl.1]
    cases l with
    | nil => rfl
    | cons d l => rw [ih hl.2 (List.cons_ne_nil d l)]

theorem splitLines_append (hl : ∀ c ∈ l, endsLine c = false) (t : List Char) :
    splitLines (l ++ '\n' :: t) = l :: splitLines t := by
  induction l with
  | nil => rfl
  | cons c l ih =>
    rw [List.forall_mem_cons] at hl
    rw [List.cons_append, splitLines_cons hl.1, ih hl.2]

theorem splitLines_joinLines (hls : ∀ l ∈ ls, l ≠ [] ∧ ∀ c ∈ l, endsLine c = false) :
    splitLines (joinLines ls) = ls := by
  induction ls with
  | nil => rfl
  | cons l ls ih =>
    rw [List.forall_mem_cons] at hls
    cases ls with
    | nil =>
      rw [joinLines, List.intercalate_singleton]
      exact splitLines_line hls.1.2 hls.1.1
    | cons k ks =>
      rw [joinLines_cons_cons, splitLines_append hls.1.2, ih hls.2]

theorem cleanLines_lines {prompt : String} (hls : ∀ l ∈ ls, '\n' ∉ l) (ht : '\n' ∉ t)
    (hprompt : prompt.toList <:+: pyStrip t) :
    cleanLines prompt (ls.flatMap (· ++ ['\n']) ++ t) = (ls.map pyStrip).filter fun l =>
      !l.isEmpty && !decide (prompt.toList <:+: l) && !isKernelLog l := by
  rw [cleanLines, splitNewline_eq, splitOn_lines hls, List.splitOn_eq_singleton ht, List.map_append,
    List.filter_append, List.map_singleton, List.append_right_eq_self]
  apply List.filter_cons_of_neg
  simp [hprompt]

theorem pyStrip_rdropWhile (l : List Char) : pyStrip (l.rdropWhile isPySpace) = pyStrip l := by
  induction l using List.reverseRecOn with
  | nil => rfl
  | append_singleton l c ih =>
    by_cases hc : isPySpace c = true
    · rw [List.rdropWhile_concat_pos _ _ _ hc, ih, pyStrip_concat_space hc]
    · rw [List.rdropWhile_concat_neg _ _ _ hc]

end

theorem printenvCmd_toList (name : String) :
    (printenvCmd name).toList = "printenv".toList ++ ' ' :: name.toList := by
  have hword : "printenv ".toList = "printenv".toList ++ [' '] := by decide
  rw [printenvCmd, String.toList_append, hword, List.append_assoc, List.singleton_append]

theorem rdropWhile_append_cons {p : α → Bool} {c : α} (hc : p c = false) (l t : List α) :
    (l ++ c :: t).rdropWhile p = l ++ c :: t.rdropWhile p := by
  induction t using List.reverseRecOn with
  | nil =>
    rw [List.rdropWhile_concat_neg _ _ _ (by simp [hc]), List.rdropWhile_nil]
  | append_singleton t d ih =>
    rw [← List.cons_append, ← List.append_assoc]
    by_cases hd : p d = true
    · rw [List.rdropWhile_concat_pos _ _ _ hd, List.rdropWhile_concat_pos _ _ _ hd, ih]
    · rw [List.rdropWhile_concat_neg _ _ _ hd, List.rdropWhile_concat_neg _ _ _ hd,
        List.append_assoc, List.cons_append]

section
variable {prompt : UbootPrompt} {name : VarName} {value : VarValue} {ls : List (List Char)}

theorem UbootPrompt.ne_nil (prompt : UbootPrompt) : prompt.text.toList ≠ [] := by
  intro hnil
  have huboot := prompt.uboot
  rw [String.toList_eq_nil_iff.1 hnil] at huboot
  exact absurd huboot (by decide)

theorem UbootPrompt.infix_pyStrip {l : List Char} (h : prompt.text.toList <:+: l) :
    prompt.text.toList <:+: pyStrip l :=
  prompt.stripped.infix_pyStrip h

theorem VarName.printable (name : VarName) {c : Char} (hc : c ∈ name.text.toList) :
    isPrintable c = true ∧ isPySpace c = false ∧ c ≠ '=' := by
  have hword := name.word c hc
  rw [isNameChar, Bool.and_eq_true, Bool.and_eq_true, Bool.not_eq_true', bne_iff_ne] at hword
  exact ⟨hword.1.1, hword.1.2, hword.2⟩

theorem VarName.notMem (name : VarName) (hc : isPySpace c = true ∨ c = '=') :
    c ∉ name.text.toList := by
  intro hmem
  obtain ⟨-, hspace, hne⟩ := name.printable hmem
  rcases hc with hc | hc
  · rw [hspace] at hc
    cases hc
  · exact hne hc

theorem envLine_printable (name : VarName) (value : VarValue) :
    ∀ c ∈ envLine name.text value.text, isPrintable c = true := by
  intro c hc
  rcases List.mem_append.1 hc with hc | hc
  · exact (name.printable hc).1
  · rcases List.mem_cons.1 hc with rfl | hc
    · decide
    · exact value.printable c hc

theorem printenvCmd_printable (name : VarName) :
    ∀ c ∈ (printenvCmd name.text).toList, isPrintable c = true := by
  have hword : "printenv".toList.all isPrintable = true := by decide
  intro c hc
  rw [printenvCmd_toList] at hc
  rcases List.mem_append.1 hc with hc | hc
  · exact List.all_eq_true.1 hword c hc
  · rcases List.mem_cons.1 hc with rfl | hc
    · decide
    · exact (name.printable hc).1

theorem printenvCmd_stripped (name : VarName) : Stripped (printenvCmd name.text).toList := by
  rw [printenvCmd_toList]
  constructor
  · intro c hc
    rw [List.head?_append_of_ne_nil _ (by decide)] at hc
    have hp : "printenv".toList.head? = some 'p' := by decide
    rw [hp, Option.some_inj] at hc
    rw [← hc]
    decide
  · intro c hc
    rw [List.getLast?_append_cons, List.getLast?_cons_of_ne_nil name.nonempty] at hc
    exact (name.printable (List.mem_of_getLast? hc)).2.1

theorem pyStrip_envLine (name : VarName) (value : String) : pyStrip (envLine name.text value) =
    name.text.toList ++ '=' :: value.toList.rdropWhile isPySpace := by
  obtain ⟨a, as, hname⟩ := List.exists_cons_of_ne_nil name.nonempty
  have ha : isPySpace a = false := (name.printable (hname ▸ List.mem_cons_self)).2.1
  rw [pyStrip_eq, envLine, hname, List.cons_append, List.dropWhile_cons_of_neg (by simp [ha]),
    ← List.cons_append, rdropWhile_append_cons (by decide)]

theorem lineValue_envLine (name : VarName) (value : String) :
    lineValue name.text (pyStrip (envLine name.text value)) = some (stripText value) := by
  have hstrip := (stripped_pyStrip (envLine name.text value)).pyStrip
  have hstart : name.text.toList ++ ['='] <+:
      name.text.toList ++ '=' :: value.toList.rdropWhile isPySpace := by
    refine (List.prefix_append_right_inj _).2 ?_
    exact List.cons_prefix_cons.2 ⟨rfl, List.nil_prefix⟩
  have hdrop : (name.text.toList ++ '=' :: value.toList.rdropWhile isPySpace).dropWhile (· ≠ '=') =
      '=' :: value.toList.rdropWhile isPySpace := by
    have hname : ∀ c ∈ name.text.toList, decide (c ≠ '=') = true := by
      intro c hc
      exact decide_eq_true (name.printable hc).2.2
    rw [List.dropWhile_append_of_pos hname, List.dropWhile_cons_of_neg (by simp)]
  rw [lineValue, hstrip, pyStrip_envLine]
  simp only [if_pos hstart, hdrop, List.tail_cons, pyStrip_rdropWhile]
  rfl

theorem lineValue_printenvCmd (name : VarName) :
    lineValue name.text (printenvCmd name.text).toList = none := by
  have hecho : '=' ∉ (printenvCmd name.text).toList := by
    have hword : '=' ∉ "printenv".toList := by decide
    rw [printenvCmd_toList, List.mem_append, List.mem_cons, not_or, not_or]
    exact ⟨hword, by decide, name.notMem (.inr rfl)⟩
  rw [lineValue, (printenvCmd_stripped name).pyStrip]
  apply if_neg
  intro h
  exact hecho (h.subset (List.mem_append_right _ (List.mem_singleton_self _)))

end

section
variable {prompt : UbootPrompt} {name : VarName} {value : VarValue} {t : List Char}
  {ls : List (List Char)}

theorem printedValue_joinLines (hls : ∀ l ∈ ls, l ≠ [] ∧ ∀ c ∈ l, isPrintable c = true) :
    printedValue name.text (String.ofList (joinLines ls)) =
      if ∃ l ∈ ls, "not defined".toList <:+: l ∨ "Error:".toList <:+: l then none
      else ls.findSome? (lineValue name.text) := by
  have hlines : splitLines (joinLines ls) = ls := by
    apply splitLines_joinLines
    intro l hl
    exact ⟨(hls l hl).1, fun c hc => endsLine_of_printable ((hls l hl).2 c hc)⟩
  have hshown (x : String) (hx : '\n' ∉ x.toList) (hne : x.toList ≠ []) :
      occursIn x (String.ofList (joinLines ls)) ↔ ∃ l ∈ ls, x.toList <:+: l := by
    rw [occursIn, String.toList_ofList]
    exact infix_joinLines_iff hx hne
  have hmarked : (occursIn "not defined" (String.ofList (joinLines ls)) ∨
      occursIn "Error:" (String.ofList (joinLines ls))) ↔
        ∃ l ∈ ls, "not defined".toList <:+: l ∨ "Error:".toList <:+: l := by
    rw [hshown "not defined" (by decide) (by decide), hshown "Error:" (by decide) (by decide)]
    simp only [and_or_left, exists_or]
  rw [printedValue, String.toList_ofList, hlines]
  simp only [hmarked]

theorem notDefined_printenvCmd (name : VarName) :
    ¬ "not defined".toList <:+: (printenvCmd name.text).toList := by
  have hword : "not defined".toList = "not".toList ++ ' ' :: "defined".toList := by decide
  have hbegin : ¬ "not".toList <:+ "printenv".toList := by decide
  have hblank : ' ' ∉ "printenv".toList := by decide
  intro h
  obtain ⟨a, b, hab⟩ := h
  have hsplit : (a ++ "not".toList) ++ ' ' :: ("defined".toList ++ b) =
      "printenv".toList ++ ' ' :: name.text.toList := by
    rw [← printenvCmd_toList, ← hab, hword]
    simp only [List.append_assoc, List.cons_append]
  have hname := name.notMem (c := ' ') (.inl (by decide))
  obtain ⟨ha, -, -⟩ := (List.append_cons_inj_of_notMem hblank hname).1 hsplit.symm
  exact hbegin ⟨a, ha.symm⟩

theorem error_printenvCmd (h : "Error:".toList <:+: (printenvCmd name.text).toList)
    (value : String) :
    "Error:".toList <:+: envLine name.text value := by
  have hword : ¬ "Error:".toList <:+: "printenv".toList := by decide
  rw [printenvCmd_toList] at h
  rcases infix_append_cons (by decide) h with h | h
  · exact (hword h).elim
  · exact h.trans (List.prefix_append ..).isInfix

end

section
variable {prompt : UbootPrompt} {name : VarName} {value : VarValue} {t : List Char}

theorem UbootReply.mem_lines {r : UbootReply prompt} {name value : String} {l : List Char}
    (h : l ∈ r.lines name value) : ∃ x, (x = (printenvCmd name).toList ∨ x = envLine name value) ∧
      (l = x ∨ l = x ++ ['\r']) := by
  have htexts {x : List Char}
      (hx : x ∈ if r.echo then [(printenvCmd name).toList, envLine name value]
        else [envLine name value]) : x = (printenvCmd name).toList ∨ x = envLine name value := by
    split at hx
    · simpa using hx
    · exact .inr (List.mem_singleton.1 hx)
  rw [UbootReply.lines] at h
  split at h
  · obtain ⟨x, hx, rfl⟩ := List.mem_map.1 h
    exact ⟨x, htexts hx, .inr rfl⟩
  · exact ⟨l, htexts h, .inl rfl⟩

/-- A character that neither ends a line nor is printable is not in the answer. -/
theorem UbootReply.notMem_lines {r : UbootReply prompt} {c : Char} (hc : isPrintable c = false)
    (hcr : c ≠ '\r') {l : List Char} (hl : l ∈ r.lines name.text value.text) : c ∉ l := by
  obtain ⟨x, hx, hl⟩ := UbootReply.mem_lines hl
  have hmem : c ∉ x := by
    rcases hx with rfl | rfl
    · exact notMem_of_printable (printenvCmd_printable name) hc
    · exact notMem_of_printable (envLine_printable name value) hc
  rcases hl with rfl | rfl
  · exact hmem
  · rw [List.mem_append, List.mem_singleton, not_or]
    exact ⟨hmem, hcr⟩

theorem UbootReply.quiet_lines {r : UbootReply prompt}
    (h : VarReadable prompt.text name.text value.text) {l : List Char}
    (hl : l ∈ r.lines name.text value.text) : ¬ prompt.text.toList <:+: l := by
  obtain ⟨x, hx, hl⟩ := UbootReply.mem_lines hl
  have hquiet : ¬ prompt.text.toList <:+: x := by
    rcases hx with rfl | rfl
    · exact h.echo
    · exact h.line
  rcases hl with rfl | rfl
  · exact hquiet
  · intro hin
    have hcr : '\r' ∉ prompt.text.toList := notMem_of_printable prompt.printable (by decide)
    rcases infix_append_cons hcr hin with hin | hin
    · exact hquiet hin
    · exact prompt.ne_nil (List.infix_nil.1 hin)

theorem UbootReply.lines_pyStrip (r : UbootReply prompt) (name : VarName) (value : VarValue) :
    (r.lines name.text value.text).map pyStrip =
      if r.echo then [(printenvCmd name.text).toList, pyStrip (envLine name.text value.text)]
      else [pyStrip (envLine name.text value.text)] := by
  have hcr (l : List Char) : pyStrip (l ++ ['\r']) = pyStrip l := pyStrip_concat_space (by decide) l
  rw [UbootReply.lines]
  cases r.cr <;> cases r.echo <;>
    simp [hcr, (printenvCmd_stripped name).pyStrip]

/-- The lines that are kept of an answer read as far as the prompt: the echo, if there is one and
it does not show the prompt, and the line of the variable, if nothing hides it. -/
theorem UbootReply.cleanLines_read (r : UbootReply prompt) (name : VarName) (value : VarValue)
    (ht : '\n' ∉ t) (hprompt : prompt.text.toList <:+: t) :
    ∃ ls, (ls = [] ∨ ls = [(printenvCmd name.text).toList]) ∧
      cleanLines prompt.text ((r.lines name.text value.text).flatMap (· ++ ['\n']) ++ t) =
        ls ++ if prompt.text.toList <:+: envLine name.text value.text ∨
            isKernelLog (pyStrip (envLine name.text value.text)) = true then []
          else [pyStrip (envLine name.text value.text)] := by
  have hline : [pyStrip (envLine name.text value.text)].filter (fun l =>
      !l.isEmpty && !decide (prompt.text.toList <:+: l) && !isKernelLog l) =
        if prompt.text.toList <:+: envLine name.text value.text ∨
            isKernelLog (pyStrip (envLine name.text value.text)) = true then []
          else [pyStrip (envLine name.text value.text)] := by
    have hne : (pyStrip (envLine name.text value.text)).isEmpty = false := by
      rw [pyStrip_envLine]
      simp
    have hin : decide (prompt.text.toList <:+: pyStrip (envLine name.text value.text)) =
        decide (prompt.text.toList <:+: envLine name.text value.text) :=
      decide_eq_decide.2 ⟨fun h => h.trans (pyStrip_isInfix _), prompt.infix_pyStrip⟩
    rw [List.filter_singleton, hne, hin]
    by_cases h : prompt.text.toList <:+: envLine name.text value.text
    · simp [h]
    · cases hlog : isKernelLog (pyStrip (envLine name.text value.text)) <;> simp [h]
  have hlf {l : List Char} (hl : l ∈ r.lines name.text value.text) : '\n' ∉ l :=
    UbootReply.notMem_lines (by decide) (by decide) hl
  have hone (p : List Char → Bool) (x : List Char) : [x].filter p = [] ∨ [x].filter p = [x] := by
    rw [List.filter_singleton]
    cases p x with
    | false => exact .inl rfl
    | true => exact .inr rfl
  rw [cleanLines_lines (fun l hl => hlf hl) ht (prompt.infix_pyStrip hprompt), r.lines_pyStrip,
    ← hline]
  cases r.echo with
  | false => exact ⟨[], .inl rfl, rfl⟩
  | true =>
    refine ⟨[(printenvCmd name.text).toList].filter fun l =>
      !l.isEmpty && !decide (prompt.text.toList <:+: l) && !isKernelLog l, ?_, ?_⟩
    · exact hone _ _
    · rw [← List.filter_append]
      rfl

end

section
variable {prompt : UbootPrompt} {name : VarName} {value : VarValue} {t : List Char}
  {ls : List (List Char)}

theorem findSome_echo (hls : ls = [] ∨ ls = [(printenvCmd name.text).toList]) :
    ls.findSome? (lineValue name.text) = none := by
  rcases hls with rfl | rfl
  · rfl
  · rw [List.findSome?_cons, lineValue_printenvCmd]
    rfl

theorem kept_printable (hls : ls = [] ∨ ls = [(printenvCmd name.text).toList]) (value : VarValue) :
    ∀ l ∈ ls ++ [pyStrip (envLine name.text value.text)],
      l ≠ [] ∧ ∀ c ∈ l, isPrintable c = true := by
  intro l hl
  rcases List.mem_append.1 hl with hl | hl
  · rcases hls with rfl | rfl
    · cases hl
    · rw [List.mem_singleton.1 hl]
      refine ⟨?_, printenvCmd_printable name⟩
      rw [printenvCmd_toList]
      simp
  · rw [List.mem_singleton.1 hl]
    refine ⟨?_, fun c hc => envLine_printable name value c ((pyStrip_isInfix _).subset hc)⟩
    rw [pyStrip_envLine]
    simp

theorem UbootReply.printedValue_legible (r : UbootReply prompt)
    (h : Legible prompt.text name.text value.text) (ht : '\n' ∉ t)
    (hprompt : prompt.text.toList <:+: t) :
    printedValue name.text (String.ofList (cleanStdout prompt.text
      ((r.lines name.text value.text).flatMap (· ++ ['\n']) ++ t))) =
        some (stripText value.text) := by
  obtain ⟨ls, hls, hclean⟩ := r.cleanLines_read name value ht hprompt
  have hseen : ¬ (prompt.text.toList <:+: envLine name.text value.text ∨
      isKernelLog (pyStrip (envLine name.text value.text)) = true) := by
    rw [h.log]
    simp [h.line]
  have hunmarked : ¬ ∃ l ∈ ls ++ [pyStrip (envLine name.text value.text)],
      "not defined".toList <:+: l ∨ "Error:".toList <:+: l := by
    intro hmarked
    obtain ⟨l, hl, hmarked⟩ := hmarked
    rcases List.mem_append.1 hl with hl | hl
    · rcases hls with rfl | rfl
      · cases hl
      · rw [List.mem_singleton.1 hl] at hmarked
        rcases hmarked with hmarked | hmarked
        · exact notDefined_printenvCmd name hmarked
        · exact h.error (error_printenvCmd hmarked value.text)
    · rw [List.mem_singleton.1 hl] at hmarked
      rcases hmarked with hmarked | hmarked
      · exact h.undefined (hmarked.trans (pyStrip_isInfix _))
      · exact h.error (hmarked.trans (pyStrip_isInfix _))
  rw [cleanStdout_eq, hclean, if_neg hseen, printedValue_joinLines (kept_printable hls value),
    if_neg hunmarked, List.findSome?_append, findSome_echo hls, List.findSome?_singleton,
    lineValue_envLine]
  rfl

theorem UbootReply.printedValue_illegible (r : UbootReply prompt)
    (h : ¬ Legible prompt.text name.text value.text) (ht : '\n' ∉ t)
    (hprompt : prompt.text.toList <:+: t) :
    printedValue name.text (String.ofList (cleanStdout prompt.text
      ((r.lines name.text value.text).flatMap (· ++ ['\n']) ++ t))) = none := by
  obtain ⟨ls, hls, hclean⟩ := r.cleanLines_read name value ht hprompt
  rw [cleanStdout_eq, hclean]
  by_cases hhidden : prompt.text.toList <:+: envLine name.text value.text ∨
      isKernelLog (pyStrip (envLine name.text value.text)) = true
  · have hkept : ∀ l ∈ ls, l ≠ [] ∧ ∀ c ∈ l, isPrintable c = true := by
      intro l hl
      exact kept_printable hls value l (List.mem_append_left _ hl)
    rw [if_pos hhidden, List.append_nil, printedValue_joinLines hkept, findSome_echo hls, ite_self]
  · have hmarked : ∃ l ∈ ls ++ [pyStrip (envLine name.text value.text)],
        "not defined".toList <:+: l ∨ "Error:".toList <:+: l := by
      refine ⟨_, List.mem_append_right _ (List.mem_singleton_self _), ?_⟩
      by_contra hclear
      rw [not_or] at hclear hhidden
      apply h
      constructor
      · exact hhidden.1
      · exact Bool.eq_false_iff.2 hhidden.2
      · intro hin
        exact hclear.1 ((stripped_of_pyStrip (by decide)).infix_pyStrip hin)
      · intro hin
        exact hclear.2 ((stripped_of_pyStrip (by decide)).infix_pyStrip hin)
    rw [if_neg hhidden, printedValue_joinLines (kept_printable hls value), if_pos hmarked]

end

section
variable {prompt : UbootPrompt} {name : VarName} {value : VarValue}

theorem promptResult_uboot (prompt : UbootPrompt) (token : String) (raw : List Char) :
    (promptResult prompt.text token raw).stdout =
      String.ofList (cleanStdout prompt.text raw) := by
  rw [promptResult, if_pos prompt.uboot]

theorem UbootPrompt.bytes_ne_nil (prompt : UbootPrompt) : encodeUtf8 prompt.text.toList ≠ [] := by
  intro hnil
  have hread := decodeReplace_encode prompt.text.toList
  rw [hnil] at hread
  exact prompt.ne_nil hread.symm

theorem infix_encodeUtf8 {x l : List Char} (h : x <:+: l) : encodeUtf8 x <:+: encodeUtf8 l := by
  obtain ⟨a, b, rfl⟩ := h
  rw [encodeUtf8_append, encodeUtf8_append]
  exact List.infix_append ..

theorem UbootReply.stream_eq (r : UbootReply prompt) (name value : String) :
    r.stream name value = ((r.lines name value).map encodeUtf8).flatMap (· ++ [0x0A]) ++
      encodeUtf8 r.promptLine := by
  rw [UbootReply.stream, encodeUtf8_append, encodeUtf8_lines]

theorem UbootReply.shows (r : UbootReply prompt) (name value : String) :
    encodeUtf8 prompt.text.toList <:+: r.stream name value := by
  rw [r.stream_eq]
  exact (infix_encodeUtf8 r.shown).trans (List.suffix_append ..).isInfix

theorem UbootReply.escape_notMem (r : UbootReply prompt) (name : VarName) (value : VarValue) :
    escByte ∉ r.stream name.text value.text := by
  apply notMem_encodeUtf8 (c := Char.ofNat 0x1B) (by decide)
  rw [List.mem_append, not_or]
  constructor
  · intro hmem
    obtain ⟨l, hl, hmem⟩ := List.mem_flatMap.1 hmem
    rcases List.mem_append.1 hmem with hmem | hmem
    · exact UbootReply.notMem_lines (by decide) (by decide) hl hmem
    · exact absurd hmem (by decide)
  · exact notMem_of_printable r.printable (by decide)

theorem UbootReply.newline_notMem (r : UbootReply prompt) {p : Bytes}
    (hp : p <+: encodeUtf8 r.promptLine) : '\n' ∉ decodeReplace p := by
  obtain ⟨u, hu⟩ := hp
  obtain ⟨l, e, hle, he, hl⟩ := decodeFrom_beginning none p
  have hread : l <+: r.promptLine := by
    have hl := hl u
    rwa [hu, ← decodeReplace, decodeReplace_encode] at hl
  rw [decodeReplace, hle, List.mem_append, not_or]
  constructor
  · intro hmem
    exact notMem_of_printable r.printable (by decide) (hread.subset hmem)
  · rcases he with rfl | rfl <;> decide

theorem UbootReply.printedValue_readable (r : UbootReply prompt) (name : VarName)
    (h : VarReadable prompt.text name.text value.text) {reply : Reply}
    (hheard : reply.heard.flatten = r.stream name.text value.text) :
    printedValue name.text (safeRunResult prompt.text "" reply).stdout =
      some (stripText value.text) := by
  have hnone : ¬ encodeUtf8 prompt.text.toList <:+: stripAnsi [] := by
    intro hin
    exact prompt.bytes_ne_nil (List.infix_nil.1 hin)
  have hshown : encodeUtf8 prompt.text.toList <:+: stripAnsi ([] ++ reply.heard.flatten) := by
    rw [List.nil_append, hheard, stripAnsi_eq_self (r.escape_notMem name value)]
    exact r.shows name.text value.text
  obtain ⟨cs, hcs, hin, hscan⟩ := expectScan_found hnone hshown
  have hq : cs.flatten <+: r.stream name.text value.text := by
    obtain ⟨cs', hcs⟩ := hcs
    rw [← hheard, ← hcs, List.flatten_append]
    exact List.prefix_append ..
  have hplain : stripAnsi cs.flatten = cs.flatten :=
    stripAnsi_eq_self fun hmem => r.escape_notMem name value (hq.subset hmem)
  rw [List.nil_append, hplain] at hin hscan
  rw [r.stream_eq] at hq
  have hlf : (0x0A : UInt8) ∉ encodeUtf8 prompt.text.toList :=
    notMem_encodeUtf8 (c := '\n') (by decide) (notMem_of_printable prompt.printable (by decide))
  have hquiet : ∀ l ∈ (r.lines name.text value.text).map encodeUtf8,
      ¬ encodeUtf8 prompt.text.toList <:+: l := by
    intro l hl hin
    obtain ⟨x, hx, rfl⟩ := List.mem_map.1 hl
    have hread := infix_decodeReplace hin
    rw [decodeReplace_encode] at hread
    exact UbootReply.quiet_lines h hx hread
  -- all the lines are there, and the prompt is behind them
  obtain ⟨p, hp⟩ := lines_before hlf prompt.bytes_ne_nil hquiet hq hin
  rw [← hp] at hq hin hscan
  have hprompt : encodeUtf8 prompt.text.toList <:+: p := by
    rcases infix_lines hlf hin with ⟨l, hl, hin⟩ | hin
    · exact (hquiet l hl hin).elim
    · exact hin
  have hlast := r.newline_notMem ((List.prefix_append_right_inj _).1 hq)
  rw [safeRunResult, hscan, ← encodeUtf8_lines]
  dsimp only
  rw [promptResult_uboot, decodeReplace_encode_append]
  exact r.printedValue_legible h.toLegible hlast (infix_decodeReplace hprompt)

end

end MesCore
