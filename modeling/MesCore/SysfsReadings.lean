import MesCore.Occurrence
import MesCore.SysfsPoller

namespace MesCore
set_option autoImplicit true

open Shell (Text Files OrdinaryWord literal)

namespace BackgroundSysfsPoller

def isReadingChar (c : Char) : Bool := !isPySpace c && !(['*', '?', '['].contains c)

/-- A single-line reading of a single word that the shell leaves as it is. -/
structure Reading where
  text : Text
  nonempty : text ≠ []
  word : text.all isReadingChar = true
  no_bars : ¬ ['|', '|'] <:+: text
  echoed : echoVaries [text] = false

def Reading.content (r : Reading) : Text := r.text ++ ['\n']

/-- Every file but the log holds a reading, and every target can be read. -/
structure Readable (p : BackgroundSysfsPoller) (readings : Text → Option Reading) (files : Files) :
    Prop where
  files : ∀ path, path ≠ p.logFile → files path = (readings path).map Reading.content
  targets : ∀ path ∈ p.paths, path ≠ p.logFile ∧ (readings path).isSome = true
  plain : ∀ path ∈ p.paths, OrdinaryWord path

section
variable {str : ℚ → Text} {p : BackgroundSysfsPoller} {readings : Text → Option Reading}
  {files : Files} {otherEcho : List Text → Text}

theorem Reading.not_space (r : Reading) : ∀ c ∈ r.text, isPySpace c = false := by
  intro c hc
  have h := List.all_eq_true.1 r.word c hc
  rw [isReadingChar, Bool.and_eq_true, Bool.not_eq_true'] at h
  exact h.1

theorem Reading.not_ifs (r : Reading) : ∀ c ∈ r.text, Shell.isIfs c = false := by
  intro c hc
  have hspace := r.not_space c hc
  by_contra h
  rw [Bool.not_eq_false, Shell.isIfs] at h
  simp only [Bool.or_eq_true, decide_eq_true_eq] at h
  rcases h with (rfl | rfl) | rfl <;> exact absurd hspace (by decide)

def operandReadings (str : ℚ → Text) (p : BackgroundSysfsPoller)
    (readings : Text → Option Reading) :
    List Reading :=
  (catOperands (str p.readTimeout) p.paths).filterMap readings

theorem catArgv_ne_logFile (hstr : FloatText str) {paths : List Text}
    (hps : ∀ path ∈ paths, path ≠ p.logFile) (q : ℚ) :
    ∀ a ∈ catArgv (str q) paths, a ≠ p.logFile := by
  have hslash : ∀ a : Text, a.head? ≠ some '/' → a ≠ p.logFile := by
    rintro a ha rfl
    exact ha rfl
  have htimeout : str q ≠ p.logFile := by
    refine hslash _ fun h => ?_
    have hmem : '/' ∈ str q := List.mem_of_head? h
    have := hstr.chars q '/' hmem
    revert this
    decide
  induction paths with
  | nil => intro a ha; cases ha
  | cons path paths ih =>
    rw [List.forall_mem_cons] at hps
    intro a ha
    have hrest := ih hps.2
    rw [catArgv] at ha
    split at ha
    · simp only [List.mem_cons, List.not_mem_nil, or_false] at ha
      rcases ha with rfl | rfl | rfl | rfl
      · exact hslash _ (by decide)
      · exact htimeout
      · exact hslash _ (by decide)
      · exact hps.1
    · simp only [List.mem_cons] at ha
      rcases ha with rfl | rfl | rfl | rfl | rfl | rfl | ha
      · exact hslash _ (by decide)
      · exact htimeout
      · exact hslash _ (by decide)
      · exact hps.1
      · exact hslash _ (by decide)
      · exact hslash _ (by decide)
      · exact hrest a ha

theorem catOperands_mem {timeout a : Text} {paths : List Text}
    (ha : a ∈ catOperands timeout paths) :
    a ∈ catArgv timeout paths := by
  cases paths with
  | nil => exact ha
  | cons path paths =>
    rw [catOperands] at ha
    rw [catArgv]
    exact List.mem_cons_of_mem _ (List.mem_cons_of_mem _ (List.mem_cons_of_mem _ ha))

/-- What the shared `cat` writes is the readings of its operands, a line each. -/
theorem cat_output (hstr : FloatText str) (h : Readable p readings files) :
    ((catOperands (str p.readTimeout) p.paths).flatMap fun path => (files path).getD []) =
      ((operandReadings str p readings).map Reading.text).flatMap (· ++ ['\n']) := by
  have hlog : ∀ a ∈ catOperands (str p.readTimeout) p.paths, a ≠ p.logFile := fun a ha =>
    catArgv_ne_logFile hstr (fun path hpath => (h.targets path hpath).1) _ a (catOperands_mem ha)
  rw [operandReadings]
  generalize catOperands (str p.readTimeout) p.paths = operands at hlog
  induction operands with
  | nil => rfl
  | cons a operands ih =>
    rw [List.forall_mem_cons] at hlog
    rw [List.flatMap_cons, ih hlog.2, h.files a hlog.1]
    cases hread : readings a with
    | none => simp [hread]
    | some r => simp [hread, Reading.content]

theorem operandReadings_head (str : ℚ → Text) (hne : p.paths ≠ []) (h : Readable p readings files) :
    ∃ r rs, operandReadings str p readings = r :: rs := by
  obtain ⟨path, paths, hpaths⟩ := List.exists_cons_of_ne_nil hne
  have hread := (h.targets path (by rw [hpaths]; exact List.mem_cons_self)).2
  obtain ⟨r, hr⟩ := Option.isSome_iff_exists.1 hread
  rw [operandReadings, hpaths, catOperands, List.filterMap_cons, hr]
  exact ⟨r, _, rfl⟩

theorem echoVaries_readings (r : Reading) (rs : List Reading) :
    echoVaries ((r :: rs).map Reading.text) = false := by
  have hparts (s : Reading) : isEchoOption s.text = false ∧ s.text.contains '\\' = false := by
    have h := s.echoed
    rwa [echoVaries, Bool.or_eq_false_iff, List.head?_cons, Option.any_some, List.any_cons,
      List.any_nil, Bool.or_false] at h
  rw [echoVaries, Bool.or_eq_false_iff, List.map_cons, List.head?_cons, Option.any_some]
  refine ⟨(hparts r).1, ?_⟩
  rw [← List.map_cons, List.any_map, List.any_eq_false]
  intro s _
  rw [Function.comp_apply, (hparts s).2]
  exact Bool.false_ne_true

/-- The line of one iteration: the readings of the operands, a blank between two. -/
def iterationLine (str : ℚ → Text) (p : BackgroundSysfsPoller) (readings : Text → Option Reading) :
    Text :=
  [' '].intercalate ((operandReadings str p readings).map Reading.text)

theorem commandOutput_echo (otherEcho : List Text → Text) (files : Files) (args : List Text) :
    commandOutput otherEcho files ("echo".toList :: args) = echo otherEcho args := by
  cases args <;> rw [commandOutput, if_pos rfl]

theorem runSimple_echo (hstr : FloatText str) (hne : p.paths ≠ []) (h : Readable p readings files) :
    Shell.runSimple (commandOutput otherEcho) (Shell.output (commandOutput otherEcho) 1) ([], files)
      ⟨[literal "echo", [.command (catCommands (str p.readTimeout) p.paths)]],
        [⟨.dgreat 1, p.logFile.map .plain⟩]⟩ =
      some ([], Shell.setFile (Shell.setFile files p.logFile ((files p.logFile).getD [])) p.logFile
        ((files p.logFile).getD [] ++ (iterationLine str p readings ++ ['\n']))) := by
  have hlogNull : p.logFile ≠ Shell.devNull := by
    unfold logFile Shell.devNull
    simp
  have hwords : Shell.expandWords (Shell.output (commandOutput otherEcho) 1 files)
      [literal "echo", [.command (catCommands (str p.readTimeout) p.paths)]] =
        some ("echo".toList :: (operandReadings str p readings).map Reading.text) := by
    have hcommand := Shell.expandWord_command
      (output_catCommands otherEcho files (hstr.plain p.readTimeout) h.plain hne)
    rw [cat_output hstr h, Shell.splitFields_lines (by simp [Reading.nonempty])
      (by simpa using fun r _ => r.not_ifs)] at hcommand
    have hname :
        Shell.expandWord (Shell.output (commandOutput otherEcho) 1 files) (literal "echo") =
        some ["echo".toList] := Shell.expandWord_plain (by decide)
    have hwords := Shell.expandWords_cons hname
      (Shell.expandWords_cons hcommand Shell.expandWords_nil)
    rwa [List.append_nil] at hwords
  have hredirect : [⟨.dgreat 1, p.logFile.map .plain⟩].mapM
      (Shell.expandRedirect (Shell.output (commandOutput otherEcho) 1 files)) =
        some [(.dgreat 1, p.logFile)] := by
    simp [Shell.expandRedirect, Shell.expandWord_plain (plain_logFile p).nonempty]
  have hecho (fs : Files) : commandOutput otherEcho fs
      ("echo".toList :: (operandReadings str p readings).map Reading.text) =
        iterationLine str p readings ++ ['\n'] := by
    obtain ⟨r, rs, hrs⟩ := operandReadings_head str hne h
    rw [commandOutput_echo, echo, iterationLine, hrs, echoVaries_readings,
      if_neg Bool.false_ne_true]
  rw [Shell.runSimple, hwords]
  simp only [Option.bind_eq_bind, Option.bind_some, hredirect, List.foldl_cons, List.foldl_nil,
    Shell.openRedirect, if_neg hlogNull, if_true, Shell.write, hecho, Shell.setFile,
    Option.getD_some]
  rfl

theorem runSimple_sleep (sub : Files → Text → Option Text) (hstr : FloatText str) (q : ℚ)
    (st : Text × Files) : Shell.runSimple (commandOutput otherEcho) sub st
      ⟨[literal "sleep", (str q).map .plain], []⟩ = some st := by
  have hwords : Shell.expandWords (sub st.2) [literal "sleep", (str q).map .plain] =
      some ["sleep".toList, str q] :=
    Shell.expandWords_cons (Shell.expandWord_plain (by decide)) <|
      Shell.expandWords_cons (Shell.expandWord_plain (hstr.nonempty q)) Shell.expandWords_nil
  have hout (fs : Files) : commandOutput otherEcho fs ["sleep".toList, str q] = [] := by
    rw [commandOutput, if_neg (by decide), if_neg (by decide), if_neg (by decide)]
  rw [Shell.runSimple, hwords]
  simp only [Option.bind_eq_bind, Option.bind_some, List.mapM_nil, Option.pure_def, List.foldl_nil,
    hout, Shell.write, List.append_nil]

/-- One iteration appends one line, and the readings of the shared `cat` stand in it. -/
theorem iteration_log (otherEcho : List Text → Text) (hstr : FloatText str) (hne : p.paths ≠ [])
    (h : Readable p readings files) :
    ∃ files', iteration otherEcho str p files = some files' ∧
      files' p.logFile =
        some ((files p.logFile).getD [] ++ iterationLine str p readings ++ ['\n']) := by
  obtain ⟨files', hfiles', hlog⟩ : ∃ files', Shell.runSimple (commandOutput otherEcho)
      (Shell.output (commandOutput otherEcho) 1) ([], files)
      ⟨[literal "echo", [.command (catCommands (str p.readTimeout) p.paths)]],
        [⟨.dgreat 1, p.logFile.map .plain⟩]⟩ = some ([], files') ∧
      files' p.logFile =
        some ((files p.logFile).getD [] ++ iterationLine str p readings ++ ['\n']) :=
    ⟨_, runSimple_echo hstr hne h, by simp [Shell.setFile]⟩
  have hbody : Shell.runList (commandOutput otherEcho) (Shell.output (commandOutput otherEcho) 1)
      ([], files) (loopBody str p) = some ([], files') := by
    rw [Shell.runList, loopBody, List.foldlM_cons, hfiles']
    exact congrArg (· >>= pure) (runSimple_sleep _ hstr _ _)
  refine ⟨files', ?_, hlog⟩
  rw [iteration, deployedScript_eq hstr h.plain]
  simp only [Option.bind_eq_bind, Option.bind_some, parse_script hstr h.plain, hbody,
    Option.pure_def]

theorem newline_not_mem_line (str : ℚ → Text) (p : BackgroundSysfsPoller)
    (readings : Text → Option Reading) : '\n' ∉ iterationLine str p readings := by
  have hone (r : Reading) : '\n' ∉ r.text := fun h => absurd (r.not_space _ h) (by decide)
  rw [iterationLine]
  induction operandReadings str p readings with
  | nil => simp
  | cons r rs ih =>
    cases rs with
    | nil => simpa using hone r
    | cons s rs =>
      rw [List.map_cons, List.map_cons, List.intercalate_cons_cons]
      rw [List.map_cons] at ih
      simp [hone r, ih]

theorem splitBars_eq {t : Text} (ht : ¬ ['|', '|'] <:+: t) (cur : Text) :
    splitBars cur t = [cur ++ t] := by
  induction t generalizing cur with
  | nil => rw [splitBars, List.append_nil]
  | cons c t ih =>
    have hrest : ¬ ['|', '|'] <:+: t := fun h => ht (h.trans (List.suffix_cons c t).isInfix)
    rw [splitBars, ih hrest, List.append_assoc, List.singleton_append]
    rintro cs rfl rfl
    exact ht (List.prefix_append ['|', '|'] cs).isInfix

theorem no_bars_unwords {ws : List Text} (h : ∀ w ∈ ws, ¬ ['|', '|'] <:+: w) :
    ¬ ['|', '|'] <:+: [' '].intercalate ws := by
  induction ws with
  | nil => simp
  | cons w ws ih =>
    rw [List.forall_mem_cons] at h
    cases ws with
    | nil => simpa using h.1
    | cons v ws =>
      rw [List.intercalate_cons_cons]
      intro hbars
      rw [List.append_assoc, List.singleton_append] at hbars
      rcases infix_append_cons (by decide) hbars with hleft | hright
      · exact h.1 hleft
      · exact ih h.2 hright

theorem no_bars_line (str : ℚ → Text) (p : BackgroundSysfsPoller)
    (readings : Text → Option Reading) : ¬ ['|', '|'] <:+: iterationLine str p readings := by
  refine no_bars_unwords fun w hw => ?_
  obtain ⟨r, -, rfl⟩ := List.mem_map.1 hw
  exact r.no_bars

theorem Reading.strip (r : Reading) : pyStrip r.text = r.text := pyStrip_eq_self r.not_space

/-- The line is one field, so with any other number of keys it is skipped. -/
theorem addLine_iterationLine {keys : List Text} (hkeys : keys.length ≠ 1)
    (samples : Text → List Text) :
    addLine keys samples (iterationLine str p readings) = samples := by
  rw [addLine, splitBars_eq (no_bars_line str p readings)]
  exact if_pos (Ne.symm hkeys)

/-- Every target gets the reading of its path as its one sample. -/
def Attributed (p : BackgroundSysfsPoller) (readings : Text → Option Reading) (line : Text) :
    Prop :=
  ∀ kt ∈ p.cfg.targets, ∃ r, readings kt.2.path = some r ∧ dataMatrix p.keys [line] kt.1 = [r.text]

theorem attributed_iff (str : ℚ → Text) (hne : p.cfg.targets ≠ []) (h : Readable p readings files) :
    Attributed p readings (iterationLine str p readings) ↔ p.cfg.targets.length = 1 := by
  have hkeys : p.keys.length = p.cfg.targets.length := List.length_map _
  constructor
  · intro hall
    by_contra hlen
    obtain ⟨kt, rest, hcons⟩ := List.exists_cons_of_ne_nil hne
    obtain ⟨r, -, hr⟩ := hall kt (by rw [hcons]; exact List.mem_cons_self)
    have hskip : dataMatrix p.keys [iterationLine str p readings] = fun _ => [] := by
      rw [dataMatrix, List.foldl_cons, List.foldl_nil, addLine_iterationLine (hkeys ▸ hlen)]
    rw [hskip] at hr
    cases hr
  · intro hlen kt hkt
    obtain ⟨kt', hone⟩ := List.length_eq_one_iff.1 hlen
    rw [hone, List.mem_singleton] at hkt
    subst hkt
    have hpaths : p.paths = [kt.2.path] := by rw [paths, hone]; rfl
    have hread := (h.targets kt.2.path (by rw [hpaths]; exact List.mem_cons_self)).2
    obtain ⟨r, hr⟩ := Option.isSome_iff_exists.1 hread
    have hline : iterationLine str p readings = r.text := by
      rw [iterationLine, operandReadings, hpaths, catOperands, if_pos rfl, List.filterMap_cons, hr]
      exact List.intercalate_singleton
    refine ⟨r, hr, ?_⟩
    have hk : p.keys = [kt.1] := by rw [keys, hone]; rfl
    rw [hline, hk, dataMatrix, List.foldl_cons, List.foldl_nil, addLine, splitBars_eq r.no_bars]
    simp [r.strip, r.nonempty]

/-- The line an iteration appends is parsed back target by target exactly if there is one target. -/
theorem iteration_attributed_iff (hstr : FloatText str) (hne : p.cfg.targets ≠ [])
    (h : Readable p readings files) :
    (∃ files' line, iteration otherEcho str p files = some files' ∧ '\n' ∉ line ∧
      files' p.logFile = some ((files p.logFile).getD [] ++ line ++ ['\n']) ∧
      Attributed p readings line) ↔ p.cfg.targets.length = 1 := by
  have hpaths : p.paths ≠ [] := by
    rw [paths, ne_eq, List.map_eq_nil_iff]
    exact hne
  obtain ⟨files', hrun, hlog⟩ := iteration_log otherEcho hstr hpaths h
  rw [← attributed_iff str hne h]
  constructor
  · rintro ⟨files'', line, hrun', -, hlog', hattr⟩
    cases hrun.symm.trans hrun'
    have hline := hlog.symm.trans hlog'
    rw [Option.some.injEq, List.append_left_inj, List.append_right_inj] at hline
    rwa [hline]
  · exact fun hattr => ⟨files', _, hrun, newline_not_mem_line str p readings, hlog, hattr⟩

end

def cpuTemp : Text × SysfsTargetConfig :=
  ("cpu_temp".toList, ⟨"/sys/class/thermal/thermal_zone0/temp".toList, 1 / 1000, "C".toList⟩)

def cpuFreq : Text × SysfsTargetConfig :=
  ("cpu_freq".toList, ⟨"/sys/devices/system/cpu/cpu0/cpufreq/scaling_cur_freq".toList, 1 / 1000,
    "MHz".toList⟩)

def thermalPoller : BackgroundSysfsPoller := ⟨⟨1, [cpuTemp], by decide⟩, 7⟩

def cpuPoller : BackgroundSysfsPoller := ⟨⟨1, [cpuTemp, cpuFreq], by decide⟩, 7⟩

def sampleStr (q : ℚ) : Text := if q = 1 then "1.0".toList else "0.5".toList

def sampleReadings (path : Text) : Option Reading :=
  if path = cpuTemp.2.path then
    some ⟨"45000".toList, by decide, by decide, by decide, by decide⟩
  else if path = cpuFreq.2.path then
    some ⟨"1200000".toList, by decide, by decide, by decide, by decide⟩
  else none

def sampleFiles (path : Text) : Option Text :=
  if path = cpuPoller.logFile then none else (sampleReadings path).map Reading.content

theorem sampleStr_text : FloatText sampleStr := by
  constructor
  · intro q
    rw [sampleStr]
    split <;> decide
  · have hall (t : Text)
        (ht : t.all (fun c => c.isDigit || ['.', '-', '+', 'e'].contains c) = true) :
        ∀ c ∈ t, c.isDigit = true ∨ c ∈ ['.', '-', '+', 'e'] := by
      intro c hc
      have h := List.all_eq_true.1 ht c hc
      rwa [Bool.or_eq_true, List.contains_iff_mem] at h
    intro q
    rw [sampleStr]
    split <;> exact hall _ (by decide)

theorem sysPath_ne_logFile (p : BackgroundSysfsPoller) {path : Text} (h : path[1]? = some 's') :
    path ≠ p.logFile := by
  rintro rfl
  unfold logFile at h
  simp at h

theorem readable_sample {p : BackgroundSysfsPoller} (hlog : p.logFile = cpuPoller.logFile)
    (hpaths : ∀ path ∈ p.paths, path = cpuTemp.2.path ∨ path = cpuFreq.2.path) :
    Readable p sampleReadings sampleFiles where
  files path hne := if_neg (hlog ▸ hne)
  targets path hpath := by
    rcases hpaths path hpath with rfl | rfl
    · exact ⟨sysPath_ne_logFile p (by decide), rfl⟩
    · exact ⟨sysPath_ne_logFile p (by decide), rfl⟩
  plain path hpath := by
    rcases hpaths path hpath with rfl | rfl
    · exact ⟨by decide, by decide⟩
    · exact ⟨by decide, by decide⟩

theorem readable_thermal : Readable thermalPoller sampleReadings sampleFiles :=
  readable_sample rfl fun _ hpath => .inl (List.mem_singleton.1 hpath)

theorem readable_cpu : Readable cpuPoller sampleReadings sampleFiles :=
  readable_sample rfl fun _ hpath => by simpa [paths, cpuPoller] using hpath

theorem iteration_attributed_thermal :
    ∃ files' line, iteration (fun _ => []) sampleStr thermalPoller sampleFiles = some files' ∧
      '\n' ∉ line ∧ files' thermalPoller.logFile =
        some ((sampleFiles thermalPoller.logFile).getD [] ++ line ++ ['\n']) ∧
      Attributed thermalPoller sampleReadings line :=
  (iteration_attributed_iff sampleStr_text (List.cons_ne_nil _ _) readable_thermal).2 rfl

/-- With two targets the line holds both readings, but nothing that tells them apart. -/
theorem iteration_two_targets :
    ∃ files', iteration (fun _ => []) sampleStr cpuPoller sampleFiles = some files' ∧
      files' cpuPoller.logFile = some "45000 1200000\n".toList ∧
      ¬ Attributed cpuPoller sampleReadings "45000 1200000".toList := by
  have hline : iterationLine sampleStr cpuPoller sampleReadings = "45000 1200000".toList := by
    have htimeout : sampleStr cpuPoller.readTimeout = "1.0".toList ∨
        sampleStr cpuPoller.readTimeout = "0.5".toList := by
      rw [sampleStr]
      split
      · exact .inl rfl
      · exact .inr rfl
    rw [iterationLine, operandReadings]
    rcases htimeout with h | h
    · rw [h]
      decide
    · rw [h]
      decide
  have hfresh : sampleFiles cpuPoller.logFile = none := if_pos rfl
  have hpaths : cpuPoller.paths ≠ [] := List.cons_ne_nil _ _
  obtain ⟨files', hrun, hlog⟩ := iteration_log (fun _ => []) sampleStr_text hpaths
    readable_cpu
  rw [hline, hfresh] at hlog
  refine ⟨files', hrun, hlog.trans (by decide), ?_⟩
  rw [← hline, attributed_iff _ (List.cons_ne_nil _ _) readable_cpu]
  decide

end BackgroundSysfsPoller

end MesCore
