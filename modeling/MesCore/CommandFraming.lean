import MesCore.Decoding
import MesCore.SerialClient

namespace MesCore
set_option autoImplicit true

/-- `uuid.uuid4().hex[:8]`. -/
def IsExecToken (token : String) : Prop :=
  token.toList.length = 8 ∧ token.toList.all ("0123456789abcdef".toList.contains ·) = true

instance (token : String) : Decidable (IsExecToken token) :=
  inferInstanceAs (Decidable (_ ∧ _))

/-- What a terminal makes of line ends when it maps them. -/
def onlcr (s : List Char) : List Char := s.flatMap fun c => if c = '\n' then ['\r', '\n'] else [c]

/-- A line with this text in the raw bytes of a terminal that maps its line ends or does not,
without the newline behind it. -/
def IsLine (raw : Bytes) (text : List Char) : Prop :=
  sanitise raw = text ∨ sanitise raw = onlcr text ++ ['\r']

instance (raw : Bytes) (text : List Char) : Decidable (IsLine raw text) :=
  inferInstanceAs (Decidable (_ ∨ _))

def exitLine (token : String) (n : Nat) : String := magicMarker token ++ ":" ++ toString n

/-- What the console sends for one injected command, as received and without the newlines behind
its lines: the echo, if the terminal echoes, the empty line and the marker line of the first
`printf`, the output, the marker line of the second, and the prompt. -/
structure ShellReply where
  echo : Option Bytes
  blank : Bytes
  start : Bytes
  out : Bytes
  exit : Bytes
  prompt : Bytes

def ShellReply.head (r : ShellReply) : List Bytes := r.echo.toList ++ [r.blank, r.start]

def ShellReply.lines (r : ShellReply) : List Bytes := r.head ++ [r.out, r.exit]

def ShellReply.stream (r : ShellReply) : Bytes := r.lines.flatMap (· ++ [0x0A]) ++ r.prompt

/-- The reply to a command that exits with `n`, where neither the echo nor the output shows the
prompt and the output does not show the token. -/
structure ShellReply.Answers (r : ShellReply) (prompt token cmd : String) (n : Nat) : Prop where
  echo : ∀ e ∈ r.echo, IsLine e (injectedCmd prompt token cmd).toList
  blank : IsLine r.blank []
  start : IsLine r.start (startMarker token).toList
  exit : IsLine r.exit (exitLine token n).toList
  shown : encodeUtf8 prompt.toList <:+: stripAnsi r.prompt
  echoQuiet : ∀ e ∈ r.echo, ¬ prompt.toList <:+: sanitise e
  outQuiet : ¬ prompt.toList <:+: sanitise r.out
  outToken : ¬ token.toList <:+: sanitise r.out

instance (r : ShellReply) (prompt token cmd : String) (n : Nat) :
    Decidable (r.Answers prompt token cmd n) :=
  decidable_of_iff ((∀ e ∈ r.echo, IsLine e (injectedCmd prompt token cmd).toList) ∧
    IsLine r.blank [] ∧ IsLine r.start (startMarker token).toList ∧
    IsLine r.exit (exitLine token n).toList ∧ encodeUtf8 prompt.toList <:+: stripAnsi r.prompt ∧
    (∀ e ∈ r.echo, ¬ prompt.toList <:+: sanitise e) ∧
    ¬ prompt.toList <:+: sanitise r.out ∧ ¬ token.toList <:+: sanitise r.out)
    ⟨fun ⟨echo, blank, start, exit, shown, echoQuiet, outQuiet, outToken⟩ =>
      ⟨echo, blank, start, exit, shown, echoQuiet, outQuiet, outToken⟩,
    fun h => ⟨h.echo, h.blank, h.start, h.exit, h.shown, h.echoQuiet, h.outQuiet, h.outToken⟩⟩

/-- A prompt of one line that neither a marker line nor the beginning of an escape sequence can
show, and a token that is not in the echoed command and not in the prompt. -/
structure ShellReply.Apart (r : ShellReply) (prompt token cmd : String) (n : Nat) : Prop where
  oneLine : '\n' ∉ prompt.toList ∧ '\r' ∉ prompt.toList
  plain : Plain prompt.toList
  start : ¬ occursIn prompt (startMarker token)
  exit : ¬ occursIn prompt (exitLine token n)
  command : r.echo ≠ none → ¬ occursIn token cmd
  shown : ¬ token.toList <:+: sanitise r.prompt

/-- The stripped lines of an output that are neither blank nor begin with a kernel timestamp. -/
def outputLines (out : List Char) : List (List Char) :=
  ((splitNewline out).map pyStrip).filter fun l => !l.isEmpty && !isKernelLog l

/-- The result of a command that exits with `n` after this output. -/
def commandResult (n : Nat) (out : List Char) : CommandResult where
  stdout := String.ofList (joinLines (outputLines out))
  exited := n
  ok := n = 0

theorem expectScan_found {pattern raw : Bytes} {chunks : List Bytes}
    (hraw : ¬ pattern <:+: stripAnsi raw) (h : pattern <:+: stripAnsi (raw ++ chunks.flatten)) :
    ∃ cs, cs <+: chunks ∧ pattern <:+: stripAnsi (raw ++ cs.flatten) ∧
      expectScan pattern raw chunks = some (stripAnsi (raw ++ cs.flatten)) := by
  induction chunks generalizing raw with
  | nil =>
    rw [List.flatten_nil, List.append_nil] at h
    exact (hraw h).elim
  | cons c chunks ih =>
    rw [expectScan]
    by_cases hc : pattern <:+: stripAnsi (raw ++ c)
    · have hcs : raw ++ [c].flatten = raw ++ c := by rw [List.flatten_singleton]
      refine ⟨[c], List.cons_prefix_cons.2 ⟨rfl, List.nil_prefix⟩, ?_⟩
      rw [hcs, if_pos hc]
      exact ⟨hc, rfl⟩
    · rw [List.flatten_cons, ← List.append_assoc] at h
      obtain ⟨cs, hcs, hin, hscan⟩ := ih hc h
      refine ⟨c :: cs, List.cons_prefix_cons.2 ⟨rfl, hcs⟩, ?_⟩
      rw [if_neg hc, List.flatten_cons, ← List.append_assoc]
      exact ⟨hin, hscan⟩

theorem sanitise_lines (ls : List Bytes) (t : Bytes) :
    sanitise (ls.flatMap (· ++ [0x0A]) ++ t) =
      (ls.map sanitise).flatMap (· ++ ['\n']) ++ sanitise t := by
  induction ls with
  | nil => rfl
  | cons l ls ih =>
    rw [List.flatMap_cons, List.append_assoc, List.append_assoc, List.singleton_append,
      sanitise_append_newline, ih, List.map_cons, List.flatMap_cons]
    simp

theorem notMem_encodeUtf8 {c : Char} {b : UInt8} {x : List Char}
    (hb : String.utf8EncodeChar c = [b]) (hc : c ∉ x) : b ∉ encodeUtf8 x := by
  intro hmem
  have hin : encodeUtf8 [c] <:+: encodeUtf8 x := by
    rw [encodeUtf8_cons, hb]
    exact (List.singleton_infix_iff ..).2 hmem
  have hread := infix_decodeReplace hin
  rw [decodeReplace_encode] at hread
  exact hc ((List.singleton_infix_iff ..).1 hread)

/-- A text of one line that no line shows is not seen before the lines are complete. -/
theorem lines_first {x : List Char} (hx : '\n' ∉ x) (hplain : Plain x) {ls : List Bytes}
    (hls : ∀ l ∈ ls, ¬ x <:+: sanitise l) {t q : Bytes}
    (hq : q <+: ls.flatMap (· ++ [0x0A]) ++ t) (h : encodeUtf8 x <:+: stripAnsi q) :
    ls.flatMap (· ++ [0x0A]) <+: q := by
  induction ls generalizing q with
  | nil => exact List.nil_prefix
  | cons l ls ih =>
    have hhidden : ¬ encodeUtf8 x <:+: stripAnsi l := by
      intro hin
      exact hls l (List.mem_cons_self ..) (infix_decodeReplace hin)
    rw [List.flatMap_cons, List.append_assoc] at hq
    rcases List.prefix_or_prefix_of_prefix hq (List.prefix_append ..) with hshort | ⟨q', rfl⟩
    · rcases List.prefix_concat_iff.1 hshort with rfl | ⟨u, rfl⟩
      · rw [stripAnsi_append_cons (by decide)] at h
        rcases infix_append_cons (notMem_encodeUtf8 (by decide) hx) h with h | h
        · exact (hhidden h).elim
        · exact (hplain.not_shown (s := []) (by simp) (infix_decodeReplace h)).elim
      · exact (hhidden (hplain.infix_stripAnsi h u)).elim
    · rw [List.append_assoc, List.singleton_append, stripAnsi_append_cons (by decide)] at h
      rcases infix_append_cons (notMem_encodeUtf8 (by decide) hx) h with h | h
      · exact (hhidden h).elim
      · have hbehind := ih (fun k hk => hls k (List.mem_cons_of_mem _ hk))
          ((List.prefix_append_right_inj _).1 hq) h
        rw [List.flatMap_cons]
        exact (List.prefix_append_right_inj _).2 hbehind

section
variable {m l ds r : List Char} {c d : Char}

theorem pyDigit_of_isDigit (h : c.isDigit = true) : pyDigit c = some (c.toNat - '0'.toNat) := by
  have hrange : 0x30 ≤ c.toNat ∧ c.toNat ≤ 0x39 := by
    rw [Char.isDigit, Bool.and_eq_true, decide_eq_true_eq, decide_eq_true_eq] at h
    exact h
  have hzero : (decide (0x30 ≤ c.toNat) && decide (c.toNat ≤ 0x30 + 9)) = true := by
    rw [Bool.and_eq_true, decide_eq_true_eq, decide_eq_true_eq]
    exact hrange
  have hfind : (pyDigitZeros.find? fun z => z ≤ c.toNat && c.toNat ≤ z + 9) = some 0x30 :=
    List.find?_cons_of_pos hzero
  rw [pyDigit, hfind]
  rfl

/-- `int` of what `%d` prints. -/
theorem digitsToInt_toDigits (n : Nat) : digitsToInt (Nat.toDigits 10 n) = n := by
  have hfold (ds : List Char) (hds : ∀ d ∈ ds, d.isDigit = true) (k : Nat) :
      ds.foldl (fun (n : Int) d => 10 * n + ((pyDigit d).getD 0 : Nat)) k =
        (Nat.ofDigitChars 10 ds k : Nat) := by
    induction ds generalizing k with
    | nil => rfl
    | cons d ds ih =>
      rw [List.foldl_cons, Nat.ofDigitChars_cons,
        pyDigit_of_isDigit (hds d (List.mem_cons_self ..)),
        ← ih fun e he => hds e (List.mem_cons_of_mem _ he)]
      simp
  have hdigits : ∀ d ∈ Nat.toDigits 10 n, d.isDigit = true := fun d hd =>
    Nat.isDigit_of_mem_toDigits (by decide) (by decide) hd
  rw [digitsToInt, ← Int.natCast_zero, hfold _ hdigits, Nat.ofDigitChars_ten_toDigits]

/-- The first marker with digits behind it is the one at the start of a line, if no line before
shows one. -/
theorem exitDigits_lines (hm : m ≠ []) (hnl : '\n' ∉ m)
    (hl : ∀ d, isPyDigit d = true → ¬ m ++ [d] <:+: l) (hds : ds ≠ [])
    (hdigits : ∀ d ∈ ds, isPyDigit d = true) (hc : isPyDigit c = false) :
    exitDigits m (l ++ '\n' :: (m ++ (ds ++ c :: r))) = some ds := by
  induction l with
  | nil =>
    obtain ⟨a, m', rfl⟩ := List.exists_cons_of_ne_nil hm
    have hskip : ¬ a :: m' <+: '\n' :: (a :: m' ++ (ds ++ c :: r)) := by
      intro h
      exact hnl ((List.cons_prefix_cons.1 h).1 ▸ List.mem_cons_self ..)
    have hread : (ds ++ c :: r).takeWhile isPyDigit = ds := by
      rw [List.takeWhile_append_of_pos hdigits, List.takeWhile_cons_of_neg (by simp [hc]),
        List.append_nil]
    rw [List.nil_append, exitDigits, if_neg fun h => hskip h.1, List.cons_append, exitDigits,
      ← List.cons_append, List.drop_left, hread, if_pos ⟨List.prefix_append .., hds⟩]
  | cons a l ih =>
    have hskip : ¬ (m <+: a :: l ++ '\n' :: (m ++ (ds ++ c :: r)) ∧
        ((a :: l ++ '\n' :: (m ++ (ds ++ c :: r))).drop m.length).takeWhile isPyDigit ≠ []) := by
      rintro ⟨⟨t, ht⟩, hne⟩
      rw [← ht, List.drop_left] at hne
      cases t with
      | nil => exact hne rfl
      | cons d t =>
        by_cases hd : isPyDigit d = true
        · have hsep : '\n' ∉ m ++ [d] := by
            rw [List.mem_append, List.mem_singleton, not_or]
            refine ⟨hnl, ?_⟩
            rintro rfl
            exact absurd hd (by decide)
          have hin : m ++ [d] <+: a :: l ++ '\n' :: (m ++ (ds ++ c :: r)) := by
            refine ⟨t, ?_⟩
            rw [← ht, List.append_assoc, List.singleton_append]
          exact hl d hd (prefix_append_cons hsep hin).isInfix
        · rw [List.takeWhile_cons_of_neg hd] at hne
          exact hne rfl
    rw [List.cons_append] at hskip ⊢
    rw [exitDigits, if_neg hskip]
    exact ih fun d hd h => hl d hd (h.trans (List.suffix_cons a l).isInfix)

theorem splitLast_eq_none (hm : m ≠ []) (h : ¬ m <:+: l) : splitLast m l = none := by
  induction l with
  | nil => rw [splitLast, if_neg hm]
  | cons c l ih =>
    rw [splitLast, ih fun hin => h (hin.trans (List.suffix_cons c l).isInfix)]
    exact if_neg fun hin => h hin.isInfix

/-- `rfind` finds a marker that does not begin again within or behind itself. -/
theorem splitLast_last (hm : m ≠ []) (h : ¬ m <:+: m.tail ++ r) :
    splitLast m (l ++ (m ++ r)) = some (l, r) := by
  induction l with
  | nil =>
    obtain ⟨a, m', rfl⟩ := List.exists_cons_of_ne_nil hm
    have hbehind : splitLast (a :: m') (m' ++ r) = none := splitLast_eq_none hm h
    rw [List.nil_append, List.cons_append, splitLast, hbehind, ← List.cons_append, List.drop_left]
    exact if_pos (List.prefix_append ..)
  | cons b l ih => rw [List.cons_append, splitLast, ih]

theorem splitLast_marker (hm : m ≠ []) (hc : c ∉ m) (h : ¬ m <:+: r) :
    splitLast m (l ++ (m ++ c :: r)) = some (l, c :: r) := by
  apply splitLast_last hm
  intro hin
  rcases infix_append_cons hc hin with hin | hin
  · have hlen := hin.length_le
    have hpos := List.length_pos_iff.2 hm
    rw [List.length_tail] at hlen
    omega
  · exact h hin

end

def isWordChar (c : Char) : Bool := c.isAlphanum || c == '_'

theorem startMarker_toList (token : String) :
    (startMarker token).toList = "__MES_START_".toList ++ token.toList ++ "__".toList := by
  rw [startMarker, String.toList_append, String.toList_append]

theorem magicMarker_toList (token : String) :
    (magicMarker token).toList = "__MES_EXIT_".toList ++ token.toList ++ "__".toList := by
  rw [magicMarker, String.toList_append, String.toList_append]

section
variable {token : String}

theorem IsExecToken.word (h : IsExecToken token) : ∀ c ∈ token.toList, isWordChar c = true := by
  have hhex : "0123456789abcdef".toList.all isWordChar = true := by decide
  intro c hc
  have hmem := List.all_eq_true.1 h.2 c hc
  exact List.all_eq_true.1 hhex c (List.contains_iff_mem.1 hmem)

theorem IsExecToken.enclosed {x y : List Char} (h : IsExecToken token)
    (hx : x.all isWordChar = true) (hy : y.all isWordChar = true) :
    ∀ c ∈ x ++ token.toList ++ y, isWordChar c = true := by
  intro c hc
  rcases List.mem_append.1 hc with hc | hc
  · rcases List.mem_append.1 hc with hc | hc
    · exact List.all_eq_true.1 hx c hc
    · exact h.word c hc
  · exact List.all_eq_true.1 hy c hc

theorem IsExecToken.startMarker_word (h : IsExecToken token) :
    ∀ c ∈ (startMarker token).toList, isWordChar c = true := by
  rw [startMarker_toList]
  exact h.enclosed (by decide) (by decide)

theorem IsExecToken.magicMarker_word (h : IsExecToken token) :
    ∀ c ∈ (magicMarker token).toList, isWordChar c = true := by
  rw [magicMarker_toList]
  exact h.enclosed (by decide) (by decide)

theorem token_infix_startMarker : token.toList <:+: (startMarker token).toList := by
  rw [startMarker_toList]
  exact List.infix_append ..

theorem token_infix_magicMarker : token.toList <:+: (magicMarker token).toList := by
  rw [magicMarker_toList]
  exact List.infix_append ..

end

section
variable {x text : List Char} {raw : Bytes}

theorem onlcr_of_notMem (h : '\n' ∉ text) : onlcr text = text := by
  induction text with
  | nil => rfl
  | cons c text ih =>
    rw [List.mem_cons, not_or] at h
    rw [onlcr, List.flatMap_cons, if_neg (Ne.symm h.1), ← onlcr, ih h.2, List.singleton_append]

theorem IsLine.shows (h : IsLine raw text) (hx : '\n' ∉ x ∧ '\r' ∉ x) (hne : x ≠ [])
    (hin : x <:+: sanitise raw) : x <:+: text := by
  rcases h with h | h
  · rwa [h] at hin
  · rw [h] at hin
    rcases infix_append_cons hx.2 hin with hin | hin
    · have hw : ∀ c ∈ ['\r', '\n'], c ∉ x := by
        intro c hc
        rcases List.mem_cons.1 hc with rfl | hc
        · exact hx.2
        · rw [List.mem_singleton.1 hc]
          exact hx.1
      exact infix_of_replaced (by simp) hw hin
    · exact (hne (List.infix_nil.1 hin)).elim

theorem IsLine.ends (h : IsLine raw text) (hnl : '\n' ∉ text) :
    ∃ e, (e = [] ∨ e = ['\r']) ∧ sanitise raw = text ++ e := by
  rcases h with h | h
  · exact ⟨[], .inl rfl, by rw [h, List.append_nil]⟩
  · exact ⟨['\r'], .inr rfl, by rw [h, onlcr_of_notMem hnl]⟩

theorem infix_of_quoteCmd {cmd : String} (hquote : '\'' ∉ x) (hback : '\\' ∉ x)
    (h : x <:+: (quoteCmd cmd).toList) : x <:+: cmd.toList := by
  rw [quoteCmd, String.toList_ofList] at h
  apply infix_of_replaced (by decide) _ h
  intro c hc
  have hquoted : "'\\''".toList = ['\'', '\\', '\'', '\''] := by decide
  rw [hquoted] at hc
  simp only [List.mem_cons, List.not_mem_nil, or_false] at hc
  rcases hc with rfl | rfl | rfl | rfl
  · exact hquote
  · exact hback
  · exact hquote
  · exact hquote

end

section
variable {prompt token cmd : String}

theorem injectedCmd_toList (h : isUboot prompt = false) : (injectedCmd prompt token cmd).toList =
    "printf ".toList ++ '\'' :: (("\\n".toList ++ (startMarker token).toList ++ "\\n".toList) ++
      '\'' :: (" ; sh -c ".toList ++ '\'' :: ((quoteCmd cmd).toList ++ '\'' ::
        (" ; printf ".toList ++ '\'' :: (("\\n".toList ++ (magicMarker token).toList ++
          ':' :: "%d\\n".toList) ++ '\'' :: " $?".toList))))) := by
  rw [injectedCmd, h, if_neg Bool.false_ne_true]
  simp only [String.toList_append]
  have hbegin : "printf '\\n".toList = "printf ".toList ++ '\'' :: "\\n".toList := by decide
  have hmiddle : "\\n' ; sh -c '".toList =
      "\\n".toList ++ '\'' :: (" ; sh -c ".toList ++ ['\'']) := by decide
  have hbehind : "' ; printf '\\n".toList =
      '\'' :: (" ; printf ".toList ++ '\'' :: "\\n".toList) := by decide
  have hend : ":%d\\n' $?".toList = ':' :: "%d\\n".toList ++ '\'' :: " $?".toList := by decide
  rw [hbegin, hmiddle, hbehind, hend]
  simp only [List.append_assoc, List.cons_append, List.nil_append]

def statusMark (token : String) : List Char := (magicMarker token).toList ++ [':']

theorem IsExecToken.notMem_status {c d : Char} (h : IsExecToken token) (hd : isPyDigit d = true)
    (hc : isWordChar c = false) (hcolon : c ≠ ':') (hdigit : isPyDigit c = false) :
    c ∉ statusMark token ++ [d] := by
  intro hmem
  rcases List.mem_append.1 hmem with hmem | hmem
  · rcases List.mem_append.1 hmem with hmem | hmem
    · rw [h.magicMarker_word c hmem] at hc
      cases hc
    · exact hcolon (List.mem_singleton.1 hmem)
  · rw [List.mem_singleton.1 hmem, hd] at hdigit
    cases hdigit

theorem token_infix_statusMark : token.toList <:+: statusMark token :=
  token_infix_magicMarker.trans (List.prefix_append ..).isInfix

theorem status_not_injected (hshell : isUboot prompt = false) (htok : IsExecToken token)
    (hcmd : ¬ occursIn token cmd) {d : Char} (hd : isPyDigit d = true) :
    ¬ statusMark token ++ [d] <:+: (injectedCmd prompt token cmd).toList := by
  have hquote : '\'' ∉ statusMark token ++ [d] :=
    htok.notMem_status hd (by decide) (by decide) (by decide)
  have hback : '\\' ∉ statusMark token ++ [d] :=
    htok.notMem_status hd (by decide) (by decide) (by decide)
  have hcolon : ':' ∈ statusMark token ++ [d] := by simp [statusMark]
  have hwords {l : List Char} (hl : ':' ∉ l) : ¬ statusMark token ++ [d] <:+: l := by
    intro hin
    exact hl (hin.subset hcolon)
  have hmarker {m : List Char} (hm : ∀ c ∈ m, isWordChar c = true) : ':' ∉ m := by
    intro hmem
    exact absurd (hm _ hmem) (by decide)
  intro hin
  rw [injectedCmd_toList hshell] at hin
  rcases infix_append_cons hquote hin with hin | hin
  · exact hwords (by decide) hin
  rcases infix_append_cons hquote hin with hin | hin
  · apply hwords _ hin
    simp [hmarker htok.startMarker_word]
  rcases infix_append_cons hquote hin with hin | hin
  · exact hwords (by decide) hin
  rcases infix_append_cons hquote hin with hin | hin
  · apply hcmd
    have htoken : token.toList <:+: statusMark token ++ [d] :=
      token_infix_statusMark.trans (List.prefix_append ..).isInfix
    exact htoken.trans (infix_of_quoteCmd hquote hback hin)
  rcases infix_append_cons hquote hin with hin | hin
  · exact hwords (by decide) hin
  rcases infix_append_cons hquote hin with ⟨u, v, hin⟩ | hin
  · have halign : (u ++ (magicMarker token).toList) ++ ':' :: (d :: v) =
        ("\\n".toList ++ (magicMarker token).toList) ++ ':' :: "%d\\n".toList := by
      rw [← hin, statusMark]
      simp only [List.append_assoc, List.cons_append, List.nil_append]
    have hbefore : ':' ∉ "\\n".toList ++ (magicMarker token).toList := by
      simp [hmarker htok.magicMarker_word]
    have hbehind := ((List.append_cons_inj_of_notMem hbefore (by decide)).1 halign.symm).2.2
    have hpercent : d = '%' := (List.cons.inj hbehind).1.symm
    rw [hpercent] at hd
    exact absurd hd (by decide)
  · exact hwords (by decide) hin

end

/-- A text that `strip` leaves as it is. -/
structure Stripped (l : List Char) : Prop where
  head : ∀ c, l.head? = some c → isPySpace c = false
  last : ∀ c, l.getLast? = some c → isPySpace c = false

section
variable {l k out e : List Char} {ls : List (List Char)} {prompt : String}

theorem stripped_pyStrip (l : List Char) : Stripped (pyStrip l) := by
  rw [pyStrip_eq]
  constructor
  · intro c hc
    obtain ⟨t, ht⟩ := List.rdropWhile_prefix isPySpace (l.dropWhile isPySpace)
    have hhead : (l.dropWhile isPySpace).head? = some c := by
      rw [← ht, List.head?_append, hc]
      rfl
    have hnot := List.head?_dropWhile_not isPySpace l
    rw [hhead] at hnot
    exact hnot
  · intro c hc
    have hne : (l.dropWhile isPySpace).rdropWhile isPySpace ≠ [] := by
      intro hnil
      rw [hnil] at hc
      cases hc
    rw [List.getLast?_eq_some_getLast hne, Option.some_inj] at hc
    rw [← hc]
    exact Bool.eq_false_iff.2 (List.rdropWhile_last_not isPySpace _ hne)

theorem Stripped.pyStrip (h : Stripped l) : pyStrip l = l := by
  have hhead : l.dropWhile isPySpace = l := by
    cases l with
    | nil => rfl
    | cons c l =>
      have hc := h.head c rfl
      exact List.dropWhile_cons_of_neg (by simp [hc])
  rw [pyStrip_eq, hhead, List.rdropWhile_eq_self_iff]
  intro hne
  exact Bool.eq_false_iff.1 (h.last _ (List.getLast?_eq_some_getLast hne))

theorem stripped_of_pyStrip (h : pyStrip l = l) : Stripped l := h ▸ stripped_pyStrip l

theorem Stripped.infix_pyStrip (h : Stripped l) (hin : l <:+: k) : l <:+: MesCore.pyStrip k :=
  MesCore.infix_pyStrip hin h.head h.last

theorem Stripped.join (h : Stripped l) (hl : l ≠ []) (h' : Stripped k) (hk : k ≠ []) :
    Stripped (l ++ '\n' :: k) := by
  constructor
  · intro c hc
    rw [List.head?_append_of_ne_nil _ hl] at hc
    exact h.head c hc
  · intro c hc
    rw [List.getLast?_append_cons, List.getLast?_cons_of_ne_nil hk] at hc
    exact h'.last c hc

theorem stripped_joinLines (h : ∀ l ∈ ls, Stripped l ∧ l ≠ []) :
    Stripped (joinLines ls) ∧ (ls ≠ [] → joinLines ls ≠ []) := by
  induction ls with
  | nil => exact ⟨⟨by simp [joinLines], by simp [joinLines]⟩, fun hne => (hne rfl).elim⟩
  | cons l ls ih =>
    obtain ⟨hl, hne⟩ := h l (List.mem_cons_self ..)
    obtain ⟨hls, hnonempty⟩ := ih fun k hk => h k (List.mem_cons_of_mem _ hk)
    cases ls with
    | nil =>
      rw [joinLines, List.intercalate_singleton]
      exact ⟨hl, fun _ => hne⟩
    | cons k ks =>
      have hjoin : joinLines (l :: k :: ks) = l ++ '\n' :: joinLines (k :: ks) := by
        rw [joinLines, List.intercalate_cons_cons, List.append_assoc]
        rfl
      rw [hjoin]
      exact ⟨hl.join hne hls (hnonempty (by simp)), fun _ => by simp⟩

/-- The lines that are kept of what stands between the markers are those of the output. -/
theorem cleanLines_framed (hquiet : ¬ prompt.toList <:+: out) (he : e = [] ∨ e = ['\r']) :
    cleanLines prompt (e ++ '\n' :: (out ++ ['\n'])) = outputLines out := by
  have hsplit : splitNewline (e ++ '\n' :: (out ++ ['\n'])) = e :: (splitNewline out ++ [[]]) := by
    have he' : '\n' ∉ e := by rcases he with rfl | rfl <;> decide
    rw [splitNewline_eq, List.splitOn_append_cons_self, List.splitOn_append_cons_self,
      splitNewline_eq, List.splitOn_eq_singleton he', List.splitOn_nil, List.singleton_append]
  have hblank : pyStrip e = [] := by rcases he with rfl | rfl <;> decide
  have hkept : ∀ l ∈ (splitNewline out).map pyStrip,
      (!l.isEmpty && !decide (prompt.toList <:+: l) && !isKernelLog l) =
        (!l.isEmpty && !isKernelLog l) := by
    intro l hl
    obtain ⟨k, hk, rfl⟩ := List.mem_map.1 hl
    have hin : ¬ prompt.toList <:+: pyStrip k := by
      intro hin
      exact hquiet ((hin.trans (pyStrip_isInfix k)).trans (splitNewline_isInfix hk))
    rw [decide_eq_false hin, Bool.not_false, Bool.and_true]
  rw [cleanLines, hsplit, List.map_cons, hblank, List.map_append, List.filter_cons_of_neg (by simp),
    List.filter_append, List.filter_congr hkept, outputLines, List.append_right_eq_self]
  rfl

theorem cleanStdout_eq (prompt : String) (raw : List Char) :
    cleanStdout prompt raw = joinLines (cleanLines prompt raw) := by
  apply Stripped.pyStrip
  refine (stripped_joinLines fun l hl => ?_).1
  obtain ⟨hl, hkept⟩ := List.mem_filter.1 hl
  obtain ⟨k, -, rfl⟩ := List.mem_map.1 hl
  refine ⟨stripped_pyStrip k, ?_⟩
  intro hnil
  rw [hnil] at hkept
  cases hkept

theorem cleanStdout_framed (hquiet : ¬ prompt.toList <:+: out) (he : e = [] ∨ e = ['\r']) :
    cleanStdout prompt (e ++ '\n' :: (out ++ ['\n'])) = joinLines (outputLines out) := by
  rw [cleanStdout_eq, cleanLines_framed hquiet he]

end

section
variable {token : String} {l out e r : List Char}

theorem startMarker_ne_nil : (startMarker token).toList ≠ [] := by
  rw [startMarker_toList]
  simp

theorem magicMarker_ne_nil : (magicMarker token).toList ≠ [] := by
  rw [magicMarker_toList]
  simp

theorem notMem_of_word {m : List Char} (hm : ∀ c ∈ m, isWordChar c = true) {c : Char}
    (hc : isWordChar c = false) : c ∉ m := by
  intro hmem
  rw [hm c hmem] at hc
  cases hc

theorem IsExecToken.plain_magicMarker (h : IsExecToken token) :
    Plain (magicMarker token).toList where
  escape := notMem_of_word h.magicMarker_word (by decide)
  plain := by
    refine ⟨'_', ?_, by decide⟩
    rw [magicMarker_toList]
    simp

/-- What `safe_run` cuts out: from the last start marker to the last exit marker. -/
theorem betweenMarkers_framed (htok : IsExecToken token) (he : e = [] ∨ e = ['\r'])
    (hout : ¬ token.toList <:+: out) (hr : ¬ (magicMarker token).toList <:+: r) :
    betweenMarkers token (l ++ ((startMarker token).toList ++ (e ++ '\n' :: (out ++ ['\n']))) ++
      ((magicMarker token).toList ++ ':' :: r)) = e ++ '\n' :: (out ++ ['\n']) := by
  have hword {c : Char} (hc : isWordChar c = false) : c ∉ (startMarker token).toList :=
    notMem_of_word htok.startMarker_word hc
  have hnone : ¬ (startMarker token).toList <:+: out ++ ['\n'] := by
    intro hin
    rcases infix_append_cons (hword (by decide)) hin with hin | hin
    · exact hout (token_infix_startMarker.trans hin)
    · exact startMarker_ne_nil (List.infix_nil.1 hin)
  have hstart : splitLast (startMarker token).toList
      (l ++ ((startMarker token).toList ++ (e ++ '\n' :: (out ++ ['\n'])))) =
        some (l, e ++ '\n' :: (out ++ ['\n'])) := by
    rcases he with rfl | rfl
    · exact splitLast_marker startMarker_ne_nil (hword (by decide)) hnone
    · apply splitLast_marker startMarker_ne_nil (hword (by decide))
      intro hin
      rcases infix_append_cons (l := []) (hword (by decide)) hin with hin | hin
      · exact startMarker_ne_nil (List.infix_nil.1 hin)
      · exact hnone hin
  have hcolon : ':' ∉ (magicMarker token).toList :=
    notMem_of_word htok.magicMarker_word (by decide)
  have hend := splitLast_marker (l := l ++ ((startMarker token).toList ++
    (e ++ '\n' :: (out ++ ['\n'])))) magicMarker_ne_nil hcolon hr
  rw [betweenMarkers, hend]
  simp only [hstart]

end

section
variable {prompt token cmd : String} {n : Nat} {r : ShellReply} {q : Bytes}

theorem Plain.ne_nil {x : List Char} (h : Plain x) : x ≠ [] := by
  obtain ⟨c, hc, -⟩ := h.plain
  exact List.ne_nil_of_mem hc

theorem ShellReply.Answers.quiet (h : r.Answers prompt token cmd n)
    (ha : r.Apart prompt token cmd n) : ∀ l ∈ r.lines, ¬ prompt.toList <:+: sanitise l := by
  intro l hl hin
  have hline {raw : Bytes} {text : List Char} (hline : IsLine raw text)
      (hin : prompt.toList <:+: sanitise raw) : prompt.toList <:+: text :=
    hline.shows ha.oneLine ha.plain.ne_nil hin
  rcases List.mem_append.1 hl with hl | hl
  · rcases List.mem_append.1 hl with hl | hl
    · exact h.echoQuiet l (Option.mem_toList.1 hl) hin
    · rcases List.mem_cons.1 hl with rfl | hl
      · exact ha.plain.ne_nil (List.infix_nil.1 (hline h.blank hin))
      · rw [List.mem_singleton.1 hl] at hin
        exact ha.start (hline h.start hin)
  · rcases List.mem_cons.1 hl with rfl | hl
    · exact h.outQuiet hin
    · rw [List.mem_singleton.1 hl] at hin
      exact ha.exit (hline h.exit hin)

theorem ShellReply.Answers.statusFirst (h : r.Answers prompt token cmd n)
    (ha : r.Apart prompt token cmd n) (hshell : isUboot prompt = false) (htok : IsExecToken token)
    {d : Char} (hd : isPyDigit d = true) : ¬ statusMark token ++ [d] <:+:
      (r.head.map sanitise).flatMap (· ++ ['\n']) ++ sanitise r.out := by
  have hbreaks : '\n' ∉ statusMark token ++ [d] ∧ '\r' ∉ statusMark token ++ [d] :=
    ⟨htok.notMem_status hd (by decide) (by decide) (by decide),
      htok.notMem_status hd (by decide) (by decide) (by decide)⟩
  have hne : statusMark token ++ [d] ≠ [] := by simp
  have hcolon : ':' ∈ statusMark token ++ [d] := by simp [statusMark]
  intro hin
  rcases infix_lines hbreaks.1 hin with ⟨l, hl, hin⟩ | hin
  · obtain ⟨raw, hraw, rfl⟩ := List.mem_map.1 hl
    rcases List.mem_append.1 hraw with hraw | hraw
    · have hecho := Option.mem_toList.1 hraw
      have hcmd : ¬ occursIn token cmd := by
        apply ha.command
        rw [hecho]
        simp
      exact status_not_injected hshell htok hcmd hd ((h.echo raw hecho).shows hbreaks hne hin)
    · rcases List.mem_cons.1 hraw with rfl | hraw
      · exact hne (List.infix_nil.1 (h.blank.shows hbreaks hne hin))
      · rw [List.mem_singleton.1 hraw] at hin
        have hmem := (h.start.shows hbreaks hne hin).subset hcolon
        exact notMem_of_word htok.startMarker_word (by decide) hmem
  · have htoken : token.toList <:+: statusMark token ++ [d] :=
      token_infix_statusMark.trans (List.prefix_append ..).isInfix
    exact h.outToken (htoken.trans hin)

theorem ShellReply.sanitise_upTo (r : ShellReply) (p : Bytes) :
    sanitise (r.lines.flatMap (· ++ [0x0A]) ++ p) = (r.head.map sanitise).flatMap (· ++ ['\n']) ++
      sanitise r.out ++ '\n' :: (sanitise r.exit ++ '\n' :: sanitise p) := by
  rw [sanitise_lines, ShellReply.lines, List.map_append, List.flatMap_append]
  simp

theorem exitLine_toList (token : String) (n : Nat) :
    (exitLine token n).toList = statusMark token ++ Nat.toDigits 10 n := by
  have hn : (toString n).toList = Nat.toDigits 10 n := by
    rw [Nat.toString_eq_ofList_toDigits, String.toList_ofList]
  rw [exitLine, String.toList_append, String.toList_append, hn, statusMark]
  rfl

theorem ShellReply.Answers.exited (h : r.Answers prompt token cmd n)
    (ha : r.Apart prompt token cmd n) (hshell : isUboot prompt = false) (htok : IsExecToken token)
    {e rest : List Char} (he : e = [] ∨ e = ['\r'])
    (hexit : sanitise r.exit = (exitLine token n).toList ++ e) :
    exitedOf token ((r.head.map sanitise).flatMap (· ++ ['\n']) ++ sanitise r.out ++
      '\n' :: (sanitise r.exit ++ '\n' :: rest)) = n := by
  have hdigits : ∀ d ∈ Nat.toDigits 10 n, isPyDigit d = true := by
    intro d hd
    rw [isPyDigit, pyDigit_of_isDigit (Nat.isDigit_of_mem_toDigits (by decide) (by decide) hd)]
    rfl
  have hne : statusMark token ≠ [] := by simp [statusMark]
  have hnl : '\n' ∉ statusMark token := by
    intro hmem
    exact htok.notMem_status (d := '0') (by decide) (by decide) (by decide) (by decide)
      (List.mem_append_left _ hmem)
  have hbehind : ∃ c t, e ++ '\n' :: rest = c :: t ∧ isPyDigit c = false := by
    rcases he with rfl | rfl
    · exact ⟨'\n', rest, rfl, by decide⟩
    · exact ⟨'\r', '\n' :: rest, rfl, by decide⟩
  obtain ⟨c, t, hct, hc⟩ := hbehind
  have hfound := exitDigits_lines (r := t) hne hnl (fun d hd => h.statusFirst ha hshell htok hd)
    Nat.toDigits_ne_nil hdigits hc
  have hline : sanitise r.exit ++ '\n' :: rest =
      statusMark token ++ (Nat.toDigits 10 n ++ c :: t) := by
    rw [hexit, exitLine_toList, List.append_assoc, List.append_assoc, hct]
  rw [hline, exitedOf, ← statusMark, hfound]
  exact digitsToInt_toDigits n

theorem ShellReply.Answers.between (h : r.Answers prompt token cmd n) (htok : IsExecToken token)
    {e rest : List Char} (hexit : sanitise r.exit = (exitLine token n).toList ++ e)
    (hrest : ¬ (magicMarker token).toList <:+: Nat.toDigits 10 n ++ (e ++ '\n' :: rest)) :
    cleanStdout prompt (betweenMarkers token ((r.head.map sanitise).flatMap (· ++ ['\n']) ++
      sanitise r.out ++ '\n' :: (sanitise r.exit ++ '\n' :: rest))) =
        joinLines (outputLines (sanitise r.out)) := by
  have hnl : '\n' ∉ (startMarker token).toList :=
    notMem_of_word htok.startMarker_word (by decide)
  obtain ⟨e', he', hstart⟩ := h.start.ends hnl
  have hcut := betweenMarkers_framed
    (l := ((r.echo.toList ++ [r.blank]).map sanitise).flatMap (· ++ ['\n'])) htok he' h.outToken
    hrest
  have htext : (r.head.map sanitise).flatMap (· ++ ['\n']) ++ sanitise r.out ++
      '\n' :: (sanitise r.exit ++ '\n' :: rest) =
      ((r.echo.toList ++ [r.blank]).map sanitise).flatMap (· ++ ['\n']) ++
        ((startMarker token).toList ++ (e' ++ '\n' :: (sanitise r.out ++ ['\n']))) ++
          ((magicMarker token).toList ++ ':' :: (Nat.toDigits 10 n ++ (e ++ '\n' :: rest))) := by
    rw [hexit, exitLine_toList, ShellReply.head, statusMark]
    simp [hstart]
  rw [htext, hcut]
  exact cleanStdout_framed h.outQuiet he'

/-- Wherever in the prompt `expect` stops, the result is that of the command. -/
theorem ShellReply.Answers.promptResult (h : r.Answers prompt token cmd n)
    (ha : r.Apart prompt token cmd n) (hshell : isUboot prompt = false) (htok : IsExecToken token)
    (hq : q <+: r.stream) (hin : encodeUtf8 prompt.toList <:+: stripAnsi q) :
    promptResult prompt token (sanitise q) = commandResult n (sanitise r.out) := by
  obtain ⟨p, rfl⟩ := lines_first ha.oneLine.1 ha.plain (h.quiet ha) hq hin
  obtain ⟨t, ht⟩ := (List.prefix_append_right_inj _).1 hq
  have hnl : '\n' ∉ (exitLine token n).toList := by
    intro hmem
    rw [exitLine_toList] at hmem
    rcases List.mem_append.1 hmem with hmem | hmem
    · exact htok.notMem_status (d := '0') (by decide) (by decide) (by decide) (by decide)
        (List.mem_append_left _ hmem)
    · exact absurd (Nat.isDigit_of_mem_toDigits (by decide) (by decide) hmem) (by decide)
  obtain ⟨e, he, hexit⟩ := h.exit.ends hnl
  have hrest : ¬ (magicMarker token).toList <:+: sanitise p := by
    intro hin
    have hshown := htok.plain_magicMarker.infix_sanitise
      (notMem_of_word htok.magicMarker_word (by decide)) hin t
    rw [ht] at hshown
    exact ha.shown (token_infix_magicMarker.trans hshown)
  have hbehind : ¬ (magicMarker token).toList <:+:
      Nat.toDigits 10 n ++ (e ++ '\n' :: sanitise p) := by
    have hunder : '_' ∈ (magicMarker token).toList := by
      rw [magicMarker_toList]
      simp
    intro hin
    rw [← List.append_assoc] at hin
    rcases infix_append_cons (notMem_of_word htok.magicMarker_word (by decide)) hin with hin | hin
    · rcases List.mem_append.1 (hin.subset hunder) with hmem | hmem
      · exact Nat.underscore_not_in_toDigits hmem
      · rcases he with rfl | rfl <;> exact absurd hmem (by decide)
    · exact hrest hin
  rw [r.sanitise_upTo, MesCore.promptResult, hshell, if_neg Bool.false_ne_true,
    h.exited ha hshell htok he hexit, h.between htok hexit hbehind, commandResult]
  simp

theorem stripAnsi_lines (ls : List Bytes) (t : Bytes) :
    stripAnsi t <:+ stripAnsi (ls.flatMap (· ++ [0x0A]) ++ t) := by
  induction ls with
  | nil => exact List.suffix_refl _
  | cons l ls ih =>
    rw [List.flatMap_cons, List.append_assoc, List.append_assoc, List.singleton_append,
      stripAnsi_append_cons (by decide)]
    exact (ih.trans (List.suffix_cons ..)).trans (List.suffix_append ..)

/-- `safe_run` gets the result of a command out of its reply, however that is cut. -/
theorem ShellReply.Answers.result (h : r.Answers prompt token cmd n)
    (ha : r.Apart prompt token cmd n) (hshell : isUboot prompt = false) (htok : IsExecToken token)
    {reply : Reply} (hheard : reply.heard.flatten = r.stream) :
    safeRunResult prompt token reply = commandResult n (sanitise r.out) := by
  have hnone : ¬ encodeUtf8 prompt.toList <:+: stripAnsi [] := by
    intro hin
    exact ha.plain.ne_nil (List.infix_nil.1 (infix_decodeReplace hin))
  have hshown : encodeUtf8 prompt.toList <:+: stripAnsi ([] ++ reply.heard.flatten) := by
    rw [List.nil_append, hheard]
    exact h.shown.trans (stripAnsi_lines ..).isInfix
  obtain ⟨cs, ⟨cs', hcs⟩, hin, hscan⟩ := expectScan_found hnone hshown
  rw [List.nil_append] at hin
  have hq : cs.flatten <+: r.stream := by
    rw [← hheard, ← hcs, List.flatten_append]
    exact List.prefix_append ..
  rw [safeRunResult, hscan, List.nil_append]
  exact h.promptResult ha hshell htok hq hin

/-- A command that is run over the console comes back with its exit status and with the lines of
its output, whether the terminal echoes or not and however the stream is coloured and cut. -/
theorem framing_exact (hshell : isUboot prompt = false) (htok : IsExecToken token)
    (h : r.Answers prompt token cmd n) (ha : r.Apart prompt token cmd n) {reply : Reply}
    (hheard : reply.heard.flatten = r.stream) :
    (safeRunResult prompt token reply).exited = n ∧
      ((safeRunResult prompt token reply).ok = true ↔ n = 0) ∧
        (safeRunResult prompt token reply).stdout =
          String.ofList (joinLines (outputLines (sanitise r.out))) := by
  rw [h.result ha hshell htok hheard, commandResult]
  exact ⟨rfl, decide_eq_true_iff, rfl⟩

end

/-- A reply with the token `0badc0de` from a terminal that maps no line ends. -/
def plainReply (echo : Option String) (out : Bytes) (n : Nat) (prompt : String) : ShellReply where
  echo := echo.map ascii
  blank := []
  start := ascii (startMarker "0badc0de")
  out := out
  exit := ascii (exitLine "0badc0de" n)
  prompt := ascii prompt

/-- A reply that answers the command and that `safe_run` takes for something else. -/
def Misread (r : ShellReply) (prompt cmd : String) (n : Nat) (chunks : List Bytes) : Prop :=
  isUboot prompt = false ∧ IsExecToken "0badc0de" ∧ r.Answers prompt "0badc0de" cmd n ∧
    chunks.flatten = r.stream ∧
      safeRunResult prompt "0badc0de" { heard := chunks } ≠ commandResult n (sanitise r.out)

instance (r : ShellReply) (prompt cmd : String) (n : Nat) (chunks : List Bytes) :
    Decidable (Misread r prompt cmd n chunks) :=
  inferInstanceAs (Decidable (_ ∧ _))

/-- The echo of a command that names its own exit marker. -/
def forgedReply : ShellReply :=
  plainReply (some (injectedCmd "~# " "0badc0de" "true __MES_EXIT_0badc0de__:7")) [] 0 "~# "

def markedReply : ShellReply := plainReply none (ascii "up") 0 "__MES_EXIT_0badc0de__ ~# "

/-- A prompt that begins with a line break, and an output that begins with the rest of it. -/
def brokenReply : ShellReply := plainReply none (ascii "# up") 0 "\n# "

def statusReply : ShellReply := plainReply none [] 12 ":1"

/-- A prompt that the beginning of an escape sequence shows. -/
def bracketReply : ShellReply := plainReply none (escByte :: ascii "[0mup") 0 "["

/-- The status, the lines or both come out wrong where a command or a prompt shows the exit marker,
and where a prompt is seen before its time. -/
theorem framing_misread :
    Misread forgedReply "~# " "true __MES_EXIT_0badc0de__:7" 0 [forgedReply.stream] ∧
      Misread markedReply "~# " "uptime" 0 [markedReply.stream] ∧
        Misread brokenReply "\n# " "uptime" 0
          [brokenReply.stream.take 26, brokenReply.stream.drop 26] ∧
        Misread statusReply ":1" "uptime" 12
          [statusReply.stream.take 48, statusReply.stream.drop 48] ∧
        Misread bracketReply "[" "uptime" 0
          [bracketReply.stream.take 26, bracketReply.stream.drop 26] :=
  ⟨by decide +kernel, by decide +kernel, by decide +kernel, by decide +kernel, by decide +kernel⟩

/-- A failing command with a coloured output, a line of the kernel log in it, and an echo. -/
def failedReply : ShellReply :=
  plainReply (some (injectedCmd "~# " "0badc0de" "make"))
    (ascii "one" ++ escByte :: ascii "[0m\r\n[   12.5] usb 1-1: reset\r\n\r\n two") 2
    "root@board:~# "

def failedHeard : Reply where
  heard := [failedReply.stream.take 100, failedReply.stream.drop 100]

theorem framing_failed : (safeRunResult "~# " "0badc0de" failedHeard).exited = 2 ∧
    (safeRunResult "~# " "0badc0de" failedHeard).stdout = "one\ntwo" := by
  have htok : IsExecToken "0badc0de" := by decide
  have hplain : Plain "~# ".toList := ⟨by decide, '~', by decide, by decide⟩
  have hanswers : failedReply.Answers "~# " "0badc0de" "make" 2 := by decide +kernel
  have hapart : failedReply.Apart "~# " "0badc0de" "make" 2 :=
    ⟨by decide, hplain, by decide +kernel, by decide +kernel, by decide +kernel, by decide +kernel⟩
  have hheard : failedHeard.heard.flatten = failedReply.stream := by decide +kernel
  obtain ⟨hexited, -, hstdout⟩ := framing_exact (by decide +kernel) htok hanswers hapart hheard
  refine ⟨hexited, ?_⟩
  rw [hstdout]
  decide +kernel

end MesCore
