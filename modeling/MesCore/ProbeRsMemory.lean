import MesCore.Efuse
import MesCore.McuStateMachine
import MesCore.UbootShell
import MesCore.Words

namespace MesCore
set_option autoImplicit true

open BareMetal (hexLiteral)
open NvmemEfuseValidator (hexDigit)

/-- How one run of the command line tool ends. -/
inductive CliRun
  | exited (returncode : Int) (stdout stderr : List Char)
  | timeoutExpired
  | osError (msg : String)

structure ProbeRsError where
  message : String
  cmd : List String
  returncode : Int
  stdout : List Char
  stderr : List Char

inductive ProbeRsErr
  | probeRsError (e : ProbeRsError)
  | valueError (msg : String)
  | assertionError

structure ProbeRsTransport where
  chip : String
  protocol : String
  speed : Nat
  /-- What `shutil.which` finds. -/
  binary : Option String

namespace ProbeRsTransport

/-- `_DEFAULT_RETRIES` and `_CLI_TIMEOUT_S`. -/
def defaultRetries : Nat := 5

def cliTimeoutS : Nat := 30

def buildCmd (t : ProbeRsTransport) (binary : String) (args : List String) : List String :=
  [binary] ++ args ++ ["--chip", t.chip] ++ ["--protocol", t.protocol] ++
    ["--speed", toString t.speed]

def orText (s t : List Char) : List Char := if s = [] then t else s

def runError (context : String) (cmd : List String) : CliRun → Except ProbeRsError (List Char)
  | .exited returncode stdout stderr =>
    let stderrClean := pyStrip stderr
    if returncode = 0 then .ok stdout
    else .error ⟨s!"probe-rs {context} failed (rc={returncode}): " ++
      String.ofList (orText (stderrClean.take 200) (stdout.take 200)), cmd, returncode, stdout,
      stderrClean⟩
  | .timeoutExpired =>
    .error ⟨s!"probe-rs {context} timed out after {cliTimeoutS}s", cmd, -1, [], "TIMEOUT".toList⟩
  | .osError msg => .error ⟨s!"probe-rs {context} OS error: {msg}", cmd, -1, [], msg.toList⟩

/-- The loop of `_run_cli`: the first run that succeeds, or the error of the last. -/
def attempts (context : String) (cmd : List String) (runs : Nat → CliRun) :
    Nat → Nat → Option ProbeRsError → Except ProbeRsErr (List Char)
  | 0, _, some e => .error (.probeRsError e)
  | 0, _, none => .error .assertionError
  | left + 1, attempt, _ =>
    match runError context cmd (runs attempt) with
    | .ok stdout => .ok stdout
    | .error e => attempts context cmd runs left (attempt + 1) (some e)

def notFound : ProbeRsError where
  message := "probe-rs binary not found in $PATH. Install via: curl --proto '=https' --tlsv1.2 " ++
    "-LsSf https://github.com/probe-rs/probe-rs/releases/latest/download/" ++
    "probe-rs-tools-installer.sh | sh"
  cmd := ["probe-rs"]
  returncode := -1
  stdout := []
  stderr := []

/-- `_run_cli` on a bench where each command line has the outcomes of its attempts. -/
def runCli (t : ProbeRsTransport) (cli : List String → Nat → CliRun) (args : List String)
    (retries : Nat) (context : String) : Except ProbeRsErr (List Char) :=
  match t.binary with
  | none => .error (.probeRsError notFound)
  | some binary =>
    attempts context (t.buildCmd binary args) (cli (t.buildCmd binary args)) retries 1 none

/-- Two digits are a byte, eight a little-endian word, and anything else is passed over. -/
def parseToken (token : List Char) : Bytes :=
  match (token.map Char.toLower).mapM hexDigit with
  | some [h, l] => [UInt8.ofNat (16 * h + l)]
  | some [a, b, c, d, e, f, g, h] =>
    [UInt8.ofNat (16 * g + h), UInt8.ofNat (16 * e + f), UInt8.ofNat (16 * c + d),
      UInt8.ofNat (16 * a + b)]
  | _ => []

def behindColon (line : List Char) : List Char := (line.dropWhile (· ≠ ':')).tail

def parseLine (line : List Char) : Bytes :=
  let line := pyStrip line
  if line = [] then []
  else
    (wordsOn isPySpace (if ':' ∈ line then pyStrip (behindColon line) else line)).flatMap
      parseToken

/-- `_parse_hex_output`. -/
def parseHexOutput (stdout : List Char) : Bytes := (splitLines stdout).flatMap parseLine

/-- `read_memory`. A mismatch of the sizes is logged only. -/
def readMemory (t : ProbeRsTransport) (cli : List String → Nat → CliRun) (address : Nat)
    (size : Int) : Except ProbeRsErr Bytes :=
  if size ≤ 0 then .ok []
  else if size > 4096 then
    .error (.valueError s!"read_memory: size {size} exceeds 4096-byte limit")
  else do
    let stdout ← t.runCli cli ["read", "b8", hexLiteral 8 address, toString size] defaultRetries
      "read_memory"
    .ok (parseHexOutput stdout)

/-- Two digits in either case. -/
def ByteToken (b : UInt8) (token : List Char) : Prop :=
  ∃ c d h l, token = [c, d] ∧ hexDigit c = some h ∧ hexDigit d = some l ∧ b.toNat = 16 * h + l

def isBlank (c : Char) : Bool := c = ' ' || c = '\t'

/-- `0x<address>:`, or nothing. -/
def AddressPrefix (p : List Char) : Prop :=
  p = [] ∨ ∃ blanks address, (∀ c ∈ blanks, isBlank c = true) ∧ address ≠ [] ∧
    (∀ c ∈ address, (hexDigit c).isSome = true) ∧ p = blanks ++ "0x".toList ++ address ++ [':']

/-- A line of byte tokens separated by blanks, with or without the address of the first. -/
def LineRendering (bs : Bytes) (line : List Char) : Prop :=
  ∃ p body, line = p ++ body ∧ AddressPrefix p ∧ List.Forall₂ ByteToken bs (wordsOn isBlank body)

/-- How `probe-rs read b8` prints some bytes, over lines in any way. -/
def Rendering (bs : Bytes) (stdout : List Char) : Prop :=
  ∃ parts : List Bytes, parts.flatten = bs ∧ List.Forall₂ LineRendering parts (stdout.splitOn '\n')

section
variable {b : UInt8} {bs : Bytes} {c : Char} {token line body stdout : List Char}

def hexChars : List Char := "0123456789ABCDEFabcdef".toList

theorem mem_hexChars {n : Nat} (h : hexDigit c = some n) : c ∈ hexChars := by
  have hcode {m : Nat} (hm : c.toNat = m) : c = Char.ofNat m := by
    rw [← hm, Char.ofNat_toNat]
  have hdigit : ∀ m ∈ List.range' 48 10, Char.ofNat m ∈ hexChars := by decide
  have hupper : ∀ m ∈ List.range' 65 6, Char.ofNat m ∈ hexChars := by decide
  have hlower : ∀ m ∈ List.range' 97 6, Char.ofNat m ∈ hexChars := by decide
  have hle {x y : Char} : x ≤ y ↔ x.toNat ≤ y.toNat := UInt32.le_iff_toNat_le
  rw [hcode rfl]
  rw [hexDigit] at h
  split at h
  · rename_i hc
    rw [hle, hle] at hc
    exact hdigit _ (List.mem_range'_1.2 ⟨hc.1, Nat.lt_succ_of_le hc.2⟩)
  split at h
  · rename_i hc
    rw [hle, hle] at hc
    exact hupper _ (List.mem_range'_1.2 ⟨hc.1, Nat.lt_succ_of_le hc.2⟩)
  split at h
  · rename_i hc
    rw [hle, hle] at hc
    exact hlower _ (List.mem_range'_1.2 ⟨hc.1, Nat.lt_succ_of_le hc.2⟩)
  · cases h

theorem hexDigit_plain {n : Nat} (h : hexDigit c = some n) :
    endsLine c = false ∧ isPySpace c = false ∧ c ≠ ':' ∧ hexDigit c.toLower = some n := by
  have hall : hexChars.all (fun c => !endsLine c && !isPySpace c && c ≠ ':' &&
      hexDigit c.toLower = hexDigit c) = true := by decide
  simpa [and_assoc, h] using List.all_eq_true.1 hall c (mem_hexChars h)

theorem parseToken_of_byteToken (h : ByteToken b token) : parseToken token = [b] := by
  obtain ⟨c, d, h, l, rfl, hc, hd, hb⟩ := h
  have hdigits : ([c, d].map Char.toLower).mapM hexDigit = some [h, l] := by
    rw [List.map_cons, List.map_cons, List.map_nil, List.mapM_cons, List.mapM_cons, List.mapM_nil,
      (hexDigit_plain hc).2.2.2, (hexDigit_plain hd).2.2.2]
    rfl
  have hbyte : UInt8.ofNat (16 * h + l) = b := by
    rw [← hb, UInt8.ofNat_toNat]
  rw [parseToken, hdigits]
  exact congrArg ([·]) hbyte

theorem flatMap_parseToken {tokens : List (List Char)} (h : List.Forall₂ ByteToken bs tokens) :
    tokens.flatMap parseToken = bs := by
  induction h with
  | nil => rfl
  | cons htoken _ ih =>
    rw [List.flatMap_cons, parseToken_of_byteToken htoken, ih]
    rfl

theorem words_pyStrip (line : List Char) :
    wordsOn isPySpace (pyStrip line) = wordsOn isPySpace line := by
  obtain ⟨a, b, hline, ha, hb⟩ := exists_pyStrip line
  conv_rhs => rw [hline]
  rw [wordsOn_pad_left ha, wordsOn_pad_right hb]

theorem notMem_of_space (h : ∀ c ∈ line, isPySpace c = true) : ':' ∉ line := fun hmem =>
  Bool.false_ne_true (h ':' hmem)

theorem words_behindColon_pyStrip (h : ':' ∈ line) :
    ':' ∈ pyStrip line ∧
      wordsOn isPySpace (behindColon (pyStrip line)) = wordsOn isPySpace (behindColon line) := by
  obtain ⟨a, b, hline, ha, hb⟩ := exists_pyStrip line
  have hmem : ':' ∈ pyStrip line := by
    rw [hline, List.mem_append, List.mem_append] at h
    rcases h with h | h | h
    · exact absurd h (notMem_of_space ha)
    · exact h
    · exact absurd h (notMem_of_space hb)
  have hhead : ∀ c ∈ a, decide (c ≠ ':') = true := fun c hc =>
    decide_eq_true fun hcolon => notMem_of_space ha (hcolon ▸ hc)
  have hkeep : (pyStrip line).dropWhile (· ≠ ':') ≠ [] := by
    intro hnil
    have hall := List.dropWhile_eq_nil_iff.1 hnil ':' hmem
    exact absurd hall (by decide)
  have hbehind : behindColon line = behindColon (pyStrip line) ++ b := by
    rw [behindColon, behindColon]
    conv_lhs => rw [hline]
    rw [List.dropWhile_append_of_pos hhead, List.dropWhile_append,
      if_neg (by simpa using hkeep), List.tail_append_of_ne_nil hkeep]
  rw [hbehind, wordsOn_pad_right hb]
  exact ⟨hmem, rfl⟩

theorem parseLine_eq (line : List Char) :
    parseLine line =
      (wordsOn isPySpace (if ':' ∈ line then behindColon line else line)).flatMap parseToken := by
  by_cases hcolon : ':' ∈ line
  · obtain ⟨hmem, hwords⟩ := words_behindColon_pyStrip hcolon
    rw [parseLine, if_neg (List.ne_nil_of_mem hmem), if_pos hmem, if_pos hcolon, words_pyStrip,
      hwords]
  · have hnone : ':' ∉ pyStrip line := fun h => by
      obtain ⟨a, b, hline, -, -⟩ := exists_pyStrip line
      rw [hline] at hcolon
      exact hcolon (List.mem_append_right a (List.mem_append_left b h))
    rw [parseLine, if_neg hnone, if_neg hcolon, words_pyStrip]
    split
    · rename_i hnil
      rw [← words_pyStrip, hnil, wordsOn_nil]
      rfl
    · rfl

theorem byteToken_of_mem {tokens : List (List Char)} (h : List.Forall₂ ByteToken bs tokens)
    (hmem : token ∈ tokens) : ∃ b, ByteToken b token := by
  induction h with
  | nil => cases hmem
  | cons htoken _ ih =>
    rcases List.mem_cons.1 hmem with rfl | hmem
    · exact ⟨_, htoken⟩
    · exact ih hmem

theorem isBlank_plain (h : isBlank c = true) :
    endsLine c = false ∧ isPySpace c = true ∧ c ≠ ':' := by
  rw [isBlank, Bool.or_eq_true, decide_eq_true_iff, decide_eq_true_iff] at h
  rcases h with rfl | rfl <;> exact ⟨rfl, rfl, by decide⟩

theorem mem_body (h : List.Forall₂ ByteToken bs (wordsOn isBlank body)) (hc : c ∈ body) :
    isBlank c = isPySpace c ∧ endsLine c = false ∧ c ≠ ':' := by
  cases hblank : isBlank c with
  | true =>
    obtain ⟨hends, hspace, hcolon⟩ := isBlank_plain hblank
    exact ⟨hspace.symm, hends, hcolon⟩
  | false =>
    obtain ⟨token, htoken, hmem⟩ := exists_mem_wordsOn hblank hc
    obtain ⟨b, d₁, d₂, n₁, n₂, rfl, h₁, h₂, -⟩ := byteToken_of_mem h htoken
    have hdigit : ∃ n, hexDigit c = some n := by
      rcases List.mem_cons.1 hmem with rfl | hmem
      · exact ⟨n₁, h₁⟩
      · rw [List.mem_singleton.1 hmem]
        exact ⟨n₂, h₂⟩
    obtain ⟨n, hn⟩ := hdigit
    obtain ⟨hends, hspace, hcolon, -⟩ := hexDigit_plain hn
    exact ⟨hspace.symm, hends, hcolon⟩

theorem mem_address {blanks address : List Char} (hblanks : ∀ c ∈ blanks, isBlank c = true)
    (haddress : ∀ c ∈ address, (hexDigit c).isSome = true)
    (hc : c ∈ blanks ++ "0x".toList ++ address) : endsLine c = false ∧ c ≠ ':' := by
  rcases List.mem_append.1 hc with hc | hc
  · rcases List.mem_append.1 hc with hc | hc
    · obtain ⟨hends, -, hcolon⟩ := isBlank_plain (hblanks c hc)
      exact ⟨hends, hcolon⟩
    · rcases List.mem_cons.1 hc with rfl | hc
      · exact ⟨rfl, by decide⟩
      · rw [List.mem_singleton.1 hc]
        exact ⟨rfl, by decide⟩
  · obtain ⟨n, hn⟩ := Option.isSome_iff_exists.1 (haddress c hc)
    obtain ⟨hends, -, hcolon, -⟩ := hexDigit_plain hn
    exact ⟨hends, hcolon⟩

theorem parseLine_of_lineRendering (h : LineRendering bs line) :
    parseLine line = bs ∧ ∀ c ∈ line, endsLine c = false := by
  obtain ⟨p, body, rfl, hp, hbody⟩ := h
  -- between tokens Python sees the blanks and nothing else
  have hwords : wordsOn isPySpace body = wordsOn isBlank body :=
    wordsOn_congr fun c hc => (mem_body hbody hc).1.symm
  have hends : ∀ c ∈ body, endsLine c = false := fun c hc => (mem_body hbody hc).2.1
  rw [parseLine_eq]
  rcases hp with rfl | ⟨blanks, address, hblanks, -, haddress, rfl⟩
  · have hnone : ':' ∉ [] ++ body := fun hc => (mem_body hbody hc).2.2 rfl
    rw [if_neg hnone, List.nil_append, hwords, flatMap_parseToken hbody]
    exact ⟨rfl, hends⟩
  · have hhead : ∀ c ∈ blanks ++ "0x".toList ++ address, decide (c ≠ ':') = true := fun c hc =>
      decide_eq_true (mem_address hblanks haddress hc).2
    have hbehind : behindColon (blanks ++ "0x".toList ++ address ++ [':'] ++ body) = body := by
      rw [behindColon, List.append_assoc _ [':'], List.dropWhile_append_of_pos hhead]
      rfl
    rw [if_pos (by simp), hbehind, hwords, flatMap_parseToken hbody]
    refine ⟨rfl, fun c hc => ?_⟩
    rcases List.mem_append.1 hc with hc | hc
    · rcases List.mem_append.1 hc with hc | hc
      · exact (mem_address hblanks haddress hc).1
      · rw [List.mem_singleton.1 hc]
        rfl
    · exact hends c hc

/-- Lines that only a line feed ends are those of `splitlines`, up to an empty last one. -/
theorem flatMap_splitLines {lines : List (List Char)} (hne : lines ≠ [])
    (h : ∀ l ∈ lines, ∀ c ∈ l, endsLine c = false) :
    (splitLines (['\n'].intercalate lines)).flatMap parseLine = lines.flatMap parseLine := by
  induction lines with
  | nil => exact absurd rfl hne
  | cons l lines ih =>
    rw [List.forall_mem_cons] at h
    cases lines with
    | nil =>
      rw [List.intercalate_singleton]
      cases l with
      | nil => rfl
      | cons c l => rw [splitLines_line h.1 (List.cons_ne_nil c l)]
    | cons k ks =>
      rw [List.intercalate_cons_cons, List.append_assoc, List.singleton_append,
        splitLines_append h.1, List.flatMap_cons, ih (List.cons_ne_nil k ks) h.2]
      rfl

theorem parseHexOutput_of_rendering (h : Rendering bs stdout) : parseHexOutput stdout = bs := by
  obtain ⟨parts, rfl, hparts⟩ := h
  have hlines {parts : List Bytes} {lines : List (List Char)}
      (h : List.Forall₂ LineRendering parts lines) :
      lines.flatMap parseLine = parts.flatten ∧ ∀ l ∈ lines, ∀ c ∈ l, endsLine c = false := by
    induction h with
    | nil => exact ⟨rfl, fun l hl => nomatch hl⟩
    | cons hline _ ih =>
      obtain ⟨hbytes, hends⟩ := parseLine_of_lineRendering hline
      rw [List.flatMap_cons, hbytes, ih.1, List.forall_mem_cons]
      exact ⟨rfl, hends, ih.2⟩
  obtain ⟨hbytes, hends⟩ := hlines hparts
  have hjoin := flatMap_splitLines (List.splitOn_ne_nil '\n' stdout) hends
  rw [List.intercalate_splitOn] at hjoin
  rw [parseHexOutput, hjoin, hbytes]

/-- What `read_memory` owes for an output of the tool: the bytes it renders, and an error for every
output that is no rendering of so many bytes. -/
def ReadsExactly (size : Nat) (stdout : List Char) (r : Except ProbeRsErr Bytes) : Prop :=
  (∀ bs : Bytes, bs.length = size → Rendering bs stdout → r = .ok bs) ∧
  ((¬ ∃ bs : Bytes, bs.length = size ∧ Rendering bs stdout) → ∃ msg, r = .error (.valueError msg))

variable {t : ProbeRsTransport} {cli : List String → Nat → CliRun} {address size : Nat}

theorem readMemory_eq (hsize : 0 < size ∧ size ≤ 4096)
    (hrun : t.runCli cli ["read", "b8", hexLiteral 8 address, toString (size : Int)] defaultRetries
      "read_memory" = .ok stdout) :
    t.readMemory cli address size = .ok (parseHexOutput stdout) := by
  rw [readMemory, if_neg (by omega), if_neg (by omega), hrun]
  rfl

/-- It does exactly for the renderings: every other output is taken for what is left of it. -/
theorem readMemory_exact_iff (t : ProbeRsTransport) (cli : List String → Nat → CliRun)
    (address size : Nat) (stdout : List Char) (hsize : 0 < size ∧ size ≤ 4096)
    (hrun : t.runCli cli ["read", "b8", hexLiteral 8 address, toString (size : Int)] defaultRetries
      "read_memory" = .ok stdout) :
    ReadsExactly size stdout (t.readMemory cli address size) ↔
      ∃ bs : Bytes, bs.length = size ∧ Rendering bs stdout := by
  rw [readMemory_eq hsize hrun]
  constructor
  · rintro ⟨-, hreject⟩
    by_contra hnone
    obtain ⟨msg, hmsg⟩ := hreject hnone
    cases hmsg
  · intro hsome
    refine ⟨fun bs _ hbs => ?_, fun hnone => absurd hsome hnone⟩
    rw [parseHexOutput_of_rendering hbs]

end

def probe : ProbeRsTransport := ⟨"STM32F407VG", "swd", 4000, some "/usr/bin/probe-rs"⟩

def prints (stdout : String) : List String → Nat → CliRun := fun _ _ =>
  .exited 0 stdout.toList []

theorem readMemory_two_bytes :
    ReadsExactly 2 "0x20048000: 0A ff\n".toList
      (probe.readMemory (prints "0x20048000: 0A ff\n") 0x20048000 (2 : Nat)) := by
  have haddress : "20048000".toList.all (fun c => (hexDigit c).isSome) = true := rfl
  have hline : LineRendering [10, 255] "0x20048000: 0A ff".toList :=
    ⟨"0x20048000:".toList, " 0A ff".toList, rfl,
      .inr ⟨[], "20048000".toList, nofun, nofun, List.all_eq_true.1 haddress, rfl⟩,
      .cons ⟨'0', 'A', 0, 10, rfl, rfl, rfl, rfl⟩
        (.cons ⟨'f', 'f', 15, 15, rfl, rfl, rfl, rfl⟩ .nil)⟩
  have hlast : LineRendering [] [] := ⟨[], [], rfl, .inl rfl, .nil⟩
  exact (readMemory_exact_iff probe _ 0x20048000 2 _ (by decide) rfl).2
    ⟨[10, 255], rfl, [[10, 255], []], rfl, .cons hline (.cons hlast .nil)⟩

/-- Of three tokens the middle one is damaged, and two bytes are returned. -/
theorem readMemory_skips_token :
    ¬ ReadsExactly 3 "0a zz 0c".toList
      (probe.readMemory (prints "0a zz 0c") 0x20048000 (3 : Nat)) := by
  rintro ⟨-, hreject⟩
  have hparse : parseHexOutput "0a zz 0c".toList = [10, 12] := by decide
  obtain ⟨msg, hmsg⟩ := hreject fun ⟨bs, hlen, hbs⟩ => by
    rw [← parseHexOutput_of_rendering hbs, hparse] at hlen
    cases hlen
  cases hmsg

end ProbeRsTransport

end MesCore
