import MesCore.Hardware
import MesCore.Occurrence

namespace MesCore
set_option autoImplicit true

def charIn (lo hi : Nat) (c : Char) : Bool := lo ≤ c.toNat && c.toNat ≤ hi

/-- What follows an escape character, if it completes a sequence of `ANSI_ESCAPE_REGEX`: the rest
of the text. -/
def escapeTail : List Char → Option (List Char)
  | [] => none
  | c :: cs =>
    if charIn 0x40 0x5A c || charIn 0x5C 0x5F c then some cs
    else if c = '[' then
      match (cs.dropWhile (charIn 0x30 0x3F)).dropWhile (charIn 0x20 0x2F) with
      | f :: rest => if charIn 0x40 0x7E f then some rest else none
      | [] => none
    else none

/-- `ANSI_ESCAPE_REGEX.sub('', text)`, for text of at most `fuel` characters. -/
def stripEscapesFrom : Nat → List Char → List Char
  | 0, cs => cs
  | _ + 1, [] => []
  | fuel + 1, c :: cs =>
    if c = Char.ofNat 0x1B then
      match escapeTail cs with
      | some rest => stripEscapesFrom fuel rest
      | none => c :: stripEscapesFrom fuel cs
    else c :: stripEscapesFrom fuel cs

def stripEscapes (cs : List Char) : List Char := stripEscapesFrom cs.length cs

/-- What `UartStreamParser.ingest` adds to the live buffer for a chunk. -/
def ingest (chunk : Bytes) : List Char := stripEscapes (decodeReplace chunk)

/-- `live_buffer` after these chunks, starting from a cleared parser. -/
def liveBuffer (chunks : List Bytes) : List Char := chunks.flatMap ingest

/-- The loop of `expect` over the chunks its queue delivers before the timeout: the cleaned
buffer once it holds the pattern. -/
def expectScan (pattern : Bytes) (raw : Bytes) : List Bytes → Option Bytes
  | [] => none
  | c :: cs =>
    if pattern <:+: stripAnsi (raw ++ c) then some (stripAnsi (raw ++ c))
    else expectScan pattern (raw ++ c) cs

/-- `s[:s.rfind(needle)]` and what follows that last occurrence, if there is one. -/
def splitLast (needle : List Char) : List Char → Option (List Char × List Char)
  | [] => if needle = [] then some ([], []) else none
  | c :: cs =>
    match splitLast needle cs with
    | some (before, after) => some (c :: before, after)
    | none => if needle <+: c :: cs then some ([], (c :: cs).drop needle.length) else none

def isUboot (expectedPrompt : String) : Bool :=
  ["=>", "U-Boot", "barebox", "Verdin"].any fun p => decide (occursIn p expectedPrompt)

def startMarker (token : String) : String := "__MES_START_" ++ token ++ "__"

def magicMarker (token : String) : String := "__MES_EXIT_" ++ token ++ "__"

/-- `cmd.replace("'", "'\\''")`. -/
def quoteCmd (cmd : String) : String :=
  String.ofList (cmd.toList.flatMap fun c => if c = '\'' then "'\\''".toList else [c])

/-- `injected_cmd`. -/
def injectedCmd (expectedPrompt token cmd : String) : String :=
  if isUboot expectedPrompt then cmd
  else "printf '\\n" ++ startMarker token ++ "\\n' ; sh -c '" ++ quoteCmd cmd ++
    "' ; printf '\\n" ++ magicMarker token ++ ":%d\\n' $?"

/-- The decimal digits of Unicode that `\d` and `int` know: the code points of their zeros. -/
def pyDigitZeros : List Nat :=
  [0x30, 0x660, 0x6F0, 0x7C0, 0x966, 0x9E6, 0xA66, 0xAE6, 0xB66, 0xBE6, 0xC66, 0xCE6, 0xD66,
   0xDE6, 0xE50, 0xED0, 0xF20, 0x1040, 0x1090, 0x17E0, 0x1810, 0x1946, 0x19D0, 0x1A80, 0x1A90,
   0x1B50, 0x1BB0, 0x1C40, 0x1C50, 0xA620, 0xA8D0, 0xA900, 0xA9D0, 0xA9F0, 0xAA50, 0xABF0, 0xFF10,
   0x104A0, 0x10D30, 0x11066, 0x110F0, 0x11136, 0x111D0, 0x112F0, 0x11450, 0x114D0, 0x11650,
   0x116C0, 0x11730, 0x118E0, 0x11950, 0x11C50, 0x11D50, 0x11DA0, 0x16A60, 0x16AC0, 0x16B50,
   0x1D7CE, 0x1D7D8, 0x1D7E2, 0x1D7EC, 0x1D7F6, 0x1E140, 0x1E2F0, 0x1E950, 0x1FBF0]

def pyDigit (c : Char) : Option Nat :=
  (pyDigitZeros.find? fun z => z ≤ c.toNat && c.toNat ≤ z + 9).map fun z => c.toNat - z

def isPyDigit (c : Char) : Bool := (pyDigit c).isSome

/-- `re.search(f'{magic_marker}:(\\d+)', stdout)`: the digits after the first marker that has
some. -/
def exitDigits (marker : List Char) : List Char → Option (List Char)
  | [] => none
  | c :: cs =>
    let digits := ((c :: cs).drop marker.length).takeWhile isPyDigit
    if marker <+: c :: cs ∧ digits ≠ [] then some digits else exitDigits marker cs

def digitsToInt (ds : List Char) : Int :=
  ds.foldl (fun n d => 10 * n + ((pyDigit d).getD 0 : Nat)) 0

def exitedOf (token : String) (raw : List Char) : Int :=
  match exitDigits ((magicMarker token).toList ++ [':']) raw with
  | some ds => digitsToInt ds
  | none => -2

/-- The output between the two markers, as far as they occur. -/
def betweenMarkers (token : String) (raw : List Char) : List Char :=
  let upTo := match splitLast (magicMarker token).toList raw with
    | some (before, _) => before
    | none => raw
  match splitLast (startMarker token).toList upTo with
  | some (_, after) => after
  | none => upTo

/-- `KERNEL_LOG_PATTERN.search(clean)` for `^\[\s*\d+\.\d+\]\s*`. -/
def isKernelLog : List Char → Bool
  | '[' :: cs =>
    let digits := cs.dropWhile isPySpace
    match digits.takeWhile isPyDigit, digits.dropWhile isPyDigit with
    | _ :: _, '.' :: frac =>
      match frac.takeWhile isPyDigit, frac.dropWhile isPyDigit with
      | _ :: _, ']' :: _ => true
      | _, _ => false
    | _, _ => false
  | _ => false

/-- The lines `safe_run` keeps. -/
def cleanLines (expectedPrompt : String) (stdout : List Char) : List (List Char) :=
  ((splitNewline stdout).map pyStrip).filter fun l =>
    !l.isEmpty && !decide (expectedPrompt.toList <:+: l) && !isKernelLog l

/-- `'\n'.join(lines)`. -/
def joinLines (lines : List (List Char)) : List Char := ['\n'].intercalate lines

def cleanStdout (expectedPrompt : String) (stdout : List Char) : List Char :=
  pyStrip (joinLines (cleanLines expectedPrompt stdout))

/-- What the console sent after the command was written: the chunks read before `expect` was
subscribed, and those its queue got before the timeout. -/
structure Reply where
  missed : List Bytes := []
  heard : List Bytes := []
  executed : Bool := false

/-- The result of `safe_run` once `expect` has found the prompt. -/
def promptResult (expectedPrompt token : String) (raw : List Char) : CommandResult :=
  if isUboot expectedPrompt then
    let out := cleanStdout expectedPrompt raw
    let failed := "Unknown command".toList <:+: out ∨ "Error".toList <:+: out
    { stdout := String.ofList out, exited := if failed then 1 else 0, ok := ¬ failed }
  else
    { stdout := String.ofList (cleanStdout expectedPrompt (betweenMarkers token raw))
      exited := exitedOf token raw
      ok := exitedOf token raw = 0 }

/-- The result of `safe_run` when `expect` times out: whatever the parser holds. -/
def timeoutResult (expectedPrompt : String) (reply : Reply) : CommandResult :=
  { stdout := String.ofList (liveBuffer (reply.missed ++ reply.heard))
    stderr := s!"UART Expect Timeout: '{expectedPrompt}' not found."
    exited := -1
    ok := false }

/-- `safe_run` of a command that is not blank, from the reply of the console. -/
def safeRunResult (expectedPrompt token : String) (reply : Reply) : CommandResult :=
  match expectScan (encodeUtf8 expectedPrompt.toList) [] reply.heard with
  | some raw => promptResult expectedPrompt token (decodeReplace raw)
  | none => timeoutResult expectedPrompt reply

/-- A number of milliseconds as Python prints the seconds. -/
def secondsText (ms : Nat) : String :=
  let pad := "000".toList ++ (toString (ms % 1000)).toList
  let frac := ((pad.drop (pad.length - 3)).reverse.dropWhile (· = '0')).reverse
  toString (ms / 1000) ++ "." ++ if frac = [] then "0" else String.ofList frac

/-- The `check_exit_code` clauses of `safe_run`. -/
def checkedResult (cmd : String) (timeoutMs : Nat) (check : Bool) (res : CommandResult) :
    Except Err CommandResult :=
  if check && !res.ok then
    if res.stderr = "" then
      .error (.runtimeError
        s!"UART Command '{cmd}' failed with exit code {res.exited}:\n{res.stdout}")
    else .error (.runtimeError s!"UART Command '{cmd}' timed out after {secondsText timeoutMs}s")
  else .ok res

theorem pyStrip_isInfix (s : List Char) : pyStrip s <:+: s := by
  have hright (t : List Char) : (t.reverse.dropWhile isPySpace).reverse <:+: t := by
    have h := List.reverse_prefix.2 (List.dropWhile_suffix (l := t.reverse) isPySpace)
    rw [List.reverse_reverse] at h
    exact h.isInfix
  exact (hright _).trans (List.dropWhile_suffix _).isInfix

theorem splitNewline_cons (s : List Char) :
    ∃ l ls, splitNewline s = l :: ls ∧ l <+: s ∧ ∀ k ∈ ls, k <:+: s := by
  induction s with
  | nil => exact ⟨[], [], rfl, List.nil_prefix, by simp⟩
  | cons c s ih =>
    obtain ⟨l, ls, hs, hl, hls⟩ := ih
    have htail (k : List Char) (hk : k <:+: s) : k <:+: c :: s :=
      hk.trans (List.suffix_cons c s).isInfix
    rw [splitNewline, hs]
    split
    · refine ⟨[], l :: ls, rfl, List.nil_prefix, ?_⟩
      intro k hk
      rcases List.mem_cons.1 hk with rfl | hk
      · exact htail k hl.isInfix
      · exact htail k (hls k hk)
    · exact ⟨c :: l, ls, rfl, List.cons_prefix_cons.2 ⟨rfl, hl⟩, fun k hk => htail k (hls k hk)⟩

theorem splitNewline_isInfix {s l : List Char} (h : l ∈ splitNewline s) : l <:+: s := by
  obtain ⟨k, ls, hs, hk, hls⟩ := splitNewline_cons s
  rw [hs] at h
  rcases List.mem_cons.1 h with rfl | h
  · exact hk.isInfix
  · exact hls l h

theorem joinLines_cons_cons (l k : List Char) (ks : List (List Char)) :
    joinLines (l :: k :: ks) = l ++ '\n' :: joinLines (k :: ks) := by
  rw [joinLines, List.intercalate_cons_cons, List.append_assoc]
  rfl

theorem infix_joinLines_iff {x : List Char} {lines : List (List Char)} (hx : '\n' ∉ x)
    (hne : x ≠ []) : x <:+: joinLines lines ↔ ∃ l ∈ lines, x <:+: l := by
  induction lines with
  | nil =>
    apply iff_of_false
    · exact fun h => hne (List.infix_nil.1 h)
    · simp
  | cons l ls ih =>
    rw [List.exists_mem_cons_iff, ← ih]
    cases ls with
    | nil =>
      have hnil : ¬ x <:+: joinLines [] := fun h => hne (List.infix_nil.1 h)
      rw [joinLines, List.intercalate_singleton, or_iff_left hnil]
    | cons k ks =>
      rw [joinLines_cons_cons]
      constructor
      · exact infix_append_cons hx
      · intro h
        rcases h with h | h
        · exact h.trans (List.prefix_append ..).isInfix
        · exact h.trans ((List.suffix_cons _ _).trans (List.suffix_append ..)).isInfix

end MesCore
