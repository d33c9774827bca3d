import MesCore.ProbeRsMemory
import MesCore.PyNumbers

namespace MesCore
set_option autoImplicit true

open NvmemEfuseValidator (hexDigit)
open ProbeRsTransport (behindColon words_pyStrip)

def hexValue (ds : List Nat) : Nat := ds.foldl (fun n d => 16 * n + d) 0

/-- Decimal digits of other scripts become those of ASCII. -/
def asciiDecimal (c : Char) : Char := ((pyDigit c).map Nat.digitChar).getD c

/-- Digits of base sixteen with single underscores between them; behind a digit one may follow. -/
def hexDigits : Bool → List Char → Option (List Nat)
  | behind, [] => if behind then some [] else none
  | behind, c :: cs =>
    if c = '_' then
      if behind then hexDigits false cs else none
    else do
      let d ← hexDigit c
      let ds ← hexDigits true cs
      return d :: ds

/-- `int(text, 16)` of a text without white space at its ends. -/
def strippedInt16 (text : List Char) : Option Int :=
  let (sign, body) := splitSign (text.map asciiDecimal)
  let digits := match body with
    | '0' :: 'x' :: cs | '0' :: 'X' :: cs => hexDigits true cs
    | cs => hexDigits false cs
  match digits with
  | none | some [] => none
  | some ds => some (withSign sign (hexValue ds : Int))

/-- `int(text, 16)`. -/
def pyInt16 (text : List Char) : Option Int := strippedInt16 (pyStrip text)

/-- `f'{n:02x}'` of a byte. -/
def hexPair (n : Nat) : List Char := [Nat.digitChar (n / 16), Nat.digitChar (n % 16)]

/-- An `int` or a `str`. -/
inductive HexArg
  | int (n : Int)
  | str (text : List Char)

namespace I2cBus

/-- `_format_hex`. -/
def formatHex : HexArg → List Char
  | .int n => (if n < 0 then ['-'] else []) ++ '0' :: 'x' :: Nat.toDigits 16 n.natAbs
  | .str text => if "0x".toList <+: text then text else '0' :: 'x' :: text

def wordAddress (word : List Char) : Option Int :=
  if word = "--".toList ∨ word = "UU".toList then none else pyInt16 word

/-- `line.split(':')[1]`. -/
def secondField (line : List Char) : List Char := (behindColon line).takeWhile (· ≠ ':')

def lineAddresses (line : List Char) : List Int :=
  if ':' ∈ line then (wordsOn isPySpace (pyStrip (secondField line))).filterMap wordAddress else []

/-- `_parse_i2cdetect`. -/
def parseI2cdetect (stdout : List Char) : List Int := (splitLines stdout).flatMap lineAddresses

/-- What `i2cdetect` finds at an address. -/
inductive Probe
  | skipped
  | silent
  | busy
  | answers
  deriving DecidableEq

/-- How `i2cdetect` prints it. -/
def cell (probe : Nat → Probe) (address : Nat) : List Char :=
  match probe address with
  | .skipped => "   ".toList
  | .silent => "-- ".toList
  | .busy => "UU ".toList
  | .answers => hexPair address ++ [' ']

def row (probe : Nat → Probe) (first : Nat) : List Char :=
  hexPair first ++ ':' :: ' ' :: (List.range' first 16).flatMap (cell probe)

def table (probe : Nat → Probe) : List (List Char) :=
  (List.range 8).map fun i => row probe (16 * i)

/-- A line in which no address is read. -/
def Quiet (line : List Char) : Prop := lineAddresses line = []

/-- These rows in their order, up to blanks at their ends, and between them quiet lines. -/
inductive Among : List (List Char) → List (List Char) → Prop
  | nil : Among [] []
  | row (blanks : List Char) (hblank : ∀ c ∈ blanks, isPySpace c = true) :
      Among rows lines → Among ((line ++ blanks) :: rows) (line :: lines)
  | noise (hquiet : Quiet line) : Among rows lines → Among rows (line :: lines)

theorem wordAddress_hexPair : ∀ a < 256, wordAddress (hexPair a) = some (a : Int) := by
  decide +kernel

theorem hexPair_solid : ∀ a < 256, ∀ c ∈ hexPair a, isPySpace c = false ∧ c ≠ ':' := by
  have hall : ∀ a < 256,
      (hexPair a).all (fun c => decide (isPySpace c = false ∧ c ≠ ':')) = true := by
    decide +kernel
  exact fun a ha => forall_mem_of_all (hall a ha)

theorem cell_words (probe : Nat → Probe) {a : Nat} (ha : a < 256) (t : List Char) :
    (wordsOn isPySpace (cell probe a ++ t)).filterMap wordAddress =
      (if probe a = .answers then [(a : Int)] else []) ++
        (wordsOn isPySpace t).filterMap wordAddress := by
  have hword {w : List Char} (hne : w ≠ []) (hsolid : ∀ c ∈ w, isPySpace c = false) :
      wordsOn isPySpace (w ++ [' '] ++ t) = w :: wordsOn isPySpace t := by
    rw [List.append_assoc, List.singleton_append, wordsOn_append_cons (by decide),
      wordsOn_word hne hsolid, List.singleton_append]
  cases hprobe : probe a with
  | skipped =>
    have hcell : cell probe a = "   ".toList := by rw [cell, hprobe]
    rw [hcell, wordsOn_pad_left (forall_mem_of_all (by decide))]
    rfl
  | silent =>
    have hcell : cell probe a = "--".toList ++ [' '] := by rw [cell, hprobe]; rfl
    rw [hcell, hword (by decide) (forall_mem_of_all (by decide)),
      List.filterMap_cons_none (by decide)]
    rfl
  | busy =>
    have hcell : cell probe a = "UU".toList ++ [' '] := by rw [cell, hprobe]; rfl
    rw [hcell, hword (by decide) (forall_mem_of_all (by decide)),
      List.filterMap_cons_none (by decide)]
    rfl
  | answers =>
    have hcell : cell probe a = hexPair a ++ [' '] := by rw [cell, hprobe]
    rw [hcell, hword (w := hexPair a) (List.cons_ne_nil _ _) fun c hc =>
        (hexPair_solid a ha c hc).1,
      List.filterMap_cons_some (wordAddress_hexPair a ha)]
    rfl

theorem cells_words (probe : Nat → Probe) {l : List Nat} (hl : ∀ a ∈ l, a < 256) :
    (wordsOn isPySpace (l.flatMap (cell probe))).filterMap wordAddress =
      (l.filter (probe · = .answers)).map Int.ofNat := by
  induction l with
  | nil => rfl
  | cons a l ih =>
    rw [List.forall_mem_cons] at hl
    rw [List.flatMap_cons, cell_words probe hl.1, ih hl.2, List.filter_cons]
    by_cases hprobe : probe a = .answers
    · rw [if_pos hprobe, if_pos (decide_eq_true hprobe)]
      rfl
    · rw [if_neg hprobe, if_neg (by simpa using hprobe), List.nil_append]

theorem colon_notMem_cells (probe : Nat → Probe) {l : List Nat} (hl : ∀ a ∈ l, a < 256) :
    ':' ∉ l.flatMap (cell probe) := by
  intro hmem
  obtain ⟨a, ha, hmem⟩ := List.mem_flatMap.1 hmem
  rw [cell] at hmem
  cases hprobe : probe a with
  | skipped => simp [hprobe] at hmem
  | silent => simp [hprobe] at hmem
  | busy => simp [hprobe] at hmem
  | answers =>
    rw [hprobe] at hmem
    rcases List.mem_append.1 hmem with hmem | hmem
    · exact (hexPair_solid a (hl a ha) _ hmem).2 rfl
    · cases List.mem_singleton.1 hmem

theorem secondField_eq {u : List Char} (hu : ':' ∉ u) (v : List Char) :
    secondField (u ++ ':' :: v) = v.takeWhile (· ≠ ':') := by
  have hall (c : Char) (hc : c ∈ u) : decide (c ≠ ':') = true :=
    decide_eq_true fun heq => hu (heq ▸ hc)
  rw [secondField, behindColon, List.dropWhile_append_of_pos hall,
    List.dropWhile_cons_of_neg (by simp), List.tail_cons]

theorem takeWhile_eq_self {v : List Char} (hv : ':' ∉ v) : v.takeWhile (· ≠ ':') = v :=
  List.takeWhile_eq_self_iff.2 fun _ hc => decide_eq_true fun heq => hv (heq ▸ hc)

theorem lineAddresses_pad {blanks : List Char} (hblank : ∀ c ∈ blanks, isPySpace c = true)
    (line : List Char) : lineAddresses (line ++ blanks) = lineAddresses line := by
  have hcolon : ':' ∉ blanks := fun hmem => absurd (hblank _ hmem) (by decide)
  by_cases hmem : ':' ∈ line
  · obtain ⟨u, v, rfl, hu⟩ := List.eq_append_cons_of_mem hmem
    have hwords : wordsOn isPySpace ((v ++ blanks).takeWhile (· ≠ ':')) =
        wordsOn isPySpace (v.takeWhile (· ≠ ':')) := by
      rw [List.takeWhile_append]
      split
      · rename_i hlen
        rw [takeWhile_eq_self hcolon, wordsOn_pad_right hblank,
          (List.takeWhile_prefix _).eq_of_length hlen]
      · rfl
    rw [lineAddresses, if_pos (List.mem_append_left _ hmem), lineAddresses, if_pos hmem,
      List.append_assoc, List.cons_append, secondField_eq hu, secondField_eq hu, words_pyStrip,
      words_pyStrip, hwords]
  · rw [lineAddresses, lineAddresses, if_neg hmem, if_neg]
    intro h
    rcases List.mem_append.1 h with h | h
    · exact hmem h
    · exact hcolon h

theorem Among.addresses {rows lines : List (List Char)} (h : Among rows lines) :
    lines.flatMap lineAddresses = rows.flatMap lineAddresses := by
  induction h with
  | nil => rfl
  | row blanks hblank _ ih =>
    rw [List.flatMap_cons, List.flatMap_cons, lineAddresses_pad hblank, ih]
  | noise hquiet _ ih =>
    rw [List.flatMap_cons, ih]
    exact congrArg (· ++ _) hquiet

theorem lineAddresses_row (probe : Nat → Probe) {first : Nat} (hfirst : first + 16 ≤ 256) :
    lineAddresses (row probe first) =
      ((List.range' first 16).filter (probe · = .answers)).map Int.ofNat := by
  have hl : ∀ a ∈ List.range' first 16, a < 256 := by
    intro a ha
    have hlt := (List.mem_range'_1.1 ha).2
    omega
  have hhead : ':' ∉ hexPair first := fun hmem =>
    (hexPair_solid first (by omega) _ hmem).2 rfl
  have hcells : ':' ∉ ' ' :: (List.range' first 16).flatMap (cell probe) := by
    intro hmem
    rcases List.mem_cons.1 hmem with heq | hmem
    · cases heq
    · exact colon_notMem_cells probe hl hmem
  rw [lineAddresses, row, if_pos (List.mem_append_right _ List.mem_cons_self), secondField_eq hhead,
    takeWhile_eq_self hcells, words_pyStrip, wordsOn_cons (by decide), cells_words probe hl]

theorem table_addresses (probe : Nat → Probe) : (table probe).flatMap lineAddresses =
    ((List.range 128).filter (probe · = .answers)).map Int.ofNat := by
  have hrange : List.range 128 = (List.range 8).flatMap fun i => List.range' (16 * i) 16 := by
    decide
  have hrow (i : Nat) (hi : i ∈ List.range 8) : lineAddresses (row probe (16 * i)) =
      ((List.range' (16 * i) 16).filter (probe · = .answers)).map Int.ofNat := by
    have hlt := List.mem_range.1 hi
    exact lineAddresses_row probe (by omega)
  rw [hrange, List.filter_flatMap, List.map_flatMap, table, List.flatMap_map]
  exact List.flatMap_congr hrow

end I2cBus

/-- `detect` finds the addresses that answer, in their order, whatever range `i2cdetect` scans and
whatever else it prints in lines without an address. -/
theorem i2c_detect (probe : Nat → I2cBus.Probe) {stdout : List Char}
    (h : I2cBus.Among (I2cBus.table probe) (splitLines stdout)) : I2cBus.parseI2cdetect stdout =
      ((List.range 128).filter (probe · = .answers)).map Int.ofNat := by
  rw [I2cBus.parseI2cdetect, h.addresses, I2cBus.table_addresses]

namespace I2cBus

theorem Among.behind {rows noise : List (List Char)} (h : ∀ line ∈ noise, Quiet line) :
    Among rows (noise ++ rows) := by
  induction noise with
  | nil =>
    induction rows with
    | nil => exact .nil
    | cons row rows ih =>
      have hrow : Among ((row ++ []) :: rows) (row :: rows) :=
        ih.row [] fun c hc => (List.not_mem_nil hc).elim
      rwa [List.append_nil] at hrow
  | cons line noise ih =>
    rw [List.forall_mem_cons] at h
    exact .noise h.1 (ih h.2)

/-- Two chips on a bus that is scanned from `0x08` to `0x77`. -/
def twoChips (address : Nat) : Probe :=
  if address < 0x08 ∨ 0x77 < address then .skipped
  else if address = 0x42 ∨ address = 0x50 then .answers
  else .silent

def scanHead : List (List Char) :=
  ["", "WARNING! This program can confuse your I2C bus, cause data loss and worse!",
    "I will probe file /dev/i2c-1.", "I will probe address range 0x08-0x77.",
    "Continue? [Y/n] ",
    "     0  1  2  3  4  5  6  7  8  9  a  b  c  d  e  f"].map String.toList

def scanStdout : List Char := (scanHead ++ table twoChips).flatMap (· ++ ['\n'])

end I2cBus

theorem i2c_detect_two : I2cBus.parseI2cdetect I2cBus.scanStdout = [0x42, 0x50] := by
  have hlines : splitLines I2cBus.scanStdout = I2cBus.scanHead ++ I2cBus.table I2cBus.twoChips := by
    decide +kernel
  have hquiet : ∀ line ∈ I2cBus.scanHead, I2cBus.lineAddresses line = [] := by decide +kernel
  have hamong : I2cBus.Among (I2cBus.table I2cBus.twoChips) (splitLines I2cBus.scanStdout) :=
    hlines ▸ I2cBus.Among.behind hquiet
  exact (i2c_detect I2cBus.twoChips hamong).trans (by decide +kernel)

/-- `dut.safe_run(cmd, check_exit_code=True)`. -/
abbrev CheckedRun (σ : Type) := String → StateT σ (Except Err) CommandResult

namespace I2cBus

def text (parts : List (List Char)) : String := String.ofList ([' '].intercalate parts)

def getCmd (bus : Int) (chip data : List Char) : String :=
  text ["i2cget".toList, "-y".toList, (toString bus).toList, chip, data]

def setCmd (bus : Int) (chip data value : List Char) : String :=
  text ["i2cset".toList, "-y".toList, (toString bus).toList, chip, data, value]

section
variable {σ : Type} (run : CheckedRun σ)

def detect (bus : Int) : StateT σ (Except Err) (List Int) := do
  let res ← run s!"i2cdetect -y {bus}"
  return parseI2cdetect res.stdout.toList

def getByte (bus : Int) (chipAddr dataAddr : HexArg) : StateT σ (Except Err) Int := do
  let res ← run (getCmd bus (formatHex chipAddr) (formatHex dataAddr))
  match pyInt16 res.stdout.toList with
  | some v => return v
  | none => throw (.otherException
      s!"invalid literal for int() with base 16: '{String.ofList (pyStrip res.stdout.toList)}'")

def setByte (bus : Int) (chipAddr dataAddr value : HexArg) : StateT σ (Except Err) Unit := do
  let _ ← run (setCmd bus (formatHex chipAddr) (formatHex dataAddr) (formatHex value))

/-- A call of the two. -/
inductive Call
  | get (bus : Int) (chipAddr dataAddr : HexArg)
  | set (bus : Int) (chipAddr dataAddr value : HexArg)

def perform : Call → StateT σ (Except Err) (Option Int)
  | .get bus chip data => do
    let v ← getByte run bus chip data
    return some v
  | .set bus chip data value => do
    setByte run bus chip data value
    return none

def performAll : List Call → StateT σ (Except Err) (List (Option Int))
  | [] => return []
  | c :: cs => do
    let answer ← perform run c
    let answers ← performAll cs
    return answer :: answers

end

def digitsValue (cs : List Char) : Option Nat :=
  if cs = [] then none else (cs.mapM hexDigit).map hexValue

/-- A hexadecimal literal of C, as `strtol` reads it. -/
def literal : List Char → Option Nat
  | '0' :: 'x' :: cs => digitsValue cs
  | _ => none

end I2cBus

/-- The byte of each register of each chip on each bus that can be read and written. -/
def RegisterFile := Int → Nat → Nat → Option UInt8

def RegisterFile.set (regs : RegisterFile) (bus : Int) (chip data : Nat) (value : UInt8) :
    RegisterFile :=
  fun b c d => if b = bus ∧ c = chip ∧ d = data then some value else regs b c d

def HexArg.value : HexArg → Option Nat
  | .int n => if 0 ≤ n then some n.toNat else none
  | .str ('0' :: 'x' :: cs) => I2cBus.digitsValue cs
  | .str cs => I2cBus.digitsValue cs

namespace I2cBus

def Call.on (regs : RegisterFile) : Call → Option (Option Int × RegisterFile)
  | .get bus chip data => do
    let c ← chip.value
    let d ← data.value
    let v ← regs bus c d
    return (some (v.toNat : Int), regs)
  | .set bus chip data value => do
    let c ← chip.value
    let d ← data.value
    let v ← value.value
    let _ ← regs bus c d
    if v < 256 then return (none, regs.set bus c d (UInt8.ofNat v)) else none

def callsOn (regs : RegisterFile) : List Call → Option (List (Option Int) × RegisterFile)
  | [] => some ([], regs)
  | c :: cs => do
    let (answer, regs) ← c.on regs
    let (answers, regs) ← callsOn regs cs
    return (answer :: answers, regs)

/-- The numbers of a call are numbers. -/
def Call.Proper : Call → Prop
  | .get _ chip data => chip.value.isSome = true ∧ data.value.isSome = true
  | .set _ chip data value =>
    chip.value.isSome = true ∧ data.value.isSome = true ∧ value.value.isSome = true

/-- `i2cget` and `i2cset` work on these registers, and they fail on a register that is not there and
on a value that is no byte. -/
structure Tools {σ : Type} (run : CheckedRun σ) (regs : σ → RegisterFile) : Prop where
  get (s : σ) (bus : Int) : literal c = some chip → literal d = some data →
    regs s bus chip data = some v → ∃ res s', run (getCmd bus c d) s = .ok (res, s') ∧
      pyStrip res.stdout.toList = "0x".toList ++ hexPair v.toNat ∧ regs s' = regs s
  getFails (s : σ) (bus : Int) : literal c = some chip → literal d = some data →
    regs s bus chip data = none → ∃ e, run (getCmd bus c d) s = .error e
  set (s : σ) (bus : Int) : literal c = some chip → literal d = some data → literal v = some value →
    (regs s bus chip data).isSome = true → value < 256 →
    ∃ res s', run (setCmd bus c d v) s = .ok (res, s') ∧
      regs s' = (regs s).set bus chip data (UInt8.ofNat value)
  setFails (s : σ) (bus : Int) : literal c = some chip → literal d = some data →
    literal v = some value → (regs s bus chip data = none ∨ 256 ≤ value) →
    ∃ e, run (setCmd bus c d v) s = .error e

theorem digitsValue_toDigits (n : Nat) : digitsValue (Nat.toDigits 16 n) = some n := by
  have hdigit : ∀ d < 16, hexDigit (Nat.digitChar d) = some d := by decide
  have hvalue : ∃ ds, (Nat.toDigits 16 n).mapM hexDigit = some ds ∧ hexValue ds = n := by
    induction n using Nat.strongRecOn with
    | ind n ih =>
      rw [Nat.toDigits_eq_if (by decide)]
      split
      · rename_i hlt
        refine ⟨[n], ?_, Nat.zero_add n⟩
        rw [List.mapM_cons, hdigit n hlt]
        rfl
      · obtain ⟨ds, hds, hn⟩ := ih (n / 16) (by omega)
        refine ⟨ds ++ [n % 16], ?_, ?_⟩
        · rw [List.mapM_append, hds, List.mapM_cons, hdigit _ (Nat.mod_lt n (by decide))]
          rfl
        · rw [hexValue, List.foldl_append]
          show 16 * hexValue ds + n % 16 = n
          omega
  obtain ⟨ds, hds, hn⟩ := hvalue
  rw [digitsValue, if_neg Nat.toDigits_ne_nil, hds, Option.map_some, hn]

theorem literal_formatHex (a : HexArg) : literal (formatHex a) = a.value := by
  cases a with
  | int n =>
    rw [formatHex, HexArg.value]
    by_cases hn : 0 ≤ n
    · rw [if_neg (by omega), if_pos hn, List.nil_append, literal, digitsValue_toDigits]
      exact congrArg some (by omega)
    · rw [if_pos (by omega), if_neg hn]
      rfl
  | str text =>
    rw [formatHex]
    split
    · rename_i h
      obtain ⟨cs, rfl⟩ := h
      rfl
    · rename_i h
      rw [literal, HexArg.value]
      rintro cs rfl
      exact h (List.prefix_append _ cs)

theorem strippedInt16_hexPair : ∀ v < 256,
    strippedInt16 ("0x".toList ++ hexPair v) = some (v : Int) := by
  decide +kernel

/-- A result of the board is that of the registers. -/
def Agrees {σ : Type} (regs : σ → RegisterFile) (r : Except Err (α × σ)) :
    Option (α × RegisterFile) → Prop
  | some (answer, file) => ∃ s, r = .ok (answer, s) ∧ regs s = file
  | none => ∃ e, r = .error e

section
variable {σ : Type} {run : CheckedRun σ} {regs : σ → RegisterFile}

theorem bind_ok {x : StateT σ (Except Err) α} {f : α → StateT σ (Except Err) β} {s s' : σ} {a : α}
    (h : x s = .ok (a, s')) : (x >>= f) s = f a s' := by
  show Except.bind (x s) _ = _
  rw [h]
  rfl

theorem bind_error {x : StateT σ (Except Err) α} {f : α → StateT σ (Except Err) β} {s : σ} {e : Err}
    (h : x s = .error e) : (x >>= f) s = .error e := by
  show Except.bind (x s) _ = _
  rw [h]
  rfl

theorem Tools.perform (h : Tools run regs) {c : Call} (hc : c.Proper) (s : σ) :
    Agrees regs (perform run c s) (c.on (regs s)) := by
  cases c with
  | get bus chip data =>
    obtain ⟨c, hchip⟩ := Option.isSome_iff_exists.1 hc.1
    obtain ⟨d, hdata⟩ := Option.isSome_iff_exists.1 hc.2
    have hlc := (literal_formatHex chip).trans hchip
    have hld := (literal_formatHex data).trans hdata
    have hon : (Call.get bus chip data).on (regs s) =
        (regs s bus c d).bind fun v => some (some (v.toNat : Int), regs s) := by
      rw [Call.on, hchip, hdata]
      rfl
    cases hv : regs s bus c d with
    | none =>
      obtain ⟨e, he⟩ := h.getFails s bus hlc hld hv
      have hget : getByte run bus chip data s = .error e := bind_error he
      rw [hon, hv]
      exact ⟨e, bind_error hget⟩
    | some v =>
      obtain ⟨res, s', hrun, hout, hregs⟩ := h.get s bus hlc hld hv
      have hparse : pyInt16 res.stdout.toList = some (v.toNat : Int) := by
        rw [pyInt16, hout]
        exact strippedInt16_hexPair v.toNat v.toNat_lt
      have hget : getByte run bus chip data s = .ok ((v.toNat : Int), s') := by
        rw [getByte, bind_ok hrun, hparse]
        rfl
      rw [hon, hv]
      exact ⟨s', bind_ok hget, hregs⟩
  | set bus chip data value =>
    obtain ⟨c, hchip⟩ := Option.isSome_iff_exists.1 hc.1
    obtain ⟨d, hdata⟩ := Option.isSome_iff_exists.1 hc.2.1
    obtain ⟨v, hvalue⟩ := Option.isSome_iff_exists.1 hc.2.2
    have hlc := (literal_formatHex chip).trans hchip
    have hld := (literal_formatHex data).trans hdata
    have hlv := (literal_formatHex value).trans hvalue
    have hon : (Call.set bus chip data value).on (regs s) = (regs s bus c d).bind fun _ =>
        if v < 256 then some (none, (regs s).set bus c d (UInt8.ofNat v)) else none := by
      rw [Call.on, hchip, hdata, hvalue]
      rfl
    have hfails (hbad : regs s bus c d = none ∨ 256 ≤ v) :
        ∃ e, I2cBus.perform run (.set bus chip data value) s = .error e := by
      obtain ⟨e, he⟩ := h.setFails s bus hlc hld hlv hbad
      have hset : setByte run bus chip data value s = .error e := bind_error he
      exact ⟨e, bind_error hset⟩
    cases hold : regs s bus c d with
    | none =>
      rw [hon, hold]
      exact hfails (.inl hold)
    | some old =>
      rw [hon, hold, Option.bind_some]
      by_cases hlt : v < 256
      · obtain ⟨res, s', hrun, hregs⟩ := h.set s bus hlc hld hlv (hold ▸ rfl) hlt
        have hset : setByte run bus chip data value s = .ok ((), s') := bind_ok hrun
        rw [if_pos hlt]
        exact ⟨s', bind_ok hset, hregs⟩
      · rw [if_neg hlt]
        exact hfails (.inr (Nat.le_of_not_lt hlt))

end

end I2cBus

/-- `get_byte` and `set_byte` are those of a register file, however the numbers of the calls are
written: each get answers with the byte that was set last. -/
theorem i2c_registers {σ : Type} {run : CheckedRun σ} {regs : σ → RegisterFile}
    (h : I2cBus.Tools run regs) {cs : List I2cBus.Call} (hcs : ∀ c ∈ cs, c.Proper) (s : σ) :
    I2cBus.Agrees regs (I2cBus.performAll run cs s) (I2cBus.callsOn (regs s) cs) := by
  induction cs generalizing s with
  | nil => exact ⟨s, rfl, rfl⟩
  | cons c cs ih =>
    rw [List.forall_mem_cons] at hcs
    have hone := h.perform hcs.1 s
    rw [I2cBus.performAll, I2cBus.callsOn]
    cases hon : c.on (regs s) with
    | none =>
      rw [hon] at hone
      obtain ⟨e, he⟩ := hone
      exact ⟨e, I2cBus.bind_error he⟩
    | some r =>
      obtain ⟨answer, file⟩ := r
      rw [hon] at hone
      obtain ⟨s₁, hok, hregs⟩ := hone
      have hrest := ih hcs.2 s₁
      rw [hregs] at hrest
      show I2cBus.Agrees regs _ ((I2cBus.callsOn file cs).bind _)
      cases hcalls : I2cBus.callsOn file cs with
      | none =>
        rw [hcalls] at hrest
        obtain ⟨e, he⟩ := hrest
        exact ⟨e, (I2cBus.bind_ok hok).trans (I2cBus.bind_error he)⟩
      | some r =>
        obtain ⟨answers, file'⟩ := r
        rw [hcalls] at hrest
        obtain ⟨s₂, hok₂, hregs₂⟩ := hrest
        exact ⟨s₂, (I2cBus.bind_ok hok).trans (I2cBus.bind_ok hok₂), hregs₂⟩

namespace I2cBus

/-- An EEPROM at `0x50` of bus 1. -/
def eeprom (memory : Nat → UInt8) : RegisterFile := fun bus chip data =>
  if bus = 1 ∧ chip = 0x50 ∧ data < 256 then some (memory data) else none

/-- What the tools do on a board with nothing but the EEPROM. -/
def eepromRun : CheckedRun (Nat → UInt8) := fun cmd memory =>
  match wordsOn (· == ' ') cmd.toList with
  | [tool, flag, bus, c, d] =>
    match literal c, literal d with
    | some chip, some data =>
      if tool = "i2cget".toList ∧ flag = "-y".toList ∧ bus = "1".toList ∧ chip = 0x50 ∧ data < 256
      then .ok ({ stdout := String.ofList ("0x".toList ++ hexPair (memory data).toNat) }, memory)
      else .error (.transportError "i2cget failed")
    | _, _ => .error (.transportError "i2cget failed")
  | [tool, flag, bus, c, d, v] =>
    match literal c, literal d, literal v with
    | some chip, some data, some value =>
      if tool = "i2cset".toList ∧ flag = "-y".toList ∧ bus = "1".toList ∧ chip = 0x50 ∧
        data < 256 ∧ value < 256
      then .ok ({ stdout := "" }, Function.update memory data (UInt8.ofNat value))
      else .error (.transportError "i2cset failed")
    | _, _, _ => .error (.transportError "i2cset failed")
  | _ => .error (.transportError "no such tool")

theorem literal_solid {t : List Char} (h : literal t = some n) :
    t ≠ [] ∧ ∀ c ∈ t, (c == ' ') = false := by
  have hdigits {cs : List Char} {ds : List Nat} (hcs : cs.mapM hexDigit = some ds) :
      ∀ c ∈ cs, (c == ' ') = false := by
    induction cs generalizing ds with
    | nil => exact fun c hc => (List.not_mem_nil hc).elim
    | cons c cs ih =>
      rw [List.mapM_cons] at hcs
      obtain ⟨d, hd, hcs⟩ := Option.bind_eq_some_iff.1 hcs
      obtain ⟨ds', hds, _⟩ := Option.bind_eq_some_iff.1 hcs
      rw [List.forall_mem_cons]
      refine ⟨?_, ih hds⟩
      rw [beq_eq_false_iff_ne]
      rintro rfl
      cases hd
  rw [literal.eq_def] at h
  split at h
  · rename_i cs
    rw [digitsValue] at h
    split at h
    · cases h
    · obtain ⟨ds, hds, _⟩ := Option.map_eq_some_iff.1 h
      refine ⟨List.cons_ne_nil _ _, ?_⟩
      rw [List.forall_mem_cons, List.forall_mem_cons]
      exact ⟨rfl, rfl, hdigits hds⟩
  · cases h

theorem toString_solid (bus : Int) :
    (toString bus).toList ≠ [] ∧ ∀ c ∈ (toString bus).toList, (c == ' ') = false := by
  have hdigits (n : Nat) : ∀ c ∈ n.repr.toList, (c == ' ') = false := by
    intro c hc
    rw [Nat.toList_repr] at hc
    have hdigit := Nat.isDigit_of_mem_toDigits (by decide) (by decide) hc
    rw [beq_eq_false_iff_ne]
    rintro rfl
    cases hdigit
  cases bus with
  | ofNat n =>
    show n.repr.toList ≠ [] ∧ ∀ c ∈ n.repr.toList, (c == ' ') = false
    exact ⟨Nat.toList_repr ▸ Nat.toDigits_ne_nil, hdigits n⟩
  | negSucc n =>
    show ("-" ++ (n + 1).repr).toList ≠ [] ∧ ∀ c ∈ ("-" ++ (n + 1).repr).toList, (c == ' ') = false
    rw [String.toList_append]
    refine ⟨List.append_ne_nil_of_left_ne_nil (by decide) _, fun c hc => ?_⟩
    rcases List.mem_append.1 hc with hc | hc
    · rw [List.mem_singleton.1 hc]
      rfl
    · exact hdigits _ c hc

theorem toString_eq_one {bus : Int} : (toString bus).toList = "1".toList ↔ bus = 1 := by
  refine ⟨fun h => ?_, fun h => h ▸ rfl⟩
  cases bus with
  | ofNat n =>
    have hdigits : Nat.toDigits 10 n = "1".toList := Nat.toList_repr ▸ h
    have hn : Nat.ofDigitChars 10 "1".toList 0 = n := hdigits ▸ Nat.ofDigitChars_ten_toDigits
    rw [← hn]
    rfl
  | negSucc n =>
    have hminus : ("-" ++ (n + 1).repr).toList = "1".toList := h
    rw [String.toList_append] at hminus
    cases hminus

theorem tool_solid {w : List Char}
    (h : w ≠ [] ∧ w.all (fun c => decide ((c == ' ') = false)) = true) :
    w ≠ [] ∧ ∀ c ∈ w, (c == ' ') = false := ⟨h.1, forall_mem_of_all h.2⟩

theorem words_getCmd {c d : List Char} (bus : Int) (hc : literal c = some chip)
    (hd : literal d = some data) : wordsOn (· == ' ') (getCmd bus c d).toList =
      ["i2cget".toList, "-y".toList, (toString bus).toList, c, d] := by
  rw [getCmd, text, String.toList_ofList]
  apply wordsOn_intercalate rfl
  have hbus := toString_solid bus
  have hc := literal_solid hc
  have hd := literal_solid hd
  simp only [List.forall_mem_cons]
  exact ⟨tool_solid (by decide), tool_solid (by decide), hbus, hc, hd,
    fun w hw => (List.not_mem_nil hw).elim⟩

theorem words_setCmd {c d v : List Char} (bus : Int) (hc : literal c = some chip)
    (hd : literal d = some data) (hv : literal v = some value) :
    wordsOn (· == ' ') (setCmd bus c d v).toList =
      ["i2cset".toList, "-y".toList, (toString bus).toList, c, d, v] := by
  rw [setCmd, text, String.toList_ofList]
  apply wordsOn_intercalate rfl
  have hbus := toString_solid bus
  have hc := literal_solid hc
  have hd := literal_solid hd
  have hv := literal_solid hv
  simp only [List.forall_mem_cons]
  exact ⟨tool_solid (by decide), tool_solid (by decide), hbus, hc, hd, hv,
    fun w hw => (List.not_mem_nil hw).elim⟩

theorem eeprom_isSome {memory : Nat → UInt8} {bus : Int} {chip data : Nat} :
    (eeprom memory bus chip data).isSome = true ↔ bus = 1 ∧ chip = 0x50 ∧ data < 256 := by
  by_cases hin : bus = 1 ∧ chip = 0x50 ∧ data < 256
  · rw [eeprom, if_pos hin]
    exact ⟨fun _ => hin, fun _ => rfl⟩
  · rw [eeprom, if_neg hin]
    exact ⟨fun h => absurd h (by decide), fun h => absurd h hin⟩

theorem eepromRun_get {c d : List Char} (bus : Int) (hc : literal c = some chip)
    (hd : literal d = some data) (memory : Nat → UInt8) : eepromRun (getCmd bus c d) memory =
      match eeprom memory bus chip data with
      | some v => .ok ({ stdout := String.ofList ("0x".toList ++ hexPair v.toNat) }, memory)
      | none => .error (.transportError "i2cget failed") := by
  rw [eepromRun, words_getCmd bus hc hd]
  simp only [hc, hd, toString_eq_one, eeprom, true_and]
  by_cases hin : bus = 1 ∧ chip = 0x50 ∧ data < 256
  · rw [if_pos hin, if_pos hin]
  · rw [if_neg hin, if_neg hin]

theorem eepromRun_set {c d v : List Char} (bus : Int) (hc : literal c = some chip)
    (hd : literal d = some data) (hv : literal v = some value) (memory : Nat → UInt8) :
    eepromRun (setCmd bus c d v) memory =
      if (eeprom memory bus chip data).isSome = true ∧ value < 256 then
        .ok ({ stdout := "" }, Function.update memory data (UInt8.ofNat value))
      else .error (.transportError "i2cset failed") := by
  rw [eepromRun, words_setCmd bus hc hd hv]
  simp only [hc, hd, hv, toString_eq_one, eeprom_isSome, true_and, and_assoc]

theorem eeprom_update {memory : Nat → UInt8} {bus : Int} {chip data : Nat}
    (h : (eeprom memory bus chip data).isSome = true) (v : UInt8) :
    eeprom (Function.update memory data v) = (eeprom memory).set bus chip data v := by
  have hin := eeprom_isSome.1 h
  funext b c d
  rw [eeprom, RegisterFile.set, eeprom]
  by_cases hat : b = bus ∧ c = chip ∧ d = data
  · obtain ⟨rfl, rfl, rfl⟩ := hat
    rw [if_pos hin, if_pos ⟨rfl, rfl, rfl⟩, Function.update_self]
  · rw [if_neg hat]
    by_cases hd : d = data
    · have hother : ¬ (b = 1 ∧ c = 0x50 ∧ d < 256) := fun hb =>
        hat ⟨hb.1.trans hin.1.symm, hb.2.1.trans hin.2.1.symm, hd⟩
      rw [if_neg hother, if_neg hother]
    · rw [Function.update_of_ne hd]

theorem eeprom_tools : Tools eepromRun eeprom where
  get {_ _ _ _ v} memory bus hc hd hv := by
    refine ⟨{ stdout := String.ofList ("0x".toList ++ hexPair v.toNat) }, memory, ?_, ?_, rfl⟩
    · rw [eepromRun_get bus hc hd, hv]
    · rw [String.toList_ofList]
      apply pyStrip_eq_self
      intro c hmem
      rcases List.mem_append.1 hmem with hmem | hmem
      · exact forall_mem_of_all (P := fun c => isPySpace c = false) (l := "0x".toList) (by decide)
          c hmem
      · exact (hexPair_solid v.toNat v.toNat_lt c hmem).1
  getFails memory bus hc hd hnone := ⟨_, by rw [eepromRun_get bus hc hd, hnone]⟩
  set memory bus hc hd hv hsome hlt := by
    refine ⟨{ stdout := "" }, _, ?_, eeprom_update hsome _⟩
    rw [eepromRun_set bus hc hd hv, if_pos ⟨hsome, hlt⟩]
  setFails memory bus hc hd hv hbad := by
    refine ⟨.transportError "i2cset failed", ?_⟩
    rw [eepromRun_set bus hc hd hv, if_neg]
    rintro ⟨hsome, hlt⟩
    rcases hbad with hnone | hge
    · rw [hnone] at hsome
      cases hsome
    · omega

/-- A byte is written at an `int` and read at a `str`. -/
def serialNumber : List Call :=
  [.set 1 (.int 0x50) (.int 0x10) (.str "7f".toList),
    .get 1 (.str "0x50".toList) (.str "10".toList)]

end I2cBus

theorem i2c_registers_eeprom : ∃ memory : Nat → UInt8,
    I2cBus.performAll I2cBus.eepromRun I2cBus.serialNumber (fun _ => 0) =
      .ok ([none, some 0x7f], memory) := by
  have hproper : ∀ c ∈ I2cBus.serialNumber, c.Proper := by
    rw [I2cBus.serialNumber, List.forall_mem_cons, List.forall_mem_singleton]
    exact ⟨⟨rfl, by decide, by decide⟩, by decide, by decide⟩
  obtain ⟨memory, hok, _⟩ := i2c_registers I2cBus.eeprom_tools hproper fun _ => 0
  exact ⟨memory, hok⟩

end MesCore
