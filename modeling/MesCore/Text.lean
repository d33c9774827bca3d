import MesCore.Lines

namespace MesCore
set_option autoImplicit true

abbrev Bytes := List UInt8

/-- `s.encode('utf-8')`. -/
def encodeUtf8 (s : List Char) : Bytes := s.flatMap String.utf8EncodeChar

def ascii (s : String) : Bytes := encodeUtf8 s.toList

/-- Python's `needle in hay` for strings. -/
def occursIn (needle hay : String) : Prop := needle.toList <:+: hay.toList

instance (needle hay : String) : Decidable (occursIn needle hay) :=
  inferInstanceAs (Decidable (_ <:+: _))

theorem forall_mem_of_all {P : α → Prop} [DecidablePred P] {l : List α}
    (h : l.all (fun a => decide (P a)) = true) : ∀ a ∈ l, P a :=
  fun a ha => of_decide_eq_true (List.all_eq_true.1 h a ha)

def prints (phrases : List String) (output : List Char) : Bool :=
  phrases.any fun p => decide (p.toList <:+: output)

theorem prints_append (ps qs : List String) (output : List Char) :
    prints (ps ++ qs) output = (prints ps output || prints qs output) := List.any_append

theorem prints_eq_false {ps : List String} {output : List Char} :
    prints ps output = false ↔ ∀ q ∈ ps, ¬ q.toList <:+: output := by
  rw [prints, List.any_eq_false]
  simp only [decide_eq_true_eq]

/-- An unfinished UTF-8 sequence: the continuation bytes still missing, the range the next
one must fall into, and the bits collected so far. -/
structure Utf8Pending where
  missing : Nat
  low : Nat
  high : Nat
  bits : Nat
  deriving DecidableEq

inductive Utf8Lead
  | char (c : Char)
  | pending (p : Utf8Pending)
  | invalid

def utf8Lead (b : Nat) : Utf8Lead :=
  if b < 0x80 then .char (Char.ofNat b)
  else if b < 0xC2 then .invalid
  else if b < 0xE0 then .pending ⟨1, 0x80, 0xBF, b % 32⟩
  else if b = 0xE0 then .pending ⟨2, 0xA0, 0xBF, b % 16⟩
  else if b = 0xED then .pending ⟨2, 0x80, 0x9F, b % 16⟩
  else if b < 0xF0 then .pending ⟨2, 0x80, 0xBF, b % 16⟩
  else if b = 0xF0 then .pending ⟨3, 0x90, 0xBF, b % 8⟩
  else if b < 0xF4 then .pending ⟨3, 0x80, 0xBF, b % 8⟩
  else if b = 0xF4 then .pending ⟨3, 0x80, 0x8F, b % 8⟩
  else .invalid

def replacementChar : Char := Char.ofNat 0xFFFD

/-- `bytes.decode('utf-8', errors='replace')`: every maximal ill-formed part becomes one
replacement character. -/
def decodeFrom : Option Utf8Pending → Bytes → List Char
  | none, [] => []
  | some _, [] => [replacementChar]
  | none, b :: bs =>
    match utf8Lead b.toNat with
    | .char c => c :: decodeFrom none bs
    | .pending p => decodeFrom (some p) bs
    | .invalid => replacementChar :: decodeFrom none bs
  | some p, b :: bs =>
    if p.low ≤ b.toNat ∧ b.toNat ≤ p.high then
      if p.missing = 1 then Char.ofNat (p.bits * 64 + b.toNat % 64) :: decodeFrom none bs
      else decodeFrom (some ⟨p.missing - 1, 0x80, 0xBF, p.bits * 64 + b.toNat % 64⟩) bs
    else replacementChar ::
      -- the offending byte starts over
      match utf8Lead b.toNat with
      | .char c => c :: decodeFrom none bs
      | .pending q => decodeFrom (some q) bs
      | .invalid => replacementChar :: decodeFrom none bs

def decodeReplace (bs : Bytes) : List Char := decodeFrom none bs

def isDigitByte (b : UInt8) : Bool := 0x30 ≤ b && b ≤ 0x39

def isAnsiParamByte (b : UInt8) : Bool := isDigitByte b || b == 0x3B

def isLetterByte (b : UInt8) : Bool := (0x41 ≤ b && b ≤ 0x5A) || (0x61 ≤ b && b ≤ 0x7A)

def escByte : UInt8 := 0x1B

/-- `ANSI_ESCAPE_B.sub(b'', bs)` for the pattern `\x1b\[[0-9;]*[a-zA-Z]`. The first argument
holds what may be the start of an escape sequence. -/
def stripAnsiFrom : Bytes → Bytes → Bytes
  | held, [] => held
  | [], b :: bs => if b = escByte then stripAnsiFrom [b] bs else b :: stripAnsiFrom [] bs
  | h :: hs, b :: bs =>
    if hs = [] then
      if b = 0x5B then stripAnsiFrom [h, b] bs
      else h :: if b = escByte then stripAnsiFrom [b] bs else b :: stripAnsiFrom [] bs
    else if isAnsiParamByte b then stripAnsiFrom (h :: hs ++ [b]) bs
    else if isLetterByte b then stripAnsiFrom [] bs
    else h :: hs ++ if b = escByte then stripAnsiFrom [b] bs else b :: stripAnsiFrom [] bs

def stripAnsi (bs : Bytes) : Bytes := stripAnsiFrom [] bs

/-- The text of raw bytes: their escape sequences stripped, the rest decoded. -/
def sanitise (chunk : Bytes) : List Char := decodeReplace (stripAnsi chunk)

/-- The literal alternatives of `PANIC_PATTERN_B`. -/
def panicSignatures : List String :=
  ["Kernel panic - not syncing", "Unable to handle kernel paging request",
   "Oops - undefined instruction", "Out of memory: Killed process", "BUG: soft lockup - CPU",
   "rcu_preempt detected stalls", "task blocked for more than 120 seconds",
   "synchronous external abort", "EXT4-fs error", "UBIFS error", "HAB Events", "SEC_ERR",
   "Signature Verification Failed"]

/-- `mmc[0-9]+: error(?! -1 whilst initialising)` at the start of `bs`. -/
def mmcErrorAt (bs : Bytes) : Bool :=
  match bs.dropPrefix? (ascii "mmc") with
  | none => false
  | some r =>
    !(r.takeWhile isDigitByte).isEmpty &&
      match (r.dropWhile isDigitByte).dropPrefix? (ascii ": error") with
      | none => false
      | some t => !(ascii " -1 whilst initialising").isPrefixOf t

def panicAt (bs : Bytes) : Bool :=
  panicSignatures.any (fun s => (ascii s).isPrefixOf bs) || mmcErrorAt bs

/-- `PANIC_PATTERN_B.search(bs)`. -/
def panicSearch (bs : Bytes) : Bool := bs.tails.any panicAt

/-- The characters `str.strip` removes. -/
def isPySpace (c : Char) : Bool :=
  let n := c.toNat
  (0x09 ≤ n && n ≤ 0x0D) || (0x1C ≤ n && n ≤ 0x20) || n == 0x85 || n == 0xA0 || n == 0x1680 ||
    (0x2000 ≤ n && n ≤ 0x200A) || n == 0x2028 || n == 0x2029 || n == 0x202F || n == 0x205F ||
    n == 0x3000

def pyStrip (s : List Char) : List Char :=
  ((s.dropWhile isPySpace).reverse.dropWhile isPySpace).reverse

def stripText (s : String) : String := String.ofList (pyStrip s.toList)

/-- `s.split('\n')`. -/
def splitNewline : List Char → List (List Char)
  | [] => [[]]
  | c :: cs =>
    if c = '\n' then [] :: splitNewline cs
    else match splitNewline cs with
      | [] => [[c]]
      | l :: ls => (c :: l) :: ls

/-- `s.replace('\r\n', '\n').replace('\r', '\n')`. -/
def normalizeNewlines : List Char → List Char
  | '\r' :: '\n' :: cs => '\n' :: normalizeNewlines cs
  | '\r' :: cs => '\n' :: normalizeNewlines cs
  | c :: cs => c :: normalizeNewlines cs
  | [] => []

def pyUpper (s : String) : String := String.ofList (s.toList.map Char.toUpper)

theorem splitNewline_eq (t : List Char) : splitNewline t = t.splitOn '\n' := by
  induction t with
  | nil => rfl
  | cons c t ih =>
    rw [splitNewline, ih, List.splitOn_cons_eq_if_modifyHead]
    by_cases hc : c = '\n'
    · rw [if_pos hc, if_pos (beq_iff_eq.2 hc)]
    · rw [if_neg hc, if_neg (fun h => hc (beq_iff_eq.1 h))]
      cases hs : t.splitOn '\n' with
      | nil => exact (List.splitOn_ne_nil _ _ hs).elim
      | cons l ls => rfl

theorem pyStrip_eq (s : List Char) : pyStrip s = (s.dropWhile isPySpace).rdropWhile isPySpace := rfl

theorem pyStrip_eq_self {s : List Char} (h : ∀ c ∈ s, isPySpace c = false) : pyStrip s = s := by
  have hself {l : List Char} (hl : ∀ c ∈ l, isPySpace c = false) : l.dropWhile isPySpace = l := by
    cases l with
    | nil => rfl
    | cons c l => rw [List.dropWhile_cons, hl c List.mem_cons_self, if_neg (by decide)]
  rw [pyStrip, hself h, hself fun c hc => h c (List.mem_reverse.1 hc), List.reverse_reverse]

theorem pyStrip_cons_space {c : Char} (hc : isPySpace c = true) (l : List Char) :
    pyStrip (c :: l) = pyStrip l := by
  rw [pyStrip_eq, pyStrip_eq, List.dropWhile_cons_of_pos hc]

theorem pyStrip_concat_space {c : Char} (hc : isPySpace c = true) (l : List Char) :
    pyStrip (l ++ [c]) = pyStrip l := by
  rw [pyStrip_eq, pyStrip_eq, List.dropWhile_append]
  split
  · rename_i hnil
    rw [List.isEmpty_iff.1 hnil, List.dropWhile_cons_of_pos hc]
    rfl
  · rw [List.rdropWhile_concat_pos _ _ _ hc]

/-- What starts and ends with other characters than blanks survives `strip`. -/
theorem infix_pyStrip {t s : List Char} (h : t <:+: s) (hfirst : ∀ c ∈ t.head?, isPySpace c = false)
    (hlast : ∀ c ∈ t.getLast?, isPySpace c = false) : t <:+: pyStrip s := by
  have hkeep (a u : List Char) (hu : ∀ c ∈ u.head?, isPySpace c = false) :
      ∃ a', (a ++ u).dropWhile isPySpace = a' ++ u := by
    rw [List.dropWhile_append]
    split
    · refine ⟨[], ?_⟩
      cases u with
      | nil => rfl
      | cons c u =>
        have hc : ¬ isPySpace c = true := by
          rw [hu c rfl]
          exact Bool.false_ne_true
        rw [List.dropWhile_cons_of_neg hc, List.nil_append]
    · exact ⟨_, rfl⟩
  obtain ⟨a, z, rfl⟩ := h
  by_cases ht : t = []
  · rw [ht]
    exact List.nil_infix
  · have hhead : ∀ c ∈ (t ++ z).head?, isPySpace c = false := by
      rwa [List.head?_append_of_ne_nil t ht]
    obtain ⟨a', ha'⟩ := hkeep a (t ++ z) hhead
    have hrev : ∀ c ∈ (t.reverse ++ a'.reverse).head?, isPySpace c = false := by
      rwa [List.head?_append_of_ne_nil _ (by simpa using ht), List.head?_reverse]
    obtain ⟨z', hz'⟩ := hkeep z.reverse (t.reverse ++ a'.reverse) hrev
    refine ⟨a', z'.reverse, ?_⟩
    rw [pyStrip, List.append_assoc a t z, ha', List.reverse_append, List.reverse_append,
      List.append_assoc z.reverse, hz']
    simp

theorem exists_pyStrip (s : List Char) : ∃ a b, s = a ++ (pyStrip s ++ b) ∧
    (∀ c ∈ a, isPySpace c = true) ∧ ∀ c ∈ b, isPySpace c = true := by
  have hsplit : s = s.takeWhile isPySpace ++
      (pyStrip s ++ (s.dropWhile isPySpace).rtakeWhile isPySpace) := by
    rw [pyStrip_eq, List.rdropWhile_append_rtakeWhile, List.takeWhile_append_dropWhile]
  exact ⟨_, _, hsplit, fun c hc => List.mem_takeWhile_imp hc,
    fun c hc => List.mem_rtakeWhile_imp hc⟩

theorem pyStrip_eq_nil_iff {s : List Char} : pyStrip s = [] ↔ ∀ c ∈ s, isPySpace c = true := by
  rw [pyStrip_eq, List.rdropWhile_eq_nil_iff]
  constructor
  · intro h c hc
    rw [← List.takeWhile_append_dropWhile (p := isPySpace) (l := s)] at hc
    rcases List.mem_append.1 hc with hc | hc
    · exact List.mem_takeWhile_imp hc
    · exact h c hc
  · exact fun h c hc => h c ((List.dropWhile_suffix _).subset hc)

theorem pyStrip_solid (l : List Char) : (!(pyStrip l).isEmpty) = solid isPySpace l := by
  rw [Bool.eq_iff_iff, Bool.not_eq_true', List.isEmpty_eq_false_iff, ne_eq, pyStrip_eq_nil_iff,
    solid, List.any_eq_true]
  simp only [not_forall, Bool.not_eq_true, Bool.not_eq_eq_eq_not, exists_prop, Bool.not_true]

end MesCore
