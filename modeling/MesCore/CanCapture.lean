import MesCore.UartCapture

namespace MesCore
set_option autoImplicit true

/-- `str.upper` of a character. Outside ASCII the table of Unicode decides, which may put several
letters for one. -/
structure UpperTable where
  upper : Char → List Char
  ascii : ∀ c : Char, c.toNat < 128 → upper c = [c.toUpper]
  space : ∀ c : Char, isPySpace c = true → upper c = [c]

/-- `str.upper`. -/
def UpperTable.text (table : UpperTable) (s : List Char) : List Char := s.flatMap table.upper

theorem UpperTable.text_append (table : UpperTable) (s t : List Char) :
    table.text (s ++ t) = table.text s ++ table.text t :=
  List.flatMap_append

/-- An ASCII character that is its own upper case. -/
def PlainUpper (c : Char) : Prop := c.toNat < 128 ∧ c.toUpper = c

theorem plainUpper_of_all {s : List Char}
    (h : s.all (fun c => c.toNat < 128 && c.toUpper = c) = true) : ∀ c ∈ s, PlainUpper c := by
  intro c hc
  simpa [PlainUpper] using List.all_eq_true.1 h c hc

theorem UpperTable.text_plain (table : UpperTable) {s : List Char} (h : ∀ c ∈ s, PlainUpper c) :
    table.text s = s := by
  induction s with
  | nil => rfl
  | cons c s ih =>
    rw [List.forall_mem_cons] at h
    rw [UpperTable.text, List.flatMap_cons, table.ascii c h.1.1, h.1.2]
    exact congrArg (c :: ·) (ih h.2)

theorem plainUpper_hexDigit {c : Char} (h : c ∈ "0123456789ABCDEF".toList) : PlainUpper c :=
  plainUpper_of_all (by decide) c h

theorem UpperTable.text_space (table : UpperTable) {s : List Char}
    (h : ∀ c ∈ s, isPySpace c = true) : table.text s = s := by
  induction s with
  | nil => rfl
  | cons c s ih =>
    rw [List.forall_mem_cons] at h
    rw [UpperTable.text, List.flatMap_cons, table.space c h.1]
    exact congrArg (c :: ·) (ih h.2)

namespace CanTopologyValidator

/-- The identifier as `candump` prints it. -/
def printedId (f : CanFrame) : List Char := hexPadded (if f.extended then 8 else 3) f.id

/-- `<iface>  <ID hex>   [<dlc>]  <data bytes hex>`. -/
def frameText (iface : List Char) (f : CanFrame) : List Char :=
  iface ++ "  ".toList ++ printedId f ++ "   [".toList ++ Nat.toDigits 10 f.data.length ++
    "] ".toList ++ f.data.flatMap fun b => ' ' :: hexByte b

/-- The check of the log, with the upper case of every character. -/
def capturedBy (table : UpperTable) (f : CanFrame) (stdout : List Char) : Bool :=
  let stdoutClean := pyStrip stdout
  let hexData := hexText f.data
  !(!decide (table.text hexData <:+: table.text (stdoutClean.filter (· ≠ ' '))) ||
    !decide (hexPadded 3 f.id <:+: table.text stdoutClean))

section
variable {table : UpperTable} {e f : CanFrame} {iface s t : List Char}

/-- Whether the digits of a word are found does not depend on the white space around the log, nor
on blanks being taken out first. -/
theorem infix_text_strip (table : UpperTable) (s : List Char) (p : Char → Bool)
    (ht : ∀ c ∈ t, c ∈ "0123456789ABCDEF".toList) :
    t <:+: table.text ((pyStrip s).filter p) ↔ t <:+: table.text (s.filter p) := by
  obtain ⟨a, b, hs, ha, hb⟩ := exists_pyStrip s
  have hout {w : List Char} (hw : ∀ c ∈ w, isPySpace c = true) :
      ∀ c ∈ table.text (w.filter p), c ∉ t := by
    intro c hc hct
    rw [table.text_space fun d hd => hw d (List.mem_of_mem_filter hd)] at hc
    have hspace := hw c (List.mem_of_mem_filter hc)
    rw [(hexDigit_plain (ht c hct)).1] at hspace
    cases hspace
  conv_rhs => rw [hs]
  rw [List.filter_append, List.filter_append, table.text_append, table.text_append,
    infix_append_iff_of_disjoint (hout ha), infix_concat_iff_of_disjoint (hout hb)]

theorem hexDigit_of_mem_printedId {c : Char} (h : c ∈ printedId f) :
    c ∈ "0123456789ABCDEF".toList :=
  hexDigit_of_mem_hexPadded h

theorem dlc_spec (h : f.data.length ≤ 8) : (Nat.toDigits 10 f.data.length).length = 1 ∧
    ∀ c ∈ Nat.toDigits 10 f.data.length, c ∈ "0123456789ABCDEF".toList := by
  have hdigit : ∀ n ≤ 8, Nat.digitChar n ∈ "0123456789ABCDEF".toList := by decide
  rw [Nat.toDigits_of_lt_base (by omega)]
  refine ⟨rfl, fun c hc => ?_⟩
  rw [List.mem_singleton.1 hc]
  exact hdigit _ h

/-- What `candump` prints behind the name. -/
def frameTail (f : CanFrame) : List Char :=
  "  ".toList ++ (printedId f ++ ("   [".toList ++ (Nat.toDigits 10 f.data.length ++
    ("] ".toList ++ ((f.data.flatMap fun b => ' ' :: hexByte b) ++ ['\n'])))))

theorem plainUpper_frameTail (h : f.data.length ≤ 8) : ∀ c ∈ frameTail f, PlainUpper c := by
  have hdata : ∀ c ∈ f.data.flatMap (fun b => ' ' :: hexByte b), PlainUpper c := by
    intro c hc
    obtain ⟨b, -, hc⟩ := List.mem_flatMap.1 hc
    rcases List.mem_cons.1 hc with rfl | hc
    · exact ⟨by decide, rfl⟩
    · exact plainUpper_hexDigit (hexDigit_of_mem_hexPadded hc)
  simp only [frameTail, List.forall_mem_append]
  exact ⟨plainUpper_of_all rfl, fun c hc => plainUpper_hexDigit (hexDigit_of_mem_printedId hc),
    plainUpper_of_all rfl, fun c hc => plainUpper_hexDigit ((dlc_spec h).2 c hc),
    plainUpper_of_all rfl, hdata, plainUpper_of_all rfl⟩

theorem text_frame (table : UpperTable) (iface : List Char) (h : f.data.length ≤ 8)
    (p : Char → Bool) :
    table.text ((frameText iface f ++ ['\n']).filter p) =
      table.text (iface.filter p) ++ (frameTail f).filter p := by
  have hsplit : frameText iface f ++ ['\n'] = iface ++ frameTail f := by
    rw [frameText, frameTail]
    simp only [List.append_assoc]
  have hplain : ∀ c ∈ (frameTail f).filter p, PlainUpper c := fun c hc =>
    plainUpper_frameTail h c (List.mem_of_mem_filter hc)
  rw [hsplit, List.filter_append, table.text_append, table.text_plain hplain]

theorem frameTail_eq (f : CanFrame) :
    frameTail f = ' ' :: ' ' :: (printedId f ++ ' ' :: ' ' :: ' ' :: '[' ::
      (Nat.toDigits 10 f.data.length ++ ']' :: ' ' ::
        ((f.data.map hexByte).flatMap (' ' :: ·) ++ ['\n']))) := by
  rw [frameTail, List.flatMap_map]
  rfl

theorem filter_frameTail (h : f.data.length ≤ 8) :
    (frameTail f).filter (· ≠ ' ') =
      printedId f ++ '[' ::
        (Nat.toDigits 10 f.data.length ++ ']' :: (hexText f.data ++ ['\n'])) := by
  have hself {l : List Char} (hl : ∀ c ∈ l, c ∈ "0123456789ABCDEF".toList) :
      l.filter (· ≠ ' ') = l := by
    rw [List.filter_eq_self]
    exact fun c hc => decide_eq_true (hexDigit_plain (hl c hc)).2.1
  rw [frameTail]
  simp only [List.filter_append, hself fun c => hexDigit_of_mem_printedId, hself (dlc_spec h).2,
    filter_bytes]
  rfl

theorem hexDigit_ne {c : Char} (ht : ∀ c ∈ t, c ∈ "0123456789ABCDEF".toList)
    (hc : c ∉ "0123456789ABCDEF".toList) : c ∉ t :=
  fun h => hc (ht c h)

theorem infix_text_frame (ht : ∀ c ∈ t, c ∈ "0123456789ABCDEF".toList) (hlen : 3 ≤ t.length)
    (hdata : f.data.length ≤ 8) :
    t <:+: table.text (pyStrip (frameText iface f ++ ['\n'])) ↔
      t <:+: table.text iface ∨ t <:+: printedId f := by
  have hshort {s : List Char} (hs : s.length ≤ 2) : ¬ t <:+: s := fun h => by
    have := h.length_le
    omega
  have hdlc : ¬ t <:+: Nat.toDigits 10 f.data.length :=
    hshort ((dlc_spec hdata).1.le.trans (by decide))
  have hbytes : ¬ t <:+: (f.data.map hexByte).flatMap (' ' :: ·) := by
    intro h
    rcases infix_words (hexDigit_ne ht (by decide)) h with hnil | ⟨w, hw, hin⟩
    · rw [hnil] at hlen
      cases hlen
    · obtain ⟨b, -, rfl⟩ := List.mem_map.1 hw
      exact hshort (length_hexByte b).le hin
  have hstrip := infix_text_strip table (frameText iface f ++ ['\n']) (fun _ => true) ht
  have hblank : ' ' ∉ t := hexDigit_ne ht (by decide)
  have hopen : '[' ∉ t := hexDigit_ne ht (by decide)
  have hclose : ']' ∉ t := hexDigit_ne ht (by decide)
  have hbreak : '\n' ∉ t := hexDigit_ne ht (by decide)
  rw [List.filter_true, text_frame table iface hdata, List.filter_true, List.filter_true,
    frameTail_eq] at hstrip
  rw [hstrip, infix_append_cons_iff hblank, infix_cons_iff_of_notMem hblank,
    infix_append_cons_iff hblank, infix_cons_iff_of_notMem hblank,
    infix_cons_iff_of_notMem hblank, infix_cons_iff_of_notMem hopen,
    infix_append_cons_iff hclose, infix_cons_iff_of_notMem hblank,
    infix_append_cons_iff hbreak]
  have hnil : ¬ t <:+: [] := hshort (Nat.zero_le 2)
  simp only [hdlc, hbytes, hnil, or_false]

/-- An even number of digits in a row, blanks apart, is part of the name with the identifier, or of
the data. -/
theorem infix_text_frame_filter {bs : Bytes} (hdata : f.data.length ≤ 8) :
    hexText bs <:+: table.text ((pyStrip (frameText iface f ++ ['\n'])).filter (· ≠ ' ')) ↔
      hexText bs <:+: table.text (iface.filter (· ≠ ' ')) ++ printedId f ∨
        hexText bs <:+: hexText f.data := by
  have ht : ∀ c ∈ hexText bs, c ∈ "0123456789ABCDEF".toList := fun c => hexDigit_of_mem_hexText
  have hopen : '[' ∉ hexText bs := hexDigit_ne ht (by decide)
  have hclose : ']' ∉ hexText bs := hexDigit_ne ht (by decide)
  have hbreak : ∀ c ∈ ['\n'], c ∉ hexText bs := by
    intro c hc
    rw [List.mem_singleton.1 hc]
    exact hexDigit_ne ht (by decide)
  have hdlc : hexText bs <:+: Nat.toDigits 10 f.data.length → hexText bs <:+: hexText f.data := by
    intro h
    cases bs with
    | nil => exact List.nil_infix
    | cons b bs =>
      have hlen := h.length_le
      rw [(dlc_spec hdata).1, hexText, List.flatMap_cons, List.length_append,
        length_hexByte] at hlen
      omega
  rw [infix_text_strip table _ _ ht, text_frame table iface hdata, filter_frameTail hdata,
    ← List.append_assoc, infix_append_cons_iff hopen, infix_append_cons_iff hclose,
    infix_concat_iff_of_disjoint hbreak, or_iff_right_of_imp hdlc]

/-- What of a log line the check of the target accepts. -/
def Mistakable (table : UpperTable) (e : CanFrame) (iface : List Char) (f : CanFrame) : Prop :=
  (hexText e.data <:+: table.text (iface.filter (· ≠ ' ')) ++ printedId f ∨
    hexText e.data <:+: hexText f.data) ∧
  (hexPadded 3 e.id <:+: table.text iface ∨ hexPadded 3 e.id <:+: printedId f)

theorem capturedBy_iff (hdata : f.data.length ≤ 8) :
    capturedBy table e (frameText iface f ++ ['\n']) = true ↔ Mistakable table e iface f := by
  have hid : ∀ c ∈ hexPadded 3 e.id, c ∈ "0123456789ABCDEF".toList :=
    fun c => hexDigit_of_mem_hexPadded
  have hlen : 3 ≤ (hexPadded 3 e.id).length := by
    rw [hexPadded, List.leftpad, List.length_append, List.length_replicate]
    omega
  rw [capturedBy, Bool.not_eq_true', Bool.or_eq_false_iff, Bool.not_eq_false', Bool.not_eq_false',
    decide_eq_true_iff, decide_eq_true_iff,
    table.text_plain fun c hc => plainUpper_hexDigit (hexDigit_of_mem_hexText hc),
    infix_text_frame_filter hdata, infix_text_frame hid hlen hdata]
  rfl

theorem infix_printedId (f : CanFrame) : hexPadded 3 f.id <:+: printedId f := by
  rw [printedId]
  split
  · rw [hexPadded, hexPadded, List.leftpad, List.leftpad]
    have hsplit : 8 - (hexNumber f.id).length =
        (8 - (hexNumber f.id).length - (3 - (hexNumber f.id).length)) +
          (3 - (hexNumber f.id).length) := by omega
    rw [hsplit, List.replicate_add, List.append_assoc]
    exact (List.suffix_append _ _).isInfix
  · exact List.infix_rfl

theorem mistakable_self (hid : f.id = e.id) (hdata : f.data = e.data) :
    Mistakable table e iface f := by
  rw [Mistakable, ← hid, ← hdata]
  exact ⟨.inr List.infix_rfl, .inr (infix_printedId f)⟩

theorem expectFrom_single (turns : Nat) :
    (expectFrom e (turns + 1) [f]).1 = true ↔ f.id = e.id ∧ f.data = e.data := by
  rw [expectFrom]
  split
  · exact iff_of_true rfl ‹_›
  · rw [expectFrom_nil]
    exact iff_of_false Bool.false_ne_true ‹_›

/-- The check on the target means that the expected frame was received, as the check on the host
does, exactly if no other frame has its digits in the places that pass. -/
theorem capturedBy_means_frame_iff (table : UpperTable) (e f : CanFrame) (iface : List Char)
    (turns : Nat) (hdata : f.data.length ≤ 8) :
    ((capturedBy table e (frameText iface f ++ ['\n']) = true ↔
        f.id = e.id ∧ f.data = e.data) ∧
      ((expectFrom e (turns + 1) [f]).1 = true ↔ f.id = e.id ∧ f.data = e.data)) ↔
    (f.id = e.id ∧ f.data = e.data) ∨ ¬ Mistakable table e iface f := by
  have hself : f.id = e.id ∧ f.data = e.data → Mistakable table e iface f :=
    fun h => mistakable_self h.1 h.2
  rw [and_iff_left (expectFrom_single turns), capturedBy_iff hdata]
  tauto

end

def asciiTable : UpperTable where
  upper c := [c.toUpper]
  ascii _ _ := rfl
  space c hc := by
    have hno : ¬ (c.val ≥ 'a'.val ∧ c.val ≤ 'z'.val) := by
      rintro ⟨hlow, hhigh⟩
      have hlow' : 97 ≤ c.toNat := UInt32.le_iff_toNat_le.1 hlow
      have hhigh' : c.toNat ≤ 122 := UInt32.le_iff_toNat_le.1 hhigh
      simp only [isPySpace, Bool.or_eq_true, Bool.and_eq_true, decide_eq_true_eq,
        beq_iff_eq] at hc
      omega
    have hupper : c.toUpper = c := dif_neg hno
    rw [hupper]

def expectedFrame : CanFrame := ⟨0x123, false, [0x11]⟩

def strayFrame : CanFrame := ⟨0x123, false, [0x22]⟩

/-- A frame that differs in its data is not taken for the expected one. -/
theorem capturedBy_stray :
    (capturedBy asciiTable expectedFrame (frameText "can0".toList strayFrame ++ ['\n']) = true ↔
        strayFrame.id = expectedFrame.id ∧ strayFrame.data = expectedFrame.data) ∧
      ((expectFrom expectedFrame 1 [strayFrame]).1 = true ↔
        strayFrame.id = expectedFrame.id ∧ strayFrame.data = expectedFrame.data) :=
  (capturedBy_means_frame_iff asciiTable expectedFrame strayFrame "can0".toList 0 (by decide)).2
    (.inr (by rw [Mistakable]; decide))

/-- An empty frame passes for one with the byte that its identifier ends in. -/
theorem capturedBy_fragments :
    capturedBy asciiTable ⟨0x123, false, [0x23]⟩
        (frameText "can0".toList ⟨0x123, false, []⟩ ++ ['\n']) = true ∧
      (expectFrom ⟨0x123, false, [0x23]⟩ 1 [⟨0x123, false, []⟩]).1 = false := by
  decide

end CanTopologyValidator

end MesCore
