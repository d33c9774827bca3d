import MesCore.I2cBus
import MesCore.UartCapture

namespace MesCore
set_option autoImplicit true

open NvmemEfuseValidator (hexDigit)
open ProbeRsTransport (words_pyStrip hexChars mem_hexChars)

/-- `s.zfill(w)`. -/
def zfill (w : Nat) : List Char → List Char
  | [] => List.replicate w '0'
  | c :: cs =>
    let zeros := List.replicate (w - (cs.length + 1)) '0'
    if c = '+' ∨ c = '-' then c :: zeros ++ cs else zeros ++ c :: cs

namespace SpiBus

def configCmd (device : String) (mode bits speedHz : Int) : String :=
  s!"spi-config -d {device} -m {mode} -b {bits} -s {speedHz}"

/-- `''.join(f'\\x{b}' for b in tx_hex_bytes)`. -/
def escapes (txHexBytes : List (List Char)) : List Char :=
  txHexBytes.flatMap fun b => '\\' :: 'x' :: b

def transferCmd (device : String) (txHexBytes : List (List Char)) : String :=
  s!"echo -ne '{String.ofList (escapes txHexBytes)}' | spi-pipe -d {device} | od -An -v -t x1"

/-- `_parse_od_output`. -/
def parseOdOutput (stdout : List Char) : List (List Char) :=
  (splitLines stdout).flatMap fun line =>
    (wordsOn isPySpace (pyStrip line)).map fun p => upperText (zfill 2 p)

section
variable {σ : Type} (run : CheckedRun σ)

def config (device : String) (mode bits speedHz : Int) : StateT σ (Except Err) Unit := do
  let _ ← run (configCmd device mode bits speedHz)

def transfer (device : String) (txHexBytes : List (List Char)) :
    StateT σ (Except Err) (List (List Char)) := do
  if txHexBytes = [] then return []
  let res ← run (transferCmd device txHexBytes)
  return parseOdOutput res.stdout.toList

def transferAll (device : String) :
    List (List (List Char)) → StateT σ (Except Err) (List (List (List Char)))
  | [] => return []
  | tx :: txs => do
    let rx ← transfer run device tx
    let rxs ← transferAll device txs
    return rx :: rxs

end

def tokenByte : List Char → Option UInt8
  | [c] => (hexDigit c).map UInt8.ofNat
  | [c, d] => do
    let high ← hexDigit c
    let low ← hexDigit d
    return UInt8.ofNat (16 * high + low)
  | _ => none

/-- The bytes of a text of `\xHH` escapes for `echo -e`. -/
def echoBytes : List Char → Option Bytes
  | [] => some []
  | '\\' :: 'x' :: c :: d :: cs =>
    match hexDigit d with
    | some _ => do
      let b ← tokenByte [c, d]
      let bs ← echoBytes cs
      return b :: bs
    | none => do
      let b ← tokenByte [c]
      let bs ← echoBytes (d :: cs)
      return b :: bs
  | ['\\', 'x', c] => do
    let b ← tokenByte [c]
    return [b]
  | _ => none

/-- The hex text that `od` prints: the words of each line are some of the bytes. -/
def OdText (bs : Bytes) (stdout : List Char) : Prop :=
  ∃ parts : List Bytes, parts.flatten = bs ∧
    List.Forall₂ (fun part line => wordsOn isPySpace line = part.map fun b => hexPair b.toNat) parts
      (splitLines stdout)

/-- The pipeline for a text that stands in single quotes. -/
def pipeline (device : String) (text : List Char) : String :=
  "echo -ne '" ++ String.ofList text ++ "' | spi-pipe -d " ++ device ++ " | od -An -v -t x1"

theorem transferCmd_eq (device : String) (tx : List (List Char)) :
    transferCmd device tx = pipeline device (escapes tx) := rfl

/-- `spi-pipe` takes the bytes that `echo` reads to the device, `od` prints those it sends back. -/
structure Tools {σ : Type} (run : CheckedRun σ) (device : String)
    (exchange : σ → Bytes → Bytes × σ) : Prop where
  transfer (s : σ) : echoBytes text = some bs → bs ≠ [] →
    ∃ res, run (pipeline device text) s = .ok (res, (exchange s bs).2) ∧
      OdText (exchange s bs).1 res.stdout.toList

/-- Transfers one after another; without a byte the device is left alone. -/
def exchanges {σ : Type} (exchange : σ → Bytes → Bytes × σ) (s : σ) :
    List Bytes → List Bytes × σ
  | [] => ([], s)
  | bs :: rest =>
    let (rx, s) := if bs = [] then ([], s) else exchange s bs
    let (rxs, s) := exchanges exchange s rest
    (rx :: rxs, s)

theorem upper_hexPair (b : UInt8) : upperText (zfill 2 (hexPair b.toNat)) = hexByte b := by
  have hall : ∀ n < 256, upperText (zfill 2 (hexPair n)) = hexPadded 2 n := by decide +kernel
  exact hall b.toNat b.toNat_lt

theorem upper_token {t : List Char} (h : tokenByte t = some b) :
    upperText (zfill 2 t) = hexByte b := by
  have hone : ∀ c ∈ hexChars, (tokenByte [c]).map hexByte = some (upperText (zfill 2 [c])) :=
    forall_mem_of_all (by decide +kernel)
  have hpairs : ∀ c ∈ hexChars, hexChars.all (fun d =>
      decide ((tokenByte [c, d]).map hexByte = some (upperText (zfill 2 [c, d])))) = true :=
    forall_mem_of_all (by decide +kernel)
  have htwo : ∀ c ∈ hexChars, ∀ d ∈ hexChars,
      (tokenByte [c, d]).map hexByte = some (upperText (zfill 2 [c, d])) :=
    fun c hc => forall_mem_of_all (hpairs c hc)
  have hsame (hmap : (tokenByte t).map hexByte = some (upperText (zfill 2 t))) :
      upperText (zfill 2 t) = hexByte b := by
    rw [h] at hmap
    exact (Option.some.inj hmap).symm
  cases t with
  | nil => cases h
  | cons c t =>
    cases t with
    | nil =>
      obtain ⟨n, hc, _⟩ := Option.map_eq_some_iff.1 h
      exact hsame (hone c (mem_hexChars hc))
    | cons d t =>
      cases t with
      | nil =>
        obtain ⟨high, hc, hrest⟩ := Option.bind_eq_some_iff.1 h
        obtain ⟨low, hd, _⟩ := Option.bind_eq_some_iff.1 hrest
        exact hsame (htwo c (mem_hexChars hc) d (mem_hexChars hd))
      | cons => cases h

theorem upper_tokens {tx : List (List Char)} (h : tx.mapM tokenByte = some bs) :
    bs.map hexByte = tx.map fun t => upperText (zfill 2 t) := by
  induction tx generalizing bs with
  | nil =>
    cases h
    rfl
  | cons t tx ih =>
    rw [List.mapM_cons] at h
    obtain ⟨b, hb, hrest⟩ := Option.bind_eq_some_iff.1 h
    obtain ⟨bs', hbs, heq⟩ := Option.bind_eq_some_iff.1 hrest
    cases heq
    rw [List.map_cons, List.map_cons, ih hbs, upper_token hb]

theorem tokenByte_chars {t : List Char} (h : tokenByte t = some b) :
    t ≠ [] ∧ ∀ c ∈ t, c ∈ hexChars := by
  cases t with
  | nil => cases h
  | cons c t =>
    refine ⟨List.cons_ne_nil c t, ?_⟩
    cases t with
    | nil =>
      obtain ⟨n, hc, _⟩ := Option.map_eq_some_iff.1 h
      rw [List.forall_mem_singleton]
      exact mem_hexChars hc
    | cons d t =>
      cases t with
      | nil =>
        obtain ⟨high, hc, hrest⟩ := Option.bind_eq_some_iff.1 h
        obtain ⟨low, hd, _⟩ := Option.bind_eq_some_iff.1 hrest
        rw [List.forall_mem_cons, List.forall_mem_singleton]
        exact ⟨mem_hexChars hc, mem_hexChars hd⟩
      | cons => cases h

theorem echoBytes_token {t : List Char} (h : tokenByte t = some b) {rest : List Char}
    (hrest : rest = [] ∨ ∃ cs, rest = '\\' :: cs) :
    echoBytes ('\\' :: 'x' :: t ++ rest) = (echoBytes rest).map (b :: ·) := by
  cases t with
  | nil => cases h
  | cons c t =>
    cases t with
    | nil =>
      rcases hrest with rfl | ⟨cs, rfl⟩
      · show (tokenByte [c]).bind _ = _
        rw [h]
        rfl
      · show (tokenByte [c]).bind (fun b =>
          (echoBytes ('\\' :: cs)).bind fun bs => some (b :: bs)) = _
        rw [h, Option.bind_some]
        cases echoBytes ('\\' :: cs) with
        | none => rfl
        | some bs => rfl
    | cons d t =>
      cases t with
      | nil =>
        obtain ⟨high, hc, hlow⟩ := Option.bind_eq_some_iff.1 h
        obtain ⟨low, hd, _⟩ := Option.bind_eq_some_iff.1 hlow
        rw [List.cons_append, List.cons_append, List.cons_append, List.cons_append, List.nil_append,
          echoBytes, hd, h]
        cases echoBytes rest with
        | none => rfl
        | some bs => rfl
      | cons => cases h

theorem echoBytes_escapes {tx : List (List Char)} (h : tx.mapM tokenByte = some bs) :
    echoBytes (escapes tx) = some bs := by
  induction tx generalizing bs with
  | nil =>
    cases h
    rfl
  | cons t tx ih =>
    rw [List.mapM_cons] at h
    obtain ⟨b, hb, hrest⟩ := Option.bind_eq_some_iff.1 h
    obtain ⟨bs', hbs, heq⟩ := Option.bind_eq_some_iff.1 hrest
    cases heq
    have hescape : escapes tx = [] ∨ ∃ cs, escapes tx = '\\' :: cs := by
      cases tx with
      | nil => exact .inl rfl
      | cons t tx => exact .inr ⟨_, rfl⟩
    rw [escapes, List.flatMap_cons]
    show echoBytes ('\\' :: 'x' :: t ++ escapes tx) = _
    rw [echoBytes_token hb hescape, ih hbs]
    rfl

theorem OdText.parse {stdout : List Char} (h : OdText bs stdout) :
    parseOdOutput stdout = bs.map hexByte := by
  obtain ⟨parts, rfl, hlines⟩ := h
  rw [parseOdOutput]
  generalize splitLines stdout = lines at hlines
  induction hlines with
  | nil => rfl
  | @cons part line parts lines hwords _ ih =>
    rw [List.flatMap_cons, ih, words_pyStrip, hwords, List.map_map, List.flatten_cons,
      List.map_append]
    congr 1
    exact List.map_congr_left fun b _ => upper_hexPair b

end SpiBus

/-- Transfers bring back what the device answers, byte for byte in two capital digits, however the
bytes are written; from a loopback plug each comes back as it was sent, in that spelling. -/
theorem spi_transfers {σ : Type} {run : CheckedRun σ} {device : String}
    {exchange : σ → Bytes → Bytes × σ} (h : SpiBus.Tools run device exchange)
    {txs : List (List (List Char))} {bss : List Bytes}
    (hbytes : List.Forall₂ (fun tx bs => tx.mapM SpiBus.tokenByte = some bs) txs bss) (s : σ) :
    SpiBus.transferAll run device txs s = .ok
      ((SpiBus.exchanges exchange s bss).1.map (·.map hexByte),
        (SpiBus.exchanges exchange s bss).2) ∧
    ((∀ s bs, (exchange s bs).1 = bs) → (SpiBus.exchanges exchange s bss).1.map (·.map hexByte) =
      txs.map (·.map fun t => upperText (zfill 2 t))) := by
  induction hbytes generalizing s with
  | nil => exact ⟨rfl, fun _ => rfl⟩
  | @cons tx bs txs bss hone _ ih =>
    have hspelled := SpiBus.upper_tokens hone
    by_cases htx : tx = []
    · subst htx
      cases hone
      have hnone : SpiBus.transfer run device [] s = .ok ([], s) := rfl
      refine ⟨(I2cBus.bind_ok hnone).trans (I2cBus.bind_ok (ih s).1), fun hloop => ?_⟩
      exact congrArg ([] :: ·) ((ih s).2 hloop)
    · have hne : bs ≠ [] := by
        rintro rfl
        exact htx (List.map_eq_nil_iff.1 hspelled.symm)
      obtain ⟨res, hrun, hod⟩ := h.transfer s (SpiBus.echoBytes_escapes hone) hne
      have hsome : SpiBus.transfer run device tx s =
          .ok ((exchange s bs).1.map hexByte, (exchange s bs).2) := by
        rw [SpiBus.transfer, if_neg htx, SpiBus.transferCmd_eq, ← hod.parse]
        exact I2cBus.bind_ok hrun
      rw [SpiBus.exchanges, if_neg hne]
      refine ⟨(I2cBus.bind_ok hsome).trans (I2cBus.bind_ok (ih _).1), fun hloop => ?_⟩
      rw [List.map_cons, List.map_cons, ← hspelled, hloop]
      exact congrArg (bs.map hexByte :: ·) ((ih _).2 hloop)

namespace SpiBus

def odParts : Nat → Bytes → List Bytes
  | _, [] => []
  | 0, bs => [bs]
  | n + 1, bs => bs.take 16 :: odParts n (bs.drop 16)

def odLine (part : Bytes) : List Char := part.flatMap fun b => ' ' :: hexPair b.toNat

/-- `od -An -v -t x1`. -/
def od (bs : Bytes) : List Char := (odParts bs.length bs).flatMap fun part => odLine part ++ ['\n']

/-- A board with a loopback plug in `/dev/spidev0.0`. -/
def loopbackRun : CheckedRun Unit := fun cmd s =>
  match echoBytes ((cmd.toList.drop 10).takeWhile (· ≠ '\'')) with
  | some bs =>
    if cmd.toList.dropWhile (· ≠ '|') = "| spi-pipe -d /dev/spidev0.0 | od -An -v -t x1".toList then
      .ok ({ stdout := String.ofList (od bs) }, s)
    else .error (.transportError "no such device")
  | none => .error (.transportError "no such tool")

theorem odParts_flatten (n : Nat) (bs : Bytes) : (odParts n bs).flatten = bs := by
  induction n generalizing bs with
  | zero =>
    cases bs with
    | nil => rfl
    | cons => exact List.append_nil _
  | succ n ih =>
    cases bs with
    | nil => rfl
    | cons b bs =>
      rw [odParts, List.flatten_cons, ih, List.take_append_drop]
      exact List.cons_ne_nil b bs

theorem odLine_words (part : Bytes) :
    wordsOn isPySpace (odLine part) = part.map fun b => hexPair b.toNat := by
  induction part with
  | nil => exact wordsOn_nil _
  | cons b part ih =>
    have hword : wordsOn isPySpace (hexPair b.toNat) = [hexPair b.toNat] :=
      wordsOn_word (List.cons_ne_nil _ _) fun c hc => (I2cBus.hexPair_solid _ b.toNat_lt c hc).1
    rw [odLine, List.flatMap_cons, List.cons_append, wordsOn_cons (by decide), List.map_cons, ← ih]
    cases part with
    | nil => rw [List.flatMap_nil, List.append_nil, hword, odLine, List.flatMap_nil, wordsOn_nil]
    | cons b' part =>
      rw [odLine, List.flatMap_cons, List.cons_append, wordsOn_append_cons (by decide), hword,
        wordsOn_cons (by decide)]
      rfl

theorem odLine_plain (part : Bytes) : ∀ c ∈ odLine part, endsLine c = false := by
  have hall : ∀ n < 256, (hexPair n).all (fun c => decide (endsLine c = false)) = true := by
    decide +kernel
  intro c hc
  obtain ⟨b, _, hc⟩ := List.mem_flatMap.1 hc
  rcases List.mem_cons.1 hc with rfl | hc
  · rfl
  · exact forall_mem_of_all (hall _ b.toNat_lt) c hc

theorem od_text (bs : Bytes) : OdText bs (od bs) := by
  have hlines (parts : List Bytes) :
      splitLines (parts.flatMap fun part => odLine part ++ ['\n']) = parts.map odLine := by
    induction parts with
    | nil => rfl
    | cons part parts ih =>
      rw [List.flatMap_cons, List.append_assoc, List.singleton_append,
        splitLines_append (odLine_plain part), ih, List.map_cons]
  refine ⟨odParts bs.length bs, odParts_flatten _ bs, ?_⟩
  rw [od, hlines, List.forall₂_map_right_iff, List.forall₂_same]
  exact fun part _ => odLine_words part

theorem echoBytes_plain {text : List Char} (h : echoBytes text = some bs) :
    ∀ c ∈ text, c ≠ '\'' ∧ c ≠ '|' := by
  have hall : ∀ c ∈ hexChars, c ≠ '\'' ∧ c ≠ '|' := forall_mem_of_all (by decide)
  have hescape {b : UInt8} {t cs : List Char} (ht : tokenByte t = some b)
      (hcs : ∀ c ∈ cs, c ≠ '\'' ∧ c ≠ '|') :
      ∀ c ∈ '\\' :: 'x' :: (t ++ cs), c ≠ '\'' ∧ c ≠ '|' := by
    rw [List.forall_mem_cons, List.forall_mem_cons, List.forall_mem_append]
    exact ⟨by decide, by decide, fun c hc => hall c ((tokenByte_chars ht).2 c hc), hcs⟩
  induction text using echoBytes.induct generalizing bs with
  | case1 => exact fun c hc => (List.not_mem_nil hc).elim
  | case2 c d cs n hn ih =>
    rw [echoBytes, hn] at h
    obtain ⟨b, hb, hrest⟩ := Option.bind_eq_some_iff.1 h
    obtain ⟨bs', hbs, -⟩ := Option.bind_eq_some_iff.1 hrest
    exact hescape hb (ih hbs)
  | case3 c d cs hn ih =>
    rw [echoBytes, hn] at h
    obtain ⟨b, hb, hrest⟩ := Option.bind_eq_some_iff.1 h
    obtain ⟨bs', hbs, -⟩ := Option.bind_eq_some_iff.1 hrest
    exact hescape hb (ih hbs)
  | case4 c =>
    obtain ⟨b, hb, -⟩ := Option.bind_eq_some_iff.1 h
    exact hescape hb (List.forall_mem_nil _)
  | case5 text _ _ _ =>
    rw [echoBytes] at h
    · cases h
    all_goals assumption

theorem pipeline_toList (text : List Char) :
    (pipeline "/dev/spidev0.0" text).toList = "echo -ne '".toList ++ (text ++
      '\'' :: ' ' :: "| spi-pipe -d /dev/spidev0.0 | od -An -v -t x1".toList) := by
  simp only [pipeline, String.toList_append, String.toList_ofList, List.append_assoc]
  rfl

theorem loopback_tools : Tools loopbackRun "/dev/spidev0.0" fun s bs => (bs, s) where
  transfer {text bs} s hecho _ := by
    have hplain := echoBytes_plain hecho
    have hquote :
        ((pipeline "/dev/spidev0.0" text).toList.drop 10).takeWhile (· ≠ '\'') = text := by
      have hlen : ("echo -ne '".toList).length = 10 := rfl
      rw [pipeline_toList, ← hlen, List.drop_left,
        List.takeWhile_append_of_pos fun c hc => decide_eq_true (hplain c hc).1,
        List.takeWhile_cons_of_neg (by decide), List.append_nil]
    have hpipe : (pipeline "/dev/spidev0.0" text).toList.dropWhile (· ≠ '|') =
        "| spi-pipe -d /dev/spidev0.0 | od -An -v -t x1".toList := by
      rw [pipeline_toList, List.dropWhile_append_of_pos (forall_mem_of_all (by decide)),
        List.dropWhile_append_of_pos fun c hc => decide_eq_true (hplain c hc).2]
      rfl
    refine ⟨{ stdout := String.ofList (od bs) }, ?_, ?_⟩
    · rw [loopbackRun, hquote, hecho]
      exact if_pos hpipe
    · rw [String.toList_ofList]
      exact od_text bs

end SpiBus

theorem spi_transfers_loopback :
    SpiBus.transferAll SpiBus.loopbackRun "/dev/spidev0.0"
        [["1".toList, "fF".toList, "a2".toList], []] () =
      .ok ([["01".toList, "FF".toList, "A2".toList], []], ()) := by
  have hbytes : List.Forall₂ (fun tx bs => tx.mapM SpiBus.tokenByte = some bs)
      [["1".toList, "fF".toList, "a2".toList], []] [[0x01, 0xff, 0xa2], []] :=
    .cons (by decide) (.cons rfl .nil)
  have h := spi_transfers SpiBus.loopback_tools hbytes ()
  exact h.1.trans (by decide +kernel)

end MesCore
