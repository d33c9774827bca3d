import MesCore.Lines
import MesCore.Text

namespace MesCore
set_option autoImplicit true

/-- What `sanitize` and `model_dump_json` make of a record, or that they raise. A JSON text has no
raw line break, and it parses. -/
structure RecordJson (ρ : Type) where
  testName : ρ → String
  dump : ρ → Option Bytes
  parses : Bytes → Bool
  noBreak : ∀ r t, dump r = some t → 10 ∉ t
  parses_dump : ∀ r t, dump r = some t → parses t = true

inductive TelemetryErr
  | deliveryError (msg : String)
  | serializationError (msg : String)
  deriving DecidableEq

/-- The file of the session, once one has begun, and what went to the RAM disk. -/
structure JsonlTelemetryExporter where
  activeFile : Option Bytes
  emergencyDump : Bytes
  deriving DecidableEq

/-- A call, and after how many bytes the disk and the RAM disk fail, if they do. -/
structure EmitCall (ρ : Type) where
  record : ρ
  failAfter : Option Nat
  dumpFailAfter : Option Nat

def written (payload : Bytes) : Option Nat → Bytes
  | none => payload
  | some n => payload.take n

namespace JsonlTelemetryExporter

section
variable (json : RecordJson ρ)

def emitRecord (e : JsonlTelemetryExporter) (call : EmitCall ρ) :
    Except TelemetryErr Unit × JsonlTelemetryExporter :=
  match e.activeFile with
  | none => (.error (.deliveryError
      "Attempted to emit record before starting telemetry session."), e)
  | some file =>
    match json.dump call.record with
    | none => (.error (.serializationError
        s!"Failed to serialize record for {json.testName call.record}"), e)
    | some text =>
      let payload := text ++ [10]
      let appended := { e with activeFile := some (file ++ written payload call.failAfter) }
      match call.failAfter with
      | none => (.ok (), appended)
      | some _ =>
        (.error (.deliveryError "Telemetry flush failed! Disk full? Emergency dump attempted."),
          { appended with
            emergencyDump := e.emergencyDump ++ written payload call.dumpFailAfter })

def emitAll (e : JsonlTelemetryExporter) (calls : List (EmitCall ρ)) : JsonlTelemetryExporter :=
  calls.foldl (fun e call => (emitRecord json e call).2) e

/-- `start_session` leaves an empty file. -/
def armed : JsonlTelemetryExporter := ⟨some [], []⟩

def content (e : JsonlTelemetryExporter) : Bytes := e.activeFile.getD []

/-- The texts of the records whose call returned, in their order. -/
def returned (e : JsonlTelemetryExporter) : List (EmitCall ρ) → List Bytes
  | [] => []
  | call :: calls =>
    let rest := returned (emitRecord json e call).2 calls
    match (emitRecord json e call).1, json.dump call.record with
    | .ok _, some text => text :: rest
    | _, _ => rest

/-- Where the text of a returned record was put there is a complete line with nothing else. -/
def OwnLines (e : JsonlTelemetryExporter) (calls : List (EmitCall ρ)) : Prop :=
  ∀ before call after text, calls = before ++ call :: after →
    (emitRecord json (emitAll json e before) call).1 = .ok () →
    json.dump call.record = some text →
    (finished 10 (content (emitAll json e calls)))[
      (finished 10 (content (emitAll json e before))).length]? = some text

/-- The lines that parse have at least the returned records, in their order. -/
def LinesParse (e : JsonlTelemetryExporter) (calls : List (EmitCall ρ)) : Prop :=
  (returned json e calls).Sublist
    (((content (emitAll json e calls)).splitOn 10).filter json.parses)

/-- No call returns while the last bytes that reached the file are a part of a payload. -/
def NoneBehindFragment : Bool → List (EmitCall ρ) → Prop
  | _, [] => True
  | fragment, call :: calls =>
    match json.dump call.record, call.failAfter with
    | none, _ => NoneBehindFragment fragment calls
    | some _, none => fragment = false ∧ NoneBehindFragment false calls
    | some text, some n =>
      NoneBehindFragment (if n = 0 then fragment else decide (n ≤ text.length)) calls

end

section
variable {json : RecordJson ρ} {e : JsonlTelemetryExporter} {call : EmitCall ρ}
  {calls before after : List (EmitCall ρ)} {file text : Bytes}

theorem emitRecord_file (json : RecordJson ρ) (call : EmitCall ρ) (he : e.activeFile = some file) :
    (emitRecord json e call).2.activeFile =
      some (file ++ (json.dump call.record).elim [] fun text =>
        written (text ++ [10]) call.failAfter) := by
  rw [emitRecord, he]
  cases hd : json.dump call.record with
  | none =>
    rw [Option.elim_none, List.append_nil]
    exact he
  | some text =>
    cases hf : call.failAfter with
    | none => rfl
    | some n => rfl

/-- It returns exactly if the record has a text and the disk does not fail. -/
theorem emitRecord_ok (json : RecordJson ρ) (call : EmitCall ρ) (he : e.activeFile = some file) :
    (emitRecord json e call).1 = .ok () ↔
      (json.dump call.record).isSome = true ∧ call.failAfter = none := by
  rw [emitRecord, he]
  cases hd : json.dump call.record with
  | none => exact iff_of_false (fun h => nomatch h) fun h => nomatch h.1
  | some text =>
    cases hf : call.failAfter with
    | none => exact iff_of_true rfl ⟨rfl, rfl⟩
    | some n => exact iff_of_false (fun h => nomatch h) fun h => nomatch h.2

theorem emitAll_cons (e : JsonlTelemetryExporter) (call : EmitCall ρ) (calls : List (EmitCall ρ)) :
    emitAll json e (call :: calls) = emitAll json (emitRecord json e call).2 calls := rfl

theorem emitAll_file (json : RecordJson ρ) (he : e.activeFile = some file)
    (calls : List (EmitCall ρ)) :
    ∃ rest, (emitAll json e calls).activeFile = some (file ++ rest) := by
  induction calls generalizing e file with
  | nil =>
    refine ⟨[], ?_⟩
    rw [List.append_nil]
    exact he
  | cons call calls ih =>
    obtain ⟨rest, hrest⟩ := ih (emitRecord_file json call he)
    rw [List.append_assoc] at hrest
    exact ⟨_, hrest⟩

theorem finished_payload (hbreak : 10 ∉ text) (file rest : Bytes) :
    finished 10 (file ++ (text ++ [10] ++ rest)) =
      finished 10 file ++ (unfinished 10 file ++ text) :: finished 10 rest := by
  have hnone : ∀ l ∈ [unfinished 10 file ++ text], 10 ∉ l := by
    intro l hl
    rw [List.mem_singleton.1 hl, List.mem_append, not_or]
    exact ⟨sep_notMem_unfinished, hbreak⟩
  have hsplit := splitOn_lines hnone rest
  rw [splitOn_eq 10 rest, ← List.append_assoc, List.flatMap_singleton, List.append_assoc,
    List.append_assoc] at hsplit
  rw [finished_append, List.append_assoc text, finished_of_splitOn 10 _ hsplit]
  rfl

theorem unfinished_payload (file text : Bytes) : unfinished 10 (file ++ (text ++ [10])) = [] := by
  have hnone : ∀ l ∈ [unfinished 10 (file ++ text)], (10 : UInt8) ∉ l := by
    intro l hl
    rw [List.mem_singleton.1 hl]
    exact sep_notMem_unfinished
  have hsplit := splitOn_lines hnone []
  rw [List.flatMap_singleton, List.append_nil, List.splitOn_nil] at hsplit
  rw [← List.append_assoc, unfinished_append, unfinished_of_splitOn 10 _ hsplit]

theorem unfinished_cut (hbreak : 10 ∉ text) {n : Nat} (hn : n ≤ text.length) (file : Bytes) :
    unfinished 10 (file ++ (text ++ [10]).take n) = unfinished 10 file ++ text.take n := by
  rw [List.take_append_of_le_length hn, unfinished_append]
  apply unfinished_eq_self
  rw [List.mem_append, not_or]
  exact ⟨sep_notMem_unfinished, fun h => hbreak (List.mem_of_mem_take h)⟩

theorem unfinished_written (hbreak : 10 ∉ text) (n : Nat) (file : Bytes) :
    unfinished 10 (file ++ written (text ++ [10]) (some n)) ≠ [] ↔
      (if n = 0 then unfinished 10 file ≠ [] else n ≤ text.length) := by
  rw [written]
  by_cases hzero : n = 0
  · rw [if_pos hzero, hzero, List.take_zero, List.append_nil]
  · rw [if_neg hzero]
    by_cases hn : n ≤ text.length
    · rw [unfinished_cut hbreak hn]
      refine iff_of_true (List.append_ne_nil_of_right_ne_nil _ fun h => ?_) hn
      rcases List.take_eq_nil_iff.1 h with h | h
      · exact hzero h
      · rw [h] at hn
        exact hzero (Nat.le_zero.1 hn)
    · have hall : (text ++ [10]).take n = text ++ [10] := by
        apply List.take_of_length_le
        rw [List.length_append, List.length_singleton]
        omega
      rw [hall, unfinished_payload]
      exact iff_of_false (fun h => h rfl) hn

/-- The flag tells whether the file was left with a fragment. -/
def TellsFragment (fragment : Bool) (file : Bytes) : Prop :=
  fragment = true ↔ unfinished 10 file ≠ []

theorem TellsFragment.clear {fragment : Bool} (h : TellsFragment fragment file) :
    fragment = false ↔ unfinished 10 file = [] := by
  rw [TellsFragment] at h
  rw [← Bool.not_eq_true, h, not_not]

theorem tellsFragment_nil : TellsFragment false [] := iff_of_false Bool.false_ne_true fun h => h rfl

theorem tellsFragment_whole (file text : Bytes) :
    TellsFragment false (file ++ written (text ++ [10]) none) := by
  rw [TellsFragment, written, unfinished_payload]
  exact iff_of_false Bool.false_ne_true fun h => h rfl

theorem TellsFragment.cut {fragment : Bool} (h : TellsFragment fragment file)
    (hbreak : 10 ∉ text) (n : Nat) :
    TellsFragment (if n = 0 then fragment else decide (n ≤ text.length))
      (file ++ written (text ++ [10]) (some n)) := by
  rw [TellsFragment, unfinished_written hbreak]
  split
  · exact h
  · exact decide_eq_true_iff

theorem ownLines_cons {calls : List (EmitCall ρ)} :
    OwnLines json e (call :: calls) ↔
      (∀ text, (emitRecord json e call).1 = .ok () → json.dump call.record = some text →
        (finished 10 (content (emitAll json e (call :: calls))))[
          (finished 10 (content e)).length]? = some text) ∧
      OwnLines json (emitRecord json e call).2 calls := by
  constructor
  · intro h
    refine ⟨fun text => h [] call calls text rfl, ?_⟩
    intro before call' after text hcalls
    exact h (call :: before) call' after text (congrArg (call :: ·) hcalls)
  · rintro ⟨hfirst, hrest⟩ before call' after text hcalls
    cases before with
    | nil =>
      obtain ⟨rfl, rfl⟩ := List.cons.inj hcalls
      exact hfirst text
    | cons c before =>
      obtain ⟨rfl, htail⟩ := List.cons.inj hcalls
      exact hrest before call' after text htail

/-- The first record has its own line exactly if the file was left with no fragment. -/
theorem firstLine_iff (he : e.activeFile = some file) (hd : json.dump call.record = some text)
    (hf : call.failAfter = none) :
    (finished 10 (content (emitAll json e (call :: calls))))[
      (finished 10 (content e)).length]? = some text ↔ unfinished 10 file = [] := by
  have hfile := emitRecord_file json call he
  rw [hd, hf] at hfile
  obtain ⟨rest, hrest⟩ := emitAll_file json hfile calls
  rw [emitAll_cons, content, content, hrest, he, Option.getD_some, Option.getD_some,
    Option.elim_some, written, List.append_assoc, finished_payload (json.noBreak _ _ hd),
    List.getElem?_append_right le_rfl, Nat.sub_self, List.getElem?_cons_zero, Option.some.injEq]
  exact List.append_left_eq_self

theorem ownLines_iff {fragment : Bool} (he : e.activeFile = some file)
    (htells : TellsFragment fragment file) :
    OwnLines json e calls ↔ NoneBehindFragment json fragment calls := by
  induction calls generalizing e file fragment with
  | nil =>
    refine iff_of_true ?_ trivial
    intro before call after text hcalls
    cases before <;> cases hcalls
  | cons call calls ih =>
    have hfile := emitRecord_file json call he
    have hok := emitRecord_ok json call he
    rw [ownLines_cons, NoneBehindFragment]
    cases hd : json.dump call.record with
    | none =>
      rw [hd, Option.elim_none, List.append_nil] at hfile
      rw [ih hfile htells]
      exact and_iff_right fun text _ htext => nomatch htext
    | some text =>
      rw [hd, Option.elim_some] at hfile
      cases hf : call.failAfter with
      | none =>
        rw [hf] at hfile
        rw [ih hfile (tellsFragment_whole file text)]
        apply and_congr_left
        intro _
        rw [htells.clear, ← firstLine_iff he hd hf]
        constructor
        · exact fun h => h text (hok.2 ⟨by rw [hd]; rfl, hf⟩) rfl
        · rintro h text' - htext
          cases htext
          exact h
      | some n =>
        rw [hf] at hfile
        rw [ih hfile (htells.cut (json.noBreak _ _ hd) n)]
        apply and_iff_right
        intro text' hret
        have hnone := (hok.1 hret).2
        rw [hf] at hnone
        cases hnone

/-- Without a fragment in its way a returned record is one of the lines that parse. -/
theorem returned_sublist {fragment : Bool} (he : e.activeFile = some file)
    (htells : TellsFragment fragment file) (h : NoneBehindFragment json fragment calls) :
    ∃ lines, finished 10 (content (emitAll json e calls)) = finished 10 file ++ lines ∧
      (returned json e calls).Sublist (lines.filter json.parses) := by
  induction calls generalizing e file fragment with
  | nil =>
    refine ⟨[], ?_, List.nil_sublist _⟩
    rw [List.append_nil, emitAll, List.foldl_nil, content, he, Option.getD_some]
  | cons call calls ih =>
    have hfile := emitRecord_file json call he
    have hok := emitRecord_ok json call he
    rw [NoneBehindFragment] at h
    rw [emitAll_cons, returned]
    cases hd : json.dump call.record with
    | none =>
      rw [hd] at h
      rw [hd, Option.elim_none, List.append_nil] at hfile
      obtain ⟨lines, hlines, hsub⟩ := ih hfile htells h
      refine ⟨lines, hlines, ?_⟩
      split
      · rename_i hnone
        cases hnone
      · exact hsub
    | some text =>
      rw [hd, Option.elim_some] at hfile
      cases hf : call.failAfter with
      | none =>
        rw [hd, hf] at h
        rw [hf] at hfile
        obtain ⟨lines, hlines, hsub⟩ := ih hfile (tellsFragment_whole file text) h.2
        have hline : finished 10 (file ++ written (text ++ [10]) none) =
            finished 10 file ++ [text] := by
          have hpayload := finished_payload (json.noBreak _ _ hd) file []
          rw [List.append_nil, htells.clear.1 h.1] at hpayload
          exact hpayload
        rw [hline, List.append_assoc, List.singleton_append] at hlines
        rw [hok.2 ⟨by rw [hd]; rfl, hf⟩]
        refine ⟨text :: lines, hlines, ?_⟩
        rw [List.filter_cons_of_pos (json.parses_dump _ _ hd)]
        exact hsub.cons_cons text
      | some n =>
        rw [hd, hf] at h
        rw [hf] at hfile
        obtain ⟨lines, hlines, hsub⟩ := ih hfile (htells.cut (json.noBreak _ _ hd) n) h
        rw [finished_append, List.append_assoc] at hlines
        refine ⟨_, hlines, ?_⟩
        rw [List.filter_append]
        refine .trans ?_ (hsub.trans (List.sublist_append_right _ _))
        cases hret : (emitRecord json e call).1 with
        | error err => exact .refl _
        | ok _ =>
          have hnone := (hok.1 hret).2
          rw [hf] at hnone
          cases hnone

/-- Every returned record has a line of its own, and the lines that parse have all of them, exactly
if no append succeeds behind a fragment. -/
theorem stream_survives_iff (json : RecordJson ρ) (calls : List (EmitCall ρ)) :
    OwnLines json armed calls ∧ LinesParse json armed calls ↔
      NoneBehindFragment json false calls := by
  rw [ownLines_iff rfl tellsFragment_nil]
  apply and_iff_left_of_imp
  intro h
  have harmed : armed.activeFile = some [] := rfl
  obtain ⟨lines, hlines, hsub⟩ := returned_sublist harmed tellsFragment_nil h
  have hnil : finished 10 ([] : Bytes) = [] := rfl
  rw [LinesParse, splitOn_eq, hlines, hnil, List.nil_append, List.filter_append]
  exact hsub.trans (List.sublist_append_left _ _)

end

def twoRecords : RecordJson Bool where
  testName r := if r then "a" else "b"
  dump r := some (ascii
    (if r then "\x7b\"test_name\":\"a\"\x7d" else "\x7b\"test_name\":\"b\"\x7d"))
  parses t := t = ascii "\x7b\"test_name\":\"a\"\x7d" ∨
    t = ascii "\x7b\"test_name\":\"b\"\x7d"
  noBreak r t h := by
    cases h
    cases r <;> decide
  parses_dump r t h := by
    cases h
    cases r <;> decide

/-- The second record is glued to the fragment of the first. -/
theorem glued_record :
    ¬ (OwnLines twoRecords armed [⟨true, some 5, none⟩, ⟨false, none, none⟩] ∧
      LinesParse twoRecords armed [⟨true, some 5, none⟩, ⟨false, none, none⟩]) := by
  rintro ⟨-, h⟩
  rw [LinesParse] at h
  revert h
  decide

end JsonlTelemetryExporter

end MesCore
