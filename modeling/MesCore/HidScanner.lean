import Mathlib.Data.List.Basic
import Mathlib.Tactic.Common

namespace MesCore
set_option autoImplicit true

namespace HidScanner

/-- The name evdev gives a key, and the others where there are several. -/
structure Keycode where
  first : String
  others : List String
  deriving DecidableEq

/-- `ecodes.EV_KEY`. -/
def evKey : Nat := 1

/-- An event; `keycode` is what `categorize` makes of a key event. -/
structure InputEvent where
  type : Nat
  value : Int
  keycode : Keycode
  deriving DecidableEq

def keyMapping : List (String × Char) :=
  [("KEY_0", '0'), ("KEY_1", '1'), ("KEY_2", '2'), ("KEY_3", '3'), ("KEY_4", '4'),
   ("KEY_5", '5'), ("KEY_6", '6'), ("KEY_7", '7'), ("KEY_8", '8'), ("KEY_9", '9'),
   ("KEY_MINUS", '-'), ("KEY_EQUAL", '='), ("KEY_SPACE", ' '), ("KEY_DOT", '.'),
   ("KEY_SLASH", '/'), ("KEY_BACKSLASH", '\\'), ("KEY_SEMICOLON", ':')]

/-- What the scanner's user can type: a character of a barcode, or its end. -/
inductive Stroke
  | enter
  | char (c : Char)
  deriving DecidableEq

/-- Keys outside the mapping count if their name is `KEY_` and one letter. -/
def strokeOf (keycode : String) : Option Stroke :=
  if keycode = "KEY_ENTER" ∨ keycode = "KEY_KPENTER" then some .enter
  else match keyMapping.lookup keycode with
    | some c => some (.char c)
    | none => match keycode.toList with
      | ['K', 'E', 'Y', '_', c] => some (.char c)
      | _ => none

/-- Only a key going down counts, neither its release nor its repetition. -/
def InputEvent.stroke? (e : InputEvent) : Option Stroke :=
  if e.type = evKey ∧ e.value = 1 then strokeOf e.keycode.first else none

inductive HidErr
  | hostAdapterError (msg : String)
  | hidScannerTimeoutError (msg : String)
  | hostHardwareDisconnectError (msg : String)
  deriving DecidableEq

/-- How the loop over one batch of events ends. -/
inductive BatchEnd
  | returned (barcode : List Char)
  | waiting (barcode : List Char)
  deriving DecidableEq

/-- A return in the middle of a batch leaves the rest of it unread. -/
def readEvents (barcode : List Char) : List InputEvent → BatchEnd
  | [] => .waiting barcode
  | e :: es =>
    match e.stroke? with
    | some .enter => .returned barcode
    | some (.char c) => readEvents (barcode ++ [c]) es
    | none => readEvents barcode es

/-- One turn of the loop: what `select` and `read` come back with. -/
inductive Turn
  | ready (events : List InputEvent)
  | quiet
  | osError (msg : String)

end HidScanner

structure HeadlessBarcodeScanner where
  scanTimeoutS : Nat
  device : Bool

namespace HeadlessBarcodeScanner
open HidScanner

section
variable (scanner : HeadlessBarcodeScanner)

def timeout : HidErr :=
  .hidScannerTimeoutError s!"Barcode scan timed out after {scanner.scanTimeoutS}s."

/-- The loop of `wait_for_scan`, with what is left on the device. -/
def waitLoop (barcode : List Char) : List Turn → Except HidErr (List Char) × List Turn
  | [] => (.error scanner.timeout, [])
  | .quiet :: turns => (.error scanner.timeout, turns)
  | .osError msg :: turns =>
    (.error (.hostHardwareDisconnectError
      s!"Scanner physically disconnected during read operation: {msg}"), turns)
  | .ready events :: turns =>
    match readEvents barcode events with
    | .returned barcode => (.ok barcode, turns)
    | .waiting barcode => waitLoop barcode turns

def waitForScan (turns : List Turn) : Except HidErr (List Char) × List Turn :=
  if scanner.device then scanner.waitLoop [] turns
  else (.error (.hostAdapterError
    "Scanner not initialized. Must be used within a 'with' context manager."), turns)

/-- So many calls of `wait_for_scan`, one after the other. -/
def scans : Nat → List Turn → List (Except HidErr (List Char))
  | 0, _ => []
  | n + 1, turns =>
    (scanner.waitForScan turns).1 :: scans n (scanner.waitForScan turns).2

end

end HeadlessBarcodeScanner

namespace HidScanner

def typed (events : List InputEvent) : List Stroke := events.filterMap InputEvent.stroke?

def strokes (barcode : List Char) : List Stroke := barcode.map .char ++ [.enter]

section
variable {barcode more x : List Char} {events : List InputEvent} {rest s post : List Stroke}

theorem exists_enter (s : List Stroke) :
    (∃ b : List Char, s = b.map .char) ∨ ∃ (b : List Char) (post : List Stroke),
      s = b.map .char ++ .enter :: post := by
  induction s with
  | nil => exact .inl ⟨[], rfl⟩
  | cons k s ih =>
    cases k with
    | enter => exact .inr ⟨[], s, rfl⟩
    | char c =>
      rcases ih with ⟨b, rfl⟩ | ⟨b, post, rfl⟩
      · exact .inl ⟨c :: b, rfl⟩
      · exact .inr ⟨c :: b, post, rfl⟩

theorem enter_notMem_chars (b : List Char) : Stroke.enter ∉ b.map Stroke.char := by
  intro h
  obtain ⟨c, -, hc⟩ := List.mem_map.1 h
  cases hc

theorem split_chars {b : List Char} (h : x.map .char ++ s = b.map .char ++ .enter :: rest) :
    ∃ b', b = x ++ b' ∧ s = b'.map .char ++ .enter :: rest := by
  induction x generalizing b with
  | nil => exact ⟨b, rfl, h⟩
  | cons c x ih =>
    cases b with
    | nil => cases h
    | cons c' b =>
      simp only [List.map_cons, List.cons_append, List.cons.injEq, Stroke.char.injEq] at h
      obtain ⟨rfl, h⟩ := h
      obtain ⟨b', rfl, hs⟩ := ih h
      exact ⟨b', rfl, hs⟩

theorem split_enter {b : List Char}
    (h : x.map .char ++ .enter :: post = b.map .char ++ .enter :: rest) :
    x = b ∧ post = rest := by
  obtain ⟨b', rfl, hs⟩ := split_chars h
  cases b' with
  | nil =>
    cases hs
    exact ⟨(List.append_nil x).symm, rfl⟩
  | cons c b' => cases hs

theorem typed_cons_none {e : InputEvent} (h : e.stroke? = none) :
    typed (e :: events) = typed events :=
  List.filterMap_cons_none h

theorem typed_cons_some {e : InputEvent} {k : Stroke} (h : e.stroke? = some k) :
    typed (e :: events) = k :: typed events :=
  List.filterMap_cons_some h

theorem typed_append (es es' : List InputEvent) : typed (es ++ es') = typed es ++ typed es' :=
  List.filterMap_append

theorem readEvents_chars {b : List Char} (h : typed events = b.map .char) :
    readEvents barcode events = .waiting (barcode ++ b) := by
  induction events generalizing barcode b with
  | nil =>
    cases b with
    | nil => rw [readEvents, List.append_nil]
    | cons c b => cases h
  | cons e events ih =>
    rw [readEvents]
    cases hk : e.stroke? with
    | none =>
      rw [typed_cons_none hk] at h
      exact ih h
    | some k =>
      rw [typed_cons_some hk] at h
      cases b with
      | nil => cases h
      | cons c b =>
        obtain ⟨hc, htail⟩ := List.cons.inj h
        rw [hc, List.append_cons]
        exact ih htail

theorem readEvents_enter {b : List Char} (h : typed events = b.map .char ++ .enter :: post) :
    readEvents barcode events = .returned (barcode ++ b) := by
  induction events generalizing barcode b with
  | nil => cases b <;> cases h
  | cons e events ih =>
    rw [readEvents]
    cases hk : e.stroke? with
    | none =>
      rw [typed_cons_none hk] at h
      exact ih h
    | some k =>
      rw [typed_cons_some hk] at h
      cases b with
      | nil =>
        rw [(List.cons.inj h).1, List.append_nil]
      | cons c b =>
        obtain ⟨hc, htail⟩ := List.cons.inj h
        rw [hc, List.append_cons]
        exact ih htail

end

section
variable {scanner : HeadlessBarcodeScanner} {barcode b more : List Char}
  {batches rest : List (List InputEvent)} {s : List Stroke}

theorem waitLoop_chars (h : typed batches.flatten = b.map .char) :
    scanner.waitLoop barcode (batches.map .ready) = (.error scanner.timeout, []) := by
  induction batches generalizing barcode b with
  | nil => rfl
  | cons es batches ih =>
    rw [List.flatten_cons, typed_append] at h
    obtain ⟨x, y, rfl, hx, hy⟩ := List.append_eq_map_iff.1 h
    rw [List.map_cons, HeadlessBarcodeScanner.waitLoop, readEvents_chars hx.symm]
    exact ih hy.symm

/-- A call returns what was typed up to the first ENTER. What is typed behind it in the same batch
is gone. -/
theorem waitLoop_enter (scanner : HeadlessBarcodeScanner) (barcode : List Char)
    (h : typed batches.flatten = b.map .char ++ .enter :: s) :
    ∃ quiet es rest lost, batches = quiet ++ es :: rest ∧ .enter ∉ typed quiet.flatten ∧
      (∃ x : List Char, typed es = x.map .char ++ .enter :: lost) ∧
      s = lost ++ typed rest.flatten ∧
      scanner.waitLoop barcode (batches.map .ready) = (.ok (barcode ++ b), rest.map .ready) := by
  induction batches generalizing barcode b with
  | nil => cases b <;> cases h
  | cons es batches ih =>
    rw [List.flatten_cons, typed_append] at h
    rcases exists_enter (typed es) with ⟨x, hx⟩ | ⟨x, post, hx⟩
    · rw [hx] at h
      obtain ⟨b', rfl, hs⟩ := split_chars h
      obtain ⟨quiet, es', rest, lost, rfl, hquiet, hes, hlost, hrun⟩ := ih (barcode ++ x) hs
      have hnone : .enter ∉ typed (es :: quiet).flatten := by
        rw [List.flatten_cons, typed_append, hx, List.mem_append, not_or]
        exact ⟨enter_notMem_chars x, hquiet⟩
      rw [List.map_cons, HeadlessBarcodeScanner.waitLoop, readEvents_chars hx]
      rw [List.append_assoc] at hrun
      exact ⟨es :: quiet, es', rest, lost, rfl, hnone, hes, hlost, hrun⟩
    · rw [hx, List.append_assoc, List.cons_append] at h
      obtain ⟨rfl, hpost⟩ := split_enter h
      rw [List.map_cons, HeadlessBarcodeScanner.waitLoop, readEvents_enter hx]
      exact ⟨[], es, batches, post, rfl, List.not_mem_nil, ⟨x, hx⟩, hpost.symm, rfl⟩

theorem exists_of_waitLoop {turns : List Turn}
    (h : scanner.waitLoop [] (batches.map .ready) = (.ok b, turns)) :
    ∃ (rest : List (List InputEvent)) (lost : List Stroke), turns = rest.map .ready ∧
      typed batches.flatten = strokes b ++ (lost ++ typed rest.flatten) := by
  rcases exists_enter (typed batches.flatten) with ⟨x, hx⟩ | ⟨x, post, hx⟩
  · rw [waitLoop_chars hx] at h
    cases h
  · obtain ⟨quiet, es, rest, lost, -, -, -, rfl, hrun⟩ :=
      waitLoop_enter scanner [] hx
    rw [hrun] at h
    cases h
    have happend : strokes x ++ (lost ++ typed rest.flatten) =
        x.map .char ++ .enter :: (lost ++ typed rest.flatten) := by
      rw [strokes, List.append_assoc, List.singleton_append]
    exact ⟨rest, lost, rfl, hx.trans happend.symm⟩

variable {barcodes : List (List Char)}

theorem scans_succ (hdev : scanner.device = true) (n : Nat) (turns : List Turn) :
    scanner.scans (n + 1) turns =
      (scanner.waitLoop [] turns).1 :: scanner.scans n (scanner.waitLoop [] turns).2 := by
  rw [HeadlessBarcodeScanner.scans, HeadlessBarcodeScanner.waitForScan, if_pos hdev]

theorem strokes_sublist (hdev : scanner.device = true)
    (h : scanner.scans barcodes.length (batches.map .ready) = barcodes.map .ok) :
    (barcodes.flatMap strokes).Sublist (typed batches.flatten) := by
  induction barcodes generalizing batches with
  | nil => exact List.nil_sublist _
  | cons b barcodes ih =>
    obtain ⟨r, turns, hrun⟩ : ∃ r turns, scanner.waitLoop [] (batches.map .ready) = (r, turns) :=
      ⟨_, _, rfl⟩
    rw [List.length_cons, scans_succ hdev, List.map_cons, hrun] at h
    obtain ⟨rfl, hrest⟩ := List.cons.inj h
    obtain ⟨rest, lost, rfl, htyped⟩ := exists_of_waitLoop hrun
    rw [htyped, List.flatMap_cons]
    exact (List.Sublist.refl _).append ((ih hrest).trans (List.sublist_append_right _ _))

/-- A batch in which nothing is typed behind an ENTER. -/
def EndsAtEnter (events : List InputEvent) : Prop := Stroke.enter ∉ (typed events).dropLast

instance : DecidablePred EndsAtEnter := fun _ => inferInstanceAs (Decidable (_ ∉ _))

theorem endsAtEnter_of_notMem {events : List InputEvent} (h : .enter ∉ typed events) :
    EndsAtEnter events :=
  fun hmem => h (List.dropLast_subset _ hmem)

theorem endsAtEnter_iff {events : List InputEvent} {x : List Char} {lost : List Stroke}
    (h : typed events = x.map .char ++ .enter :: lost) : EndsAtEnter events ↔ lost = [] := by
  rw [EndsAtEnter, h]
  cases lost with
  | nil =>
    rw [List.dropLast_concat]
    exact iff_of_true (enter_notMem_chars x) rfl
  | cons k lost =>
    rw [List.dropLast_append_of_ne_nil (List.cons_ne_nil _ _), List.dropLast_cons_cons]
    simp

theorem endsAtEnter_of_flatten (h : .enter ∉ typed batches.flatten) :
    ∀ batch ∈ batches, EndsAtEnter batch := by
  intro batch hbatch
  apply endsAtEnter_of_notMem
  intro hmem
  obtain ⟨e, he, hk⟩ := List.mem_filterMap.1 hmem
  exact h (List.mem_filterMap.2 ⟨e, List.mem_flatten_of_mem hbatch he, hk⟩)

/-- Calls of `wait_for_scan` return the barcodes exactly if no batch goes on behind an ENTER. -/
theorem scans_eq_iff (scanner : HeadlessBarcodeScanner) (hdev : scanner.device = true)
    (barcodes : List (List Char)) (batches : List (List InputEvent))
    (htyped : typed batches.flatten = barcodes.flatMap strokes) :
    scanner.scans barcodes.length (batches.map .ready) = barcodes.map .ok ↔
      ∀ batch ∈ batches, EndsAtEnter batch := by
  induction barcodes generalizing batches with
  | nil =>
    have hnone : .enter ∉ typed batches.flatten := htyped ▸ List.not_mem_nil
    exact iff_of_true rfl (endsAtEnter_of_flatten hnone)
  | cons b barcodes ih =>
    rw [List.flatMap_cons, strokes, List.append_assoc, List.singleton_append] at htyped
    obtain ⟨quiet, es, rest, lost, rfl, hquiet, ⟨x, hx⟩, hlost, hrun⟩ :=
      waitLoop_enter scanner [] htyped
    rw [List.length_cons, scans_succ hdev, hrun, List.map_cons, List.nil_append,
      List.cons_inj_right, List.forall_mem_append, List.forall_mem_cons,
      and_iff_right (endsAtEnter_of_flatten hquiet), endsAtEnter_iff hx]
    constructor
    · intro h
      have hlen := (strokes_sublist hdev h).length_le
      rw [hlost, List.length_append] at hlen
      obtain rfl : lost = [] := List.eq_nil_of_length_eq_zero (by omega)
      exact ⟨rfl, (ih rest hlost.symm).1 h⟩
    · rintro ⟨rfl, hrest⟩
      exact (ih rest hlost.symm).2 hrest

end

def press (keycode : String) : InputEvent := ⟨evKey, 1, ⟨keycode, []⟩⟩

def release (keycode : String) : InputEvent := ⟨evKey, 0, ⟨keycode, []⟩⟩

/-- Two barcodes of which the first comes in two batches. -/
theorem scans_in_time :
    HeadlessBarcodeScanner.scans ⟨30, true⟩ 2
      ([[press "KEY_A"], [release "KEY_A", press "KEY_1", press "KEY_KPENTER"],
        [press "KEY_2", press "KEY_ENTER", release "KEY_ENTER"]].map .ready) =
      [['A', '1'], ['2']].map .ok :=
  (scans_eq_iff ⟨30, true⟩ rfl [['A', '1'], ['2']] _ (by decide)).2 (by decide)

/-- The second barcode in the batch of the first is lost. -/
theorem second_scan_lost :
    HeadlessBarcodeScanner.scans ⟨30, true⟩ 2
      ([[press "KEY_1", press "KEY_ENTER", press "KEY_2", press "KEY_ENTER"]].map .ready) ≠
      [['1'], ['2']].map .ok ∧
    typed [press "KEY_1", press "KEY_ENTER", press "KEY_2", press "KEY_ENTER"] =
      [['1'], ['2']].flatMap strokes := by
  decide

end HidScanner

end MesCore
