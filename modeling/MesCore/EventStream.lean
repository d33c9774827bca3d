import MesCore.Text

namespace MesCore
set_option autoImplicit true

/-- The typed events of a boot. Time stamps go to telemetry only and are left out. -/
inductive UartEvent
  | promptDetected (promptType : String)
  | autobootWindowDetected
  | panicDetected (rawOutput : String)
  | milestoneReached (name : String)
  | bootDataReceived (line : String)
  | idleTick
  deriving DecidableEq

/-- The arguments of `UartEventStream.open` that decide which events it yields. -/
structure StreamParams where
  prompts : List (String × Bytes)
  milestones : List (String × String) := []
  autobootTrigger : Option Bytes := none

/-- The local variables of `UartEventStream.open` that live from one chunk to the next. -/
structure StreamState where
  localBuf : List Char := []
  pendingMilestones : List (String × String) := []
  autobootFired : Bool := false
  detectedPrompts : List String := []
  panicked : Bool := false

def StreamParams.start (p : StreamParams) : StreamState := { pendingMilestones := p.milestones }

/-- `autoboot_trigger and (not autoboot_fired) and (autoboot_trigger in clean)`. -/
def autobootSeen (trigger : Option Bytes) (fired : Bool) (clean : Bytes) : Bool :=
  match trigger with
  | none => false
  | some t => !t.isEmpty && !fired && decide (t <:+: clean)

/-- The loop over `prompts.items()`: the prompt types that are new in `clean`. -/
def promptScan (clean : Bytes) : List (String × Bytes) → List String → List UartEvent × List String
  | [], detected => ([], detected)
  | (ptype, pbytes) :: rest, detected =>
    if ptype ∉ detected ∧ pbytes <:+: clean then
      let (evs, detected') := promptScan clean rest (detected ++ [ptype])
      (.promptDetected ptype :: evs, detected')
    else promptScan clean rest detected

/-- The loop over the complete lines: one event a line, then the milestones it contains. -/
def lineScan : List (List Char) → List (String × String) → List UartEvent × List (String × String)
  | [], pending => ([], pending)
  | line :: rest, pending =>
    let cleanLine := String.ofList (pyStrip line)
    if cleanLine.isEmpty then lineScan rest pending
    else
      let found := pending.filter fun kv => decide (occursIn kv.2 cleanLine)
      let (evs, pending') :=
        lineScan rest (pending.filter fun kv => !decide (occursIn kv.2 cleanLine))
      (.bootDataReceived cleanLine :: found.map (fun kv => .milestoneReached kv.1) ++ evs, pending')

/-- What `UartEventStream.open` yields for one non-empty chunk. -/
def StreamState.feed (p : StreamParams) (st : StreamState) (chunk : Bytes) :
    List UartEvent × StreamState :=
  let buf := st.localBuf ++ decodeReplace (stripAnsi chunk)
  let clean := encodeUtf8 buf
  if panicSearch clean then
    ([.panicDetected (String.ofList (buf.drop (buf.length - 500)))],
      { st with localBuf := buf, panicked := true })
  else
    let fires := autobootSeen p.autobootTrigger st.autobootFired clean
    let (promptEvs, detected) := promptScan clean p.prompts st.detectedPrompts
    let pieces := splitNewline (normalizeNewlines buf)
    let (lineEvs, pending) := lineScan pieces.dropLast st.pendingMilestones
    ((if fires then [.autobootWindowDetected] else []) ++ promptEvs ++ lineEvs,
      { localBuf := pieces.getLast?.getD [], pendingMilestones := pending,
        autobootFired := st.autobootFired || fires, detectedPrompts := detected,
        panicked := false })

theorem promptScan_mem {clean : Bytes} {prompts : List (String × Bytes)} {detected : List String}
    {ev : UartEvent} (h : ev ∈ (promptScan clean prompts detected).1) :
    ∃ ptype pbytes, ev = .promptDetected ptype ∧ (ptype, pbytes) ∈ prompts ∧
      pbytes <:+: clean := by
  induction prompts generalizing detected with
  | nil => cases h
  | cons kv rest ih =>
    obtain ⟨ptype, pbytes⟩ := kv
    rw [promptScan] at h
    split at h
    · rename_i hc
      rcases List.mem_cons.1 h with he | h'
      · exact ⟨ptype, pbytes, he, List.mem_cons_self .., hc.2⟩
      · obtain ⟨t, b, he, hm, hb⟩ := ih h'
        exact ⟨t, b, he, List.mem_cons_of_mem _ hm, hb⟩
    · obtain ⟨t, b, he, hm, hb⟩ := ih h
      exact ⟨t, b, he, List.mem_cons_of_mem _ hm, hb⟩

theorem lineScan_not_prompt {lines : List (List Char)} {pending : List (String × String)}
    {t : String} : UartEvent.promptDetected t ∉ (lineScan lines pending).1 := by
  induction lines generalizing pending with
  | nil => simp [lineScan]
  | cons line rest ih =>
    rw [lineScan]
    dsimp only
    split
    · exact ih
    · intro h
      rcases List.mem_append.1 h with h' | h'
      · rcases List.mem_cons.1 h' with h'' | h''
        · cases h''
        · obtain ⟨kv, _, he⟩ := List.mem_map.1 h''
          cases he
      · exact ih h'

theorem StreamState.feed_localBuf {p : StreamParams} {st : StreamState} {chunk : Bytes}
    (h : (st.feed p chunk).2.panicked = false) :
    (st.feed p chunk).2.localBuf = (splitNewline (normalizeNewlines
      (st.localBuf ++ decodeReplace (stripAnsi chunk)))).getLast?.getD [] := by
  rw [StreamState.feed] at h ⊢
  dsimp only at h ⊢
  split
  · rw [if_pos ‹_›] at h
    cases h
  · rfl

/-- A prompt is only reported when its bytes are in the buffer the chunk completes. -/
theorem StreamState.feed_prompt {p : StreamParams} {st : StreamState} {chunk : Bytes} {t : String}
    (h : UartEvent.promptDetected t ∈ (st.feed p chunk).1) :
    ∃ pbytes, (t, pbytes) ∈ p.prompts ∧
      pbytes <:+: encodeUtf8 (st.localBuf ++ decodeReplace (stripAnsi chunk)) := by
  rw [StreamState.feed] at h
  dsimp only at h
  split at h
  · simp at h
  · rcases List.mem_append.1 h with h' | h'
    · rcases List.mem_append.1 h' with h'' | h''
      · split at h'' <;> simp at h''
      · obtain ⟨ptype, pbytes, he, hm, hb⟩ := promptScan_mem h''
        cases he
        exact ⟨pbytes, hm, hb⟩
    · exact (lineScan_not_prompt h').elim

end MesCore
