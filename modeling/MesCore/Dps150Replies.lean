import MesCore.PsuSession

namespace MesCore
set_option autoImplicit true

namespace DPS150

/-- `read_live_values`. -/
def readLiveValues (resp : Bytes) : Except BufferError (UInt32 × UInt32 × UInt32) := do
  match ← stateOf resp with
  | some state => pure (state.outputVoltage, state.outputCurrent, state.outputPower)
  | none => pure (0, 0, 0)

inductive ReadError
  | buffer (e : BufferError)
  | ioError (msg : String)
  deriving DecidableEq

/-- `state[field]`, for a state that must be there. -/
def readField (field : State → α) (resp : Bytes) : Except ReadError α :=
  match stateOf resp with
  | .error e => .error (.buffer e)
  | .ok none => .error (.ioError "Failed to read state from device")
  | .ok (some state) => .ok (field state)

/-- Slices of a buffer, each starting where the one before it ends. -/
def Consecutive (buf : Bytes) : Nat → List Bytes → Prop
  | _, [] => True
  | i, pkt :: pkts =>
    i + pkt.length ≤ buf.length ∧ pkt = (buf.drop i).take pkt.length ∧
      Consecutive buf (i + pkt.length) pkts

section
variable {buf pkt d : Bytes} {pkts : List Bytes}

theorem consecutive_of_flatten (pre : Bytes) (h : pre ++ pkts.flatten <+: buf) :
    Consecutive buf pre.length pkts := by
  induction pkts generalizing pre with
  | nil => trivial
  | cons pkt pkts ih =>
    rw [List.flatten_cons, ← List.append_assoc] at h
    have hrest := ih (pre ++ pkt) h
    rw [List.length_append] at hrest
    obtain ⟨tail, rfl⟩ := h
    refine ⟨?_, ?_, hrest⟩
    · simp only [List.length_append]
      omega
    · rw [List.append_assoc, List.append_assoc, List.drop_left, List.take_left]

theorem parseResponses_consecutive (buf : Bytes) : Consecutive buf 0 (parseResponses buf) :=
  consecutive_of_flatten [] (parseResponses_start buf)

/-- The buffer's length is fuel enough: more of it changes nothing. -/
theorem parseFrom_enough {fuel : Nat} (h : buf.length ≤ fuel) :
    parseFrom fuel buf = parseResponses buf := by
  rw [parseResponses, parseFrom_eq, parseFrom_eq]
  exact RecordFormat.cutFrom_fuel _ _ h (Nat.le_refl _)

theorem five_le_length (h : pkt ∈ parseResponses buf) : 5 ≤ pkt.length := by
  obtain ⟨length, -, hlen⟩ := length_of_mem h
  omega

theorem bind_total {p : Except ε α} {k : α → Except ε β} (hp : ∃ a, p = .ok a)
    (hk : ∀ a, ∃ b, k a = .ok b) : ∃ b, (p >>= k) = .ok b := by
  obtain ⟨a, rfl⟩ := hp
  exact hk a

theorem mapM_total {f : α → Except ε β} {l : List α} (h : ∀ a ∈ l, ∃ b, f a = .ok b) :
    ∃ bs, l.mapM f = .ok bs := by
  induction l with
  | nil => exact ⟨[], rfl⟩
  | cons a l ih =>
    rw [List.forall_mem_cons] at h
    rw [List.mapM_cons]
    exact bind_total h.1 fun b => bind_total (ih h.2) fun bs => ⟨b :: bs, rfl⟩

theorem parsePreset_ok {i : Nat} (hd : 139 ≤ d.length) (hi : i < 6) :
    ∃ p, parsePreset d i = .ok p :=
  bind_total (parseFloat_ok _ _ (by omega)) fun voltage =>
    bind_total (parseFloat_ok _ _ (by omega)) fun current => ⟨(voltage, current), rfl⟩

theorem presets_ok (hd : 139 ≤ d.length) : ∃ ps, (List.range 6).mapM (parsePreset d) = .ok ps :=
  mapM_total fun _ hi => parsePreset_ok hd (List.mem_range.1 hi)

theorem parseState_ok (hd : 139 ≤ d.length) : ∃ s, parseState d = .ok s := by
  have hfloat (offset : Nat) (h : offset ≤ 135) : ∃ x, parseFloat d offset = .ok x :=
    parseFloat_ok d offset (by omega)
  have hbyte (i : Nat) (h : i ≤ 138) : ∃ b, byteAt d i = .ok b := byteAt_ok (by omega)
  rw [parseState]
  refine bind_total (hbyte 108 (by decide)) fun _ => ?_
  refine bind_total (hfloat 0 (by decide)) fun _ => ?_
  refine bind_total (hfloat 4 (by decide)) fun _ => ?_
  refine bind_total (hfloat 8 (by decide)) fun _ => ?_
  refine bind_total (hfloat 12 (by decide)) fun _ => ?_
  refine bind_total (hfloat 16 (by decide)) fun _ => ?_
  refine bind_total (hfloat 20 (by decide)) fun _ => ?_
  refine bind_total (hfloat 24 (by decide)) fun _ => ?_
  refine bind_total (presets_ok hd) fun _ => ?_
  refine bind_total (hfloat 76 (by decide)) fun _ => ?_
  refine bind_total (hfloat 80 (by decide)) fun _ => ?_
  refine bind_total (hfloat 84 (by decide)) fun _ => ?_
  refine bind_total (hfloat 88 (by decide)) fun _ => ?_
  refine bind_total (hfloat 92 (by decide)) fun _ => ?_
  refine bind_total (hbyte 96 (by decide)) fun _ => ?_
  refine bind_total (hbyte 97 (by decide)) fun _ => ?_
  refine bind_total (hbyte 98 (by decide)) fun _ => ?_
  refine bind_total (hfloat 99 (by decide)) fun _ => ?_
  refine bind_total (hfloat 103 (by decide)) fun _ => ?_
  refine bind_total (hbyte 107 (by decide)) fun _ => ?_
  refine bind_total (hbyte 109 (by decide)) fun _ => ?_
  refine bind_total (hfloat 111 (by decide)) fun _ => ?_
  refine bind_total (hfloat 115 (by decide)) fun _ => ?_
  refine bind_total (hfloat 119 (by decide)) fun _ => ?_
  refine bind_total (hfloat 123 (by decide)) fun _ => ?_
  refine bind_total (hfloat 127 (by decide)) fun _ => ?_
  refine bind_total (hfloat 131 (by decide)) fun _ => ?_
  exact bind_total (hfloat 135 (by decide)) fun _ => ⟨_, rfl⟩

/-- `read_state` returns nothing, or a state read from a payload that is long enough for it. -/
theorem stateOf_ok (resp : Bytes) : stateOf resp = .ok none ∨
    ∃ pkt s, findResponse resp regAll = some pkt ∧ 139 ≤ (payload pkt).length ∧
      parseState (payload pkt) = .ok s ∧ stateOf resp = .ok (some s) := by
  rw [stateOf]
  cases hfound : findResponse resp regAll with
  | none => exact .inl rfl
  | some pkt =>
    dsimp only
    by_cases hshort : pkt.length < 20
    · exact .inl (if_pos hshort)
    · by_cases hpayload : (payload pkt).length < 139
      · left
        rw [if_neg hshort, if_pos hpayload]
      · right
        obtain ⟨s, hs⟩ := parseState_ok (Nat.not_lt.1 hpayload)
        refine ⟨pkt, s, rfl, Nat.not_lt.1 hpayload, hs, ?_⟩
        rw [if_neg hshort, if_neg hpayload, hs]
        rfl

theorem stateOf_total (resp : Bytes) : ∃ s, stateOf resp = .ok s := by
  rcases stateOf_ok resp with h | ⟨pkt, s, -, -, -, h⟩
  · exact ⟨none, h⟩
  · exact ⟨some s, h⟩

theorem measured_total (field : State → UInt32) (resp : Bytes) :
    ∃ x, measured field resp = .ok x :=
  bind_total (stateOf_total resp) fun _ => ⟨_, rfl⟩

/-- A `read_` method raises its own error where there is no state, and no other. -/
theorem readField_total (field : State → α) (resp : Bytes) :
    (∃ s, stateOf resp = .ok (some s) ∧ readField field resp = .ok (field s)) ∨
      stateOf resp = .ok none ∧
        readField field resp = .error (.ioError "Failed to read state from device") := by
  obtain ⟨o, ho⟩ := stateOf_total resp
  cases o with
  | none =>
    right
    rw [readField, ho]
    exact ⟨rfl, rfl⟩
  | some s =>
    left
    refine ⟨s, ho, ?_⟩
    rw [readField, ho]

theorem readField_ne_buffer (field : State → α) (resp : Bytes) (e : BufferError) :
    readField field resp ≠ .error (.buffer e) := by
  intro h
  rcases readField_total field resp with ⟨s, -, hs⟩ | ⟨-, hs⟩
  · cases h.symm.trans hs
  · cases h.symm.trans hs

theorem readLiveValues_total (resp : Bytes) : ∃ r, readLiveValues resp = .ok r := by
  refine bind_total (stateOf_total resp) fun o => ?_
  cases o with
  | none => exact ⟨_, rfl⟩
  | some s => exact ⟨_, rfl⟩

/-- Whatever bytes are received, they are parsed to the end. -/
theorem parsing_total :
    (∀ buf, (∀ fuel, buf.length ≤ fuel → parseFrom fuel buf = parseResponses buf) ∧
      Consecutive buf 0 (parseResponses buf) ∧ (parseResponses buf).flatten <+: buf ∧
      ∀ pkt ∈ parseResponses buf, 5 ≤ pkt.length ∧ ∃ o, parseTelemetryPacket pkt = .ok o) ∧
    ∀ resp, (stateOf resp = .ok none ∨
        ∃ pkt s, findResponse resp regAll = some pkt ∧ 139 ≤ (payload pkt).length ∧
          parseState (payload pkt) = .ok s ∧ stateOf resp = .ok (some s)) ∧
      (∃ x, measureCurrent resp = .ok x) ∧ (∃ x, measureVoltage resp = .ok x) ∧
        (∃ r, readLiveValues resp = .ok r) ∧
          ∀ (field : State → UInt32) e, readField field resp ≠ .error (.buffer e) := by
  refine ⟨fun buf => ⟨fun fuel => parseFrom_enough, parseResponses_consecutive buf,
    parseResponses_start buf, fun pkt hpkt => ⟨five_le_length hpkt, ?_⟩⟩, fun resp => ?_⟩
  · exact ⟨_, parseTelemetryPacket_eq pkt⟩
  · exact ⟨stateOf_ok resp, measured_total _ resp, measured_total _ resp,
      readLiveValues_total resp, fun field e => readField_ne_buffer field resp e⟩

end

end DPS150

end MesCore
