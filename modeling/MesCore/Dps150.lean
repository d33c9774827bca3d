import MesCore.Records
import MesCore.Text
import Mathlib.Algebra.GroupWithZero.Nat

namespace MesCore
set_option autoImplicit true

namespace DPS150

def headerRx : UInt8 := 0xF0

def cmdRead : UInt8 := 0xA1

def regInputVoltage : UInt8 := 0xC0
def regOutputVip : UInt8 := 0xC3
def regTemperature : UInt8 := 0xC4
def regOutputState : UInt8 := 0xDB
def regProtection : UInt8 := 0xDC
def regCvccMode : UInt8 := 0xDD
def regMaxVoltage : UInt8 := 0xE2
def regMaxCurrent : UInt8 := 0xE3
def regAll : UInt8 := 0xFF

def protectionNames : List String := ["OK", "OVP", "OCP", "OPP", "OTP", "LVP", "REP"]

def protectionName (code : UInt8) : String :=
  (protectionNames[code.toNat]?).getD s!"Unknown({code.toNat})"

/-- `(register + length + sum(data)) & 0xFF`. -/
def checksum (register : UInt8) (data : Bytes) : UInt8 :=
  UInt8.ofNat ((register.toNat + data.length + (data.map UInt8.toNat).sum) % 256)

/-- `build_packet`. There is no packet where the length does not fit into its byte. -/
def buildPacket (header command register : UInt8) (data : Bytes) : Option Bytes :=
  if data.length ≤ 255 then
    some ([header, command, register, UInt8.ofNat data.length] ++ data ++ [checksum register data])
  else none

/-- `parse_responses` from some index on: `rest` is `buf[i:]`. -/
def parseFrom : Nat → Bytes → List Bytes
  | 0, _ => []
  | fuel + 1, rest =>
    match rest[3]? with
    | none => []
    | some length =>
      let pktLen := 5 + length.toNat
      if rest.length < pktLen then [] else rest.take pktLen :: parseFrom fuel (rest.drop pktLen)

/-- `parse_responses`. A packet takes five bytes at least, so the buffer is fuel enough. -/
def parseResponses (buf : Bytes) : List Bytes := parseFrom buf.length buf

/-- `_find_response`. -/
def findResponse (buf : Bytes) (register : UInt8) : Option Bytes :=
  (parseResponses buf).find? fun pkt => 5 ≤ pkt.length && pkt[2]? = some register

/-- `pkt[4:-1]`. -/
def payload (pkt : Bytes) : Bytes := pkt.dropLast.drop 4

/-- `struct.unpack_from` or an index reaches beyond its buffer. -/
inductive BufferError
  | structError
  | indexError
  deriving DecidableEq

/-- `parse_float`: the bits of the little-endian float32. -/
def parseFloat (data : Bytes) (offset : Nat) : Except BufferError UInt32 :=
  match data.drop offset with
  | b₀ :: b₁ :: b₂ :: b₃ :: _ =>
    .ok (UInt32.ofNat (b₀.toNat + 256 * (b₁.toNat + 256 * (b₂.toNat + 256 * b₃.toNat))))
  | _ => .error .structError

def byteAt (data : Bytes) (i : Nat) : Except BufferError UInt8 :=
  match data[i]? with
  | some b => .ok b
  | none => .error .indexError

/-- The dictionary of `read_state`. A reading is kept as the bits of its float32. -/
structure State where
  inputVoltage : UInt32
  voltageSetpoint : UInt32
  currentSetpoint : UInt32
  outputVoltage : UInt32
  outputCurrent : UInt32
  outputPower : UInt32
  temperature : UInt32
  presets : List (UInt32 × UInt32)
  ovp : UInt32
  ocp : UInt32
  opp : UInt32
  otp : UInt32
  lvp : UInt32
  brightness : UInt8
  volume : UInt8
  metering : String
  ahCounter : UInt32
  whCounter : UInt32
  outputOn : Bool
  protectionCode : UInt8
  protection : String
  mode : String
  maxVoltage : UInt32
  maxCurrent : UInt32
  ovpCeiling : UInt32
  ocpCeiling : UInt32
  oppCeiling : UInt32
  otpCeiling : UInt32
  lvpCeiling : UInt32
  deriving DecidableEq

def parsePreset (d : Bytes) (i : Nat) : Except BufferError (UInt32 × UInt32) := do
  let voltage ← parseFloat d (28 + i * 8)
  let current ← parseFloat d (32 + i * 8)
  pure (voltage, current)

/-- The dictionary that `read_state` fills from a payload. -/
def parseState (d : Bytes) : Except BufferError State := do
  let protCode ← byteAt d 108
  let inputVoltage ← parseFloat d 0
  let voltageSetpoint ← parseFloat d 4
  let currentSetpoint ← parseFloat d 8
  let outputVoltage ← parseFloat d 12
  let outputCurrent ← parseFloat d 16
  let outputPower ← parseFloat d 20
  let temperature ← parseFloat d 24
  let presets ← (List.range 6).mapM (parsePreset d)
  let ovp ← parseFloat d 76
  let ocp ← parseFloat d 80
  let opp ← parseFloat d 84
  let otp ← parseFloat d 88
  let lvp ← parseFloat d 92
  let brightness ← byteAt d 96
  let volume ← byteAt d 97
  let metering ← byteAt d 98
  let ahCounter ← parseFloat d 99
  let whCounter ← parseFloat d 103
  let output ← byteAt d 107
  let mode ← byteAt d 109
  let maxVoltage ← parseFloat d 111
  let maxCurrent ← parseFloat d 115
  let ovpCeiling ← parseFloat d 119
  let ocpCeiling ← parseFloat d 123
  let oppCeiling ← parseFloat d 127
  let otpCeiling ← parseFloat d 131
  let lvpCeiling ← parseFloat d 135
  pure {
    inputVoltage := inputVoltage
    voltageSetpoint := voltageSetpoint
    currentSetpoint := currentSetpoint
    outputVoltage := outputVoltage
    outputCurrent := outputCurrent
    outputPower := outputPower
    temperature := temperature
    presets := presets
    ovp := ovp
    ocp := ocp
    opp := opp
    otp := otp
    lvp := lvp
    brightness := brightness
    volume := volume
    metering := if metering = 0 then "running" else "stopped"
    ahCounter := ahCounter
    whCounter := whCounter
    outputOn := output != 0
    protectionCode := protCode
    protection := protectionName protCode
    mode := if mode ≠ 0 then "CV" else "CC"
    maxVoltage := maxVoltage
    maxCurrent := maxCurrent
    ovpCeiling := ovpCeiling
    ocpCeiling := ocpCeiling
    oppCeiling := oppCeiling
    otpCeiling := otpCeiling
    lvpCeiling := lvpCeiling }

/-- What `read_state` makes of the bytes it has received. -/
def stateOf (resp : Bytes) : Except BufferError (Option State) :=
  match findResponse resp regAll with
  | none => .ok none
  | some pkt =>
    if pkt.length < 20 then .ok none
    else
      let d := payload pkt
      if d.length < 139 then .ok none else some <$> parseState d

/-- A packet whose length fits into its byte. -/
structure Packet where
  header : UInt8
  command : UInt8
  register : UInt8
  data : Bytes
  short : data.length ≤ 255

/-- `pkt_len`, once the length byte is there. -/
def packetFormat : RecordFormat UInt8 where
  size buf := buf[3]?.map fun length => 5 + length.toNat
  pos := by
    intro l n h
    obtain ⟨length, -, rfl⟩ := Option.map_eq_some_iff.1 h
    omega
  append := by
    intro l n m h
    obtain ⟨length, hlength, rfl⟩ := Option.map_eq_some_iff.1 h
    have hlt := (List.getElem?_eq_some_iff.1 hlength).1
    rw [List.getElem?_append_left hlt, hlength]
    rfl
  take := by
    intro l n h _
    obtain ⟨length, hlength, rfl⟩ := Option.map_eq_some_iff.1 h
    rw [List.getElem?_take_of_lt (by omega), hlength]
    rfl

section
variable {buf pkt t : Bytes} {r : UInt8}

theorem parseFrom_eq (fuel : Nat) (rest : Bytes) :
    parseFrom fuel rest = packetFormat.cutFrom fuel rest := by
  induction fuel generalizing rest with
  | zero => rfl
  | succ fuel ih =>
    rw [parseFrom, RecordFormat.cutFrom, packetFormat]
    dsimp only
    cases rest[3]? with
    | none => rfl
    | some length =>
      dsimp only [Option.map]
      rw [ih]
      rfl

theorem parseResponses_eq (buf : Bytes) : parseResponses buf = packetFormat.cut buf :=
  parseFrom_eq _ _

theorem buildPacket_isSome {header command register : UInt8} {data : Bytes}
    (h : data.length ≤ 255) : (buildPacket header command register data).isSome = true := by
  rw [buildPacket, if_pos h]
  rfl

/-- What `build_packet` returns for a packet. -/
def Packet.bytes (p : Packet) : Bytes :=
  (buildPacket p.header p.command p.register p.data).get (buildPacket_isSome p.short)

theorem Packet.bytes_eq (p : Packet) :
    p.bytes = p.header :: p.command :: p.register :: UInt8.ofNat p.data.length ::
      (p.data ++ [checksum p.register p.data]) := by
  simp only [Packet.bytes, buildPacket, if_pos p.short, Option.get_some]
  rfl

theorem Packet.length_bytes (p : Packet) : p.bytes.length = 5 + p.data.length := by
  rw [p.bytes_eq]
  simp only [List.length_cons, List.length_append, List.length_nil]
  omega

theorem Packet.whole (p : Packet) : packetFormat.Whole p.bytes := by
  have hlength : (UInt8.ofNat p.data.length).toNat = p.data.length :=
    UInt8.toNat_ofNat_of_lt' (Nat.lt_succ_of_le p.short)
  rw [RecordFormat.Whole, p.length_bytes, packetFormat, p.bytes_eq]
  dsimp only [List.getElem?_cons_succ, List.getElem?_cons_zero, Option.map]
  rw [hlength]

theorem payload_bytes (p : Packet) : payload p.bytes = p.data := by
  rw [payload, p.bytes_eq, show p.header :: p.command :: p.register ::
    UInt8.ofNat p.data.length :: (p.data ++ [checksum p.register p.data]) =
      ([p.header, p.command, p.register, UInt8.ofNat p.data.length] ++ p.data) ++
        [checksum p.register p.data] from rfl, List.dropLast_concat]
  rfl

theorem whole_of_mem (ps : List Packet) : ∀ b ∈ ps.map Packet.bytes, packetFormat.Whole b := by
  intro b hb
  obtain ⟨p, -, rfl⟩ := List.mem_map.1 hb
  exact p.whole

/-- A stream of packets, cut off anywhere, is parsed back into those that are complete. -/
theorem parseResponses_stream (ps : List Packet) {q : Packet} (ht : t <+: q.bytes)
    (hne : t ≠ q.bytes) :
    parseResponses ((ps.map Packet.bytes).flatten ++ t) = ps.map Packet.bytes := by
  rw [parseResponses_eq, RecordFormat.cut_flatten_append (whole_of_mem ps),
    q.whole.cut_prefix ht hne, List.append_nil]

def voltagePush : Packet :=
  ⟨headerRx, cmdRead, regInputVoltage, [0x00, 0x00, 0xA0, 0x41], by decide⟩

theorem parseResponses_stream_started :
    parseResponses (([voltagePush].map Packet.bytes).flatten ++ voltagePush.bytes.take 6) =
      [voltagePush].map Packet.bytes :=
  parseResponses_stream [voltagePush] (List.take_prefix 6 voltagePush.bytes) (by decide)

theorem length_of_mem (h : pkt ∈ parseResponses buf) :
    ∃ length, pkt[3]? = some length ∧ pkt.length = 5 + length.toNat := by
  rw [parseResponses_eq] at h
  have hwhole := RecordFormat.whole_of_mem_cut h
  obtain ⟨length, hlength, hlen⟩ := Option.map_eq_some_iff.1 hwhole
  exact ⟨length, hlength, hlen.symm⟩

theorem parseResponses_start (buf : Bytes) : (parseResponses buf).flatten <+: buf := by
  rw [parseResponses_eq]
  exact RecordFormat.flatten_cut_start buf

/-- A packet of the device for a register: its header, the register and the checksum over the
register, the length byte and the data. -/
structure Authentic (r : UInt8) (pkt : Bytes) : Prop where
  header : pkt[0]? = some headerRx
  register : pkt[2]? = some r
  checksum : ∃ length, pkt[3]? = some length ∧ pkt.getLast? =
    some (UInt8.ofNat ((r.toNat + length.toNat + ((payload pkt).map UInt8.toNat).sum) % 256))

theorem Packet.register_bytes (p : Packet) : p.bytes[2]? = some p.register := by
  rw [p.bytes_eq]
  rfl

theorem Packet.authentic (p : Packet) (h : p.header = headerRx) : Authentic p.register p.bytes := by
  refine ⟨?_, p.register_bytes, UInt8.ofNat p.data.length, ?_, ?_⟩
  · rw [p.bytes_eq, h]
    rfl
  · rw [p.bytes_eq]
    rfl
  · have hlength : (UInt8.ofNat p.data.length).toNat = p.data.length :=
      UInt8.toNat_ofNat_of_lt' (Nat.lt_succ_of_le p.short)
    rw [payload_bytes, hlength, p.bytes_eq, ← List.cons_append, ← List.cons_append,
      ← List.cons_append, ← List.cons_append, List.getLast?_concat]
    rfl

theorem findResponse_spec (h : findResponse buf r = some pkt) :
    pkt[2]? = some r ∧ ∃ before after, parseResponses buf = before ++ pkt :: after ∧
      ∀ p ∈ before, p[2]? ≠ some r := by
  obtain ⟨hpkt, before, after, heq, hbefore⟩ := List.find?_eq_some_iff_append.1 h
  rw [Bool.and_eq_true, decide_eq_true_eq, decide_eq_true_eq] at hpkt
  refine ⟨hpkt.2, before, after, heq, ?_⟩
  intro p hp hr
  have hmem : p ∈ parseResponses buf := by
    rw [heq]
    exact List.mem_append_left _ hp
  obtain ⟨length, -, hlen⟩ := length_of_mem hmem
  have hno := hbefore p hp
  rw [Bool.not_eq_true', Bool.and_eq_false_iff, decide_eq_false_iff_not,
    decide_eq_false_iff_not] at hno
  rcases hno with hshort | hother
  · omega
  · exact hother hr

/-- A response is the first packet for its register among those the length bytes cut off. Neither
header nor checksum are looked at: they are right where the device's own packets were received. -/
theorem findResponse_sound (h : findResponse buf r = some pkt) :
    (parseResponses buf).flatten <+: buf ∧
      (∃ before after, parseResponses buf = before ++ pkt :: after ∧
        ∀ p ∈ before, p[2]? ≠ some r) ∧
      (∃ length, pkt[3]? = some length ∧ pkt.length = 5 + length.toNat) ∧
      pkt[2]? = some r ∧
      ∀ (ps : List Packet) (q : Packet) (t : Bytes), (∀ p ∈ ps, p.header = headerRx) →
        t <+: q.bytes → t ≠ q.bytes → buf = (ps.map Packet.bytes).flatten ++ t →
          Authentic r pkt := by
  obtain ⟨hr, before, after, heq, hbefore⟩ := findResponse_spec h
  have hmem : pkt ∈ parseResponses buf := by
    rw [heq]
    exact List.mem_append_right _ (List.mem_cons_self ..)
  refine ⟨parseResponses_start buf, ⟨before, after, heq, hbefore⟩, length_of_mem hmem,
    hr, ?_⟩
  intro ps q t hheader ht hne hbuf
  rw [hbuf, parseResponses_eq, RecordFormat.cut_flatten_append (whole_of_mem ps),
    q.whole.cut_prefix ht hne, List.append_nil] at hmem
  obtain ⟨p, hp, rfl⟩ := List.mem_map.1 hmem
  have hauthentic := p.authentic (hheader p hp)
  rw [p.register_bytes] at hr
  rwa [Option.some.inj hr] at hauthentic

theorem findResponse_push :
    findResponse voltagePush.bytes regInputVoltage = some voltagePush.bytes ∧
    voltagePush.bytes[2]? = some regInputVoltage := by
  have h : findResponse voltagePush.bytes regInputVoltage = some voltagePush.bytes := by decide
  exact ⟨h, (findResponse_sound h).2.2.2.1⟩

/-- Line noise with a zero for its header and a wrong checksum is taken for the full state. -/
theorem findResponse_forged :
    ¬ ∀ buf r pkt, findResponse buf r = some pkt → Authentic r pkt := by
  intro h
  have hfound : findResponse [0x00, 0x00, 0xFF, 0x00, 0x07] regAll =
      some [0x00, 0x00, 0xFF, 0x00, 0x07] := by decide
  have hheader := (h _ _ _ hfound).header
  revert hheader
  decide

end

end DPS150

end MesCore
