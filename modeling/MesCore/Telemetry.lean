import MesCore.Dps150

namespace MesCore
set_option autoImplicit true

namespace DPS150

/-- The dictionaries passed to the telemetry callback. -/
inductive Telemetry
  | inputVoltage (volts : UInt32)
  | outputVip (voltage current power : UInt32)
  | temperature (degrees : UInt32)
  | outputOn (on : Bool)
  | protection (code : UInt8) (name : String)
  | mode (mode : String)
  | maxVoltage (volts : UInt32)
  | maxCurrent (amps : UInt32)
  deriving DecidableEq

/-- `_parse_telemetry_packet`. -/
def parseTelemetryPacket (pkt : Bytes) : Except BufferError (Option Telemetry) :=
  if pkt.length < 5 then .ok none
  else do
    let reg ← byteAt pkt 2
    let d := payload pkt
    if reg = regInputVoltage ∧ 4 ≤ d.length then do
      let volts ← parseFloat d 0
      pure (some (.inputVoltage volts))
    else if reg = regOutputVip ∧ 12 ≤ d.length then do
      let voltage ← parseFloat d 0
      let current ← parseFloat d 4
      let power ← parseFloat d 8
      pure (some (.outputVip voltage current power))
    else if reg = regTemperature ∧ 4 ≤ d.length then do
      let degrees ← parseFloat d 0
      pure (some (.temperature degrees))
    else if reg = regOutputState ∧ 1 ≤ d.length then do
      let on ← byteAt d 0
      pure (some (.outputOn (on != 0)))
    else if reg = regProtection ∧ 1 ≤ d.length then do
      let code ← byteAt d 0
      pure (some (.protection code (protectionName code)))
    else if reg = regCvccMode ∧ 1 ≤ d.length then do
      let mode ← byteAt d 0
      pure (some (.mode (if mode ≠ 0 then "CV" else "CC")))
    else if reg = regMaxVoltage ∧ 4 ≤ d.length then do
      let volts ← parseFloat d 0
      pure (some (.maxVoltage volts))
    else if reg = regMaxCurrent ∧ 4 ≤ d.length then do
      let amps ← parseFloat d 0
      pure (some (.maxCurrent amps))
    else pure none

/-- What one turn of `_telemetry_loop` passes to the callback. -/
def dispatch (data : Bytes) : Except BufferError (List Telemetry) := do
  let parsed ← (parseResponses data).mapM parseTelemetryPacket
  pure parsed.reduceOption

/-- What `_telemetry_loop` passes to the callback when its reads return these bytes. -/
def telemetryLoop (reads : List Bytes) : Except BufferError (List Telemetry) :=
  List.flatten <$> reads.mapM dispatch

/-- The length of the shortest packet that carries a dictionary. -/
def Telemetry.wireLength : Telemetry → Nat
  | .outputVip _ _ _ => 17
  | .outputOn _ | .protection _ _ | .mode _ => 6
  | .inputVoltage _ | .temperature _ | .maxVoltage _ | .maxCurrent _ => 9

def reading (pkt : Bytes) : Option Telemetry := (parseTelemetryPacket pkt).toOption.join

def Packet.reading (p : Packet) : Option Telemetry := DPS150.reading p.bytes

/-- A packet that carries a dictionary and no byte more, as the device pushes them. -/
def Exact (pkt : Bytes) : Prop := ∃ d, reading pkt = some d ∧ pkt.length = d.wireLength

/-- No packet is cut by the end of a read. -/
def WholeReads (reads : List Bytes) (pkts : List Packet) : Prop :=
  ∃ groups : List (List Packet), groups.flatten = pkts ∧
    reads = groups.map fun group => (group.map Packet.bytes).flatten

section
variable {pkt d : Bytes} {t : Telemetry} {pkts : List Packet} {reads : List Bytes}

theorem parseFloat_ok (d : Bytes) (offset : Nat) (h : offset + 4 ≤ d.length) :
    ∃ x, parseFloat d offset = .ok x := by
  rw [parseFloat]
  split
  · exact ⟨_, rfl⟩
  · rename_i hshort
    have hlen : 4 ≤ (d.drop offset).length := by
      rw [List.length_drop]
      omega
    match hd : d.drop offset with
    | b₀ :: b₁ :: b₂ :: b₃ :: rest => exact absurd hd (hshort b₀ b₁ b₂ b₃ rest)
    | [] | [_] | [_, _] | [_, _, _] =>
      rw [hd] at hlen
      simp at hlen

theorem byteAt_ok {i : Nat} (h : i < d.length) : ∃ b, byteAt d i = .ok b := by
  rw [byteAt, List.getElem?_eq_getElem h]
  exact ⟨_, rfl⟩

theorem length_payload (pkt : Bytes) : (payload pkt).length = pkt.length - 5 := by
  rw [payload, List.length_drop, List.length_dropLast]
  omega

/-- A parse that does not fail, and returns a dictionary that fits into the packet. -/
def Carried (pkt : Bytes) (p : Except BufferError (Option Telemetry)) : Prop :=
  ∃ o, p = .ok o ∧ ∀ t ∈ o, t.wireLength ≤ pkt.length

theorem Carried.none (pkt : Bytes) : Carried pkt (.ok none) :=
  ⟨_, rfl, fun t ht => by cases ht⟩

theorem Carried.float {f : UInt32 → Telemetry} (hf : ∀ x, (f x).wireLength = 9)
    (hpkt : d.length = pkt.length - 5) (h : 4 ≤ d.length) :
    Carried pkt (do let x ← parseFloat d 0; pure (some (f x))) := by
  obtain ⟨x, hx⟩ := parseFloat_ok d _ h
  rw [hx]
  refine ⟨_, rfl, ?_⟩
  rintro _ ⟨⟩
  rw [hf]
  omega

theorem Carried.byte {f : UInt8 → Telemetry} (hf : ∀ x, (f x).wireLength = 6)
    (hpkt : d.length = pkt.length - 5) (h : 1 ≤ d.length) :
    Carried pkt (do let x ← byteAt d 0; pure (some (f x))) := by
  obtain ⟨x, hx⟩ := byteAt_ok (d := d) (i := 0) h
  rw [hx]
  refine ⟨_, rfl, ?_⟩
  rintro _ ⟨⟩
  rw [hf]
  omega

/-- Parsing a packet never fails, and a dictionary needs a packet of its length. -/
theorem parseTelemetryPacket_ok (pkt : Bytes) : Carried pkt (parseTelemetryPacket pkt) := by
  rw [parseTelemetryPacket]
  by_cases hshort : pkt.length < 5
  · rw [if_pos hshort]
    exact .none pkt
  · obtain ⟨reg, hreg⟩ := byteAt_ok (d := pkt) (i := 2) (by omega)
    have hlen := length_payload pkt
    rw [if_neg hshort, hreg]
    generalize payload pkt = d at hlen
    dsimp only [bind, Except.bind]
    split_ifs with h₁ h₂ h₃ h₄ h₅ h₆ h₇ h₈
    · exact .float (fun _ => rfl) hlen h₁.2
    · obtain ⟨x, hx⟩ := parseFloat_ok d 0 (by omega)
      obtain ⟨y, hy⟩ := parseFloat_ok d 4 (by omega)
      obtain ⟨z, hz⟩ := parseFloat_ok d 8 h₂.2
      rw [hx, hy, hz]
      refine ⟨_, rfl, ?_⟩
      rintro _ ⟨⟩
      dsimp only [Telemetry.wireLength]
      omega
    · exact .float (fun _ => rfl) hlen h₃.2
    · exact .byte (f := fun b => .outputOn (b != 0)) (fun _ => rfl) hlen h₄.2
    · exact .byte (f := fun b => .protection b (protectionName b)) (fun _ => rfl) hlen h₅.2
    · exact .byte (f := fun b => .mode (if b ≠ 0 then "CV" else "CC")) (fun _ => rfl) hlen h₆.2
    · exact .float (fun _ => rfl) hlen h₇.2
    · exact .float (fun _ => rfl) hlen h₈.2
    · exact .none pkt

theorem parseTelemetryPacket_eq (pkt : Bytes) : parseTelemetryPacket pkt = .ok (reading pkt) := by
  obtain ⟨o, ho, -⟩ := parseTelemetryPacket_ok pkt
  rw [reading, ho]
  rfl

theorem wireLength_le (h : reading pkt = some t) : t.wireLength ≤ pkt.length := by
  obtain ⟨o, ho, hle⟩ := parseTelemetryPacket_ok pkt
  rw [parseTelemetryPacket_eq, h] at ho
  exact hle t (Except.ok.inj ho ▸ rfl)

theorem dispatch_eq (data : Bytes) :
    dispatch data = .ok ((parseResponses data).filterMap reading) := by
  have hall (l : List Bytes) : l.mapM parseTelemetryPacket = .ok (l.map reading) := by
    induction l with
    | nil => rfl
    | cons pkt l ih =>
      rw [List.mapM_cons, parseTelemetryPacket_eq, ih]
      rfl
  rw [dispatch, hall]
  exact congrArg Except.ok List.filterMap_map

theorem telemetryLoop_eq (reads : List Bytes) :
    telemetryLoop reads = .ok ((reads.flatMap packetFormat.cut).filterMap reading) := by
  have hall : reads.mapM dispatch =
      .ok (reads.map fun data => (packetFormat.cut data).filterMap reading) := by
    induction reads with
    | nil => rfl
    | cons data reads ih =>
      rw [List.mapM_cons, dispatch_eq, ih, parseResponses_eq]
      rfl
  rw [telemetryLoop, hall, List.filterMap_flatMap]
  rfl

theorem telemetryLoop_whole (h : WholeReads reads pkts) :
    telemetryLoop reads = .ok (pkts.filterMap Packet.reading) := by
  obtain ⟨groups, rfl, rfl⟩ := h
  have hcut : (groups.map fun group => (group.map Packet.bytes).flatten).flatMap packetFormat.cut =
      groups.flatten.map Packet.bytes := by
    rw [List.flatMap_map, List.map_flatten, List.flatMap_def]
    congr 1
    apply List.map_congr_left
    intro group _
    exact RecordFormat.cut_flatten (whole_of_mem group)
  rw [telemetryLoop_eq, hcut, List.filterMap_map]
  rfl

/-- The dictionaries of some packets need no more bytes than the packets have. -/
theorem sum_wireLength_le (l : List Bytes) :
    ((l.filterMap reading).map Telemetry.wireLength).sum ≤ l.flatten.length := by
  induction l with
  | nil => exact Nat.le_refl _
  | cons pkt l ih =>
    rw [List.flatten_cons, List.length_append]
    cases hpkt : reading pkt with
    | none =>
      rw [List.filterMap_cons_none hpkt]
      omega
    | some t =>
      have hle := wireLength_le hpkt
      rw [List.filterMap_cons_some hpkt, List.map_cons, List.sum_cons]
      omega

theorem exact_of_sum (l : List Bytes) (hpos : ∀ pkt ∈ l, pkt ≠ [])
    (h : ((l.filterMap reading).map Telemetry.wireLength).sum = l.flatten.length) :
    l.map List.length = (l.filterMap reading).map Telemetry.wireLength := by
  induction l with
  | nil => rfl
  | cons pkt l ih =>
    rw [List.flatten_cons, List.length_append] at h
    have hrest := sum_wireLength_le l
    have hlen := List.length_pos_of_ne_nil (hpos pkt (List.mem_cons_self ..))
    have htail := ih fun p hp => hpos p (List.mem_cons_of_mem _ hp)
    cases hpkt : reading pkt with
    | none =>
      rw [List.filterMap_cons_none hpkt] at h
      omega
    | some t =>
      have hle := wireLength_le hpkt
      rw [List.filterMap_cons_some hpkt, List.map_cons, List.sum_cons] at h
      rw [List.filterMap_cons_some hpkt, List.map_cons, List.map_cons, htail (by omega)]
      congr 1
      omega

theorem wireLength_exact (h : ∀ p ∈ pkts, Exact p.bytes) :
    (pkts.filterMap Packet.reading).map Telemetry.wireLength =
      (pkts.map Packet.bytes).map List.length := by
  induction pkts with
  | nil => rfl
  | cons p pkts ih =>
    obtain ⟨t, ht, hlen⟩ := h p (List.mem_cons_self ..)
    have hp : p.reading = some t := ht
    rw [List.filterMap_cons_some hp, List.map_cons, List.map_cons,
      List.map_cons, hlen, ih fun q hq => h q (List.mem_cons_of_mem _ hq)]

theorem groups_of_cut (h : (reads.flatMap packetFormat.cut) = pkts.map Packet.bytes)
    (htidy : ∀ data ∈ reads, packetFormat.Tidy data) : WholeReads reads pkts := by
  induction reads generalizing pkts with
  | nil => exact ⟨[], (List.map_eq_nil_iff.1 h.symm).symm, rfl⟩
  | cons data reads ih =>
    rw [List.flatMap_cons] at h
    obtain ⟨group, pkts', rfl, hgroup, hpkts'⟩ := List.map_eq_append_iff.1 h.symm
    obtain ⟨groups, rfl, hreads⟩ := ih hpkts'.symm fun d hd => htidy d (List.mem_cons_of_mem _ hd)
    refine ⟨group :: groups, rfl, ?_⟩
    rw [List.map_cons, hgroup, htidy data (List.mem_cons_self ..), ← hreads]

/-- Exact packets that are all dispatched were read in whole: no byte was to spare. -/
theorem whole_of_telemetryLoop (hreads : reads.flatten = (pkts.map Packet.bytes).flatten)
    (hexact : ∀ p ∈ pkts, Exact p.bytes)
    (h : telemetryLoop reads = .ok (pkts.filterMap Packet.reading)) :
    WholeReads reads pkts := by
  rw [telemetryLoop_eq] at h
  have hsame := Except.ok.inj h
  generalize hcut : reads.flatMap packetFormat.cut = cuts at hsame
  have hlengths : (cuts.filterMap reading).map Telemetry.wireLength =
      (pkts.map Packet.bytes).map List.length := by
    rw [hsame, wireLength_exact hexact]
  have hsum : ((cuts.filterMap reading).map Telemetry.wireLength).sum = reads.flatten.length := by
    rw [hlengths, hreads, List.length_flatten]
  have hle := sum_wireLength_le cuts
  have hge := RecordFormat.length_cut_le (F := packetFormat) reads
  rw [hcut] at hge
  have htidy : ∀ data ∈ reads, packetFormat.Tidy data :=
    RecordFormat.tidy_of_length reads (by rw [hcut]; omega)
  have hflat : cuts.flatten = reads.flatten := by
    rw [← hcut]
    exact RecordFormat.flatten_cut htidy
  have hpos : ∀ pkt ∈ cuts, pkt ≠ [] := by
    intro pkt hpkt hnil
    rw [← hcut] at hpkt
    obtain ⟨data, -, hmem⟩ := List.mem_flatMap.1 hpkt
    have hwhole := packetFormat.pos (RecordFormat.whole_of_mem_cut hmem)
    rw [hnil] at hwhole
    exact Nat.lt_irrefl _ hwhole
  have hmap := exact_of_sum cuts hpos (by rw [hsum, hflat])
  apply groups_of_cut _ htidy
  rw [hcut]
  apply List.eq_iff_flatten_eq.2
  exact ⟨hflat.trans hreads, hmap.trans hlengths⟩

/-- Packets that no read cuts are dispatched one by one; and the packets the device pushes are
dispatched so only if no read cuts one. -/
theorem telemetryLoop_whole_iff (pkts : List Packet) {reads : List Bytes}
    (hreads : reads.flatten = (pkts.map Packet.bytes).flatten) :
    (WholeReads reads pkts →
        telemetryLoop reads = .ok (pkts.filterMap Packet.reading)) ∧
      ((∀ p ∈ pkts, Exact p.bytes) →
        (telemetryLoop reads = .ok (pkts.filterMap Packet.reading) ↔
          WholeReads reads pkts)) :=
  ⟨telemetryLoop_whole, fun hexact =>
    ⟨whole_of_telemetryLoop hreads hexact, telemetryLoop_whole⟩⟩

theorem exact_voltagePush : Exact voltagePush.bytes := ⟨.inputVoltage 0x41A00000, rfl, rfl⟩

theorem telemetryLoop_push :
    (telemetryLoop [voltagePush.bytes] = .ok [Telemetry.inputVoltage 0x41A00000] ↔
      WholeReads [voltagePush.bytes] [voltagePush]) ∧
      WholeReads [voltagePush.bytes] [voltagePush] := by
  have hwhole : WholeReads [voltagePush.bytes] [voltagePush] := ⟨[[voltagePush]], rfl, rfl⟩
  refine ⟨(telemetryLoop_whole_iff [voltagePush] rfl).2 ?_, hwhole⟩
  intro p hp
  rw [List.mem_singleton.1 hp]
  exact exact_voltagePush

/-- A read that ends inside a packet loses it. -/
theorem telemetryLoop_split : ¬ ∀ (pkts : List Packet) (reads : List Bytes),
    reads.flatten = (pkts.map Packet.bytes).flatten →
      telemetryLoop reads = .ok (pkts.filterMap Packet.reading) := by
  intro h
  have hsplit := h [voltagePush] [voltagePush.bytes.take 5, voltagePush.bytes.drop 5] (by decide)
  rw [telemetryLoop_eq] at hsplit
  have hnone := Except.ok.inj hsplit
  revert hnone
  decide

end

end DPS150

end MesCore
