import MesCore.Cobs
import Mathlib.Algebra.GroupWithZero.Nat
import Mathlib.Data.List.ReduceOption

namespace MesCore
set_option autoImplicit true

/-- `struct.pack` got a number that its format cannot hold. -/
inductive StructError
  | outOfRange
  deriving DecidableEq

namespace McuRpcClient

/-- `struct.pack("<H", n)` of a number below 2^16. -/
def uint16 (n : Nat) : Bytes := [UInt8.ofNat (n % 256), UInt8.ofNat (n / 256)]

def pack (n : Nat) : Except StructError Bytes :=
  if n < 2 ^ 16 then .ok (uint16 n) else .error .outOfRange

/-- `struct.unpack("<H", bs)[0]`. -/
def unpack : Bytes → Option Nat
  | [lo, hi] => some (lo.toNat + 256 * hi.toNat)
  | _ => none

/-- `sum(packet) & 0xFFFF`. -/
def checksum (packet : Bytes) : Nat := (packet.map UInt8.toNat).sum % 2 ^ 16

def requestPacket (methodId : Nat) (payload : Bytes) : Except StructError Bytes := do
  let method ← pack methodId
  let length ← pack payload.length
  let packet := method ++ length ++ payload
  let sum ← pack (checksum packet)
  pure (packet ++ sum)

/-- What `tx_func` is called with. -/
def requestFrame (methodId : Nat) (payload : Bytes) : Except StructError Bytes :=
  CobsFramer.encode <$> requestPacket methodId payload

/-- The loop of `_call_raw` over the bytes and the empty reads `rx_func` returns before the time
is up: the response buffer, if a delimiter came. -/
def receive (buffer : Bytes) : List (Option UInt8) → Option Bytes
  | [] => none
  | none :: rx => receive buffer rx
  | some b :: rx => if b = 0x00 then some (buffer ++ [b]) else receive (buffer ++ [b]) rx

/-- The `try` block of `_call_raw`: the payload of a response. -/
def response (methodId : Nat) (framed : Bytes) : Option Bytes := do
  let unframed := CobsFramer.decode framed
  if unframed.length < 6 then none
  else
    let rxMethod ← unpack (unframed.take 2)
    let _rxLen ← unpack ((unframed.drop 2).take 2)
    let rxPayload := (unframed.take (unframed.length - 2)).drop 4
    let rxCrc ← unpack (unframed.drop (unframed.length - 2))
    if rxCrc ≠ checksum (unframed.take (unframed.length - 2)) then none
    else if rxMethod ≠ methodId then none
    else some rxPayload

/-- `_call_raw`, and whether the clock has passed the timeout when the loop is left. -/
def callRaw (methodId : Nat) (payload : Bytes) (rx : List (Option UInt8)) (late : Bool) :
    Except StructError (Option Bytes) := do
  let _framed ← requestFrame methodId payload
  match receive [] rx with
  | none => pure none
  | some buffer => pure (if late then none else response methodId buffer.dropLast)

/-- `invoke`, with the parser of the response type; `None` where the parser raises. -/
def invoke (methodId : Nat) (request : Bytes) (fromBytes : Bytes → Option R)
    (rx : List (Option UInt8)) (late : Bool) : Except StructError (Option R) :=
  (·.bind fromBytes) <$> callRaw methodId request rx late

section
variable {methodId : Nat} {payload framed : Bytes}

theorem unpack_uint16 {n : Nat} (h : n < 2 ^ 16) : unpack (uint16 n) = some n := by
  have hlo : (UInt8.ofNat (n % 256)).toNat = n % 256 :=
    UInt8.toNat_ofNat_of_lt' (Nat.mod_lt _ (by decide))
  have hhi : (UInt8.ofNat (n / 256)).toNat = n / 256 :=
    UInt8.toNat_ofNat_of_lt' (Nat.div_lt_of_lt_mul h)
  rw [uint16, unpack, hlo, hhi, Nat.mod_add_div]

theorem uint16_unpack {bs : Bytes} {n : Nat} (h : unpack bs = some n) :
    bs = uint16 n ∧ n < 2 ^ 16 := by
  rw [unpack.eq_def] at h
  split at h
  · rename_i lo hi
    cases h
    have hlo := lo.toNat_lt
    have hhi := hi.toNat_lt
    have hmod : (lo.toNat + 256 * hi.toNat) % 256 = lo.toNat := by omega
    have hdiv : (lo.toNat + 256 * hi.toNat) / 256 = hi.toNat := by omega
    rw [uint16, hmod, hdiv, UInt8.ofNat_toNat, UInt8.ofNat_toNat]
    exact ⟨rfl, by omega⟩
  · cases h

theorem checksum_lt (packet : Bytes) : checksum packet < 2 ^ 16 := Nat.mod_lt _ (by decide)

def packet (methodId : Nat) (payload : Bytes) : Bytes :=
  let body := uint16 methodId ++ uint16 payload.length ++ payload
  body ++ uint16 (checksum body)

theorem requestPacket_ok (hm : methodId < 2 ^ 16) (hp : payload.length < 2 ^ 16) :
    requestPacket methodId payload = .ok (packet methodId payload) := by
  rw [requestPacket, pack, if_pos hm, pack, if_pos hp, packet]
  dsimp only [bind, Except.bind]
  rw [pack, if_pos (checksum_lt _)]
  rfl

theorem receive_iff {buffer b : Bytes} {rx : List (Option UInt8)} :
    receive buffer rx = some b ↔ ∃ body rest, rx.reduceOption = body ++ 0x00 :: rest ∧
      0x00 ∉ body ∧ b = buffer ++ body ++ [0x00] := by
  induction rx generalizing buffer with
  | nil =>
    rw [receive, List.reduceOption_nil]
    constructor
    · intro h
      cases h
    · rintro ⟨body, rest, h, -⟩
      exact absurd h.symm (List.append_ne_nil_of_right_ne_nil _ (List.cons_ne_nil _ _))
  | cons read rx ih =>
    cases read with
    | none => rw [receive, List.reduceOption_cons_of_none, ih]
    | some c =>
      rw [receive, List.reduceOption_cons_of_some]
      split
      · rename_i hc
        constructor
        · intro h
          cases h
          exact ⟨[], rx.reduceOption, by rw [hc, List.nil_append], List.not_mem_nil,
            by rw [hc, List.append_nil]⟩
        · rintro ⟨body, rest, h, hbody, rfl⟩
          cases body with
          | nil => rw [hc, List.append_nil]
          | cons d body =>
            rw [List.cons_append, hc] at h
            exact absurd ((List.cons.inj h).1 ▸ List.mem_cons_self ..) hbody
      · rename_i hc
        rw [ih]
        constructor
        · rintro ⟨body, rest, h, hbody, rfl⟩
          refine ⟨c :: body, rest, by rw [h, List.cons_append], ?_, ?_⟩
          · rw [List.mem_cons, not_or]
            exact ⟨fun heq => hc heq.symm, hbody⟩
          · rw [List.append_assoc buffer, List.singleton_append]
        · rintro ⟨body, rest, h, hbody, rfl⟩
          cases body with
          | nil => exact absurd (List.cons.inj h).1 hc
          | cons d body =>
            rw [List.cons_append, List.cons.injEq] at h
            rw [List.mem_cons, not_or] at hbody
            refine ⟨body, rest, h.2, hbody.2, ?_⟩
            rw [h.1]
            simp only [List.append_assoc, List.cons_append, List.nil_append]

/-- `unframed[4:-2]`. -/
def rxPayload (unframed : Bytes) : Bytes := (unframed.take (unframed.length - 2)).drop 4

/-- The checks of `_call_raw` on a response. -/
structure Checked (methodId : Nat) (unframed : Bytes) : Prop where
  long : 6 ≤ unframed.length
  crc : unpack (unframed.drop (unframed.length - 2)) =
    some (checksum (unframed.take (unframed.length - 2)))
  method : unpack (unframed.take 2) = some methodId

theorem unpack_isSome {bs : Bytes} (h : bs.length = 2) : ∃ n, unpack bs = some n := by
  obtain ⟨lo, hi, rfl⟩ := List.length_eq_two.1 h
  exact ⟨_, rfl⟩

theorem response_iff : response methodId framed = some payload ↔
    Checked methodId (CobsFramer.decode framed) ∧
      payload = rxPayload (CobsFramer.decode framed) := by
  generalize hu : CobsFramer.decode framed = unframed
  rw [response, hu]
  by_cases hlong : unframed.length < 6
  · dsimp only
    rw [if_pos hlong]
    constructor
    · intro h
      cases h
    · intro h
      exact absurd h.1.long (Nat.not_le_of_lt hlong)
  · obtain ⟨rxMethod, hmethod⟩ : ∃ n, unpack (unframed.take 2) = some n :=
      unpack_isSome (by rw [List.length_take]; omega)
    obtain ⟨rxLen, hlen⟩ : ∃ n, unpack ((unframed.drop 2).take 2) = some n :=
      unpack_isSome (by rw [List.length_take, List.length_drop]; omega)
    obtain ⟨rxCrc, hcrc⟩ : ∃ n, unpack (unframed.drop (unframed.length - 2)) = some n :=
      unpack_isSome (by rw [List.length_drop]; omega)
    dsimp only
    rw [if_neg hlong, hmethod, hlen, hcrc]
    dsimp only [bind, Option.bind]
    split
    · rename_i hne
      constructor
      · intro h
        cases h
      · intro h
        exact absurd (Option.some.inj (hcrc.symm.trans h.1.crc)) hne
    · rename_i heq
      split
      · rename_i hne
        constructor
        · intro h
          cases h
        · intro h
          exact absurd (Option.some.inj (hmethod.symm.trans h.1.method)) hne
      · rename_i hsame
        rw [not_not] at heq hsame
        rw [Option.some.injEq, rxPayload, eq_comm]
        exact ⟨fun h => ⟨⟨Nat.not_lt.1 hlong, heq ▸ hcrc, hsame ▸ hmethod⟩, h⟩, fun h => h.2⟩

theorem length_uint16 (n : Nat) : (uint16 n).length = 2 := rfl

theorem packet_fields (methodId : Nat) (payload : Bytes) :
    let p := packet methodId payload
    p.length = payload.length + 6 ∧ p.take 2 = uint16 methodId ∧
      (p.drop 2).take 2 = uint16 payload.length ∧ rxPayload p = payload ∧
        p.drop (p.length - 2) = uint16 (checksum (p.take (p.length - 2))) := by
  generalize hbody : uint16 methodId ++ uint16 payload.length ++ payload = body
  have hlen : body.length = payload.length + 4 := by
    rw [← hbody, List.length_append, List.length_append, length_uint16, length_uint16]
    omega
  have hpacket : packet methodId payload = body ++ uint16 (checksum body) := by
    rw [packet, hbody]
  have hsub : (packet methodId payload).length - 2 = body.length := by
    rw [hpacket, List.length_append, length_uint16, Nat.add_sub_cancel]
  have htake : (packet methodId payload).take body.length = body := by
    rw [hpacket, List.take_left]
  dsimp only
  rw [rxPayload, hsub, htake]
  refine ⟨?_, rfl, rfl, ?_, ?_⟩
  · rw [hpacket, List.length_append, length_uint16, hlen]
  · rw [← hbody]
    rfl
  · rw [hpacket, List.drop_left]

theorem requestPacket_iff {p : Bytes} : requestPacket methodId payload = .ok p ↔
    methodId < 2 ^ 16 ∧ payload.length < 2 ^ 16 ∧ p = packet methodId payload := by
  by_cases hm : methodId < 2 ^ 16
  · by_cases hp : payload.length < 2 ^ 16
    · rw [requestPacket_ok hm hp, Except.ok.injEq, eq_comm]
      exact ⟨fun h => ⟨hm, hp, h⟩, fun h => h.2.2⟩
    · rw [requestPacket, pack, if_pos hm, pack, if_neg hp]
      constructor
      · intro h
        cases h
      · intro h
        exact absurd h.2.1 hp
  · rw [requestPacket, pack, if_neg hm]
    constructor
    · intro h
      cases h
    · intro h
      exact absurd h.1 hm

theorem length_rxPayload {unframed : Bytes} (h : 6 ≤ unframed.length) :
    (rxPayload unframed).length + 6 = unframed.length := by
  rw [rxPayload, List.length_drop, List.length_take]
  omega

theorem Checked.fields {unframed : Bytes} (h : Checked methodId unframed) :
    let body := uint16 methodId ++ (unframed.drop 2).take 2 ++ rxPayload unframed
    unframed = body ++ uint16 (checksum body) := by
  have hlong := h.long
  obtain ⟨hmethod, -⟩ := uint16_unpack h.method
  obtain ⟨hcrc, -⟩ := uint16_unpack h.crc
  have hbody : unframed.take (unframed.length - 2) =
      uint16 methodId ++ (unframed.drop 2).take 2 ++ rxPayload unframed := by
    have hfront : (unframed.take (unframed.length - 2)).take 4 =
        unframed.take 2 ++ (unframed.drop 2).take 2 := by
      rw [List.take_take, Nat.min_eq_left (by omega)]
      exact List.take_add (i := 2) (j := 2)
    rw [← hmethod, ← hfront, rxPayload, List.take_append_drop]
  dsimp only
  rw [← hbody, ← hcrc, List.take_append_drop]

/-- A response that passes the checks is the packet of its own payload if and only if its length
field says so. -/
theorem Checked.packet_iff {unframed : Bytes} (h : Checked methodId unframed) :
    requestPacket methodId (rxPayload unframed) = .ok unframed ↔
      unpack ((unframed.drop 2).take 2) = some (unframed.length - 6) := by
  have hlen := length_rxPayload h.long
  obtain ⟨-, hm⟩ := uint16_unpack h.method
  rw [requestPacket_iff]
  constructor
  · rintro ⟨-, hp, hpacket⟩
    obtain ⟨-, -, hlength, -⟩ := packet_fields methodId (rxPayload unframed)
    rw [← hpacket] at hlength
    rw [hlength, unpack_uint16 hp, ← hlen, Nat.add_sub_cancel]
  · intro hlength
    rw [← hlen, Nat.add_sub_cancel] at hlength
    obtain ⟨hfield, hp⟩ := uint16_unpack hlength
    have hfields := h.fields
    rw [hfield] at hfields
    exact ⟨hm, hp, hfields⟩

theorem checked_packet (hm : methodId < 2 ^ 16) : Checked methodId (packet methodId payload) := by
  obtain ⟨hlen, hmethod, -, -, hcrc⟩ := packet_fields methodId payload
  exact ⟨by omega, by rw [hcrc, unpack_uint16 (checksum_lt _)], by rw [hmethod, unpack_uint16 hm]⟩

/-- A call that can be sent never ends in an exception, whatever is received. -/
theorem callRaw_eq {rx : List (Option UInt8)} {late : Bool} (hm : methodId < 2 ^ 16)
    (hp : payload.length < 2 ^ 16) : callRaw methodId payload rx late =
      .ok ((receive [] rx).bind fun buffer =>
        if late then none else response methodId buffer.dropLast) := by
  rw [callRaw, requestFrame, requestPacket_ok hm hp]
  dsimp only [Functor.map, Except.map, bind, Except.bind]
  cases receive [] rx <;> rfl

theorem callRaw_eq_some {rx : List (Option UInt8)} {late : Bool} {p : Bytes}
    (h : callRaw methodId payload rx late = .ok (some p)) :
    late = false ∧ ∃ buffer, receive [] rx = some buffer ∧
      response methodId buffer.dropLast = some p := by
  rw [callRaw] at h
  cases hsent : requestFrame methodId payload with
  | error e =>
    rw [hsent] at h
    cases h
  | ok frame =>
    rw [hsent] at h
    dsimp only [bind, Except.bind] at h
    cases hreceive : receive [] rx with
    | none =>
      rw [hreceive] at h
      cases h
    | some buffer =>
      rw [hreceive] at h
      cases late with
      | true => cases h
      | false => exact ⟨rfl, buffer, rfl, Except.ok.inj h⟩

theorem invoke_eq_some {fromBytes : Bytes → Option R} {rx : List (Option UInt8)} {late : Bool}
    {v : R} (h : invoke methodId payload fromBytes rx late = .ok (some v)) :
    ∃ p, callRaw methodId payload rx late = .ok (some p) ∧ fromBytes p = some v := by
  rw [invoke] at h
  cases hraw : callRaw methodId payload rx late with
  | error e =>
    rw [hraw] at h
    cases h
  | ok raw =>
    rw [hraw] at h
    obtain ⟨p, hp, hv⟩ := Option.bind_eq_some_iff.1 (Except.ok.inj h)
    exact ⟨p, congrArg _ hp, hv⟩

end

/-- What a call sends comes back as the payload, however slowly its bytes arrive. -/
theorem call_round_trip {methodId : Nat} {payload frame : Bytes} {rx : List (Option UInt8)}
    (hm : methodId < 2 ^ 16) (hp : payload.length ≤ 65535)
    (hframe : requestFrame methodId payload = .ok frame) (hrx : rx.reduceOption = frame) :
    callRaw methodId payload rx false = .ok (some payload) := by
  have hlt : payload.length < 2 ^ 16 := Nat.lt_succ_of_le hp
  rw [requestFrame, requestPacket_ok hm hlt] at hframe
  have hsent : frame = CobsFramer.stuff [] (packet methodId payload) ++ [0x00] := by
    rw [← CobsFramer.encode_eq]
    exact (Except.ok.inj hframe).symm
  have hreceive : receive [] rx = some ([] ++ CobsFramer.stuff [] (packet methodId payload) ++
      [0x00]) := by
    apply receive_iff.2
    refine ⟨_, [], ?_, ?_, rfl⟩
    · rw [hrx, hsent]
    · exact CobsFramer.zero_notMem_stuff List.not_mem_nil (Nat.zero_lt_succ _)
  have hdecode : CobsFramer.decode (CobsFramer.stuff [] (packet methodId payload)) =
      packet methodId payload := CobsFramer.decode_stuff (Nat.zero_lt_succ _)
  have hresponse : response methodId (CobsFramer.stuff [] (packet methodId payload)) =
      some payload := by
    rw [response_iff, hdecode]
    obtain ⟨-, -, -, hpayload, -⟩ := packet_fields methodId payload
    exact ⟨checked_packet hm, hpayload.symm⟩
  rw [callRaw_eq hm hlt, hreceive]
  dsimp only [Option.bind]
  rw [if_neg Bool.false_ne_true, List.nil_append, List.dropLast_concat, hresponse]

/-- A call with a one-byte payload, answered with an empty read in front. -/
theorem call_round_trip_ping :
    let frame := CobsFramer.encode (packet 16 [0x05])
    callRaw 16 [0x05] (none :: frame.map some) false = .ok (some [0x05]) :=
  call_round_trip (by decide) (by decide) rfl (by decide)

/-- The bytes received before the first delimiter. -/
def Delimited (rx : List (Option UInt8)) (framed : Bytes) : Prop :=
  ∃ rest, rx.reduceOption = framed ++ 0x00 :: rest ∧ 0x00 ∉ framed

/-- The packet structure `McuRpcClient` documents, in whole blocks. -/
structure WellFormed (methodId : Nat) (payload framed : Bytes) : Prop where
  blocks : CobsFramer.Untruncated framed
  fields : requestPacket methodId payload = .ok (CobsFramer.decode framed)

theorem Delimited.receive {rx : List (Option UInt8)} {framed : Bytes} (h : Delimited rx framed) :
    receive [] rx = some (framed ++ [0x00]) := by
  obtain ⟨rest, hrest, hmem⟩ := h
  exact receive_iff.2 ⟨framed, rest, hrest, hmem, rfl⟩

theorem Delimited.unique {rx : List (Option UInt8)} {framed framed' : Bytes}
    (h : Delimited rx framed) (h' : Delimited rx framed') : framed = framed' :=
  List.append_cancel_right (Option.some.inj (h.receive.symm.trans h'.receive))

theorem callRaw_iff {methodId : Nat} {payload p : Bytes} {rx : List (Option UInt8)} {late : Bool}
    (hm : methodId < 2 ^ 16) (hp : payload.length < 2 ^ 16) :
    callRaw methodId payload rx late = .ok (some p) ↔ late = false ∧
      ∃ framed, Delimited rx framed ∧ Checked methodId (CobsFramer.decode framed) ∧
        p = rxPayload (CobsFramer.decode framed) := by
  rw [callRaw_eq hm hp, Except.ok.injEq, Option.bind_eq_some_iff]
  constructor
  · rintro ⟨buffer, hreceive, h⟩
    obtain ⟨framed, rest, hrest, hmem, rfl⟩ := receive_iff.1 hreceive
    cases late with
    | true => cases h
    | false =>
      rw [if_neg Bool.false_ne_true, List.nil_append, List.dropLast_concat, response_iff] at h
      exact ⟨rfl, framed, ⟨rest, hrest, hmem⟩, h⟩
  · rintro ⟨rfl, framed, hframed, h⟩
    refine ⟨_, hframed.receive, ?_⟩
    rw [if_neg Bool.false_ne_true, List.dropLast_concat, response_iff]
    exact h

/-- A call accepts only well-formed frames, and fails without an exception on all others, if and
only if no frame that passes its checks in time has a block cut short or a wrong length field. -/
theorem accepts_well_formed_iff {methodId : Nat} {payload : Bytes} {rx : List (Option UInt8)}
    {late : Bool} (hm : methodId < 2 ^ 16) (hp : payload.length < 2 ^ 16) :
    ((∀ p, callRaw methodId payload rx late = .ok (some p) →
        ∃ framed, Delimited rx framed ∧ WellFormed methodId p framed) ∧
      ∀ e, callRaw methodId payload rx late ≠ .error e) ↔
    ∀ framed, late = false → Delimited rx framed → Checked methodId (CobsFramer.decode framed) →
      CobsFramer.Untruncated framed ∧
        unpack (((CobsFramer.decode framed).drop 2).take 2) =
          some ((CobsFramer.decode framed).length - 6) := by
  constructor
  · rintro ⟨h, -⟩ framed hlate hframed hchecked
    obtain ⟨framed', hframed', hwell⟩ :=
      h _ ((callRaw_iff hm hp).2 ⟨hlate, framed, hframed, hchecked, rfl⟩)
    cases hframed.unique hframed'
    exact ⟨hwell.blocks, hchecked.packet_iff.1 hwell.fields⟩
  · intro h
    constructor
    · intro p hcall
      obtain ⟨hlate, framed, hframed, hchecked, rfl⟩ := (callRaw_iff hm hp).1 hcall
      obtain ⟨hblocks, hlength⟩ := h framed hlate hframed hchecked
      exact ⟨framed, hframed, hblocks, hchecked.packet_iff.2 hlength⟩
    · intro e herror
      rw [callRaw_eq hm hp] at herror
      cases herror

/-- The frame of a one-byte response to method 16, with any length field. -/
def pong (length : Nat) : Bytes :=
  let body := uint16 16 ++ uint16 length ++ [0x05]
  CobsFramer.encode (body ++ uint16 (checksum body))

theorem pong_well_formed :
    ∃ framed, Delimited ((pong 1).map some) framed ∧ WellFormed 16 [0x05] framed := by
  have hcall : callRaw 16 [] ((pong 1).map some) false = .ok (some [0x05]) := by decide
  refine ((accepts_well_formed_iff (by decide) (by decide)).2 ?_).1 _ hcall
  intro framed _ hframed _
  have hpong : Delimited ((pong 1).map some) [2, 16, 2, 1, 3, 5, 22, 1] :=
    ⟨[], by decide, by decide⟩
  cases hframed.unique hpong
  have hstuffed : CobsFramer.stuff [] (packet 16 [0x05]) = [2, 16, 2, 1, 3, 5, 22, 1] := by decide
  exact ⟨hstuffed ▸ CobsFramer.untruncated_stuff (Nat.zero_lt_succ _), by decide⟩

/-- A response whose length field says 99 is accepted, and so is one whose last block lacks a
byte. -/
theorem accepts_ill_formed :
    (callRaw 16 [] ((pong 99).map some) false = .ok (some [0x05]) ∧
      ∀ framed, Delimited ((pong 99).map some) framed → ¬ WellFormed 16 [0x05] framed) ∧
    callRaw 16 [] ([2, 16, 2, 1, 3, 5, 22, 2, 0].map some) false = .ok (some [0x05]) ∧
      ∀ framed, Delimited ([2, 16, 2, 1, 3, 5, 22, 2, 0].map some) framed →
        ¬ WellFormed 16 [0x05] framed := by
  refine ⟨⟨by decide, ?_⟩, by decide, ?_⟩
  · intro framed hframed hwell
    have hpong : Delimited ((pong 99).map some) [2, 16, 2, 99, 3, 5, 120, 1] :=
      ⟨[], by decide, by decide⟩
    cases hframed.unique hpong
    exact absurd hwell.fields (by decide)
  · intro framed hframed hwell
    have hcut : Delimited ([2, 16, 2, 1, 3, 5, 22, 2, 0].map some) [2, 16, 2, 1, 3, 5, 22, 2] :=
      ⟨[], by decide, by decide⟩
    cases hframed.unique hcut
    have h₁ : CobsFramer.Untruncated [2, 1, 3, 5, 22, 2] :=
      (CobsFramer.untruncated_cons_iff.1 hwell.blocks).2.2
    have h₂ : CobsFramer.Untruncated [3, 5, 22, 2] := (CobsFramer.untruncated_cons_iff.1 h₁).2.2
    have h₃ : CobsFramer.Untruncated [2] := (CobsFramer.untruncated_cons_iff.1 h₂).2.2
    exact absurd (CobsFramer.untruncated_cons_iff.1 h₃).2.1 (by decide)

end McuRpcClient
end MesCore
