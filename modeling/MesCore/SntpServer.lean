import MesCore.McuRpc
import Mathlib.Algebra.Order.Floor.Semifield
import Mathlib.Data.NNRat.Floor

namespace MesCore
set_option autoImplicit true

namespace SntpServer

def ntpEpochOffset : ℕ := 2208988800

/-- The bytes of `struct.pack(">I", n)`. -/
def uint32 (n : ℕ) : Bytes :=
  [UInt8.ofNat (n / 2 ^ 24 % 256), UInt8.ofNat (n / 2 ^ 16 % 256), UInt8.ofNat (n / 2 ^ 8 % 256),
    UInt8.ofNat (n % 256)]

/-- `buf[i:i + len(bs)] = bs`. -/
def setSlice (buf : Bytes) (i : ℕ) (bs : Bytes) : Bytes :=
  buf.take i ++ (bs ++ buf.drop (i + bs.length))

/-- `struct.pack_into(">I", buf, offset, n)`. -/
def packInto (buf : Bytes) (offset n : ℕ) : Except StructError Bytes :=
  if n < 2 ^ 32 then .ok (setSlice buf offset (uint32 n)) else .error .outOfRange

/-- The version bits of a request, or those of version 3. -/
def clientVn : Bytes → UInt8
  | [] => 0x18
  | b :: _ => b &&& 0x38

/-- `build_ntp_response`, at a time of the host clock in seconds since 1970. -/
def buildNtpResponse (request : Bytes) (hostTime : ℚ≥0) : Except StructError Bytes := do
  let resp : Bytes := List.replicate 48 0
  let resp := resp.set 0 (clientVn request ||| 0x04)
  let resp := resp.set 1 1
  let resp := if 48 ≤ request.length then setSlice resp 24 ((request.drop 40).take 8) else resp
  let ntpNow := ⌊hostTime⌋₊ + ntpEpochOffset
  let resp ← packInto resp 32 ntpNow
  packInto resp 40 (ntpNow + 1)

/-- What a turn of the server's loop finds ready: a datagram at the NTP socket, with the host time
at which it is answered, and a line at the log socket, decoded and stripped. -/
structure Turn where
  request : Option Bytes := none
  hostTime : ℚ≥0 := 0
  line : Option String := none

/-- The datagrams a server sent, and what its call came to. -/
structure Served where
  sent : List Bytes := []
  result : Except StructError Bool

def Served.after (resp : Bytes) (s : Served) : Served := { s with sent := resp :: s.sent }

/-- The response to a request as a `modify_response_fn` leaves it, if it is not suppressed. -/
def respond (modFn : Option (Bytes → Bytes → Option Bytes)) (request : Bytes) (hostTime : ℚ≥0) :
    Except StructError (Option Bytes) := do
  let resp ← buildNtpResponse request hostTime
  match modFn with
  | none => pure (some resp)
  | some modify => pure (modify resp request)

def patternFound (waitPat line : Option String) : Bool :=
  match waitPat, line with
  | some pattern, some line => pattern != "" && decide (occursIn pattern line)
  | _, _ => false

/-- The second half of a turn: the line ends the call, or the rest of the turns follows. -/
def readLog (waitPat line : Option String) (rest : Served) : Served :=
  if patternFound waitPat line then { result := .ok true } else rest

/-- The rest of a turn once there is a response, none or an exception. A suppressed response leaves
the log unread in its turn. -/
def reply (waitPat line : Option String) (rest : Served) :
    Except StructError (Option Bytes) → Served
  | .error e => { result := .error e }
  | .ok none => rest
  | .ok (some resp) =>
    if waitPat.isNone then { sent := [resp], result := .ok true }
    else (readLog waitPat line rest).after resp

def serve (modFn : Option (Bytes → Bytes → Option Bytes)) (waitPat : Option String) (turn : Turn)
    (rest : Served) : Served :=
  match turn.request with
  | none => readLog waitPat turn.line rest
  | some request => reply waitPat turn.line rest (respond modFn request turn.hostTime)

/-- `SntpServer.run`, over the turns its loop takes before the deadline. -/
def run (modFn : Option (Bytes → Bytes → Option Bytes)) (waitPat : Option String)
    (turns : List Turn) : Served :=
  turns.foldr (serve modFn waitPat) { result := .ok false }

/-- `struct.unpack_from(">I", buf, offset)[0]`, as a number. -/
def unpackFrom (buf : Bytes) (offset : ℕ) : ℕ :=
  ((buf.drop offset).take 4).foldl (fun n b => 256 * n + b.toNat) 0

/-- What an NTP client relies on. -/
structure ValidResponse (request : Bytes) (hostTime : ℚ≥0) (resp : Bytes) : Prop where
  length : resp.length = 48
  version : resp.head?.map (· &&& 0x38) = some (clientVn request)
  mode : resp.head?.map (· &&& 0x07) = some 4
  stratum : resp[1]? = some 1
  originate : (resp.drop 24).take 8 =
    if 48 ≤ request.length then (request.drop 40).take 8 else List.replicate 8 0
  receive : unpackFrom resp 32 = (⌊hostTime⌋₊ + 2208988800) % 2 ^ 32
  transmit : unpackFrom resp 40 = (⌊hostTime⌋₊ + 2208988801) % 2 ^ 32

/-- A response is built, and a valid one. -/
def Answers (request : Bytes) (hostTime : ℚ≥0) : Prop :=
  ∃ resp, buildNtpResponse request hostTime = .ok resp ∧ ValidResponse request hostTime resp

/-- The transmit timestamp still fits into the era that began in 1900. -/
def InEra (hostTime : ℚ≥0) : Prop := ⌊hostTime⌋₊ + 2208988801 < 2 ^ 32

section
variable {buf pre mid post bs request : Bytes} {hostTime : ℚ≥0} {i n : ℕ}

theorem setSlice_append (pre mid post : Bytes) (hpre : pre.length = i)
    (hmid : mid.length = bs.length) :
    setSlice (pre ++ (mid ++ post)) i bs = pre ++ (bs ++ post) := by
  have hlength : i + bs.length = (pre ++ mid).length := by rw [List.length_append, hpre, hmid]
  have hdrop : (pre ++ (mid ++ post)).drop (i + bs.length) = post := by
    rw [hlength, ← List.append_assoc, List.drop_left]
  rw [setSlice, hdrop, ← hpre, List.take_left]

theorem packInto_append (pre mid post : Bytes) (h : n < 2 ^ 32) (hpre : pre.length = i)
    (hmid : mid.length = 4) :
    packInto (pre ++ (mid ++ post)) i n = .ok (pre ++ (uint32 n ++ post)) := by
  have hlength : mid.length = (uint32 n).length := hmid
  rw [packInto, if_pos h, setSlice_append pre mid post hpre hlength]

theorem foldl_uint32 (h : n < 2 ^ 32) :
    (uint32 n).foldl (fun n b => 256 * n + b.toNat) 0 = n := by
  have hbyte (k : ℕ) : (UInt8.ofNat (k % 256)).toNat = k % 256 :=
    UInt8.toNat_ofNat_of_lt' (Nat.mod_lt k (by decide))
  simp only [uint32, List.foldl_cons, List.foldl_nil, hbyte]
  omega

theorem unpackFrom_append (pre post : Bytes) (h : n < 2 ^ 32) (hpre : pre.length = i) :
    unpackFrom (pre ++ (uint32 n ++ post)) i = n := by
  have hlength : (uint32 n).length = 4 := rfl
  rw [unpackFrom, ← hpre, List.drop_left, ← hlength, List.take_left]
  exact foldl_uint32 h

theorem ok_bind (a : α) (k : α → Except ε β) : ((.ok a : Except ε α) >>= k) = k a := rfl

/-- The first byte and the stratum, and the fields up to the originate timestamp. -/
def head (request : Bytes) : Bytes := (clientVn request ||| 0x04) :: 1 :: List.replicate 22 0

def originate (request : Bytes) : Bytes :=
  if 48 ≤ request.length then (request.drop 40).take 8 else List.replicate 8 0

theorem length_originate (request : Bytes) : (originate request).length = 8 := by
  unfold originate
  split
  · rw [List.length_take, List.length_drop]
    omega
  · rfl

def layout (request : Bytes) (receive transmit : ℕ) : Bytes :=
  head request ++ (originate request ++ (uint32 receive ++ (List.replicate 4 0 ++
    (uint32 transmit ++ List.replicate 4 0))))

theorem buildNtpResponse_eq (request : Bytes) (hostTime : ℚ≥0) :
    buildNtpResponse request hostTime = (do
      let resp ← packInto (head request ++ (originate request ++ (List.replicate 4 0 ++
        (List.replicate 4 0 ++ (List.replicate 4 0 ++ List.replicate 4 0))))) 32
          (⌊hostTime⌋₊ + 2208988800)
      packInto resp 40 (⌊hostTime⌋₊ + 2208988801)) := by
  have hresp (o : Bytes) (ho : o.length = 8) :
      setSlice (((List.replicate 48 0).set 0 (clientVn request ||| 0x04)).set 1 1) 24 o =
        head request ++ (o ++ List.replicate 16 0) :=
    setSlice_append (head request) (List.replicate 8 0) (List.replicate 16 0) rfl ho.symm
  have hblank : (if 48 ≤ request.length then
      setSlice (((List.replicate 48 0).set 0 (clientVn request ||| 0x04)).set 1 1) 24
        ((request.drop 40).take 8)
      else ((List.replicate 48 0).set 0 (clientVn request ||| 0x04)).set 1 1) =
        head request ++ (originate request ++ List.replicate 16 0) := by
    have ho := length_originate request
    unfold originate at ho ⊢
    split
    · rename_i hlong
      rw [if_pos hlong] at ho
      exact hresp _ ho
    · rfl
  rw [buildNtpResponse, hblank]
  rfl

theorem buildNtpResponse_inEra (request : Bytes) (h : InEra hostTime) :
    buildNtpResponse request hostTime =
      .ok (layout request (⌊hostTime⌋₊ + 2208988800) (⌊hostTime⌋₊ + 2208988801)) := by
  have hera : ⌊hostTime⌋₊ + 2208988801 < 2 ^ 32 := h
  have hreceive : (head request ++ originate request).length = 32 := by
    rw [List.length_append, length_originate]
    rfl
  have htransmit (n : ℕ) :
      (head request ++ (originate request ++ (uint32 n ++ List.replicate 4 0))).length = 40 := by
    simp only [List.length_append, length_originate]
    rfl
  have hpack := packInto_append _ (List.replicate 4 0) (List.replicate 4 0) hera
    (htransmit (⌊hostTime⌋₊ + 2208988800)) rfl
  rw [buildNtpResponse_eq, ← List.append_assoc, packInto_append _ _ _ (by omega) hreceive rfl,
    ok_bind, layout]
  simp only [List.append_assoc] at hpack ⊢
  rw [hpack]

theorem buildNtpResponse_overflow (request : Bytes) (h : ¬ InEra hostTime) :
    buildNtpResponse request hostTime = .error .outOfRange := by
  have hera : ¬ ⌊hostTime⌋₊ + 2208988801 < 2 ^ 32 := h
  rw [buildNtpResponse_eq]
  by_cases hreceive : ⌊hostTime⌋₊ + 2208988800 < 2 ^ 32
  · rw [packInto, if_pos hreceive, ok_bind, packInto, if_neg hera]
  · rw [packInto, if_neg hreceive]
    rfl

theorem clientVn_masked (request : Bytes) : ∃ b, clientVn request = b &&& 0x38 := by
  cases request with
  | nil => exact ⟨0x18, rfl⟩
  | cons b request => exact ⟨b, rfl⟩

theorem first_and (request : Bytes) (m : UInt8) : ∃ b, clientVn request = b &&& 0x38 ∧
    (clientVn request ||| 0x04) &&& m = (b &&& (0x38 &&& m)) ||| (0x04 &&& m) := by
  obtain ⟨b, hb⟩ := clientVn_masked request
  refine ⟨b, hb, ?_⟩
  rw [hb, ← UInt8.and_assoc]
  apply UInt8.eq_of_toBitVec_eq
  exact BitVec.and_or_distrib_right

theorem first_version (request : Bytes) :
    (clientVn request ||| 0x04) &&& 0x38 = clientVn request := by
  obtain ⟨b, hb, hfirst⟩ := first_and request 0x38
  have hmask : (0x38 : UInt8) &&& 0x38 = 0x38 ∧ (0x04 : UInt8) &&& 0x38 = 0 := by decide
  rw [hfirst, hb, hmask.1, hmask.2, UInt8.or_zero]

theorem first_mode (request : Bytes) : (clientVn request ||| 0x04) &&& 0x07 = 0x04 := by
  obtain ⟨b, -, hfirst⟩ := first_and request 0x07
  have hmask : (0x38 : UInt8) &&& 0x07 = 0 ∧ (0x04 : UInt8) &&& 0x07 = 0x04 := by decide
  rw [hfirst, hmask.1, hmask.2, UInt8.and_zero, UInt8.zero_or]

theorem layout_valid (h : InEra hostTime) : ValidResponse request hostTime
    (layout request (⌊hostTime⌋₊ + 2208988800) (⌊hostTime⌋₊ + 2208988801)) := by
  have hera : ⌊hostTime⌋₊ + 2208988801 < 2 ^ 32 := h
  have hbefore : (head request ++ originate request).length = 32 := by
    rw [List.length_append, length_originate]
    rfl
  have hreceive : ⌊hostTime⌋₊ + 2208988800 < 2 ^ 32 := by omega
  constructor
  · simp only [layout, List.length_append, length_originate]
    rfl
  · exact congrArg some (first_version request)
  · exact congrArg some (first_mode request)
  · rfl
  · have hhead : (head request).length = 24 := rfl
    have htake (rest : Bytes) : (originate request ++ rest).take 8 = originate request := by
      rw [← length_originate request, List.take_left]
    rw [layout, ← hhead, List.drop_left]
    exact htake _
  · rw [layout, ← List.append_assoc, unpackFrom_append _ _ hreceive hbefore,
      Nat.mod_eq_of_lt hreceive]
  · have hlength : (head request ++ originate request ++ (uint32 (⌊hostTime⌋₊ + 2208988800) ++
        List.replicate 4 0)).length = 40 := by
      rw [List.length_append, hbefore]
      rfl
    have hunpack := unpackFrom_append _ (List.replicate 4 0) hera hlength
    simp only [List.append_assoc] at hunpack
    rw [layout, hunpack, Nat.mod_eq_of_lt hera]

/-- A valid response is built exactly as long as the era lasts. -/
theorem answers_iff (request : Bytes) (hostTime : ℚ≥0) :
    Answers request hostTime ↔ InEra hostTime := by
  constructor
  · rintro ⟨resp, hresp, -⟩
    by_contra h
    cases (buildNtpResponse_overflow request h).symm.trans hresp
  · exact fun h => ⟨_, buildNtpResponse_inEra request h, layout_valid h⟩

/-- The last second of the era, in 2036, has no response. -/
theorem era_end_unanswered : ¬ Answers [0x23] 2085978495 := by
  rw [answers_iff, InEra, Nat.floor_ofNat]
  decide

def requests (turns : List Turn) : List Turn := turns.filter fun turn => turn.request.isSome

/-- What a server that changes no response does over its turns, of which it answers these. -/
structure Serves (waitPat : Option String) (turns answered : List Turn) (s : Served) : Prop where
  answers : List.Forall₂ (fun turn resp => ∃ request, turn.request = some request ∧
    ValidResponse request turn.hostTime resp) answered s.sent
  order : answered <+: requests turns
  raises : ∀ e, s.result = .error e →
    ∃ turn, ¬ InEra turn.hostTime ∧ answered ++ [turn] <+: requests turns
  found : s.result = .ok true → waitPat = none ∧ answered ≠ [] ∨
    ∃ turn ∈ turns, patternFound waitPat turn.line = true
  timedOut : s.result = .ok false → answered = requests turns

variable {waitPat : Option String} {turn : Turn} {turns answered : List Turn} {s : Served}

theorem Serves.readLog (h : Serves waitPat turns answered s) {before : List Turn}
    {sent : List Bytes} (hbefore : requests [turn] = before)
    (hsent : List.Forall₂ (fun turn resp => ∃ request, turn.request = some request ∧
      ValidResponse request turn.hostTime resp) before sent) :
    ∃ answered', Serves waitPat (turn :: turns) answered'
      { SntpServer.readLog waitPat turn.line s with
        sent := sent ++ (SntpServer.readLog waitPat turn.line s).sent } := by
  have hrequests : requests (turn :: turns) = before ++ requests turns := by
    rw [← hbefore, requests, requests, requests, ← List.filter_append]
    rfl
  unfold SntpServer.readLog
  split
  · rename_i hpattern
    refine ⟨before, ?_, ?_, nofun, fun _ => .inr ⟨turn, List.mem_cons_self, hpattern⟩, nofun⟩
    · rw [List.append_nil]
      exact hsent
    · rw [hrequests]
      exact List.prefix_append ..
  · refine ⟨before ++ answered, List.rel_append hsent h.answers, ?_, fun e he => ?_, fun hok => ?_,
      fun hok => ?_⟩
    · rw [hrequests]
      exact (List.prefix_append_right_inj before).2 h.order
    · obtain ⟨turn', hera, hlast⟩ := h.raises e he
      refine ⟨turn', hera, ?_⟩
      rw [hrequests, List.append_assoc]
      exact (List.prefix_append_right_inj before).2 hlast
    · rcases h.found hok with ⟨hnone, hne⟩ | ⟨turn', hmem, hpattern⟩
      · exact .inl ⟨hnone, fun hnil => hne (List.append_eq_nil_iff.1 hnil).2⟩
      · exact .inr ⟨turn', List.mem_cons_of_mem _ hmem, hpattern⟩
    · rw [hrequests, h.timedOut hok]

theorem Serves.serve (h : Serves waitPat turns answered s) :
    ∃ answered', Serves waitPat (turn :: turns) answered'
      (SntpServer.serve none waitPat turn s) := by
  unfold SntpServer.serve
  cases hrequest : turn.request with
  | none =>
    have hbefore : requests [turn] = [] := by simp [requests, hrequest]
    exact h.readLog hbefore .nil
  | some request =>
    have hbefore : requests [turn] = [turn] := by simp [requests, hrequest]
    have hrequests : requests (turn :: turns) = turn :: requests turns := by
      simp [requests, hrequest]
    dsimp only
    by_cases hera : InEra turn.hostTime
    · have hresp : respond none request turn.hostTime = .ok (some (layout request
          (⌊turn.hostTime⌋₊ + 2208988800) (⌊turn.hostTime⌋₊ + 2208988801))) := by
        rw [respond, buildNtpResponse_inEra request hera, ok_bind]
        rfl
      rw [hresp, reply]
      split
      · refine ⟨[turn], .cons ⟨request, hrequest, layout_valid hera⟩ .nil, ?_, nofun, fun _ => ?_,
          nofun⟩
        · rw [hrequests]
          exact List.prefix_append [turn] _
        · exact .inl ⟨Option.isNone_iff_eq_none.1 ‹_›, List.cons_ne_nil _ _⟩
      · exact h.readLog hbefore (.cons ⟨request, hrequest, layout_valid hera⟩ .nil)
    · have hraised : respond none request turn.hostTime = .error .outOfRange := by
        rw [respond, buildNtpResponse_overflow request hera]
        rfl
      rw [hraised]
      refine ⟨[], .nil, List.nil_prefix, fun _ _ => ⟨turn, hera, ?_⟩, nofun, nofun⟩
      rw [hrequests]
      exact List.prefix_append [turn] _

end

end SntpServer
end MesCore
