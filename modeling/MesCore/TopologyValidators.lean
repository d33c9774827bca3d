import MesCore.Topology

namespace MesCore
set_option autoImplicit true

/-- `f'{n:X}'`. -/
def hexNumber (n : Nat) : List Char := (Nat.toDigits 16 n).map Char.toUpper

/-- `f'{n:0wX}'`. -/
def hexPadded (w n : Nat) : List Char := (hexNumber n).leftpad w '0'

def hexByte (b : UInt8) : List Char := hexPadded 2 b.toNat

/-- The hex text of some bytes, as Python joins it and as `hexdump` prints it. -/
def hexText (bs : Bytes) : List Char := bs.flatMap hexByte

/-- `str.upper`, as far as ASCII goes. -/
def upperText (s : List Char) : List Char := s.map Char.toUpper

theorem hexDigit_of_mem_hexNumber {n : Nat} {c : Char} (h : c ∈ hexNumber n) :
    c ∈ "0123456789ABCDEF".toList := by
  have hdigit : ∀ d < 16, (Nat.digitChar d).toUpper ∈ "0123456789ABCDEF".toList := by decide
  obtain ⟨c, hc, rfl⟩ := List.mem_map.1 h
  clear h
  induction n using Nat.strongRecOn with
  | ind n ih =>
    rw [Nat.toDigits_eq_if (by decide)] at hc
    split at hc
    · rw [List.mem_singleton.1 hc]
      exact hdigit n ‹_›
    · rcases List.mem_append.1 hc with hc | hc
      · have hlt : n / 16 < n := by omega
        exact ih (n / 16) hlt hc
      · rw [List.mem_singleton.1 hc]
        exact hdigit (n % 16) (Nat.mod_lt n (by decide))

theorem hexDigit_of_mem_hexPadded {w n : Nat} {c : Char} (h : c ∈ hexPadded w n) :
    c ∈ "0123456789ABCDEF".toList := by
  rw [hexPadded, List.leftpad] at h
  rcases List.mem_append.1 h with h | h
  · rw [List.eq_of_mem_replicate h]
    decide
  · exact hexDigit_of_mem_hexNumber h

theorem hexDigit_of_mem_hexText {bs : Bytes} {c : Char} (h : c ∈ hexText bs) :
    c ∈ "0123456789ABCDEF".toList := by
  obtain ⟨b, -, hc⟩ := List.mem_flatMap.1 h
  exact hexDigit_of_mem_hexPadded hc

theorem hexDigit_plain {c : Char} (h : c ∈ "0123456789ABCDEF".toList) :
    isPySpace c = false ∧ c ≠ ' ' ∧ c.toUpper = c := by
  have hall : "0123456789ABCDEF".toList.all
      (fun c => !isPySpace c && c ≠ ' ' && c.toUpper = c) = true := by decide
  simpa [and_assoc] using List.all_eq_true.1 hall c h

theorem hexPadded_ne_nil (w n : Nat) : hexPadded w n ≠ [] := by
  rw [hexPadded, List.leftpad]
  refine List.append_ne_nil_of_right_ne_nil _ ?_
  rw [hexNumber, ne_eq, List.map_eq_nil_iff]
  exact Nat.toDigits_ne_nil

theorem hexText_ne_nil {bs : Bytes} (h : bs ≠ []) : hexText bs ≠ [] := by
  obtain ⟨b, hb⟩ := List.exists_mem_of_ne_nil bs h
  intro hnil
  exact hexPadded_ne_nil 2 b.toNat (List.flatMap_eq_nil_iff.1 hnil b hb)

theorem upperText_hex {s : List Char} (h : ∀ c ∈ s, c ∈ "0123456789ABCDEF".toList) :
    upperText s = s := by
  rw [upperText, List.map_congr_left fun c hc => (hexDigit_plain (h c hc)).2.2, List.map_id']

theorem filter_bytes (bs : Bytes) :
    (bs.flatMap fun b => ' ' :: hexByte b).filter (· ≠ ' ') = hexText bs := by
  rw [List.filter_flatMap, hexText]
  refine List.flatMap_congr fun b _ => ?_
  rw [List.filter_cons_of_neg (by simp), List.filter_eq_self]
  exact fun c hc => decide_eq_true (hexDigit_plain (hexDigit_of_mem_hexPadded hc)).2.1

structure CanFrame where
  id : Nat
  extended : Bool
  data : Bytes
  deriving DecidableEq

/-- What `candump` prints of a frame: `  can1  07B   [4]  01 02 03 04`. -/
def candumpLine (iface : List Char) (f : CanFrame) : List Char :=
  "  ".toList ++ iface ++ "  ".toList ++ hexPadded (if f.extended then 8 else 3) f.id ++
    "   [".toList ++ Nat.toDigits 10 f.data.length ++
    "] ".toList ++ f.data.flatMap (fun b => ' ' :: hexByte b) ++ ['\n']

namespace CanTopologyValidator

/-- The loop of `HostCanAdapter.expect`, for as many turns as the timeout leaves it. -/
def expectFrom (f : CanFrame) : Nat → List CanFrame → Bool × List CanFrame
  | 0, rx => (false, rx)
  | turns + 1, [] => expectFrom f turns []
  | turns + 1, msg :: rx =>
    if msg.id = f.id ∧ msg.data = f.data then (true, rx) else expectFrom f turns rx

def expect (turns : Nat) (f : CanFrame) (a : HostAdapter (List CanFrame)) :
    Except TopologyErr (Bool × HostAdapter (List CanFrame)) :=
  if a.connected then
    let (passed, rx) := expectFrom f turns a.rx
    .ok (passed, { a with rx := rx })
  else .error (.hostAdapterError "Host CAN not connected.")

def captured (f : CanFrame) (stdout : List Char) : Bool :=
  let stdoutClean := pyStrip stdout
  let hexData := hexText f.data
  !(!decide (upperText hexData <:+: upperText (stdoutClean.filter (· ≠ ' '))) ||
    !decide (hexPadded 3 f.id <:+: upperText stdoutClean))

def kind (turns : Nat) : BusKind CanFrame (List CanFrame) (List Char) where
  logFile iface := "/tmp/can_rx_".toList ++ iface ++ ".log".toList
  emptyRx := []
  receive f rx := rx ++ [f]
  emptyLog := []
  record iface f log := log ++ candumpLine iface f
  once := true
  notConnected := "Host CAN not connected."
  expect := expect turns
  captured := captured

/-- `validate_topology`. -/
def validateTopology (turns : Nat) (bus : Bus CanFrame) (nodes : List (List Char))
    (canIdBase : Nat) (payload : Bytes) (b : BusBench (List CanFrame) (List Char)) :
    Except TopologyErr (Bool × BusBench (List CanFrame) (List Char)) :=
  roundRobin (kind turns) bus nodes (fun index => .ok ⟨canIdBase + index, false, payload⟩) 0 nodes
    true b

theorem expectFrom_nil (f : CanFrame) (turns : Nat) : expectFrom f turns [] = (false, []) := by
  induction turns with
  | zero => rfl
  | succ turns ih => exact ih

theorem captured_record (iface : List Char) (f : CanFrame) (hstd : f.extended = false) :
    captured f (candumpLine iface f) = true := by
  have hid : hexPadded 3 f.id <:+: upperText (pyStrip (candumpLine iface f)) := by
    have hhex {c : Char} (hc : c ∈ hexPadded 3 f.id) : isPySpace c = false :=
      (hexDigit_plain (hexDigit_of_mem_hexPadded hc)).1
    rw [← upperText_hex fun c => hexDigit_of_mem_hexPadded (w := 3) (n := f.id)]
    refine List.IsInfix.map _ (infix_pyStrip ?_ (fun c hc => hhex (List.mem_of_mem_head? hc))
      fun c hc => hhex (List.mem_of_getLast? hc))
    unfold candumpLine
    rw [hstd]
    simp only [List.append_assoc]
    exact ⟨"  ".toList ++ (iface ++ "  ".toList), _, by simp only [List.append_assoc]; rfl⟩
  have hdata : upperText (hexText f.data) <:+:
      upperText ((pyStrip (candumpLine iface f)).filter (· ≠ ' ')) := by
    refine List.IsInfix.map _ ?_
    rcases List.eq_nil_or_concat f.data with hnil | ⟨bs, b, hconcat⟩
    · rw [hnil]
      exact List.nil_infix
    · -- the line from the bracket on ends with the last byte
      have hpart : ']' :: ' ' :: f.data.flatMap (fun b => ' ' :: hexByte b) <:+:
          pyStrip (candumpLine iface f) := by
        refine infix_pyStrip ?_ ?_ ?_
        · refine List.IsInfix.trans ?_ (List.prefix_append _ ['\n']).isInfix
          rw [List.append_assoc]
          exact (List.suffix_append _ _).isInfix
        · intro c hc
          cases hc
          decide
        · intro c hc
          have hsplit : (']' :: ' ' :: f.data.flatMap fun b => ' ' :: hexByte b) =
              ']' :: ' ' :: (bs.flatMap (fun b => ' ' :: hexByte b) ++ [' ']) ++ hexByte b := by
            rw [hconcat, List.concat_eq_append, List.flatMap_append, List.flatMap_singleton]
            simp
          have hbyte : hexByte b ≠ [] := hexPadded_ne_nil 2 b.toNat
          rw [hsplit, List.getLast?_append_of_ne_nil _ hbyte] at hc
          exact (hexDigit_plain (hexDigit_of_mem_hexPadded (List.mem_of_getLast? hc))).1
      have hfilter := hpart.filter (· ≠ ' ')
      rw [List.filter_cons_of_pos (by decide), List.filter_cons_of_neg (by decide),
        filter_bytes] at hfilter
      exact (List.suffix_cons _ _).isInfix.trans hfilter
  rw [captured, decide_eq_true hdata, decide_eq_true hid]
  rfl

theorem expect_connected (turns : Nat) (f : CanFrame) (rx : List CanFrame) :
    expect turns f ⟨true, rx⟩ =
      .ok ((expectFrom f turns rx).1, ⟨true, (expectFrom f turns rx).2⟩) := rfl

theorem kind_faithful {turns : Nat} (ht : 0 < turns) {f : CanFrame} (hstd : f.extended = false) :
    (kind turns).Faithful f where
  expect_sent := by
    obtain ⟨turns, rfl⟩ := Nat.exists_eq_succ_of_ne_zero ht.ne'
    have hfirst : expectFrom f (turns + 1) [f] = (true, []) := if_pos ⟨rfl, rfl⟩
    refine ⟨[], (expect_connected (turns + 1) f [f]).trans ?_⟩
    rw [hfirst]
  expect_lost := by
    refine ⟨[], (expect_connected turns f []).trans ?_⟩
    rw [expectFrom_nil]
  captured_sent iface := captured_record iface f hstd
  captured_lost := by
    have hno : ¬ hexPadded 3 f.id <:+: [] := fun h =>
      hexPadded_ne_nil 3 f.id (List.infix_nil.1 h)
    change captured f [] = false
    rw [captured]
    simp [pyStrip, upperText, hno]

end CanTopologyValidator

namespace UartTopologyValidator

/-- The loop of `HostPeripheralSerialAdapter.expect`. -/
def expectFrom (payload : Bytes) : Nat → Bytes → Bytes → Bool × Bytes
  | 0, _, rx => (false, rx)
  | turns + 1, buf, rx =>
    if rx = [] then expectFrom payload turns buf rx
    else if payload <:+: buf ++ rx then (true, [])
    else expectFrom payload turns (buf ++ rx) []

def expect (turns : Nat) (payload : Bytes) (a : HostAdapter Bytes) :
    Except TopologyErr (Bool × HostAdapter Bytes) :=
  if a.connected then
    let (passed, rx) := expectFrom payload turns [] a.rx
    .ok (passed, { a with rx := rx })
  else .ok (false, a)

def captured (payload log : Bytes) : Bool := hexText payload <:+: upperText (hexText log)

def kind (turns : Nat) : BusKind Bytes Bytes Bytes where
  logFile iface :=
    "/tmp/uart_rx".toList ++ iface.map (fun c => if c = '/' then '_' else c) ++ ".log".toList
  emptyRx := []
  receive payload rx := rx ++ payload
  emptyLog := []
  record _ payload log := log ++ payload
  once := false
  notConnected := "Host RS485 not connected."
  expect := expect turns
  captured := captured

/-- `base_payload + bytes([index])`. -/
def currentPayload (basePayload : Bytes) (index : Nat) : Except TopologyErr Bytes :=
  if index < 256 then .ok (basePayload ++ [UInt8.ofNat index])
  else .error (.valueError "bytes must be in range(0, 256)")

/-- `validate_topology`. -/
def validateTopology (turns : Nat) (bus : Bus Bytes) (nodes : List (List Char))
    (basePayload : Bytes) (b : BusBench Bytes Bytes) :
    Except TopologyErr (Bool × BusBench Bytes Bytes) :=
  roundRobin (kind turns) bus nodes (currentPayload basePayload) 0 nodes true b

theorem expectFrom_nil (payload buf : Bytes) (turns : Nat) :
    expectFrom payload turns buf [] = (false, []) := by
  induction turns with
  | zero => rfl
  | succ turns ih =>
    rw [expectFrom, if_pos rfl]
    exact ih

theorem expect_connected (turns : Nat) (payload rx : Bytes) :
    expect turns payload ⟨true, rx⟩ =
      .ok ((expectFrom payload turns [] rx).1, ⟨true, (expectFrom payload turns [] rx).2⟩) := rfl

theorem kind_faithful {turns : Nat} (ht : 0 < turns) {payload : Bytes} (hne : payload ≠ []) :
    (kind turns).Faithful payload where
  expect_sent := by
    obtain ⟨turns, rfl⟩ := Nat.exists_eq_succ_of_ne_zero ht.ne'
    have hfirst : expectFrom payload (turns + 1) [] payload = (true, []) := by
      rw [expectFrom, if_neg hne, List.nil_append, if_pos (List.infix_refl payload)]
    refine ⟨[], (expect_connected (turns + 1) payload payload).trans ?_⟩
    rw [hfirst]
  expect_lost := by
    refine ⟨[], (expect_connected turns payload []).trans ?_⟩
    rw [expectFrom_nil]
  captured_sent iface := by
    change decide (hexText payload <:+: upperText (hexText payload)) = true
    rw [upperText_hex fun c => hexDigit_of_mem_hexText]
    exact decide_eq_true (List.infix_refl _)
  captured_lost :=
    decide_eq_false fun h => hexText_ne_nil hne (List.infix_nil.1 h)

theorem currentPayload_ok {basePayload payload : Bytes} {index : Nat} :
    currentPayload basePayload index = .ok payload ↔
      index < 256 ∧ payload = basePayload ++ [UInt8.ofNat index] := by
  rw [currentPayload]
  split
  · rw [Except.ok.injEq]
    exact ⟨fun h => ⟨‹_›, h.symm⟩, fun h => h.2.symm⟩
  · exact iff_of_false (by simp) fun h => ‹¬ index < 256› h.1

end UartTopologyValidator

/-- The message of each pass gets onto the bus; with a single node nobody waits for it. -/
def Carried (bus : Bus μ) (message : Nat → μ) (nodes : List BusNode) : Prop :=
  ∀ i (h : i < nodes.length), ∃ sent, bus nodes[i].text (message i) = .ok sent ∧
    (2 ≤ nodes.length → sent = true)

/-- No two nodes of the target. -/
def OneDut (nodes : List BusNode) : Prop :=
  ∀ m ∈ nodes, ∀ n ∈ nodes, m.owner = .dut → n.owner = .dut → m = n

theorem canLog_injective (turns : Nat) :
    Function.Injective (CanTopologyValidator.kind turns).logFile := fun _ _ h =>
  List.append_cancel_left (List.append_cancel_right h)

theorem CanTopologyValidator.validateTopology_iff {turns : Nat} (ht : 0 < turns)
    (bus : Bus CanFrame) {nodes : List BusNode} (hnodup : nodes.Nodup) (canIdBase : Nat)
    (payload : Bytes) {b : BusBench (List CanFrame) (List Char)} (hr : b.Ready nodes) :
    (∃ b', CanTopologyValidator.validateTopology turns bus (nodes.map BusNode.text) canIdBase
        payload b = .ok (true, b')) ↔
      Carried bus (fun i => ⟨canIdBase + i, false, payload⟩) nodes ∧
        (nodes.length ≤ 2 ∨ OneDut nodes) := by
  have hf : ∀ i msg, (Except.ok ⟨canIdBase + i, false, payload⟩ : Except TopologyErr CanFrame) =
      .ok msg → (kind turns).Faithful msg := by
    intro i msg h
    cases h
    exact kind_faithful ht rfl
  refine (topology_iff hnodup hf hr).trans (and_congr ?_ (or_congr_right ?_))
  · refine forall₂_congr fun i hi => ?_
    constructor
    · rintro ⟨msg, sent, hmsg, hsent⟩
      cases hmsg
      exact ⟨sent, hsent⟩
    · rintro ⟨sent, hsent⟩
      exact ⟨_, sent, rfl, hsent⟩
  · refine forall₂_congr fun m _ => forall₂_congr fun n _ => forall₂_congr fun hm hn => ?_
    constructor
    · exact fun h => BusNode.ext_iface (hm.trans hn.symm) (canLog_injective turns h)
    · rintro rfl
      rfl

theorem UartTopologyValidator.validateTopology_iff {turns : Nat} (ht : 0 < turns)
    (bus : Bus Bytes) {nodes : List BusNode} (hnodup : nodes.Nodup) (basePayload : Bytes)
    {b : BusBench Bytes Bytes} (hr : b.Ready nodes) :
    (∃ b', UartTopologyValidator.validateTopology turns bus (nodes.map BusNode.text) basePayload b =
        .ok (true, b')) ↔
      Carried bus (fun i => basePayload ++ [UInt8.ofNat i]) nodes ∧ nodes.length ≤ 256 ∧
        (nodes.length ≤ 2 ∨ SharedLog (UartTopologyValidator.kind turns) nodes) := by
  have hf : ∀ i msg, currentPayload basePayload i = .ok msg → (kind turns).Faithful msg := by
    intro i msg h
    rw [(currentPayload_ok.1 h).2]
    exact kind_faithful ht (List.append_ne_nil_of_right_ne_nil _ (List.cons_ne_nil _ _))
  rw [← and_assoc]
  refine (topology_iff hnodup hf hr).trans (and_congr_left fun _ => ?_)
  constructor
  · intro h
    refine ⟨fun i hi => ?_, ?_⟩
    · obtain ⟨msg, sent, hmsg, hsent⟩ := h i hi
      obtain ⟨-, rfl⟩ := currentPayload_ok.1 hmsg
      exact ⟨sent, hsent⟩
    · by_contra hlen
      obtain ⟨msg, -, hmsg, -⟩ := h 256 (Nat.lt_of_not_le hlen)
      exact Nat.lt_irrefl 256 (currentPayload_ok.1 hmsg).1
  · rintro ⟨h, hlen⟩ i hi
    obtain ⟨sent, hsent⟩ := h i hi
    exact ⟨_, sent, currentPayload_ok.2 ⟨Nat.lt_of_lt_of_le hi hlen, rfl⟩, hsent⟩

/-- On an ideal bus a topology is validated exactly if its messages get onto the bus and no pass has
two receivers on the target that log apart. -/
theorem validateTopology_complete_iff {turns : Nat} (ht : 0 < turns) {nodes : List BusNode}
    (hnodup : nodes.Nodup) (canBus : Bus CanFrame) (canIdBase : Nat) (payload : Bytes)
    {canBench : BusBench (List CanFrame) (List Char)} (hcan : canBench.Ready nodes)
    (uartBus : Bus Bytes) (basePayload : Bytes) {uartBench : BusBench Bytes Bytes}
    (huart : uartBench.Ready nodes) :
    ((∃ b', CanTopologyValidator.validateTopology turns canBus (nodes.map BusNode.text) canIdBase
        payload canBench = .ok (true, b')) ↔
      Carried canBus (fun i => ⟨canIdBase + i, false, payload⟩) nodes ∧
        (nodes.length ≤ 2 ∨ OneDut nodes)) ∧
    ((∃ b', UartTopologyValidator.validateTopology turns uartBus (nodes.map BusNode.text)
        basePayload uartBench = .ok (true, b')) ↔
      Carried uartBus (fun i => basePayload ++ [UInt8.ofNat i]) nodes ∧ nodes.length ≤ 256 ∧
        (nodes.length ≤ 2 ∨ SharedLog (UartTopologyValidator.kind turns) nodes)) :=
  ⟨CanTopologyValidator.validateTopology_iff ht canBus hnodup canIdBase payload hcan,
    UartTopologyValidator.validateTopology_iff ht uartBus hnodup basePayload huart⟩

def hostNode : BusNode := ⟨.host, "pcan0".toList, by decide⟩

def dutNode : BusNode := ⟨.dut, "can0".toList, by decide⟩

def secondDutNode : BusNode := ⟨.dut, "can1".toList, by decide⟩

def freshBench (rx : β) : BusBench β γ where
  listeners := []
  files _ := none
  hostAdapters iface := if iface = "pcan0".toList then some ⟨true, rx⟩ else none

theorem freshBench_ready (rx : β) {nodes : List BusNode}
    (h : ∀ n ∈ nodes, n.owner = .host → n.iface = "pcan0".toList) :
    (freshBench rx : BusBench β γ).Ready nodes := by
  intro n hn ho
  exact ⟨⟨true, rx⟩, if_pos (h n hn ho), rfl⟩

theorem validateTopology_pair :
    (∃ b', CanTopologyValidator.validateTopology 20 (fun _ _ => .ok true)
        ([hostNode, dutNode].map BusNode.text) 123 [1, 2] (freshBench []) = .ok (true, b')) ∧
      ∃ b', UartTopologyValidator.validateTopology 20 (fun _ _ => .ok true)
        ([hostNode, dutNode].map BusNode.text) [1, 2] (freshBench []) = .ok (true, b') := by
  have hready {β γ : Type} (rx : β) : (freshBench rx : BusBench β γ).Ready [hostNode, dutNode] :=
    freshBench_ready rx (by decide)
  have hiff := validateTopology_complete_iff (by decide : 0 < 20)
    (by decide) (fun _ _ => .ok true) 123 [1, 2] (hready []) (fun _ _ => .ok true) [1, 2]
    (hready [])
  exact ⟨hiff.1.2 ⟨fun _ _ => ⟨true, rfl, fun _ => rfl⟩, .inl (by decide)⟩,
    hiff.2.2 ⟨fun _ _ => ⟨true, rfl, fun _ => rfl⟩, by decide, .inl (by decide)⟩⟩

/-- With two receivers on the target the first listener is killed while the second is armed. -/
theorem validateTopology_misses_third :
    ∃ (bench : BusBench (List CanFrame) (List Char)) (nodes : List BusNode), nodes.Nodup ∧
      bench.Ready nodes ∧ ¬ ∃ b', CanTopologyValidator.validateTopology 20 (fun _ _ => .ok true)
        (nodes.map BusNode.text) 123 [1, 2] bench = .ok (true, b') := by
  refine ⟨freshBench [], [hostNode, dutNode, secondDutNode], by decide,
    freshBench_ready [] (by decide), ?_⟩
  rintro ⟨b', h⟩
  have hrun : (CanTopologyValidator.validateTopology 20 (fun _ _ => .ok true)
      ([hostNode, dutNode, secondDutNode].map BusNode.text) 123 [1, 2] (freshBench [])).map
        Prod.fst = .ok false := by decide +kernel
  rw [h] at hrun
  cases hrun

end MesCore
