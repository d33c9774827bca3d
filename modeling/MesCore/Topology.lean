import MesCore.Text
import Mathlib.Data.List.Nodup
import Mathlib.Data.List.Perm.Subperm

namespace MesCore
set_option autoImplicit true

inductive TopologyErr
  | valueError (msg : String)
  | keyError (key : List Char)
  | hostAdapterError (msg : String)
  | otherException (msg : String)
  deriving DecidableEq

/-- A listener in the background of the target: it appends what `iface` receives to `log`. -/
structure Listener where
  iface : List Char
  log : List Char
  deriving DecidableEq

/-- An adapter of the host, by what waits in its receive buffer. -/
structure HostAdapter (β : Type) where
  connected : Bool
  rx : β

/-- The listeners and the files of the target, and the adapters of the host. -/
structure BusBench (β γ : Type) where
  listeners : List Listener
  files : List Char → Option γ
  hostAdapters : List Char → Option (HostAdapter β)

/-- What the tests of the kinds of bus differ in: messages `μ`, receive buffers `β`, logs `γ`. -/
structure BusKind (μ β γ : Type) where
  logFile : List Char → List Char
  emptyRx : β
  receive : μ → β → β
  emptyLog : γ
  /-- What the listener on an interface appends to its log. -/
  record : List Char → μ → γ → γ
  /-- The listener ends with the first message (`-n 1`). -/
  once : Bool
  notConnected : String
  expect : μ → HostAdapter β → Except TopologyErr (Bool × HostAdapter β)
  /-- The check of what was read from the log. -/
  captured : μ → γ → Bool

/-- A bus carries a message from a node, or it was not sent, or sending it raised. What it carries
reaches every other node unchanged. -/
abbrev Bus (μ : Type) := List Char → μ → Except TopologyErr Bool

def nodeText (owner iface : List Char) : List Char := owner ++ ':' :: iface

/-- `owner, iface = node.split(':')`. -/
def splitNode (node : List Char) : Except TopologyErr (List Char × List Char) :=
  match node.splitOn ':' with
  | [owner, iface] => .ok (owner, iface)
  | [_] => .error (.valueError "not enough values to unpack (expected 2, got 1)")
  | _ => .error (.valueError "too many values to unpack (expected 2)")

section
variable {μ β γ : Type}

def BusBench.killall (b : BusBench β γ) : BusBench β γ := { b with listeners := [] }

/-- `rm -f`. -/
def BusBench.remove (b : BusBench β γ) (path : List Char) : BusBench β γ :=
  { b with files := Function.update b.files path none }

def BusBench.setAdapter (b : BusBench β γ) (iface : List Char) (a : HostAdapter β) :
    BusBench β γ :=
  { b with hostAdapters := Function.update b.hostAdapters iface (some a) }

def BusBench.adapter (b : BusBench β γ) (iface : List Char) :
    Except TopologyErr (HostAdapter β) :=
  match b.hostAdapters iface with
  | some a => .ok a
  | none => .error (.keyError iface)

variable (k : BusKind μ β γ) (bus : Bus μ)

/-- The redirection makes an empty log before the listener runs. -/
def BusBench.spawn (b : BusBench β γ) (l : Listener) : BusBench β γ :=
  { b with
    listeners := b.listeners ++ [l]
    files := Function.update b.files l.log (some k.emptyLog) }

/-- `clear_rx_buffer`. -/
def BusKind.clearRxBuffer (a : HostAdapter β) : HostAdapter β :=
  if a.connected then { a with rx := k.emptyRx } else a

/-- A message reaches every listener that runs and every connected adapter but its sender's. -/
def BusBench.deliver (b : BusBench β γ) (txNode : List Char) (msg : μ) : BusBench β γ :=
  let hears (l : Listener) : Bool := nodeText "dut".toList l.iface ≠ txNode
  { listeners := if k.once then b.listeners.filter fun l => !hears l else b.listeners
    files := (b.listeners.filter hears).foldl (fun files l =>
      Function.update files l.log ((files l.log).map (k.record l.iface msg))) b.files
    hostAdapters := fun iface => (b.hostAdapters iface).map fun a =>
      if a.connected ∧ nodeText "host".toList iface ≠ txNode then
        { a with rx := k.receive msg a.rx }
      else a }

def BusBench.transmit (b : BusBench β γ) (txNode : List Char) (msg : μ) :
    Except TopologyErr (BusBench β γ) := do
  let sent ← bus txNode msg
  pure (if sent then b.deliver k txNode msg else b)

def armListener (b : BusBench β γ) (rx : List Char) : Except TopologyErr (BusBench β γ) := do
  let (owner, iface) ← splitNode rx
  if owner = "host".toList then do
    let a ← b.adapter iface
    pure (b.setAdapter iface (k.clearRxBuffer a))
  else if owner = "dut".toList then
    pure ((b.killall.remove (k.logFile iface)).spawn k ⟨iface, k.logFile iface⟩)
  else pure b

def fireTx (txNode : List Char) (msg : μ) (b : BusBench β γ) :
    Except TopologyErr (BusBench β γ) := do
  let (owner, iface) ← splitNode txNode
  if owner = "host".toList then do
    let a ← b.adapter iface
    if a.connected then b.transmit k bus txNode msg
    else .error (.hostAdapterError k.notConnected)
  else if owner = "dut".toList then b.transmit k bus txNode msg
  else pure b

/-- Whether one receiver captured the message. A log that is missing reads as an empty one. -/
def reapResult (msg : μ) (b : BusBench β γ) (rx : List Char) :
    Except TopologyErr (Bool × BusBench β γ) := do
  let (owner, iface) ← splitNode rx
  if owner = "host".toList then do
    let a ← b.adapter iface
    let (passed, a) ← k.expect msg a
    pure (passed, b.setAdapter iface a)
  else if owner = "dut".toList then
    pure (k.captured msg ((b.files (k.logFile iface)).getD k.emptyLog), b.killall)
  else pure (true, b)

def reapAll (msg : μ) : List (List Char) → Bool → BusBench β γ →
    Except TopologyErr (Bool × BusBench β γ)
  | [], allPassed, b => pure (allPassed, b)
  | rx :: rxNodes, allPassed, b => do
    let (passed, b) ← reapResult k msg b rx
    reapAll msg rxNodes (allPassed && passed) b

/-- `_fire_and_reap`. -/
def fireAndReap (txNode : List Char) (rxNodes : List (List Char)) (msg : μ) (b : BusBench β γ) :
    Except TopologyErr (Bool × BusBench β γ) := do
  let b ← rxNodes.foldlM (armListener k) b
  let b ← fireTx k bus txNode msg b
  reapAll k msg rxNodes true b

/-- The round robin of `validate_topology`, over the nodes that have not sent yet. `message` is
the one of a pass, where making it may raise. -/
def roundRobin (nodes : List (List Char)) (message : Nat → Except TopologyErr μ) :
    Nat → List (List Char) → Bool → BusBench β γ → Except TopologyErr (Bool × BusBench β γ)
  | _, [], allPassed, b => pure (allPassed, b)
  | index, txNode :: rest, allPassed, b => do
    let msg ← message index
    let (passed, b) ← fireAndReap k bus txNode (nodes.filter (· ≠ txNode)) msg b
    roundRobin nodes message (index + 1) rest (allPassed && passed) b

end

inductive Owner
  | host
  | dut
  deriving DecidableEq

def Owner.name : Owner → List Char
  | .host => "host".toList
  | .dut => "dut".toList

/-- A node of a topology. Its interface is a plain word, for the shell too. -/
structure BusNode where
  owner : Owner
  iface : List Char
  plain : ':' ∉ iface
  deriving DecidableEq

def BusNode.text (n : BusNode) : List Char := nodeText n.owner.name n.iface

theorem splitNode_text (n : BusNode) : splitNode n.text = .ok (n.owner.name, n.iface) := by
  have hname : ':' ∉ n.owner.name := by
    cases n.owner <;> decide
  rw [splitNode, BusNode.text, nodeText, List.splitOn_append_cons_self,
    List.splitOn_eq_singleton hname, List.splitOn_eq_singleton n.plain]
  rfl

theorem BusNode.text_injective : Function.Injective BusNode.text := by
  intro m n h
  have hsplit := (splitNode_text m).symm.trans ((congrArg splitNode h).trans (splitNode_text n))
  obtain ⟨howner, hiface⟩ := Prod.mk.inj (Except.ok.inj hsplit)
  obtain ⟨mo, mi, hm⟩ := m
  obtain ⟨no, ni, hn⟩ := n
  cases hiface
  cases mo <;> cases no <;> first | rfl | cases howner

section
variable {μ β γ : Type} {k : BusKind μ β γ} {bus : Bus μ} {b b' b'' : BusBench β γ} {n tx : BusNode}
  {msg : μ}

/-- The adapters that are connected stay there and connected. -/
def BusBench.Kept (b b' : BusBench β γ) : Prop :=
  ∀ i a, b.hostAdapters i = some a → a.connected = true →
    ∃ a', b'.hostAdapters i = some a' ∧ a'.connected = true

/-- Every host node has its adapter, connected. -/
def BusBench.Ready (b : BusBench β γ) (nodes : List BusNode) : Prop :=
  ∀ n ∈ nodes, n.owner = .host → ∃ a, b.hostAdapters n.iface = some a ∧ a.connected = true

theorem BusBench.Kept.refl (b : BusBench β γ) : b.Kept b := fun _ a h hc => ⟨a, h, hc⟩

theorem BusBench.Kept.trans (h : b.Kept b') (h' : b'.Kept b'') : b.Kept b'' := by
  intro i a ha hc
  obtain ⟨a', ha', hc'⟩ := h i a ha hc
  exact h' i a' ha' hc'

theorem BusBench.Kept.ready {nodes : List BusNode} (h : b.Kept b') (hr : b.Ready nodes) :
    b'.Ready nodes := by
  intro n hn ho
  obtain ⟨a, ha, hc⟩ := hr n hn ho
  exact h n.iface a ha hc

theorem BusBench.kept_setAdapter {iface : List Char} {a : HostAdapter β}
    (hc : a.connected = true) : b.Kept (b.setAdapter iface a) := by
  intro i a₀ ha₀ hc₀
  by_cases hi : i = iface
  · subst hi
    exact ⟨a, Function.update_self .., hc⟩
  · exact ⟨a₀, (Function.update_of_ne hi ..).trans ha₀, hc₀⟩

theorem BusBench.kept_deliver : b.Kept (b.deliver k tx.text msg) := by
  intro i a ha hc
  refine ⟨_, congrArg (Option.map _) ha, ?_⟩
  dsimp only
  split
  · exact hc
  · exact hc

theorem BusBench.adapter_eq {iface : List Char} {a : HostAdapter β}
    (h : b.hostAdapters iface = some a) : b.adapter iface = .ok a := by
  rw [adapter, h]

theorem clearRxBuffer_connected {a : HostAdapter β} (hc : a.connected = true) :
    k.clearRxBuffer a = ⟨true, k.emptyRx⟩ := by
  rw [BusKind.clearRxBuffer, if_pos hc, hc]

theorem armListener_host (hn : n.owner = .host) {a : HostAdapter β}
    (ha : b.hostAdapters n.iface = some a) (hc : a.connected = true) :
    armListener k b n.text = .ok (b.setAdapter n.iface ⟨true, k.emptyRx⟩) := by
  rw [armListener, splitNode_text, hn]
  change (b.adapter n.iface >>= fun a => pure (b.setAdapter n.iface (k.clearRxBuffer a))) = _
  rw [BusBench.adapter_eq ha, ← clearRxBuffer_connected hc]
  rfl

def BusKind.listener (k : BusKind μ β γ) (n : BusNode) : Listener := ⟨n.iface, k.logFile n.iface⟩

theorem armListener_dut (hn : n.owner = .dut) :
    armListener k b n.text =
      .ok ((b.killall.remove (k.logFile n.iface)).spawn k (k.listener n)) := by
  rw [armListener, splitNode_text, hn]
  rfl

/-- The last of the target's receivers, whose listener is the only one left. -/
def lastDut (rxs : List BusNode) : Option BusNode := (rxs.filter (·.owner = .dut)).getLast?

/-- After a pass has armed its receivers. -/
structure Armed (k : BusKind μ β γ) (rxs : List BusNode) (b b' : BusBench β γ) : Prop where
  kept : b.Kept b'
  hosts : ∀ n ∈ rxs, n.owner = .host → b'.hostAdapters n.iface = some ⟨true, k.emptyRx⟩
  logs : ∀ n ∈ rxs, n.owner = .dut → b'.files (k.logFile n.iface) = some k.emptyLog
  listening : ∀ n, lastDut rxs = some n → b'.listeners = [k.listener n]

theorem Armed.snoc_host {rxs : List BusNode} {a : HostAdapter β} (h : Armed k rxs b b')
    (hn : n.owner = .host) (hc : a = ⟨true, k.emptyRx⟩) :
    Armed k (rxs ++ [n]) b (b'.setAdapter n.iface a) where
  kept := h.kept.trans (BusBench.kept_setAdapter (by rw [hc]))
  hosts := by
    intro m hm ho
    by_cases hi : m.iface = n.iface
    · exact (congrArg _ hi).trans ((Function.update_self ..).trans (congrArg some hc))
    · refine (Function.update_of_ne hi ..).trans (h.hosts m ?_ ho)
      rcases List.mem_append.1 hm with hm | hm
      · exact hm
      · exact (hi (congrArg BusNode.iface (List.mem_singleton.1 hm))).elim
  logs := by
    intro m hm ho
    refine h.logs m ?_ ho
    rcases List.mem_append.1 hm with hm | hm
    · exact hm
    · rw [List.mem_singleton.1 hm, hn] at ho
      cases ho
  listening := by
    intro m hm
    refine h.listening m ?_
    rw [lastDut, List.filter_append, List.filter_singleton] at hm
    simpa [hn, lastDut] using hm

theorem Armed.snoc_dut {rxs : List BusNode} (h : Armed k rxs b b') (hn : n.owner = .dut) :
    Armed k (rxs ++ [n]) b ((b'.killall.remove (k.logFile n.iface)).spawn k (k.listener n)) where
  kept := h.kept
  hosts := by
    intro m hm ho
    refine h.hosts m ?_ ho
    rcases List.mem_append.1 hm with hm | hm
    · exact hm
    · rw [List.mem_singleton.1 hm, hn] at ho
      cases ho
  logs := by
    intro m hm ho
    by_cases hlog : k.logFile m.iface = k.logFile n.iface
    · exact (congrArg _ hlog).trans (Function.update_self ..)
    · refine (Function.update_of_ne hlog ..).trans
        ((Function.update_of_ne hlog ..).trans (h.logs m ?_ ho))
      rcases List.mem_append.1 hm with hm | hm
      · exact hm
      · exact (hlog (congrArg (fun m => k.logFile m.iface) (List.mem_singleton.1 hm))).elim
  listening := by
    intro m hm
    rw [lastDut, List.filter_append, List.filter_singleton, hn] at hm
    have hlast : n = m := by simpa using hm
    rw [← hlast]
    rfl

theorem arm_all (rxs : List BusNode) (hr : b.Ready rxs) :
    ∃ b', (rxs.map BusNode.text).foldlM (armListener k) b = .ok b' ∧ Armed k rxs b b' := by
  induction rxs using List.reverseRecOn with
  | nil =>
    refine ⟨b, rfl, .refl b, by simp, by simp, ?_⟩
    intro n hn
    cases hn
  | append_singleton rxs n ih =>
    obtain ⟨b', hb', harmed⟩ := ih fun m hm => hr m (List.mem_append_left _ hm)
    rw [List.map_append, List.foldlM_append, hb']
    cases hn : n.owner with
    | host =>
      obtain ⟨a, ha, hc⟩ := hr n (List.mem_append_right _ (List.mem_singleton_self n)) hn
      obtain ⟨a', ha', hc'⟩ := harmed.kept n.iface a ha hc
      refine ⟨_, ?_, harmed.snoc_host hn rfl⟩
      simp only [List.map_cons, List.map_nil, List.foldlM_cons, List.foldlM_nil,
        armListener_host hn ha' hc', bind, Except.bind, pure, Except.pure]
    | dut =>
      refine ⟨_, ?_, harmed.snoc_dut hn⟩
      simp only [List.map_cons, List.map_nil, List.foldlM_cons, List.foldlM_nil,
        armListener_dut hn, bind, Except.bind, pure, Except.pure]

theorem BusNode.ext_iface {m : BusNode} (ho : m.owner = n.owner) (hi : m.iface = n.iface) :
    m = n := by
  cases m
  cases n
  cases ho
  cases hi
  rfl

theorem fireTx_eq (hr : b.Ready [tx]) :
    fireTx k bus tx.text msg b = b.transmit k bus tx.text msg := by
  rw [fireTx, splitNode_text]
  cases ho : tx.owner with
  | dut => rfl
  | host =>
    obtain ⟨a, ha, hc⟩ := hr tx (List.mem_singleton_self tx) ho
    change (b.adapter tx.iface >>= fun a =>
      if a.connected then b.transmit k bus tx.text msg
      else .error (.hostAdapterError k.notConnected)) = _
    rw [BusBench.adapter_eq ha]
    exact if_pos hc

theorem deliver_host (hn : n.owner = .host) (hne : n ≠ tx) {a : HostAdapter β}
    (ha : b.hostAdapters n.iface = some a) (hc : a.connected = true) :
    (b.deliver k tx.text msg).hostAdapters n.iface = some { a with rx := k.receive msg a.rx } := by
  have htext : nodeText "host".toList n.iface ≠ tx.text := by
    intro h
    refine hne (BusNode.text_injective ?_)
    rw [← h, BusNode.text, hn]
    rfl
  refine (congrArg (Option.map _) ha).trans ?_
  rw [Option.map_some, if_pos ⟨hc, htext⟩]

theorem deliver_log {l : BusNode} (hl : l.owner = .dut) (hne : l ≠ tx)
    (hlistening : b.listeners = [k.listener l]) (f : List Char) :
    (b.deliver k tx.text msg).files f =
      if k.logFile l.iface = f then (b.files f).map (k.record l.iface msg) else b.files f := by
  have htext : nodeText "dut".toList l.iface ≠ tx.text := by
    intro h
    refine hne (BusNode.text_injective ?_)
    rw [← h, BusNode.text, hl]
    rfl
  have hheard : b.listeners.filter (fun l => nodeText "dut".toList l.iface ≠ tx.text) =
      [k.listener l] := by
    rw [hlistening]
    exact List.filter_cons_of_pos (decide_eq_true htext)
  rw [BusBench.deliver]
  dsimp only
  rw [hheard, List.foldl_cons, List.foldl_nil]
  by_cases hf : f = k.logFile l.iface
  · subst hf
    rw [if_pos rfl]
    exact Function.update_self ..
  · rw [if_neg (Ne.symm hf)]
    exact Function.update_of_ne hf ..

/-- What one receiver of a pass will say. -/
inductive Reaped (k : BusKind μ β γ) (msg : μ) (b : BusBench β γ) (n : BusNode) : Bool → Prop
  | host (hn : n.owner = .host) {a a' : HostAdapter β} {passed : Bool}
      (ha : b.hostAdapters n.iface = some a) (hexpect : k.expect msg a = .ok (passed, a'))
      (hc : a'.connected = true) : Reaped k msg b n passed
  | dut (hn : n.owner = .dut) :
      Reaped k msg b n (k.captured msg ((b.files (k.logFile n.iface)).getD k.emptyLog))

theorem Reaped.reap {passed : Bool} (h : Reaped k msg b n passed) :
    ∃ b', reapResult k msg b n.text = .ok (passed, b') ∧ b.Kept b' ∧ b'.files = b.files ∧
      ∀ i, (n.owner = .host → i ≠ n.iface) → b'.hostAdapters i = b.hostAdapters i := by
  cases h with
  | @host hn a a' _ ha hexpect hc =>
    refine ⟨b.setAdapter n.iface a', ?_, BusBench.kept_setAdapter hc, rfl, fun i hi =>
      Function.update_of_ne (hi hn) ..⟩
    rw [reapResult, splitNode_text, hn]
    change (b.adapter n.iface >>= fun a => k.expect msg a >>= fun r =>
      pure (r.1, b.setAdapter n.iface r.2)) = _
    rw [BusBench.adapter_eq ha]
    change (k.expect msg a >>= fun r => pure (r.1, b.setAdapter n.iface r.2)) = _
    rw [hexpect]
    rfl
  | dut hn =>
    refine ⟨b.killall, ?_, .refl b, rfl, fun _ _ => rfl⟩
    rw [reapResult, splitNode_text, hn]
    rfl

theorem Reaped.other {m : BusNode} {passed : Bool} (h : Reaped k msg b m passed) (hne : m ≠ n)
    (hfiles : b'.files = b.files)
    (hhosts : ∀ i, (n.owner = .host → i ≠ n.iface) → b'.hostAdapters i = b.hostAdapters i) :
    Reaped k msg b' m passed := by
  cases h with
  | host hm ha hexpect hc =>
    refine .host hm ((hhosts m.iface ?_).trans ha) hexpect hc
    exact fun hn hi => hne (BusNode.ext_iface (hm.trans hn.symm) hi)
  | dut hm =>
    rw [← hfiles]
    exact .dut hm

theorem reapAll_eq (v : BusNode → Bool) (rxs : List BusNode) (hnodup : rxs.Nodup) (all : Bool)
    (h : ∀ n ∈ rxs, Reaped k msg b n (v n)) :
    ∃ b', reapAll k msg (rxs.map BusNode.text) all b = .ok (all && rxs.all v, b') ∧ b.Kept b' := by
  induction rxs generalizing b all with
  | nil =>
    refine ⟨b, ?_, .refl b⟩
    rw [List.all_nil, Bool.and_true]
    rfl
  | cons n rxs ih =>
    obtain ⟨hnot, hnodup⟩ := List.nodup_cons.1 hnodup
    obtain ⟨b₁, hreap, hkept, hfiles, hhosts⟩ := (h n List.mem_cons_self).reap
    have hrest : ∀ m ∈ rxs, Reaped k msg b₁ m (v m) := by
      intro m hm
      refine (h m (List.mem_cons_of_mem n hm)).other ?_ hfiles hhosts
      rintro rfl
      exact hnot hm
    obtain ⟨b₂, hall, hkept'⟩ := ih hnodup (all && v n) hrest
    refine ⟨b₂, ?_, hkept.trans hkept'⟩
    rw [List.map_cons, reapAll, hreap, List.all_cons, ← Bool.and_assoc, ← hall]
    rfl

/-- What the tools of a kind of bus do with a message that comes through, and with none. -/
structure BusKind.Faithful (k : BusKind μ β γ) (msg : μ) : Prop where
  expect_sent : ∃ rx, k.expect msg ⟨true, k.receive msg k.emptyRx⟩ = .ok (true, ⟨true, rx⟩)
  expect_lost : ∃ rx, k.expect msg ⟨true, k.emptyRx⟩ = .ok (false, ⟨true, rx⟩)
  captured_sent : ∀ iface, k.captured msg (k.record iface msg k.emptyLog) = true
  captured_lost : k.captured msg k.emptyLog = false

/-- A receiver of the target is served by the listener that was armed last if it has its log. -/
def heard (k : BusKind μ β γ) (rxs : List BusNode) (n : BusNode) : Bool :=
  match n.owner with
  | .host => true
  | .dut => (lastDut rxs).any fun l => k.logFile l.iface = k.logFile n.iface

theorem lastDut_spec {rxs : List BusNode} (hn : n ∈ rxs) (ho : n.owner = .dut) :
    ∃ l ∈ rxs, l.owner = .dut ∧ lastDut rxs = some l := by
  have hmem : n ∈ rxs.filter (·.owner = .dut) := List.mem_filter.2 ⟨hn, decide_eq_true ho⟩
  have hlast := List.getLast?_eq_some_getLast (List.ne_nil_of_mem hmem)
  obtain ⟨hl, hlo⟩ := List.mem_filter.1 (List.mem_of_getLast? hlast)
  exact ⟨_, hl, of_decide_eq_true hlo, hlast⟩

theorem Armed.reaped {rxs : List BusNode} (h : Armed k rxs b b') (hf : k.Faithful msg)
    (hne : tx ∉ rxs) (sent : Bool) (hn : n ∈ rxs) :
    Reaped k msg (if sent then b'.deliver k tx.text msg else b') n (sent && heard k rxs n) := by
  have hntx : ∀ m ∈ rxs, m ≠ tx := fun m hm he => hne (he ▸ hm)
  cases ho : n.owner with
  | host =>
    have hrx := h.hosts n hn ho
    rw [heard, ho, Bool.and_true]
    cases sent with
    | false =>
      obtain ⟨rx, hexpect⟩ := hf.expect_lost
      exact .host ho hrx hexpect rfl
    | true =>
      obtain ⟨rx, hexpect⟩ := hf.expect_sent
      exact .host ho (deliver_host ho (hntx n hn) hrx rfl) hexpect rfl
  | dut =>
    have hlog := h.logs n hn ho
    cases sent with
    | false =>
      have hreaped : Reaped k msg b' n _ := .dut ho
      rw [hlog, Option.getD_some, hf.captured_lost] at hreaped
      exact hreaped
    | true =>
      obtain ⟨l, hl, hlo, hlast⟩ := lastDut_spec hn ho
      have hdelivered : (b'.deliver k tx.text msg).files (k.logFile n.iface) = _ :=
        deliver_log hlo (hntx l hl) (h.listening l hlast) (k.logFile n.iface)
      have hreaped : Reaped k msg (b'.deliver k tx.text msg) n _ := .dut ho
      rw [hdelivered, hlog] at hreaped
      rw [heard, ho, hlast, Option.any_some]
      by_cases hsame : k.logFile l.iface = k.logFile n.iface
      · rw [if_pos hsame, Option.map_some, Option.getD_some, hf.captured_sent] at hreaped
        rw [decide_eq_true hsame]
        exact hreaped
      · rw [if_neg hsame, Option.getD_some, hf.captured_lost] at hreaped
        rw [decide_eq_false hsame]
        exact hreaped

theorem fireAndReap_armed {rxs : List BusNode} (hr : b.Ready (tx :: rxs)) :
    ∃ b₁, Armed k rxs b b₁ ∧ fireAndReap k bus tx.text (rxs.map BusNode.text) msg b =
      b₁.transmit k bus tx.text msg >>= reapAll k msg (rxs.map BusNode.text) true := by
  obtain ⟨b₁, harm, harmed⟩ := arm_all (k := k) rxs fun n hn => hr n (List.mem_cons_of_mem tx hn)
  have hready : b₁.Ready [tx] := by
    refine harmed.kept.ready fun n hn => hr n ?_
    rw [List.mem_singleton.1 hn]
    exact List.mem_cons_self
  refine ⟨b₁, harmed, ?_⟩
  rw [fireAndReap, harm, ← fireTx_eq hready]
  rfl

theorem fireAndReap_sent {rxs : List BusNode} {sent : Bool} (hf : k.Faithful msg)
    (hr : b.Ready (tx :: rxs)) (hnodup : rxs.Nodup) (hne : tx ∉ rxs)
    (hsent : bus tx.text msg = .ok sent) :
    ∃ b', fireAndReap k bus tx.text (rxs.map BusNode.text) msg b =
      .ok (rxs.all fun n => sent && heard k rxs n, b') ∧ b.Kept b' := by
  obtain ⟨b₁, harmed, heq⟩ := fireAndReap_armed hr
  obtain ⟨b₂, hreap, hkept⟩ := reapAll_eq (fun n => sent && heard k rxs n) rxs hnodup true
    fun n hn => harmed.reaped hf hne sent hn
  refine ⟨b₂, ?_, ?_⟩
  · rw [heq, BusBench.transmit, hsent]
    exact hreap
  · have hfired : b₁.Kept (if sent then b₁.deliver k tx.text msg else b₁) := by
      split
      · exact BusBench.kept_deliver
      · exact .refl b₁
    exact harmed.kept.trans (hfired.trans hkept)

theorem fireAndReap_raise {rxs : List BusNode} {e : TopologyErr} (hr : b.Ready (tx :: rxs))
    (hraise : bus tx.text msg = .error e) :
    fireAndReap k bus tx.text (rxs.map BusNode.text) msg b = .error e := by
  obtain ⟨b₁, -, heq⟩ := fireAndReap_armed hr
  rw [heq, BusBench.transmit, hraise]
  rfl

/-- A pass in which the message gets onto the bus and the target's receivers share one log. -/
def PassClean (k : BusKind μ β γ) (bus : Bus μ) (tx : BusNode) (rxs : List BusNode) (msg : μ) :
    Prop :=
  ∃ sent, bus tx.text msg = .ok sent ∧ (rxs ≠ [] → sent = true) ∧
    ∀ m ∈ rxs, ∀ n ∈ rxs, m.owner = .dut → n.owner = .dut →
      k.logFile m.iface = k.logFile n.iface

theorem all_heard_iff {rxs : List BusNode} {sent : Bool} :
    (rxs.all fun n => sent && heard k rxs n) = true ↔
      (rxs ≠ [] → sent = true) ∧ ∀ m ∈ rxs, ∀ n ∈ rxs, m.owner = .dut → n.owner = .dut →
        k.logFile m.iface = k.logFile n.iface := by
  have hshared {n : BusNode} (ho : n.owner = .dut) (hh : heard k rxs n = true) :
      ∃ l, lastDut rxs = some l ∧ k.logFile l.iface = k.logFile n.iface := by
    rw [heard, ho, Option.any_eq_true_iff_get] at hh
    obtain ⟨hsome, hlog⟩ := hh
    exact ⟨_, Option.some_get hsome |>.symm, of_decide_eq_true hlog⟩
  simp only [List.all_eq_true, Bool.and_eq_true]
  constructor
  · intro h
    refine ⟨fun hne => ?_, fun m hm n hn hmo hno => ?_⟩
    · obtain ⟨n, hn⟩ := List.exists_mem_of_ne_nil rxs hne
      exact (h n hn).1
    · obtain ⟨l, hl, hlm⟩ := hshared hmo (h m hm).2
      obtain ⟨l', hl', hln⟩ := hshared hno (h n hn).2
      cases hl.symm.trans hl'
      exact hlm.symm.trans hln
  · rintro ⟨hsent, hlogs⟩ n hn
    refine ⟨hsent (List.ne_nil_of_mem hn), ?_⟩
    cases ho : n.owner with
    | host => rw [heard, ho]
    | dut =>
      obtain ⟨l, hl, hlo, hlast⟩ := lastDut_spec hn ho
      rw [heard, ho, hlast]
      exact decide_eq_true (hlogs l hl n hn hlo ho)

theorem filter_texts (nodes : List BusNode) (tx : BusNode) :
    (nodes.map BusNode.text).filter (· ≠ tx.text) = (nodes.filter (· ≠ tx)).map BusNode.text := by
  rw [List.filter_map]
  refine congrArg _ (List.filter_congr fun n _ => ?_)
  exact decide_eq_decide.2 (not_congr BusNode.text_injective.eq_iff)

theorem roundRobin_iff {nodes : List BusNode} {message : Nat → Except TopologyErr μ}
    (hnodup : nodes.Nodup) (hf : ∀ i msg, message i = .ok msg → k.Faithful msg)
    (rest : List BusNode) (hrest : rest ⊆ nodes) (hr : b.Ready nodes) (index : Nat) (all : Bool) :
    (∃ b', roundRobin k bus (nodes.map BusNode.text) message index (rest.map BusNode.text) all b =
        .ok (true, b')) ↔
      all = true ∧ ∀ j (h : j < rest.length), ∃ msg, message (index + j) = .ok msg ∧
        PassClean k bus rest[j] (nodes.filter (· ≠ rest[j])) msg := by
  induction rest generalizing b index all with
  | nil =>
    constructor
    · rintro ⟨b', h⟩
      cases h
      exact ⟨rfl, fun j h => (Nat.not_lt_zero j h).elim⟩
    · rintro ⟨rfl, -⟩
      exact ⟨b, rfl⟩
  | cons tx rest ih =>
    have hsub : rest ⊆ nodes := fun n hn => hrest (List.mem_cons_of_mem tx hn)
    have hready : b.Ready (tx :: nodes.filter (· ≠ tx)) := by
      intro n hn
      rcases List.mem_cons.1 hn with rfl | hn
      · exact hr _ (hrest List.mem_cons_self)
      · exact hr n (List.mem_of_mem_filter hn)
    have hother : tx ∉ nodes.filter (· ≠ tx) := fun h =>
      of_decide_eq_true (List.mem_filter.1 h).2 rfl
    rw [List.map_cons, roundRobin, filter_texts]
    cases hmsg : message index with
    | error e =>
      refine iff_of_false ?_ ?_
      · rintro ⟨b', h⟩
        cases h
      · rintro ⟨-, h⟩
        obtain ⟨msg, hok, -⟩ := h 0 (Nat.zero_lt_succ _)
        cases hmsg.symm.trans hok
    | ok msg =>
      change (∃ b', (fireAndReap k bus tx.text ((nodes.filter (· ≠ tx)).map BusNode.text) msg b >>=
        fun r => roundRobin k bus (nodes.map BusNode.text) message (index + 1)
          (rest.map BusNode.text) (all && r.1) r.2) = _) ↔ _
      cases hsent : bus tx.text msg with
      | error e =>
        rw [fireAndReap_raise hready hsent]
        refine iff_of_false ?_ ?_
        · rintro ⟨b', h⟩
          cases h
        · rintro ⟨-, h⟩
          obtain ⟨msg', hok, sent, hok', -⟩ := h 0 (Nat.zero_lt_succ _)
          cases hmsg.symm.trans hok
          cases hsent.symm.trans hok'
      | ok sent =>
        obtain ⟨b₁, hpass, hkept⟩ := fireAndReap_sent (hf index msg hmsg) hready
          (hnodup.filter _) hother hsent
        rw [hpass]
        refine (ih hsub (hkept.ready hr) (index + 1) _).trans ?_
        rw [Bool.and_eq_true, all_heard_iff]
        constructor
        · rintro ⟨⟨hall, hclean⟩, h⟩
          refine ⟨hall, fun j hj => ?_⟩
          cases j with
          | zero => exact ⟨msg, hmsg, sent, hsent, hclean⟩
          | succ j =>
            obtain ⟨msg', hmsg', hclean'⟩ := h j (Nat.lt_of_succ_lt_succ hj)
            exact ⟨msg', (congrArg message (Nat.succ_add_eq_add_succ index j)).symm.trans hmsg',
              hclean'⟩
        · rintro ⟨hall, h⟩
          obtain ⟨msg', hok, sent', hok', hclean⟩ := h 0 (Nat.zero_lt_succ _)
          cases hmsg.symm.trans hok
          cases hsent.symm.trans hok'
          refine ⟨⟨hall, hclean⟩, fun j hj => ?_⟩
          obtain ⟨msg', hmsg', hclean'⟩ := h (j + 1) (Nat.succ_lt_succ hj)
          exact ⟨msg', (congrArg message (Nat.succ_add_eq_add_succ index j)).trans hmsg', hclean'⟩

end

section
variable {μ β γ : Type} {k : BusKind μ β γ} {bus : Bus μ} {nodes : List BusNode}

theorem exists_third (hnodup : nodes.Nodup) (hlen : 2 < nodes.length) (m n : BusNode) :
    ∃ tx ∈ nodes, tx ≠ m ∧ tx ≠ n := by
  by_contra hno
  have hsub : nodes ⊆ [m, n] := by
    intro tx htx
    by_contra hne
    refine hno ⟨tx, htx, ?_, ?_⟩
    · rintro rfl
      exact hne List.mem_cons_self
    · rintro rfl
      exact hne (List.mem_cons_of_mem _ List.mem_cons_self)
  have hle := (List.subperm_of_subset hnodup hsub).length_le
  simp only [List.length_cons, List.length_nil] at hle
  omega

theorem shared_iff (hnodup : nodes.Nodup) (P : BusNode → BusNode → Prop) (hP : ∀ n, P n n) :
    (∀ tx ∈ nodes, ∀ m ∈ nodes.filter (· ≠ tx), ∀ n ∈ nodes.filter (· ≠ tx), P m n) ↔
      nodes.length ≤ 2 ∨ ∀ m ∈ nodes, ∀ n ∈ nodes, P m n := by
  have hmem {tx n : BusNode} : n ∈ nodes.filter (· ≠ tx) ↔ n ∈ nodes ∧ n ≠ tx := by
    rw [List.mem_filter, decide_eq_true_iff]
  constructor
  · intro h
    by_cases hlen : nodes.length ≤ 2
    · exact .inl hlen
    · refine .inr fun m hm n hn => ?_
      obtain ⟨tx, htx, hne, hne'⟩ := exists_third hnodup (Nat.lt_of_not_le hlen) m n
      exact h tx htx m (hmem.2 ⟨hm, hne.symm⟩) n (hmem.2 ⟨hn, hne'.symm⟩)
  · rintro (hlen | hall) tx htx m hm n hn
    · -- one of the two sends, so there is one receiver
      by_cases hmn : m = n
      · exact hmn ▸ hP m
      · obtain ⟨hm, hmtx⟩ := hmem.1 hm
        obtain ⟨hn, hntx⟩ := hmem.1 hn
        have hthree : [tx, m, n].Nodup := by
          simp [Ne.symm hmtx, Ne.symm hntx, hmn]
        have hsub : [tx, m, n] ⊆ nodes := by
          simp [htx, hm, hn]
        have hle := (List.subperm_of_subset hthree hsub).length_le
        simp only [List.length_cons, List.length_nil] at hle
        omega
    · exact hall m (hmem.1 hm).1 n (hmem.1 hn).1

/-- The messages get onto the bus. -/
def AllSent (bus : Bus μ) (message : Nat → Except TopologyErr μ) (nodes : List BusNode) : Prop :=
  ∀ i (h : i < nodes.length), ∃ msg sent, message i = .ok msg ∧ bus nodes[i].text msg = .ok sent ∧
    (2 ≤ nodes.length → sent = true)

/-- All nodes of the target share one log. -/
def SharedLog (k : BusKind μ β γ) (nodes : List BusNode) : Prop :=
  ∀ m ∈ nodes, ∀ n ∈ nodes, m.owner = .dut → n.owner = .dut →
    k.logFile m.iface = k.logFile n.iface

theorem receivers_ne_nil_iff (hnodup : nodes.Nodup) {tx : BusNode} (htx : tx ∈ nodes) :
    nodes.filter (· ≠ tx) ≠ [] ↔ 2 ≤ nodes.length := by
  have hsplit := List.length_eq_length_filter_add (l := nodes) (fun n => decide (n ≠ tx))
  have hone : (nodes.filter fun n => !decide (n ≠ tx)).length = 1 := by
    have hcount := List.count_eq_one_of_mem hnodup htx
    rw [List.count, List.countP_eq_length_filter] at hcount
    rw [← hcount]
    refine congrArg List.length (List.filter_congr fun n _ => ?_)
    by_cases h : n = tx <;> simp [h]
  rw [hone] at hsplit
  rw [ne_eq, ← List.length_eq_zero_iff]
  omega

theorem topology_iff {message : Nat → Except TopologyErr μ} {b : BusBench β γ}
    (hnodup : nodes.Nodup) (hf : ∀ i msg, message i = .ok msg → k.Faithful msg)
    (hr : b.Ready nodes) :
    (∃ b', roundRobin k bus (nodes.map BusNode.text) message 0 (nodes.map BusNode.text) true b =
        .ok (true, b')) ↔
      AllSent bus message nodes ∧ (nodes.length ≤ 2 ∨ SharedLog k nodes) := by
  rw [roundRobin_iff hnodup hf nodes (List.Subset.refl nodes) hr]
  have hshared := shared_iff hnodup (fun m n => m.owner = .dut → n.owner = .dut →
    k.logFile m.iface = k.logFile n.iface) fun _ _ _ => rfl
  rw [SharedLog, ← hshared]
  constructor
  · rintro ⟨-, h⟩
    refine ⟨fun i hi => ?_, fun tx htx => ?_⟩
    · obtain ⟨msg, hmsg, sent, hsent, hall, -⟩ := h i hi
      rw [Nat.zero_add] at hmsg
      exact ⟨msg, sent, hmsg, hsent, fun hlen =>
        hall ((receivers_ne_nil_iff hnodup (List.getElem_mem hi)).2 hlen)⟩
    · obtain ⟨i, hi, rfl⟩ := List.mem_iff_getElem.1 htx
      obtain ⟨msg, -, sent, -, -, hlogs⟩ := h i hi
      exact hlogs
  · rintro ⟨hsent, hlogs⟩
    refine ⟨rfl, fun i hi => ?_⟩
    obtain ⟨msg, sent, hmsg, hbus, hall⟩ := hsent i hi
    refine ⟨msg, (Nat.zero_add i).symm ▸ hmsg, sent, hbus, fun hne => ?_, ?_⟩
    · exact hall ((receivers_ne_nil_iff hnodup (List.getElem_mem hi)).1 hne)
    · exact hlogs nodes[i] (List.getElem_mem hi)

end

end MesCore
