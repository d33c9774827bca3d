import MesCore.Decoding
import MesCore.Runs

namespace MesCore
set_option autoImplicit true

inductive OpenOcdErr
  | provisioningError (msg : String)
  | imageVerificationError (msg : String)
  | siliconLockError (msg : String)
  | timeoutError
  | osError (msg : String)
  deriving DecidableEq

/-- Where `provision` is. Behind a command come those that are still to be sent. -/
inductive OpenOcdPc
  | entered
  | connecting
  | banner
  | sending (rest : List String)
  | reading (rest : List String)
  | done
  | left (e : OpenOcdErr)
  deriving DecidableEq

structure OpenOcdRpcProvisioner where
  rpcPort : Int := 4444
  timeoutS : Int := 120

/-- A provision of an image, its connection and the daemon at the other end.

`texts` is all that the daemon has written, the banner first, `wire` what of it nobody has received.
`greeting` is what was received of the banner, `kept` are the bytes behind `full_output` and
`current` those behind `cmd_output`. -/
structure OpenOcdRpc where
  rpc : OpenOcdRpcProvisioner
  imagePath : String
  resolvedPath : String
  pc : OpenOcdPc := .entered
  cmdOutput : List Char := []
  fullOutput : List Char := []
  pending : List String := []
  executed : List String := []
  texts : List Bytes := []
  wire : Bytes := []
  closed : Bool := false
  greeting : Bytes := []
  kept : Bytes := []
  current : Bytes := []

/-- The steps of the provisioner, of its socket and of the daemon. -/
inductive OpenOcdAct
  | lookup (found : Bool)
  | connect (banner : Option Bytes)
  | send
  | recv (n : Nat)
  | timeout
  | broken (msg : String)
  | execute (out : Bytes)
  | hangup

namespace OpenOcdRpc

def safePath (s : OpenOcdRpc) : String :=
  String.ofList (s.resolvedPath.toList.map fun c => if c = '\\' then '/' else c)

def commands (s : OpenOcdRpc) : List String :=
  ["reset halt", s!"program {s.safePath} verify reset", "exit"]

/-- The end of a reply, as `endswith` looks for it. -/
def prompted (cmdOutput : List Char) : Prop :=
  "\n> ".toList <:+ cmdOutput ∨ "\r\n> ".toList <:+ cmdOutput

instance (cmdOutput : List Char) : Decidable (prompted cmdOutput) :=
  inferInstanceAs (Decidable (_ ∨ _))

def next : List String → OpenOcdPc
  | [] => .done
  | c :: rest => .sending (c :: rest)

def finish (s : OpenOcdRpc) (rest : List String) : OpenOcdRpc :=
  { s with
    pc := next rest
    fullOutput := s.fullOutput ++ s.cmdOutput
    cmdOutput := []
    kept := s.kept ++ s.current
    current := [] }

/-- What `recv(limit)` may return: some of what is there, and nothing only at the end. -/
def received (s : OpenOcdRpc) (limit n : Nat) : Option Bytes :=
  let chunk := s.wire.take (min n limit)
  if chunk ≠ [] ∨ s.wire = [] ∧ s.closed then some chunk else none

/-- `cmd_output += chunk`. -/
def collect (s : OpenOcdRpc) (chunk : Bytes) : OpenOcdRpc :=
  { s with
    cmdOutput := s.cmdOutput ++ decodeReplace chunk
    wire := s.wire.drop chunk.length
    current := s.current ++ chunk }

def recv (s : OpenOcdRpc) (n : Nat) : Option OpenOcdRpc :=
  match s.pc with
  | .banner => do
    let chunk ← s.received 1024 n
    return { s with
      pc := next s.commands
      wire := s.wire.drop chunk.length
      greeting := chunk }
  | .reading rest => do
    let chunk ← s.received 4096 n
    if chunk = [] then return s.finish rest
    else if prompted (s.collect chunk).cmdOutput then return (s.collect chunk).finish rest
    else return s.collect chunk
  | _ => none

def step (s : OpenOcdRpc) : OpenOcdAct → Option OpenOcdRpc
  | .lookup found =>
    if s.pc = .entered then
      if found then some { s with pc := .connecting }
      else some { s with pc := .left (.provisioningError
        s!"Firmware image not found: {s.imagePath}") }
    else none
  | .connect banner =>
    if s.pc = .connecting then
      match banner with
      | some text => some { s with pc := .banner, texts := [text], wire := text }
      | none => some { s with pc := .left (.provisioningError
          (s!"Connection refused on port {s.rpc.rpcPort}. " ++ "Is the OpenOCD daemon running?")) }
    else none
  | .send =>
    match s.pc with
    | .sending (c :: rest) => some { s with pc := .reading rest, pending := s.pending ++ [c] }
    | _ => none
  | .recv n => s.recv n
  | .timeout =>
    match s.pc with
    | .banner => some { s with pc := .left .timeoutError }
    | .reading _ => some { s with pc := .left (.provisioningError
        (s!"JTAG RPC connection timed out after {s.rpc.timeoutS}s. " ++ "Deadlocked SWD bus?")) }
    | _ => none
  | .broken msg =>
    match s.pc with
    | .connecting | .banner | .sending _ | .reading _ =>
      some { s with pc := .left (.osError msg) }
    | _ => none
  -- the daemon answers a command, or hangs up when it is told to
  | .execute out =>
    match s.pending with
    | [] => none
    | c :: cs =>
      if s.closed then none
      else if c = "exit" then
        some { s with pending := cs, executed := s.executed ++ [c], closed := true }
      else
        some { s with
          pending := cs
          executed := s.executed ++ [c]
          texts := s.texts ++ [out]
          wire := s.wire ++ out }
  | .hangup => if s.pc = .entered ∨ s.pc = .connecting then none else some { s with closed := true }

section
variable (lower : List Char → List Char)

/-- `_evaluate_rpc_response`. -/
def evaluateRpcResponse (stdout : List Char) : Except OpenOcdErr Unit :=
  let s := lower stdout
  if prints ["locked", "protection"] s then
    .error (.siliconLockError "Target silicon is read/write protected.")
  else if prints ["verify failed", "mismatch"] s then
    .error (.imageVerificationError "JTAG readback verification failed.")
  else if prints ["** programming failed **", "error:"] s then
    .error (.provisioningError "OpenOCD reported a fatal error during the flash operation.")
  else if !prints ["wrote"] s && !prints ["** programming finished **"] s then
    .error (.provisioningError
      "OpenOCD completed without error, but did not confirm data was written.")
  else .ok ()

/-- What `provision` answers, once it has ended. -/
def answer (s : OpenOcdRpc) : Option (Except OpenOcdErr Bool) :=
  match s.pc with
  | .done => some ((evaluateRpcResponse lower s.fullOutput).map fun _ => true)
  | .left e => some (.error e)
  | _ => none

end

/-- A text of the daemon: ASCII, with its prompt at the end and nowhere else. -/
structure Prompted (text : Bytes) : Prop where
  ascii : ∀ b ∈ text, b.toNat < 0x80
  ends : MesCore.ascii "\n> " <:+ text
  once : ∀ u, u <+: text → MesCore.ascii "\n> " <:+ u → u = text

/-- The daemon serves: each of its texts ends with the prompt, and it does not hang up by itself. -/
def Serves (_ : OpenOcdRpc) : OpenOcdAct → Prop
  | .connect (some text) => Prompted text
  | .execute out => Prompted out
  | .hangup => False
  | _ => True

/-- What a step can do, and when. -/
inductive Stepped (s : OpenOcdRpc) : OpenOcdAct → OpenOcdRpc → Prop
  | found (hpc : s.pc = .entered) : Stepped s (.lookup true) { s with pc := .connecting }
  | accepted (hpc : s.pc = .connecting) (text : Bytes) :
    Stepped s (.connect (some text)) { s with pc := .banner, texts := [text], wire := text }
  | greeted (hpc : s.pc = .banner) (hchunk : s.received 1024 n = some chunk) :
    Stepped s (.recv n) { s with
      pc := next s.commands, wire := s.wire.drop chunk.length, greeting := chunk }
  | told (hpc : s.pc = .sending (c :: rest)) :
    Stepped s .send { s with pc := .reading rest, pending := s.pending ++ [c] }
  | ended (hpc : s.pc = .reading rest) (hchunk : s.received 4096 n = some []) :
    Stepped s (.recv n) (s.finish rest)
  | more (hpc : s.pc = .reading rest) (hchunk : s.received 4096 n = some chunk)
    (hsome : chunk ≠ []) (hend : ¬ prompted (s.collect chunk).cmdOutput) :
    Stepped s (.recv n) (s.collect chunk)
  | replied (hpc : s.pc = .reading rest) (hchunk : s.received 4096 n = some chunk)
    (hend : prompted (s.collect chunk).cmdOutput) :
    Stepped s (.recv n) ((s.collect chunk).finish rest)
  | answered (hpending : s.pending = c :: cs) (hopen : s.closed = false) (hexit : c ≠ "exit") :
    Stepped s (.execute out) { s with
      pending := cs, executed := s.executed ++ [c], texts := s.texts ++ [out],
      wire := s.wire ++ out }
  | hungUp (hpending : s.pending = "exit" :: cs) (hopen : s.closed = false) :
    Stepped s (.execute out) { s with
      pending := cs, executed := s.executed ++ ["exit"], closed := true }
  | hangup : Stepped s .hangup { s with closed := true }
  | leave (hdone : s.pc ≠ .done) (hleft : ∀ e, s.pc ≠ .left e) (e : OpenOcdErr) :
    Stepped s a { s with pc := .left e }

theorem stepped_recv {s s' : OpenOcdRpc} (h : s.recv n = some s') : Stepped s (.recv n) s' := by
  unfold recv at h
  split at h
  · obtain ⟨chunk, hchunk, h⟩ := Option.bind_eq_some_iff.1 h
    cases h
    exact .greeted ‹_› hchunk
  · obtain ⟨chunk, hchunk, h⟩ := Option.bind_eq_some_iff.1 h
    split at h
    · rename_i hempty
      subst hempty
      cases h
      exact .ended ‹_› hchunk
    · split at h
      · cases h
        exact .replied ‹_› hchunk ‹_›
      · cases h
        exact .more ‹_› hchunk ‹_› ‹_›
  · cases h

theorem stepped {s s' : OpenOcdRpc} (h : s.step a = some s') : Stepped s a s' := by
  have hleave (e : OpenOcdErr) (hdone : s.pc ≠ .done) (hleft : ∀ e, s.pc ≠ .left e)
      (heq : some { s with pc := .left e } = some s') : Stepped s a s' := by
    cases heq
    exact .leave hdone hleft e
  cases a with
  | lookup found =>
    rw [step] at h
    split at h
    · rename_i hpc
      cases found with
      | true =>
        cases h
        exact .found hpc
      | false => exact hleave _ (by simp [hpc]) (by simp [hpc]) h
    · cases h
  | connect banner =>
    cases banner with
    | none =>
      rw [step] at h
      split at h
      · rename_i hpc
        exact hleave _ (by simp [hpc]) (by simp [hpc]) h
      · cases h
    | some text =>
      rw [step] at h
      split at h
      · rename_i hpc
        cases h
        exact .accepted hpc text
      · cases h
  | send =>
    rw [step] at h
    split at h
    · cases h
      exact .told ‹_›
    · cases h
  | recv n => exact stepped_recv h
  | timeout =>
    rw [step] at h
    split at h
    · rename_i hpc
      exact hleave _ (by simp [hpc]) (by simp [hpc]) h
    · rename_i hpc
      exact hleave _ (by simp [hpc]) (by simp [hpc]) h
    · cases h
  | broken msg =>
    rw [step] at h
    split at h
    · rename_i hpc
      exact hleave _ (by simp [hpc]) (by simp [hpc]) h
    · rename_i hpc
      exact hleave _ (by simp [hpc]) (by simp [hpc]) h
    · rename_i hpc
      exact hleave _ (by simp [hpc]) (by simp [hpc]) h
    · rename_i hpc
      exact hleave _ (by simp [hpc]) (by simp [hpc]) h
    · cases h
  | execute out =>
    rw [step] at h
    split at h
    · cases h
    · rename_i c cs hpending
      split at h
      · cases h
      · rename_i hopen
        rw [Bool.not_eq_true] at hopen
        split at h
        · rename_i hexit
          cases h
          subst hexit
          exact .hungUp hpending hopen
        · cases h
          exact .answered hpending hopen ‹_›
  | hangup =>
    rw [step] at h
    split at h
    · cases h
    · cases h
      exact .hangup

def charOfByte (b : UInt8) : Char := Char.ofNat b.toNat

theorem charOfByte_injective : Function.Injective charOfByte := by
  have hinv : ∀ n < 256, (Char.ofNat n).toNat = n := by decide +kernel
  intro a b h
  have hab : a.toNat = b.toNat := by
    rw [← hinv a.toNat a.toNat_lt, ← hinv b.toNat b.toNat_lt]
    exact congrArg Char.toNat h
  exact UInt8.toNat.inj hab

theorem decodeReplace_ascii {bs : Bytes} (h : ∀ b ∈ bs, b.toNat < 0x80) :
    decodeReplace bs = bs.map charOfByte := by
  induction bs with
  | nil => rfl
  | cons b bs ih =>
    rw [List.forall_mem_cons] at h
    rw [decodeReplace, decodeFrom_ascii h.1, ← decodeReplace, ih h.2]
    rfl

theorem decodeReplace_append_ascii {a b : Bytes} (h : ∀ x ∈ a ++ b, x.toNat < 0x80) :
    decodeReplace (a ++ b) = decodeReplace a ++ decodeReplace b := by
  rw [decodeReplace_ascii h, List.map_append,
    decodeReplace_ascii fun x hx => h x (List.mem_append_left b hx),
    decodeReplace_ascii fun x hx => h x (List.mem_append_right a hx)]

theorem prompted_iff {bs : Bytes} (h : ∀ b ∈ bs, b.toNat < 0x80) :
    prompted (decodeReplace bs) ↔ MesCore.ascii "\n> " <:+ bs := by
  have hprompt : "\n> ".toList = (MesCore.ascii "\n> ").map charOfByte := by decide +kernel
  have hsuffix : "\n> ".toList <:+ "\r\n> ".toList := by decide +kernel
  rw [prompted, decodeReplace_ascii h,
    or_iff_left_of_imp fun hlong => hsuffix.trans hlong, hprompt]
  exact List.suffix_map_iff_of_injective charOfByte_injective

/-- The first of these texts are all there. -/
def Covers (texts : List Bytes) (k : Nat) (u : Bytes) : Prop :=
  k ≤ texts.length ∧ (texts.take k).flatten <+: u

theorem Covers.zero (texts : List Bytes) (u : Bytes) : Covers texts 0 u :=
  ⟨Nat.zero_le _, List.nil_prefix⟩

theorem Covers.concat (h : Covers ts k u) (t : Bytes) : Covers (ts ++ [t]) k u := by
  refine ⟨Nat.le_trans h.1 ?_, ?_⟩
  · rw [List.length_append]
    exact Nat.le_add_right _ _
  · rw [List.take_append_of_le_length h.1]
    exact h.2

theorem Covers.succ {texts : List Bytes} (hp : ∀ t ∈ texts, Prompted t) (h : Covers texts k u)
    (hread : u ++ v <+: texts.flatten) (hv : MesCore.ascii "\n> " <:+ v) :
    Covers texts (k + 1) (u ++ v) := by
  induction texts generalizing k u with
  | nil =>
    have hv : v = [] := (List.append_eq_nil_iff.1 (List.prefix_nil.1 hread)).2
    subst hv
    exact absurd (List.suffix_nil.1 ‹_›) (by decide +kernel)
  | cons t ts ih =>
    rw [List.forall_mem_cons] at hp
    rw [List.flatten_cons] at hread
    cases k with
    | zero =>
      refine ⟨Nat.succ_le_succ (Nat.zero_le _), ?_⟩
      rw [List.take_succ_cons, List.take_zero, List.flatten_singleton]
      rcases List.prefix_or_prefix_of_prefix hread (List.prefix_append t ts.flatten) with hle | hle
      · rw [hp.1.once _ hle (hv.trans (List.suffix_append u v))]
      · exact hle
    | succ k =>
      obtain ⟨hk, hall⟩ := h
      rw [List.take_succ_cons, List.flatten_cons] at hall
      obtain ⟨u', rfl⟩ := (List.prefix_append _ _).trans hall
      rw [List.append_assoc, List.prefix_append_right_inj] at hread
      rw [List.prefix_append_right_inj] at hall
      obtain ⟨hk', hall'⟩ := ih hp.2 ⟨Nat.le_of_succ_le_succ hk, hall⟩ hread
      refine ⟨Nat.succ_le_succ hk', ?_⟩
      rw [List.take_succ_cons, List.flatten_cons, List.append_assoc,
        List.prefix_append_right_inj]
      exact hall'

/-- Up to here the commands are those of the list, and the daemon has answered each that it has
executed. -/
structure Told (s : OpenOcdRpc) (rest : List String) : Prop where
  order : s.executed ++ s.pending ++ rest = s.commands
  closed : s.closed = true ↔ s.executed = s.commands
  count : s.texts.length = 1 + min 2 s.executed.length
  greeted : ∃ t ts, s.texts = t :: ts ∧ s.greeting <+: t

structure Fresh (s : OpenOcdRpc) : Prop where
  executed : s.executed = []
  pending : s.pending = []
  closed : s.closed = false
  greeting : s.greeting = []
  kept : s.kept = []
  current : s.current = []

/-- What is known at each place of the provisioner. -/
def At (s : OpenOcdRpc) : OpenOcdPc → Prop
  | .entered | .connecting => s.Fresh ∧ s.texts = []
  | .banner => s.Fresh ∧ s.texts.length = 1
  | .sending rest => rest ≠ [] ∧ s.Told rest ∧ s.current = [] ∧
      Covers s.texts (3 - rest.length) (s.greeting ++ s.kept)
  | .reading rest => rest.length < 3 ∧ s.Told rest ∧ ¬ prompted s.cmdOutput ∧
      Covers s.texts (2 - rest.length) (s.greeting ++ s.kept) ∧
      s.greeting ++ s.kept <+: (s.texts.take (3 - rest.length)).flatten
  | .done => s.Told [] ∧ s.current = [] ∧ Covers s.texts 3 (s.greeting ++ s.kept)
  | .left _ => ∃ rest, s.executed ++ s.pending ++ rest = s.commands

/-- What the daemon has written is read once and in order. -/
structure Streamed (s : OpenOcdRpc) : Prop where
  prompted : ∀ t ∈ s.texts, Prompted t
  stream : s.texts.flatten = s.greeting ++ s.kept ++ s.current ++ s.wire
  full : s.fullOutput = decodeReplace s.kept
  cmd : s.cmdOutput = decodeReplace s.current

structure Sound (s : OpenOcdRpc) : Prop extends Streamed s where
  place : s.At s.pc

section
variable {s s' : OpenOcdRpc}

theorem Streamed.ascii (h : s.Streamed) (hbs : bs <:+: s.texts.flatten) :
    ∀ b ∈ bs, b.toNat < 0x80 := by
  intro b hb
  obtain ⟨t, ht, hb⟩ := List.mem_flatten.1 (hbs.mem hb)
  exact (h.prompted t ht).ascii b hb

theorem received_some (h : s.received limit n = some chunk) :
    chunk ++ s.wire.drop chunk.length = s.wire ∧
      (chunk = [] → s.wire = [] ∧ s.closed = true) := by
  rw [received] at h
  split at h
  · rename_i hcond
    cases h
    refine ⟨List.prefix_iff_eq_append.1 (List.take_prefix _ _), fun hnil => ?_⟩
    exact hcond.resolve_left fun hne => hne hnil
  · cases h

theorem exit_iff (h : e ++ c :: cs = s.commands) : e.length < 3 ∧ (c = "exit" ↔ e.length = 2) := by
  have hflash : (s!"program {s.safePath} verify reset" : String) ≠ "exit" := by
    intro heq
    have hlist := congrArg String.toList heq
    rw [show (s!"program {s.safePath} verify reset" : String) =
      "program " ++ (s.safePath ++ " verify reset") by
        simp [toString, String.append_assoc], String.toList_append] at hlist
    cases hlist
  rw [commands] at h
  cases e with
  | nil =>
    cases h
    exact ⟨by decide, by decide⟩
  | cons a e =>
    cases e with
    | nil =>
      cases h
      exact ⟨by decide, fun heq => absurd heq hflash, fun heq => absurd heq (by decide)⟩
    | cons b e =>
      cases e with
      | nil =>
        cases h
        exact ⟨Nat.lt_succ_self 2, fun _ => rfl, fun _ => rfl⟩
      | cons a' e =>
        have hlen := congrArg List.length h
        simp at hlen

theorem Fresh.told (h : s.Fresh) (htexts : s.texts.length = 1) : s.Told s.commands where
  order := by rw [h.executed, h.pending]; rfl
  closed := by
    rw [h.closed, h.executed]
    exact ⟨fun heq => absurd heq (by decide), fun heq => absurd heq (List.cons_ne_nil _ _).symm⟩
  count := by rw [htexts, h.executed]; rfl
  greeted := by
    obtain ⟨t, ht⟩ := List.length_eq_one_iff.1 htexts
    exact ⟨t, [], ht, h.greeting ▸ List.nil_prefix⟩

theorem order_pop (hpending : s.pending = c :: cs)
    (h : s.executed ++ s.pending ++ rest = s.commands) :
    s.executed ++ [c] ++ cs ++ rest = s.commands := by
  rw [← h, hpending, List.append_assoc s.executed]
  rfl

theorem Told.answered (h : s.Told rest) (hpending : s.pending = c :: cs) (hexit : c ≠ "exit")
    (out : Bytes) : Told { s with
      pending := cs, executed := s.executed ++ [c], texts := s.texts ++ [out],
      wire := s.wire ++ out } rest := by
  have horder := h.order
  rw [hpending, List.append_assoc, List.cons_append] at horder
  obtain ⟨hlt, hiff⟩ := exit_iff horder
  have hlt : s.executed.length < 2 := by
    have hne : s.executed.length ≠ 2 := fun heq => hexit (hiff.2 heq)
    omega
  refine ⟨order_pop hpending h.order, ?_, ?_, ?_⟩
  · show s.closed = true ↔ s.executed ++ [c] = s.commands
    rw [h.closed]
    constructor
    · intro heq
      rw [heq] at hlt
      exact absurd hlt (by simp [commands])
    · intro heq
      have hlen := congrArg List.length heq
      rw [List.length_append] at hlen
      simp [commands] at hlen
      omega
  · show (s.texts ++ [out]).length = 1 + min 2 (s.executed ++ [c]).length
    rw [List.length_append, List.length_append, h.count, List.length_singleton,
      List.length_singleton]
    omega
  · obtain ⟨t, ts, htexts, hgreet⟩ := h.greeted
    refine ⟨t, ts ++ [out], ?_, hgreet⟩
    show s.texts ++ [out] = t :: (ts ++ [out])
    rw [htexts, List.cons_append]

theorem Told.hungUp (h : s.Told rest) (hpending : s.pending = "exit" :: cs) : Told { s with
    pending := cs, executed := s.executed ++ ["exit"], closed := true } rest := by
  have horder := h.order
  rw [hpending, List.append_assoc, List.cons_append] at horder
  have htwo : s.executed.length = 2 := (exit_iff horder).2.1 rfl
  have hrest : cs ++ rest = [] := by
    have hlen := congrArg List.length horder
    rw [List.length_append, List.length_cons, htwo] at hlen
    simp only [commands, List.length_cons, List.length_nil] at hlen
    exact List.length_eq_zero_iff.1 (by omega)
  refine ⟨order_pop hpending h.order, ?_, ?_, h.greeted⟩
  · show true = true ↔ s.executed ++ ["exit"] = s.commands
    rw [← horder, hrest]
    exact ⟨fun _ => rfl, fun _ => rfl⟩
  · show s.texts.length = 1 + min 2 (s.executed ++ ["exit"]).length
    rw [List.length_append, h.count, htwo]
    rfl

theorem At.answered {pc : OpenOcdPc} (h : s.At pc) (hpending : s.pending = c :: cs)
    (hexit : c ≠ "exit") (out : Bytes) : At { s with
      pending := cs, executed := s.executed ++ [c], texts := s.texts ++ [out],
      wire := s.wire ++ out } pc := by
  cases pc with
  | entered | connecting | banner =>
    rw [h.1.pending] at hpending
    cases hpending
  | sending rest =>
    obtain ⟨hrest, htold, hcurrent, hcovers⟩ := h
    exact ⟨hrest, htold.answered hpending hexit out, hcurrent, hcovers.concat out⟩
  | reading rest =>
    obtain ⟨hrest, htold, hprompt, hcovers, hbound⟩ := h
    refine ⟨hrest, htold.answered hpending hexit out, hprompt, hcovers.concat out, ?_⟩
    refine hbound.trans ?_
    show (s.texts.take (3 - rest.length)).flatten <+: ((s.texts ++ [out]).take _).flatten
    rw [List.take_append, List.flatten_append]
    exact List.prefix_append _ _
  | done =>
    obtain ⟨htold, hcurrent, hcovers⟩ := h
    exact ⟨htold.answered hpending hexit out, hcurrent, hcovers.concat out⟩
  | left e =>
    obtain ⟨rest, horder⟩ := h
    exact ⟨rest, order_pop hpending horder⟩

theorem At.hungUp {pc : OpenOcdPc} (h : s.At pc) (hpending : s.pending = "exit" :: cs) : At { s with
    pending := cs, executed := s.executed ++ ["exit"], closed := true } pc := by
  cases pc with
  | entered | connecting | banner =>
    rw [h.1.pending] at hpending
    cases hpending
  | sending rest => exact ⟨h.1, h.2.1.hungUp hpending, h.2.2⟩
  | reading rest => exact ⟨h.1, h.2.1.hungUp hpending, h.2.2⟩
  | done => exact ⟨h.1.hungUp hpending, h.2⟩
  | left e =>
    obtain ⟨rest, horder⟩ := h
    exact ⟨rest, order_pop hpending horder⟩

theorem At.ordered {pc : OpenOcdPc} (h : s.At pc) :
    ∃ rest, s.executed ++ s.pending ++ rest = s.commands := by
  cases pc with
  | entered | connecting | banner => exact ⟨s.commands, by rw [h.1.executed, h.1.pending]; rfl⟩
  | sending rest => exact ⟨rest, h.2.1.order⟩
  | reading rest => exact ⟨rest, h.2.1.order⟩
  | done => exact ⟨[], h.1.order⟩
  | left e => exact h

theorem Sound.answered (h : s.Sound) (hpending : s.pending = c :: cs) (hexit : c ≠ "exit")
    (hout : Prompted out) : Sound { s with
      pending := cs, executed := s.executed ++ [c], texts := s.texts ++ [out],
      wire := s.wire ++ out } := by
  refine ⟨⟨?_, ?_, h.full, h.cmd⟩, h.place.answered hpending hexit out⟩
  · intro t ht
    rcases List.mem_append.1 ht with ht | ht
    · exact h.prompted t ht
    · rw [List.mem_singleton.1 ht]
      exact hout
  · show (s.texts ++ [out]).flatten = s.greeting ++ s.kept ++ s.current ++ (s.wire ++ out)
    rw [List.flatten_append, h.stream, List.flatten_singleton, List.append_assoc _ s.wire]

theorem Sound.greeted (h : s.Sound) (hpc : s.pc = .banner)
    (hchunk : s.received 1024 n = some chunk) : Sound { s with
      pc := next s.commands, wire := s.wire.drop chunk.length, greeting := chunk } := by
  have hplace := h.place
  rw [hpc] at hplace
  obtain ⟨hfresh, htexts⟩ := hplace
  have hcut := (received_some hchunk).1
  have hstream := h.stream
  rw [hfresh.greeting, hfresh.kept, hfresh.current, List.nil_append, List.nil_append,
    List.nil_append] at hstream
  have htold := hfresh.told htexts
  refine ⟨⟨h.prompted, ?_, h.full, h.cmd⟩, ?_⟩
  · show s.texts.flatten = chunk ++ s.kept ++ s.current ++ s.wire.drop chunk.length
    rw [hfresh.kept, hfresh.current, List.append_nil, List.append_nil, hcut, hstream]
  · refine ⟨List.cons_ne_nil _ _, ⟨htold.order, htold.closed, htold.count, ?_⟩, hfresh.current,
      Covers.zero _ _⟩
    obtain ⟨t, ht⟩ := List.length_eq_one_iff.1 htexts
    rw [ht, List.flatten_singleton] at hstream
    refine ⟨t, [], ht, ?_⟩
    show chunk <+: t
    rw [hstream]
    exact ⟨_, hcut⟩

theorem Streamed.ascii_read (h : s.Streamed) : ∀ b ∈ s.kept ++ s.current, b.toNat < 0x80 := by
  apply h.ascii
  rw [h.stream, List.append_assoc s.greeting]
  exact ⟨s.greeting, s.wire, rfl⟩

theorem Streamed.finish (h : s.Streamed) (htold : s.Told rest)
    (hcovers : Covers s.texts (3 - rest.length) (s.greeting ++ s.kept ++ s.current)) :
    (s.finish rest).Sound := by
  rw [List.append_assoc] at hcovers
  refine ⟨⟨h.prompted, ?_, ?_, rfl⟩, ?_⟩
  · show s.texts.flatten = s.greeting ++ (s.kept ++ s.current) ++ [] ++ s.wire
    rw [h.stream, List.append_nil, List.append_assoc s.greeting]
  · show s.fullOutput ++ s.cmdOutput = decodeReplace (s.kept ++ s.current)
    rw [h.full, h.cmd, decodeReplace_append_ascii h.ascii_read]
  · have htold' : (s.finish rest).Told rest :=
      ⟨htold.order, htold.closed, htold.count, htold.greeted⟩
    cases rest with
    | nil => exact ⟨htold', rfl, hcovers⟩
    | cons c rest => exact ⟨List.cons_ne_nil c rest, htold', rfl, hcovers⟩

theorem Told.ended (h : s.Told rest) (hclosed : s.closed = true) :
    rest = [] ∧ s.texts.length = 3 := by
  have hall := h.closed.1 hclosed
  have horder := h.order
  rw [hall, List.append_assoc, List.append_right_eq_self] at horder
  refine ⟨(List.append_eq_nil_iff.1 horder).2, ?_⟩
  rw [h.count, hall]
  rfl

theorem Streamed.collect (h : s.Streamed) (hcut : chunk ++ s.wire.drop chunk.length = s.wire) :
    (s.collect chunk).Streamed := by
  have hstream : s.texts.flatten =
      s.greeting ++ s.kept ++ (s.current ++ chunk) ++ s.wire.drop chunk.length := by
    rw [h.stream, ← List.append_assoc _ s.current, List.append_assoc _ chunk, hcut]
  refine ⟨h.prompted, hstream, h.full, ?_⟩
  show s.cmdOutput ++ decodeReplace chunk = decodeReplace (s.current ++ chunk)
  rw [h.cmd, decodeReplace_append_ascii]
  apply h.ascii
  exact ⟨s.greeting ++ s.kept, s.wire.drop chunk.length, hstream.symm⟩

theorem Sound.ended (h : s.Sound) (hpc : s.pc = .reading rest)
    (hchunk : s.received 4096 n = some []) : (s.finish rest).Sound := by
  have hplace := h.place
  rw [hpc] at hplace
  obtain ⟨-, htold, -⟩ := hplace
  obtain ⟨hwire, hclosed⟩ := (received_some hchunk).2 rfl
  obtain ⟨rfl, hthree⟩ := htold.ended hclosed
  refine h.finish htold ⟨Nat.le_of_eq hthree.symm, ?_⟩
  show (s.texts.take 3).flatten <+: s.greeting ++ s.kept ++ s.current
  rw [List.take_of_length_le (Nat.le_of_eq hthree), h.stream, hwire, List.append_nil]

theorem Sound.more (h : s.Sound) (hpc : s.pc = .reading rest)
    (hchunk : s.received 4096 n = some chunk) (hend : ¬ prompted (s.collect chunk).cmdOutput) :
    (s.collect chunk).Sound := by
  refine ⟨h.collect (received_some hchunk).1, ?_⟩
  have hplace := h.place
  rw [hpc] at hplace
  obtain ⟨hrest, htold, -, hcovers, hbound⟩ := hplace
  show (s.collect chunk).At s.pc
  rw [hpc]
  exact ⟨hrest, ⟨htold.order, htold.closed, htold.count, htold.greeted⟩, hend, hcovers, hbound⟩

theorem Sound.replied (h : s.Sound) (hpc : s.pc = .reading rest)
    (hchunk : s.received 4096 n = some chunk) (hend : prompted (s.collect chunk).cmdOutput) :
    ((s.collect chunk).finish rest).Sound := by
  have hplace := h.place
  rw [hpc] at hplace
  obtain ⟨hrest, htold, -, hcovers, -⟩ := hplace
  have hcollect := h.collect (received_some hchunk).1
  rw [hcollect.cmd, prompted_iff fun b hb => hcollect.ascii_read b (List.mem_append_right _ hb)]
    at hend
  have hread : s.greeting ++ s.kept ++ (s.collect chunk).current <+: s.texts.flatten :=
    ⟨_, hcollect.stream.symm⟩
  have hsucc := hcovers.succ h.prompted hread hend
  rw [show 2 - rest.length + 1 = 3 - rest.length by omega] at hsucc
  exact hcollect.finish ⟨htold.order, htold.closed, htold.count, htold.greeted⟩ hsucc

theorem Sound.told (h : s.Sound) (hpc : s.pc = .sending (c :: rest)) :
    Sound { s with pc := .reading rest, pending := s.pending ++ [c] } := by
  have hplace := h.place
  rw [hpc] at hplace
  obtain ⟨-, htold, hcurrent, hcovers⟩ := hplace
  have hlength := congrArg List.length htold.order
  simp only [List.length_append, List.length_cons, commands, List.length_nil] at hlength
  have hcount := htold.count
  refine ⟨⟨h.prompted, h.stream, h.full, h.cmd⟩, ?_, ⟨?_, htold.closed, htold.count, htold.greeted⟩,
    ?_, ?_, ?_⟩
  · omega
  · show s.executed ++ (s.pending ++ [c]) ++ rest = s.commands
    rw [← htold.order, List.append_assoc, List.append_assoc, List.append_assoc]
    rfl
  · show ¬ prompted s.cmdOutput
    rw [h.cmd, hcurrent]
    decide +kernel
  · show Covers s.texts (2 - rest.length) (s.greeting ++ s.kept)
    rwa [List.length_cons, Nat.add_sub_add_right 2 1] at hcovers
  · show s.greeting ++ s.kept <+: (s.texts.take (3 - rest.length)).flatten
    rw [List.take_of_length_le (by omega), h.stream, List.append_assoc]
    exact List.prefix_append _ _

theorem Sound.accepted (h : s.Sound) (hpc : s.pc = .connecting) (htext : Prompted text) :
    Sound { s with pc := .banner, texts := [text], wire := text } := by
  have hplace := h.place
  rw [hpc] at hplace
  obtain ⟨hfresh, -⟩ := hplace
  refine ⟨⟨?_, ?_, h.full, h.cmd⟩,
    ⟨hfresh.1, hfresh.2, hfresh.3, hfresh.4, hfresh.5, hfresh.6⟩, rfl⟩
  · exact List.forall_mem_singleton.2 htext
  · show [text].flatten = s.greeting ++ s.kept ++ s.current ++ text
    rw [hfresh.greeting, hfresh.kept, hfresh.current, List.flatten_singleton]
    rfl

theorem Sound.step (h : s.Sound) (ha : s.Serves a) (hs : s.step a = some s') : s'.Sound := by
  cases stepped hs with
  | found hpc =>
    have hplace := h.place
    rw [hpc] at hplace
    obtain ⟨hfresh, htexts⟩ := hplace
    exact ⟨⟨h.prompted, h.stream, h.full, h.cmd⟩,
      ⟨hfresh.1, hfresh.2, hfresh.3, hfresh.4, hfresh.5, hfresh.6⟩, htexts⟩
  | accepted hpc text => exact h.accepted hpc ha
  | greeted hpc hchunk => exact h.greeted hpc hchunk
  | told hpc => exact h.told hpc
  | ended hpc hchunk => exact h.ended hpc hchunk
  | more hpc hchunk _ hend => exact h.more hpc hchunk hend
  | replied hpc hchunk hend => exact h.replied hpc hchunk hend
  | answered hpending _ hexit => exact h.answered hpending hexit ha
  | hungUp hpending _ =>
    exact ⟨⟨h.prompted, h.stream, h.full, h.cmd⟩, h.place.hungUp hpending⟩
  | hangup => exact ha.elim
  | leave _ _ e => exact ⟨⟨h.prompted, h.stream, h.full, h.cmd⟩, h.place.ordered⟩

end

def start (rpc : OpenOcdRpcProvisioner) (imagePath resolvedPath : String) : OpenOcdRpc :=
  { rpc, imagePath, resolvedPath }

theorem start_sound (rpc : OpenOcdRpcProvisioner) (imagePath resolvedPath : String) :
    (start rpc imagePath resolvedPath).Sound :=
  ⟨⟨fun _ ht => (List.not_mem_nil ht).elim, rfl, rfl, rfl⟩, ⟨rfl, rfl, rfl, rfl, rfl, rfl⟩, rfl⟩

theorem run_sound {p : OpenOcdRpcProvisioner} {s : OpenOcdRpc}
    (h : Run step Serves (start p image resolved) acts s) : s.Sound :=
  h.invariant Sound Sound.step (start_sound p image resolved)

def failurePhrases : List String :=
  ["locked", "protection", "verify failed", "mismatch", "** programming failed **", "error:"]

/-- The daemon has confirmed that it has written the image, and reported no error. -/
def Flashed (output : List Char) : Prop :=
  prints ["wrote", "** programming finished **"] output = true ∧
    prints failurePhrases output = false

theorem evaluateRpcResponse_eq_ok (lower : List Char → List Char) (stdout : List Char) :
    evaluateRpcResponse lower stdout = .ok () ↔ Flashed (lower stdout) := by
  have hfail : failurePhrases = ["locked", "protection"] ++ (["verify failed", "mismatch"] ++
      ["** programming failed **", "error:"]) := rfl
  have hok : ["wrote", "** programming finished **"] =
      ["wrote"] ++ ["** programming finished **"] := rfl
  rw [Flashed, hfail, hok, prints_append, prints_append, prints_append, evaluateRpcResponse]
  cases prints ["locked", "protection"] (lower stdout) <;>
    cases prints ["verify failed", "mismatch"] (lower stdout) <;>
    cases prints ["** programming failed **", "error:"] (lower stdout) <;>
    cases prints ["wrote"] (lower stdout) <;>
    cases prints ["** programming finished **"] (lower stdout) <;> simp

/-- The replies to both commands are evaluated to their end, behind what the first `recv` has left
of the banner. -/
def Complete (s : OpenOcdRpc) : Prop :=
  ∃ rest halted programmed, s.texts = [s.greeting ++ rest, halted, programmed] ∧
    s.commands.take 2 <+: s.executed ∧
    s.fullOutput = decodeReplace (rest ++ halted ++ programmed)

theorem Sound.complete {s : OpenOcdRpc} (h : s.Sound) (hpc : s.pc = .done) : s.Complete := by
  have hplace := h.place
  rw [hpc] at hplace
  obtain ⟨htold, hcurrent, hthree, hcovers⟩ := hplace
  have hcount := htold.count
  have horder := htold.order
  rw [List.append_nil] at horder
  rw [List.take_of_length_le (by omega)] at hcovers
  have hstream := h.stream
  rw [hcurrent, List.append_nil] at hstream
  have hread : s.texts.flatten = s.greeting ++ s.kept :=
    hcovers.eq_of_length_le (hstream ▸ by simp)
  obtain ⟨t, ts, htexts, rest, rfl⟩ := htold.greeted
  have htwo : ts.length = 2 := by
    have hlen := congrArg List.length htexts
    rw [List.length_cons] at hlen
    omega
  obtain ⟨halted, programmed, rfl⟩ := List.length_eq_two.1 htwo
  have hkept : s.kept = rest ++ halted ++ programmed := by
    rw [htexts, List.flatten_cons, List.append_assoc] at hread
    have hkept := List.append_cancel_left hread
    rw [← hkept]
    simp
  refine ⟨rest, halted, programmed, htexts, ?_, hkept ▸ h.full⟩
  apply List.prefix_of_prefix_length_le (List.take_prefix 2 _) ⟨_, horder⟩
  rw [List.length_take]
  omega

end OpenOcdRpc

/-- However the texts of the daemon are cut, and however late they come: `provision` answers for the
whole replies. -/
theorem openocd_rpc_answer (lower : List Char → List Char) {p : OpenOcdRpcProvisioner}
    {s : OpenOcdRpc}
    (h : Run OpenOcdRpc.step OpenOcdRpc.Serves (OpenOcdRpc.start p image resolved) acts s) :
    (s.pc = .done → s.Complete) ∧
    (s.answer lower = some (.ok true) ↔
      s.pc = .done ∧ OpenOcdRpc.Flashed (lower s.fullOutput)) := by
  refine ⟨fun hpc => (OpenOcdRpc.run_sound h).complete hpc, ?_⟩
  rw [← OpenOcdRpc.evaluateRpcResponse_eq_ok, OpenOcdRpc.answer]
  cases hpc : s.pc with
  | done =>
    cases OpenOcdRpc.evaluateRpcResponse lower s.fullOutput with
    | ok u => exact ⟨fun _ => ⟨rfl, rfl⟩, fun _ => rfl⟩
    | error e => exact ⟨fun h => (by cases h), fun h => (by cases h.2)⟩
  | _ => exact ⟨fun h => (by cases h), fun h => (by cases h.1)⟩

namespace OpenOcdRpc

theorem prompted_of_inits {text : Bytes} (hascii : ∀ b ∈ text, b.toNat < 0x80)
    (hends : MesCore.ascii "\n> " <:+ text)
    (honce : ∀ u ∈ text.inits, MesCore.ascii "\n> " <:+ u → u = text) : Prompted text :=
  ⟨hascii, hends, fun u hu => honce u ((List.mem_inits u text).2 hu)⟩

def telnetBanner : Bytes := ascii "Open On-Chip Debugger\r\n> "

def haltReply : Bytes := ascii "target halted\r\n> "

def programReply : Bytes := ascii "** Programming Finished **\r\n** Verified OK **\r\n> "

theorem telnetBanner_prompted : Prompted telnetBanner :=
  prompted_of_inits (by decide +kernel) (by decide +kernel) (by decide +kernel)

theorem haltReply_prompted : Prompted haltReply :=
  prompted_of_inits (by decide +kernel) (by decide +kernel) (by decide +kernel)

theorem programReply_prompted : Prompted programReply :=
  prompted_of_inits (by decide +kernel) (by decide +kernel) (by decide +kernel)

/-- The banner comes in two pieces, and its prompt is taken for the end of the first reply. -/
def behind : List OpenOcdAct :=
  [.lookup true, .connect (some telnetBanner), .recv 4, .send, .recv 100, .send]

def replies : List OpenOcdAct :=
  [.execute haltReply, .recv 100, .send, .execute programReply, .recv 5, .recv 100]

def caughtUp : List OpenOcdAct := behind ++ replies

def jigProvision : OpenOcdRpc := start {} "app.elf" "/srv/app.elf"

def afterActs (acts : List OpenOcdAct) : OpenOcdRpc :=
  (runFrom step jigProvision acts).getD jigProvision

theorem behind_serves : ∀ a ∈ behind, ∀ s, Serves s a := by
  simp only [behind, List.forall_mem_cons]
  exact ⟨fun _ => trivial, fun _ => telnetBanner_prompted, fun _ => trivial, fun _ => trivial,
    fun _ => trivial, fun _ => trivial, fun _ h => (List.not_mem_nil h).elim⟩

theorem replies_serve : ∀ a ∈ replies, ∀ s, Serves s a := by
  simp only [replies, List.forall_mem_cons]
  exact ⟨fun _ => haltReply_prompted, fun _ => trivial, fun _ => trivial,
    fun _ => programReply_prompted, fun _ => trivial, fun _ => trivial,
    fun _ h => (List.not_mem_nil h).elim⟩

theorem caughtUp_serves : ∀ a ∈ caughtUp, ∀ s, Serves s a := fun a ha =>
  (List.mem_append.1 ha).elim (behind_serves a) (replies_serve a)

end OpenOcdRpc

theorem openocd_rpc_answer_caughtUp : (OpenOcdRpc.afterActs OpenOcdRpc.caughtUp).Complete ∧
    (OpenOcdRpc.afterActs OpenOcdRpc.caughtUp).answer (List.map Char.toLower) =
      some (.ok true) := by
  have hrun : Run OpenOcdRpc.step OpenOcdRpc.Serves OpenOcdRpc.jigProvision OpenOcdRpc.caughtUp
      (OpenOcdRpc.afterActs OpenOcdRpc.caughtUp) :=
    Run.of_runFrom (runFrom_getD (by decide +kernel)) OpenOcdRpc.caughtUp_serves
  have hdone : (OpenOcdRpc.afterActs OpenOcdRpc.caughtUp).pc = .done := by decide +kernel
  have hanswer := openocd_rpc_answer (List.map Char.toLower) hrun
  exact ⟨hanswer.1 hdone, hanswer.2.2 ⟨hdone, by decide +kernel, by decide +kernel⟩⟩

namespace OpenOcdRpc

/-- The provisioner waits for the daemon. -/
def Waiting (s : OpenOcdRpc) : Prop := s.pc = .banner ∨ ∃ rest, s.pc = .reading rest

/-- Nobody waits for what never comes: the daemon can answer what it was told, and when it has
answered everything, there is something to be received. -/
structure Live (s : OpenOcdRpc) : Prop where
  answers : s.pending ≠ [] → s.Waiting → ∀ out, (s.step (.execute out)).isSome = true
  receives : s.pending = [] → s.Waiting → ∀ n, 0 < n → (s.step (.recv n)).isSome = true

def rank : OpenOcdPc → Nat
  | .entered => 0
  | .connecting => 1
  | .banner => 2
  | .sending rest => 9 - 2 * rest.length
  | .reading rest => 8 - 2 * rest.length
  | .done => 9
  | .left _ => 10

/-- How far a provision has come: its place, the commands executed and the bytes received. -/
def work (s : OpenOcdRpc) : Nat :=
  rank s.pc + s.executed.length + (s.greeting ++ s.kept ++ s.current).length

section
variable {s s' : OpenOcdRpc}

theorem received_isSome (limit : Nat) (h : s.wire ≠ [] ∨ s.closed = true) (hlimit : 0 < limit)
    (hn : 0 < n) : ∃ chunk, s.received limit n = some chunk := by
  rw [received]
  refine ⟨_, if_pos ?_⟩
  by_cases hwire : s.wire = []
  · exact .inr ⟨hwire, h.resolve_left fun hne => hne hwire⟩
  · refine .inl fun hnil => ?_
    rcases List.take_eq_nil_iff.1 hnil with hzero | hnil
    · omega
    · exact hwire hnil

theorem Sound.wire_ne_nil (h : s.Sound) (hpc : s.pc = .reading rest) (hpending : s.pending = [])
    (hclosed : s.closed = false) : s.wire ≠ [] := by
  intro hwire
  have hplace := h.place
  rw [hpc] at hplace
  obtain ⟨hrest, htold, hprompt, -, hbound⟩ := hplace
  have horder := htold.order
  rw [hpending, List.append_nil] at horder
  have hsome : rest ≠ [] := by
    rintro rfl
    rw [List.append_nil] at horder
    rw [htold.closed.2 horder] at hclosed
    cases hclosed
  have hlength := congrArg List.length horder
  simp only [List.length_append, commands, List.length_cons, List.length_nil] at hlength
  have hpos := List.length_pos_iff.2 hsome
  have hcount := htold.count
  obtain ⟨ts, last, htexts⟩ : ∃ ts last, s.texts = ts ++ [last] := by
    rcases List.eq_nil_or_concat s.texts with hnil | ⟨ts, last, heq⟩
    · rw [hnil, List.length_nil] at hcount
      omega
    · exact ⟨ts, last, heq.trans List.concat_eq_append⟩
  have htake : s.texts.take (3 - rest.length) = ts := by
    rw [htexts, List.length_append, List.length_singleton] at hcount
    rw [htexts, List.take_append_of_le_length (by omega), List.take_of_length_le (by omega)]
  rw [htake] at hbound
  obtain ⟨read, hread⟩ := hbound
  have hstream := h.stream
  rw [hwire, List.append_nil, htexts, List.flatten_append, List.flatten_singleton, ← hread,
    List.append_assoc, List.append_cancel_left_eq] at hstream
  have hlast : Prompted last := h.prompted last (by rw [htexts]; simp)
  apply hprompt
  rw [h.cmd, prompted_iff fun b hb => h.ascii_read b (List.mem_append_right _ hb), ← hstream]
  exact hlast.ends.trans (List.suffix_append _ _)

theorem Sound.live (h : s.Sound) : s.Live := by
  have hplace := h.place
  constructor
  · intro hpending hwaiting out
    obtain ⟨c, cs, hcs⟩ := List.exists_cons_of_ne_nil hpending
    have hopen : s.closed = false := by
      rcases hwaiting with hpc | ⟨rest, hpc⟩
      · rw [hpc] at hplace
        exact hplace.1.closed
      · rw [hpc] at hplace
        obtain ⟨-, htold, -⟩ := hplace
        rw [Bool.eq_false_iff]
        intro hclosed
        have horder := htold.order
        rw [htold.closed.1 hclosed, List.append_assoc, List.append_right_eq_self,
          List.append_eq_nil_iff] at horder
        exact hpending horder.1
    rw [OpenOcdRpc.step, hcs, hopen]
    dsimp only
    rw [if_neg Bool.false_ne_true]
    split <;> rfl
  · intro hpending hwaiting n hn
    rcases hwaiting with hpc | ⟨rest, hpc⟩
    · have hwire : s.wire ≠ [] := by
        rw [hpc] at hplace
        obtain ⟨hfresh, htexts⟩ := hplace
        obtain ⟨t, ht⟩ := List.length_eq_one_iff.1 htexts
        have hstream := h.stream
        rw [ht, hfresh.greeting, hfresh.kept, hfresh.current, List.flatten_singleton] at hstream
        have hends := (h.prompted t (ht ▸ List.mem_singleton_self t)).ends
        rintro hwire
        rw [hstream, hwire] at hends
        exact absurd (List.suffix_nil.1 hends) (by decide +kernel)
      obtain ⟨chunk, hchunk⟩ := received_isSome 1024 (.inl hwire) (by decide) hn
      rw [OpenOcdRpc.step, recv, hpc]
      dsimp only
      rw [hchunk]
      rfl
    · have hready : s.wire ≠ [] ∨ s.closed = true := by
        cases hclosed : s.closed with
        | true => exact .inr rfl
        | false => exact .inl (h.wire_ne_nil hpc hpending hclosed)
      obtain ⟨chunk, hchunk⟩ := received_isSome 4096 hready (by decide) hn
      rw [OpenOcdRpc.step, recv, hpc]
      dsimp only
      rw [hchunk, Option.bind_eq_bind, Option.bind_some]
      split
      · rfl
      · split <;> rfl

theorem rank_next {rest : List String} (h : rest.length < 3) :
    8 - 2 * rest.length < rank (next rest) := by
  cases rest with
  | nil => decide
  | cons c rest =>
    show 8 - 2 * (c :: rest).length < 9 - 2 * (c :: rest).length
    omega

theorem work_finish (h : rest.length < 3) :
    8 - 2 * rest.length + s.executed.length + (s.greeting ++ s.kept ++ s.current).length <
      work (s.finish rest) := by
  have hrank := rank_next h
  show _ < rank (next rest) + s.executed.length + (s.greeting ++ (s.kept ++ s.current) ++ []).length
  rw [List.append_nil, ← List.append_assoc]
  omega

theorem work_collect (s : OpenOcdRpc) (chunk : Bytes) :
    work (s.collect chunk) = work s + chunk.length := by
  show _ + (s.greeting ++ s.kept ++ (s.current ++ chunk)).length = _
  rw [← List.append_assoc, List.length_append, ← Nat.add_assoc]
  rfl

theorem Sound.work_step (h : s.Sound) (ha : s.Serves a) (hs : s.step a = some s') :
    work s < work s' := by
  have hplace := h.place
  cases stepped hs with
  | found hpc =>
    simp only [work, hpc, rank]
    omega
  | accepted hpc text =>
    simp only [work, hpc, rank]
    omega
  | greeted hpc hchunk =>
    rw [hpc] at hplace
    simp only [work, hpc, rank, next, commands, hplace.1.greeting, List.length_append,
      List.length_cons, List.length_nil]
    omega
  | told hpc =>
    rw [hpc] at hplace
    have hlength := congrArg List.length hplace.2.1.order
    simp only [List.length_append, List.length_cons, commands, List.length_nil] at hlength
    simp only [work, hpc, rank, List.length_cons]
    omega
  | ended hpc hchunk =>
    rw [hpc] at hplace
    rw [work, hpc]
    exact work_finish hplace.1
  | more hpc hchunk hsome _ =>
    rw [work_collect]
    exact Nat.lt_add_of_pos_right (List.length_pos_iff.2 hsome)
  | @replied rest n chunk hpc hchunk hend =>
    rw [hpc] at hplace
    have hfinish : 8 - 2 * rest.length + s.executed.length +
        (s.greeting ++ s.kept ++ (s.collect chunk).current).length <
          work ((s.collect chunk).finish rest) := work_finish (s := s.collect chunk) hplace.1
    have hcollect : work (s.collect chunk) = work s + chunk.length := work_collect s chunk
    have hwork : work (s.collect chunk) = 8 - 2 * rest.length + s.executed.length +
        (s.greeting ++ s.kept ++ (s.collect chunk).current).length := by
      show rank s.pc + _ + _ = _
      rw [hpc]
      rfl
    omega
  | answered hpending _ _ =>
    simp only [work, List.length_append, List.length_singleton]
    omega
  | hungUp hpending _ =>
    simp only [work, List.length_append, List.length_singleton]
    omega
  | hangup => exact ha.elim
  | leave hdone hleft e =>
    have hrank : rank s.pc < 10 := by
      cases hpc : s.pc with
      | done => exact absurd hpc hdone
      | left e => exact absurd hpc (hleft e)
      | sending rest => rw [rank]; omega
      | reading rest => rw [rank]; omega
      | _ => decide
    exact Nat.add_lt_add_right (Nat.add_lt_add_right hrank _) _

end

theorem work_run {s s' : OpenOcdRpc} (h : Run step Serves s acts s') (hs : s.Sound) :
    work s + acts.length ≤ work s' := by
  induction h with
  | nil s => exact Nat.le_refl _
  | cons ha hstep _ ih =>
    have hone := hs.work_step ha hstep
    have hrest := ih (hs.step ha hstep)
    rw [List.length_cons]
    omega

theorem Sound.work_le {s : OpenOcdRpc} (h : s.Sound) :
    work s ≤ s.texts.flatten.length + 13 := by
  have hrank : rank s.pc ≤ 10 := by
    cases s.pc with
    | sending rest | reading rest => rw [rank]; omega
    | left e => exact Nat.le_refl 10
    | _ => decide
  have hexecuted : s.executed.length ≤ 3 := by
    obtain ⟨rest, horder⟩ := h.place.ordered
    have hlength := congrArg List.length horder
    simp only [List.length_append, commands, List.length_cons, List.length_nil] at hlength
    omega
  have hread : (s.greeting ++ s.kept ++ s.current).length ≤ s.texts.flatten.length := by
    rw [h.stream]
    exact (List.prefix_append _ _).length_le
  rw [work]
  omega

end OpenOcdRpc

/-- A provision ends: it takes no more steps than bytes are written, and some for each command, and
a `recv` that times out has a daemon that has not answered. -/
theorem openocd_rpc_progress {p : OpenOcdRpcProvisioner} {s : OpenOcdRpc}
    (h : Run OpenOcdRpc.step OpenOcdRpc.Serves (OpenOcdRpc.start p image resolved) acts s) :
    acts.length ≤ s.texts.flatten.length + 13 ∧ s.Live := by
  refine ⟨?_, (OpenOcdRpc.run_sound h).live⟩
  have hrun := OpenOcdRpc.work_run h (OpenOcdRpc.start_sound p image resolved)
  have hwork := (OpenOcdRpc.run_sound h).work_le
  omega

theorem openocd_rpc_progress_behind :
    (OpenOcdRpc.afterActs OpenOcdRpc.behind).pending =
      ["reset halt", "program /srv/app.elf verify reset"] ∧
    (OpenOcdRpc.afterActs OpenOcdRpc.behind).Live := by
  have hrun : Run OpenOcdRpc.step OpenOcdRpc.Serves OpenOcdRpc.jigProvision OpenOcdRpc.behind
      (OpenOcdRpc.afterActs OpenOcdRpc.behind) :=
    Run.of_runFrom (runFrom_getD (by decide +kernel)) OpenOcdRpc.behind_serves
  exact ⟨by decide +kernel, (openocd_rpc_progress hrun).2⟩

end MesCore
