import MesCore.SerialClient
import MesCore.BootCalls

namespace MesCore
set_option autoImplicit true

/-- A command given to `safe_run`, with the prompt it waits for and the mark it draws, and what the
console sent back. -/
structure Exchange where
  cmd : String
  prompt : String
  token : String
  reply : Reply

/-- A bench on which only the serial line works: some hardware for everything else, the marker
`safe_run` draws, and a console that is sent a typed line and replies. -/
structure Bench where
  base : Hardware
  shellPrompt : String
  execToken : base.State → String
  console : Bytes → base.State → Except Err Reply × base.State

/-- The bench keeps what was typed at its console. -/
structure Bench.State (b : Bench) where
  base : b.base.State
  typed : List Exchange := []

/-- The line `safe_run` types for a command, as `write_line` encodes it. -/
def typedLine (prompt token cmd : String) : Bytes := ascii (injectedCmd prompt token cmd ++ "\n")

/-- `safe_run` on the console of a bench. -/
def Bench.run (b : Bench) (cmd : String) (prompt : Option String) (timeoutMs : Nat) (check : Bool)
    (s : b.State) : Except Err CommandResult × b.State :=
  let p := prompt.getD b.shellPrompt
  let token := b.execToken s.base
  match b.console (typedLine p token cmd) s.base with
  | (.ok reply, s') =>
    (checkedResult cmd timeoutMs check (safeRunResult p token reply),
      ⟨s', s.typed ++ [⟨cmd, p, token, reply⟩]⟩)
  | (.error e, s') => (.error e, ⟨s', s.typed⟩)

def Bench.hardware (b : Bench) : Hardware where
  State := b.State
  respond
    | .serialSafeRun cmd prompt timeoutMs check, s => b.run cmd prompt timeoutMs check s
    | .sshIsConnected, s => (.ok false, s)
    | .sshConnect, s => (.error (.transportConnectionError "SSH is down."), s)
    | .sshSafeRun _ _ _, s => (.error (.transportConnectionError "SSH is down."), s)
    | .serialUnsubscribe, s => (.ok (), s)
    | c, s => ((b.base.respond c s.base).1, ⟨(b.base.respond c s.base).2, s.typed⟩)

def ttyEcho (typed : Bytes) : Bytes := typed.flatMap fun b => if b = 0x0A then [0x0D, 0x0A] else [b]

/-- The word stands in a line that has no prompt in it and is no message of the kernel. -/
def Readable (prompt word : String) (text : List Char) : Prop :=
  ∃ l ∈ splitNewline text, word.toList <:+: l ∧ ¬ prompt.toList <:+: pyStrip l ∧
    isKernelLog (pyStrip l) = false

/-- These chunks are the first ones that show the pattern, once escape sequences are gone. -/
def ShownBy (pattern raw : Bytes) (chunks cs : List Bytes) : Prop :=
  cs <+: chunks ∧ cs ≠ [] ∧ pattern <:+: stripAnsi (raw ++ cs.flatten) ∧
    ∀ cs', cs' <+: cs → cs' ≠ [] → pattern <:+: stripAnsi (raw ++ cs'.flatten) → cs' = cs

/-- The reply has the word where it is taken for output: on the lines up to the prompt, on a Linux
shell only on those between the marks; anywhere if the prompt does not come in time. -/
def Exchange.Counts (x : Exchange) (word : String) : Prop :=
  let prompted := ShownBy (encodeUtf8 x.prompt.toList) [] x.reply.heard
  (∃ cs, prompted cs ∧
    let text := decodeReplace (stripAnsi cs.flatten)
    Readable x.prompt word (if isUboot x.prompt then text else betweenMarkers x.token text)) ∨
  (∀ cs, ¬ prompted cs) ∧ word.toList <:+: liveBuffer (x.reply.missed ++ x.reply.heard)

variable {b : Bench}

def Bench.typed (w w' : World b.hardware) : List Exchange := w'.dev.typed.drop w.dev.typed.length

/-- Between two worlds the console was sent this command and the shell executed it. -/
def Bench.Executed (cmd : String) (w w' : World b.hardware) : Prop :=
  ∃ x ∈ Bench.typed w w', x.cmd = cmd ∧ x.reply.executed = true

/-- No reply to a line that was not executed has the word where it counts. -/
def Bench.Unfooled (word : String) (w w' : World b.hardware) : Prop :=
  ∀ x ∈ Bench.typed w w', x.reply.executed = false → ¬ x.Counts word

theorem infix_cleanStdout_iff {word prompt : String} {raw : List Char}
    (hword : ∀ c ∈ word.toList, isPySpace c = false) (hne : word.toList ≠ []) :
    word.toList <:+: cleanStdout prompt raw ↔ Readable prompt word raw := by
  have hx : '\n' ∉ word.toList := by
    intro h
    cases hword _ h
  have hstrip (s : List Char) : word.toList <:+: pyStrip s ↔ word.toList <:+: s := by
    constructor
    · exact fun h => h.trans (pyStrip_isInfix s)
    · intro h
      apply infix_pyStrip h
      · exact fun c hc => hword c (List.mem_of_mem_head? hc)
      · exact fun c hc => hword c (List.mem_of_mem_getLast? hc)
  rw [cleanStdout, hstrip, infix_joinLines_iff hx hne, cleanLines]
  constructor
  · intro h
    obtain ⟨k, hk, hin⟩ := h
    obtain ⟨hk, hkept⟩ := List.mem_filter.1 hk
    obtain ⟨l, hl, rfl⟩ := List.mem_map.1 hk
    simp only [Bool.and_eq_true, Bool.not_eq_true', decide_eq_false_iff_not] at hkept
    exact ⟨l, hl, (hstrip l).1 hin, hkept.1.2, hkept.2⟩
  · intro h
    obtain ⟨l, hl, hin, hprompt, hlog⟩ := h
    have hin' := (hstrip l).2 hin
    have hnil : pyStrip l ≠ [] := by
      intro h
      rw [h] at hin'
      exact hne (List.infix_nil.1 hin')
    apply Exists.intro (pyStrip l)
    apply And.intro _ hin'
    apply List.mem_filter.2
    apply And.intro (List.mem_map_of_mem hl)
    simpa [hprompt, hlog] using hnil

theorem shownBy_cons {pattern raw c : Bytes} {chunks cs : List Bytes} :
    ShownBy pattern raw (c :: chunks) cs ↔
      if pattern <:+: stripAnsi (raw ++ c) then cs = [c]
      else ∃ t, cs = c :: t ∧ ShownBy pattern (raw ++ c) chunks t := by
  have hone : [c] ≠ [] := List.cons_ne_nil c []
  have hone' : raw ++ [c].flatten = raw ++ c := by simp
  have hcons (t : List Bytes) : raw ++ (c :: t).flatten = raw ++ c ++ t.flatten := by simp
  have hhead (t : List Bytes) : [c] <+: c :: t := List.cons_prefix_cons.2 ⟨rfl, List.nil_prefix⟩
  split
  · rename_i hshown
    constructor
    · intro h
      obtain ⟨hcs, hne, _, hleast⟩ := h
      cases cs with
      | nil => exact absurd rfl hne
      | cons c' t =>
        obtain ⟨rfl, _⟩ := List.cons_prefix_cons.1 hcs
        exact (hleast [c'] (hhead t) hone (by rwa [hone'])).symm
    · rintro rfl
      refine ⟨hhead chunks, hone, by rwa [hone'], ?_⟩
      intro cs' hcs' hne _
      cases cs' with
      | nil => exact absurd rfl hne
      | cons c' t =>
        obtain ⟨rfl, ht⟩ := List.cons_prefix_cons.1 hcs'
        rw [List.prefix_nil.1 ht]
  · rename_i hnot
    constructor
    · intro h
      obtain ⟨hcs, hne, hshown, hleast⟩ := h
      cases cs with
      | nil => exact absurd rfl hne
      | cons c' t =>
        obtain ⟨rfl, ht⟩ := List.cons_prefix_cons.1 hcs
        have htail : t ≠ [] := by
          rintro rfl
          exact hnot (by rwa [hone'] at hshown)
        rw [hcons] at hshown
        refine ⟨t, rfl, ht, htail, hshown, ?_⟩
        intro t' ht' _ hshown'
        have h := hleast (c' :: t') (List.cons_prefix_cons.2 ⟨rfl, ht'⟩)
          (List.cons_ne_nil c' t') (by rwa [hcons])
        exact List.tail_eq_of_cons_eq h
    · intro h
      obtain ⟨t, rfl, ht, htail, hshown, hleast⟩ := h
      refine ⟨List.cons_prefix_cons.2 ⟨rfl, ht⟩, List.cons_ne_nil c t, by rwa [hcons], ?_⟩
      intro cs' hcs' hne hshown'
      cases cs' with
      | nil => exact absurd rfl hne
      | cons c' t' =>
        obtain ⟨rfl, ht'⟩ := List.cons_prefix_cons.1 hcs'
        have htail' : t' ≠ [] := by
          rintro rfl
          exact hnot (by rwa [hone'] at hshown')
        rw [hcons] at hshown'
        rw [hleast t' ht' htail' hshown']

/-- `expect` returns the cleaned text of the first chunks that show its pattern. -/
theorem expectScan_eq_some_iff {pattern raw out : Bytes} {chunks : List Bytes} :
    expectScan pattern raw chunks = some out ↔
      ∃ cs, ShownBy pattern raw chunks cs ∧ out = stripAnsi (raw ++ cs.flatten) := by
  induction chunks generalizing raw with
  | nil =>
    apply iff_of_false
    · exact fun h => nomatch h
    · intro h
      obtain ⟨cs, ⟨hcs, hne, _⟩, _⟩ := h
      exact hne (List.prefix_nil.1 hcs)
  | cons c chunks ih =>
    simp only [shownBy_cons]
    rw [expectScan]
    split
    · simp [eq_comm]
    · rw [ih]
      constructor
      · intro h
        obtain ⟨t, ht, rfl⟩ := h
        exact ⟨c :: t, ⟨t, rfl, ht⟩, by simp⟩
      · intro h
        obtain ⟨_, ⟨t, rfl, ht⟩, rfl⟩ := h
        exact ⟨t, ht, by simp⟩

/-- A word is in what `safe_run` reports where the reply has it where it counts. -/
theorem Exchange.counts_iff (x : Exchange) {word : String}
    (hword : ∀ c ∈ word.toList, isPySpace c = false) (hne : word.toList ≠ []) :
    occursIn word (safeRunResult x.prompt x.token x.reply).stdout ↔ x.Counts word := by
  have hscan (out : Bytes) :
      expectScan (encodeUtf8 x.prompt.toList) [] x.reply.heard = some out ↔
        ∃ cs, ShownBy (encodeUtf8 x.prompt.toList) [] x.reply.heard cs ∧
          out = stripAnsi ([] ++ cs.flatten) := expectScan_eq_some_iff
  have honce (raw : Bytes)
      (hraw : expectScan (encodeUtf8 x.prompt.toList) [] x.reply.heard = some raw)
      (cs : List Bytes) (hcs : ShownBy (encodeUtf8 x.prompt.toList) [] x.reply.heard cs) :
      stripAnsi cs.flatten = raw := by
    have h := (hscan _).2 ⟨cs, hcs, rfl⟩
    rw [hraw] at h
    exact (Option.some.inj h).symm
  rw [occursIn, safeRunResult, Exchange.Counts]
  split
  · rename_i raw hraw
    obtain ⟨cs, hcs, hout⟩ := (hscan raw).1 hraw
    have hprompted : occursIn word (promptResult x.prompt x.token (decodeReplace raw)).stdout ↔
        Readable x.prompt word (if isUboot x.prompt then decodeReplace raw
          else betweenMarkers x.token (decodeReplace raw)) := by
      rw [occursIn, promptResult]
      split
      · rw [String.toList_ofList, infix_cleanStdout_iff hword hne]
      · rw [String.toList_ofList, infix_cleanStdout_iff hword hne]
    rw [occursIn] at hprompted
    rw [hprompted]
    constructor
    · intro h
      apply Or.inl
      apply Exists.intro cs
      apply And.intro hcs
      rwa [honce raw hraw cs hcs]
    · intro h
      rcases h with ⟨cs', hcs', h⟩ | ⟨hnone, _⟩
      · rwa [honce raw hraw cs' hcs'] at h
      · exact absurd hcs (hnone cs)
  · rename_i hnone
    have hnot (cs : List Bytes) :
        ¬ ShownBy (encodeUtf8 x.prompt.toList) [] x.reply.heard cs := by
      intro hcs
      have h := (hscan _).2 ⟨cs, hcs, rfl⟩
      rw [hnone] at h
      cases h
    rw [timeoutResult, String.toList_ofList]
    constructor
    · exact fun h => .inr ⟨hnot, h⟩
    · intro h
      rcases h with ⟨cs, hcs, _⟩ | ⟨_, h⟩
      · exact absurd hcs (hnot cs)
      · exact h

def Call.untyped : Call → Bool
  | .serialSafeRun _ _ _ _ => false
  | _ => true

abbrev Untyped {d : Hardware} (p : Fsm d α) : Prop := CallsOnly (fun c => Call.untyped c = true) p

theorem untyped_ask {d : Hardware} (c : Call) (h : c.untyped = true) :
    Untyped (ask c : Fsm d c.Ans) := .call (I := fsmInterface) c h

theorem CallsOnly.untyped {d : Hardware} {p : Fsm d α} (h : Silent p) : Untyped p := by
  apply h.mono
  intro c hc
  cases c <;> first | rfl | cases hc

/-- Nothing was typed between two worlds. -/
def Bench.Quiet (w w' : World b.hardware) : Prop := w'.dev.typed = w.dev.typed

/-- One command was typed at most, and a handshake is believed exactly if the word counts in the
reply to it. -/
def Bench.Judged (cmd word : String) (passed : Bool) (w w' : World b.hardware) : Prop :=
  (passed = false ∧ Bench.Quiet w w') ∨
    ∃ x, w'.dev.typed = w.dev.typed ++ [x] ∧ x.cmd = cmd ∧ (passed = true ↔ x.Counts word)

section
variable {cmd word : String} {passed : Bool} {w w₁ w' : World b.hardware}

theorem Bench.Quiet.judged (h : Bench.Quiet w w₁) (h' : Bench.Judged cmd word passed w₁ w') :
    Bench.Judged cmd word passed w w' := by
  rw [Bench.Quiet] at h
  rwa [Bench.Judged, Bench.Quiet, h] at h'

theorem Bench.Judged.quiet (h : Bench.Judged cmd word passed w w₁) (h' : Bench.Quiet w₁ w') :
    Bench.Judged cmd word passed w w' := by
  rw [Bench.Quiet] at h'
  rwa [Bench.Judged, Bench.Quiet, ← h'] at h

/-- Whether a handshake that was believed can be trusted is for the reply to say. -/
theorem Bench.Judged.unfooled_iff (h : Bench.Judged cmd word passed w w') :
    (passed = true → Bench.Executed cmd w w') ↔ Bench.Unfooled word w w' := by
  rcases h with ⟨rfl, h⟩ | ⟨x, h, hcmd, hpassed⟩
  · apply iff_of_true
    · exact fun h => nomatch h
    · intro x hx
      rw [Bench.typed, h, List.drop_length] at hx
      cases hx
  · have htyped : Bench.typed w w' = [x] := by rw [Bench.typed, h, List.drop_left]
    rw [hpassed, Bench.Executed, Bench.Unfooled, htyped]
    constructor
    · intro h y hy hex hcounts
      cases List.mem_singleton.1 hy
      obtain ⟨y, hy, _, hexec⟩ := h hcounts
      cases List.mem_singleton.1 hy
      rw [hex] at hexec
      cases hexec
    · intro h hcounts
      apply Exists.intro x
      apply And.intro (List.mem_singleton_self x)
      apply And.intro hcmd
      by_contra hex
      exact h x (List.mem_singleton_self x) (Bool.eq_false_iff.2 hex) hcounts

/-- A handshake that types one command at most may be trusted as far as the reply may. -/
theorem Bench.trusted_iff {p : Fsm b.hardware α} (passes : α → Bool)
    (h : wp p (fun a => Bench.Judged cmd word (passes a) w)
      (fun _ => Bench.Judged cmd word false w) w) :
    (∀ a w', p w = .ok a w' → passes a = true → Bench.Executed cmd w w') ↔
      Bench.Unfooled word w (World.after (p w)) := by
  cases hp : p w with
  | ok a w' =>
    rw [World.after_ok, ← (h.ok hp).unfooled_iff]
    constructor
    · exact fun h => h a w' rfl
    · intro h a' w'' h'
      cases h'
      exact h
  | error e w' =>
    rw [World.after_error, ← (h.error hp).unfooled_iff]
    apply iff_of_true
    · exact fun _ _ h => nomatch h
    · exact fun h => nomatch h

theorem Bench.respond_typed {c : Call} (h : c.untyped = true) (s : b.State) :
    (b.hardware.respond c s).2.typed = s.typed := by
  cases c <;> first | rfl | cases h

theorem History.typed {s s' : b.hardware.State} {seg : List (Entry fsmInterface)}
    (h : History b.hardware s seg s') (hc : ∀ c r, .call c r ∈ seg → Call.untyped c = true) :
    s'.typed = s.typed := by
  induction h with
  | nil s => rfl
  | call c _ ih =>
    rw [ih fun c' r h => hc c' r (List.mem_cons_of_mem _ h)]
    exact Bench.respond_typed (hc c _ (List.mem_cons_self ..)) _
  | note n _ ih => exact ih fun c r h => hc c r (List.mem_cons_of_mem _ h)

theorem CallsOnly.quiet {p : Fsm b.hardware α} (h : Untyped p) (w : World b.hardware) :
    MesCore.wp p (fun _ => Bench.Quiet w) (fun _ => Bench.Quiet w) w := by
  have hquiet (w' : World b.hardware) (h : Recorded (fun c => Call.untyped c = true) w w') :
      Bench.Quiet w w' := h.history.typed h.since
  exact (h.wp w).mono (fun _ => hquiet) fun _ => hquiet

theorem Bench.Quiet.judges {p : Fsm b.hardware α} (passes : α → Bool) (h : Bench.Quiet w w₁)
    (hp : MesCore.wp p (fun a => Bench.Judged cmd word (passes a) w₁)
      (fun _ => Bench.Judged cmd word false w₁) w₁) :
    MesCore.wp p (fun a => Bench.Judged cmd word (passes a) w)
      (fun _ => Bench.Judged cmd word false w) w₁ :=
  hp.mono (fun _ _ h' => h.judged h') fun _ _ h' => h.judged h'

theorem CallsOnly.judged {p : Fsm b.hardware β} {k : β → Fsm b.hardware α} (passes : α → Bool)
    (hp : Untyped p)
    (hk : ∀ a w, MesCore.wp (k a) (fun a => Bench.Judged cmd word (passes a) w)
      (fun _ => Bench.Judged cmd word false w) w) (w : World b.hardware) :
    MesCore.wp (p >>= k) (fun a => Bench.Judged cmd word (passes a) w)
      (fun _ => Bench.Judged cmd word false w) w := by
  rw [wp_bind]
  apply (hp.quiet w).mono
  · exact fun a w₁ h => Bench.Quiet.judges passes h (hk a w₁)
  · exact fun _ _ h => .inl ⟨rfl, h⟩

theorem Bench.run_ok {prompt : Option String} {timeoutMs : Nat} {s s' : b.State}
    {res : CommandResult} (h : b.run cmd prompt timeoutMs false s = (.ok res, s')) :
    ∃ x, s'.typed = s.typed ++ [x] ∧ x.cmd = cmd ∧
      res = safeRunResult x.prompt x.token x.reply := by
  unfold Bench.run at h
  dsimp only at h
  split at h
  · obtain ⟨hres, rfl⟩ := Prod.mk.inj h
    exact ⟨_, rfl, rfl, (Except.ok.inj hres).symm⟩
  · cases (Prod.mk.inj h).1

theorem Bench.run_error {prompt : Option String} {timeoutMs : Nat} {s s' : b.State} {e : Err}
    (h : b.run cmd prompt timeoutMs false s = (.error e, s')) : s'.typed = s.typed := by
  unfold Bench.run at h
  dsimp only at h
  split at h
  · cases (Prod.mk.inj h).1
  · obtain ⟨_, rfl⟩ := Prod.mk.inj h
    rfl

theorem wp_serialRun {prompt : Option String} {timeoutMs : Nat}
    (hword : ∀ c ∈ word.toList, isPySpace c = false) (hne : word.toList ≠ [])
    (w : World b.hardware) :
    wp (ask (.serialSafeRun cmd prompt timeoutMs false))
      (fun res => Bench.Judged cmd word (decide (occursIn word res.stdout)) w)
      (fun _ => Bench.Quiet w) w := by
  apply wp_respond
  · intro res s h
    obtain ⟨x, htyped, hcmd, rfl⟩ := Bench.run_ok h
    apply Or.inr
    apply Exists.intro x
    apply And.intro htyped
    apply And.intro hcmd
    rw [decide_eq_true_eq]
    exact x.counts_iff hword hne
  · intro e s h
    exact Bench.run_error h

end

theorem heartbeat_solid : ∀ c ∈ "MES_HEARTBEAT".toList, isPySpace c = false :=
  forall_mem_of_all (by decide)

theorem sync_solid : ∀ c ∈ "MES_SYNC".toList, isPySpace c = false :=
  forall_mem_of_all (by decide)

theorem untyped_reconnectSsh {d : Hardware} : Untyped (reconnectSsh : Fsm d Unit) :=
  (untyped_ask _ rfl).bind fun _ => .onlyIf _ ((untyped_ask _ rfl).attempt fun _ => .pure _)

theorem untyped_transportIsConnected {d : Hardware} :
    Untyped (transportIsConnected : Fsm d Bool) :=
  (untyped_ask _ rfl).bind fun _ => .ite (untyped_ask _ rfl) (untyped_ask _ rfl)

theorem untyped_sshHeartbeat {d : Hardware} : Untyped (sshHeartbeat : Fsm d Bool) := by
  apply CallsOnly.attempt
  · exact bare_connectSshWithRetry.silent.untyped.bind fun _ =>
      (untyped_ask _ rfl).bind fun _ => .pure _
  · exact fun _ => .pure _

theorem untyped_flushDeadUart {d : Hardware} : Untyped (flushDeadUart : Fsm d Unit) := by
  apply CallsOnly.attempt
  · apply (untyped_ask _ rfl).bind
    intro isOpen
    apply CallsOnly.ite
    · exact (untyped_ask _ rfl).bind fun _ => (untyped_ask _ rfl).bind fun _ =>
        (untyped_ask _ rfl).bind fun _ => untyped_ask _ rfl
    · exact .pure _
  · exact fun _ => .pure _

theorem sshHeartbeat_down (w : World b.hardware) :
    wp sshHeartbeat (fun alive w' => alive = false ∧ Bench.Quiet w w') (fun _ => Bench.Quiet w)
      w := by
  have hquiet := untyped_sshHeartbeat.quiet w
  unfold wp
  cases hp : sshHeartbeat w with
  | error e w' => exact hquiet.error hp
  | ok alive w' =>
    apply And.intro _ (hquiet.ok hp)
    rcases attempt_ok hp with h | ⟨e, w₁, _, _, h⟩
    · obtain ⟨_, w₁, h₁, h⟩ := bind_ok h
      obtain ⟨res, w₂, h₂, h⟩ := bind_ok h
      cases call_answer h₂
    · exact (pure_ok h).1.symm

theorem judged_transportSafeRun {word : String} (timeoutMs : Nat)
    (hword : ∀ c ∈ word.toList, isPySpace c = false) (hne : word.toList ≠ []) (cmd : String)
    (w : World b.hardware) :
    wp (transportSafeRun cmd timeoutMs false)
      (fun res => Bench.Judged cmd word (decide (occursIn word res.stdout)) w)
      (fun _ => Bench.Judged cmd word false w) w := by
  apply CallsOnly.judged _ (untyped_ask .sshIsConnected rfl)
  intro connected w
  cases connected with
  | true =>
    rw [if_pos rfl]
    apply wp_respond
    · intro res s h
      cases h
    · intro e s h
      cases h
      exact .inl ⟨rfl, rfl⟩
  | false =>
    exact (wp_serialRun hword hne w).mono (fun _ _ h => h) fun _ _ h => .inl ⟨rfl, h⟩

theorem judged_verifyHeartbeat (w : World b.hardware) :
    wp verifyHeartbeat (fun alive => Bench.Judged heartbeatCmd "MES_HEARTBEAT" alive w)
      (fun _ => Bench.Judged heartbeatCmd "MES_HEARTBEAT" false w) w := by
  apply CallsOnly.judged id calls_getState
  intro state w
  apply CallsOnly.judged id (CallsOnly.onlyIf _ untyped_reconnectSsh)
  intro _ w
  apply CallsOnly.judged id untyped_transportIsConnected
  intro connected w
  cases connected with
  | false => exact .inl ⟨rfl, rfl⟩
  | true =>
    change wp (attempt _ _ _) _ _ w
    rw [wp_attempt, wp_bind]
    apply (judged_transportSafeRun 5000 heartbeat_solid (by decide) heartbeatCmd w).mono
    · exact fun res w' h => h
    · intro e w' h
      split
      · exact h
      · exact h

theorem judged_tryResumeExistingOs (w : World b.hardware) :
    wp tryResumeExistingOs (fun alive => Bench.Judged heartbeatCmd "MES_HEARTBEAT" alive w)
      (fun _ => Bench.Judged heartbeatCmd "MES_HEARTBEAT" false w) w := by
  unfold tryResumeExistingOs
  rw [wp_bind]
  apply (sshHeartbeat_down w).mono _ fun _ _ h => .inl ⟨rfl, h⟩
  intro alive w₁ h
  obtain ⟨rfl, hq⟩ := h
  rw [if_neg Bool.false_ne_true]
  apply Bench.Quiet.judges id hq
  apply CallsOnly.judged id (untyped_ask .serialIsConnected rfl)
  intro connected w
  cases connected with
  | false => exact .inl ⟨rfl, rfl⟩
  | true =>
    rw [if_pos rfl, wp_bind, wp_attempt, wp_bind]
    apply (wp_serialRun heartbeat_solid (by decide) w).mono
    · intro res w₂ h
      change wp (if heartbeatSeen res then pure true else _) _ _ w₂
      split
      · rename_i hseen
        rwa [show decide (occursIn "MES_HEARTBEAT" res.stdout) = true from hseen] at h
      · rename_i hseen
        have hfalse : decide (occursIn "MES_HEARTBEAT" res.stdout) = false :=
          Bool.eq_false_iff.2 hseen
        rw [hfalse] at h
        rw [wp_bind]
        apply (untyped_flushDeadUart.quiet w₂).mono
        · exact fun _ _ h' => h.quiet h'
        · exact fun _ _ h' => h.quiet h'
    · intro e w₂ h
      split
      · exact .inl ⟨rfl, h⟩
      · exact .inl ⟨rfl, h⟩

section
variable {body : UartEvent → Fsm b.hardware Bool} {cmd word : String}

/-- A loop body that types a command only where it ends the loop or raises. -/
def JudgedBody (cmd word : String) (p : Fsm b.hardware Bool) : Prop :=
  ∀ w, wp p
    (fun done w' => if done then Bench.Judged cmd word true w w' else Bench.Quiet w w')
    (fun _ => Bench.Judged cmd word false w) w

theorem JudgedBody.pure_false : JudgedBody cmd word (pure false : Fsm b.hardware Bool) :=
  fun _ => rfl

theorem JudgedBody.bind {p : Fsm b.hardware β} {k : β → Fsm b.hardware Bool} (hp : Untyped p)
    (hk : ∀ a, JudgedBody cmd word (k a)) : JudgedBody cmd word (p >>= k) := by
  intro w
  rw [wp_bind]
  apply (hp.quiet w).mono
  · intro a w₁ h
    apply (hk a w₁).mono
    · intro done w' h'
      cases done with
      | true => exact h.judged h'
      | false => exact h'.trans h
    · exact fun _ _ h' => h.judged h'
  · exact fun _ _ h => .inl ⟨rfl, h⟩

theorem JudgedBody.next {p q : Fsm b.hardware Bool} (hp : JudgedBody cmd word p)
    (hq : JudgedBody cmd word q) :
    JudgedBody cmd word (do let done ← p; if done then pure true else q) := by
  intro w
  rw [wp_bind]
  apply (hp w).mono
  · intro done w₁ h
    cases done with
    | true => exact h
    | false =>
      apply (hq w₁).mono
      · intro done w' h'
        cases done with
        | true => exact Bench.Quiet.judged h h'
        | false => exact h'.trans h
      · exact fun _ _ h' => Bench.Quiet.judged h h'
  · exact fun _ _ h => h

theorem JudgedBody.runEvents (hb : ∀ ev, JudgedBody cmd word (body ev)) (evs : List UartEvent) :
    JudgedBody cmd word (runEvents body evs) := by
  induction evs with
  | nil => exact .pure_false
  | cons ev evs ih => exact (hb ev).next ih

theorem JudgedBody.streamLoop (hb : ∀ ev, JudgedBody cmd word (body ev)) (p : StreamParams)
    (ping : Option Bytes) (turns : Nat) (st : StreamState) :
    JudgedBody cmd word (streamLoop p ping body turns st) := by
  induction turns generalizing st with
  | zero => exact .pure_false
  | succ turns ih =>
    apply JudgedBody.bind (untyped_ask .rxQueueGet rfl)
    intro poll
    cases poll with
    | empty pingDue tickDue =>
      apply JudgedBody.bind
      · cases ping with
        | none => exact .pure _
        | some c => exact .onlyIf _ (untyped_ask _ rfl)
      · intro _
        apply JudgedBody.next _ (ih st)
        rw [idle]
        split
        · exact hb _
        · exact .pure_false
    | chunk c =>
      dsimp only
      split
      · exact ih st
      · apply (JudgedBody.runEvents hb _).next
        split
        · exact .pure_false
        · exact ih _

theorem JudgedBody.overStream (hb : ∀ ev, JudgedBody cmd word (body ev)) (p : StreamParams)
    (flush : Bool) (ping : Option Bytes) :
    JudgedBody cmd word (overStream p flush ping body) := by
  apply JudgedBody.bind (CallsOnly.onlyIf _ (untyped_ask _ rfl))
  intro _
  apply JudgedBody.bind (untyped_ask .serialSubscribe rfl)
  intro _ w
  have hloop : JudgedBody cmd word (do
      let turns : Nat ← ask .streamTurns
      MesCore.streamLoop p ping body turns p.start) :=
    .bind (untyped_ask .streamTurns rfl) fun turns => .streamLoop hb p ping turns p.start
  have hunsubscribe (w : World b.hardware) :
      wp (ask .serialUnsubscribe) (fun _ => Bench.Quiet w) never w := by
    apply wp_respond
    · intro _ s h
      cases h
      rfl
    · intro e s h
      cases h
  rw [wp_ensuring]
  apply (hloop w).mono
  · intro done w₁ h
    apply ((hunsubscribe w₁).mono _ fun _ _ h => h.elim)
    intro _ w' hq
    cases done with
    | true => exact Bench.Judged.quiet h hq
    | false => exact hq.trans h
  · intro e w₁ h
    exact (hunsubscribe w₁).mono (fun _ _ hq => h.quiet hq) fun _ _ h => h.elim

end

theorem judged_syncBootloader (fsm : Station) (w : World b.hardware) :
    wp (syncBootloader fsm) (fun _ => Bench.Judged "echo MES_SYNC" "MES_SYNC" true w)
      (fun _ => Bench.Judged "echo MES_SYNC" "MES_SYNC" false w) w := by
  apply CallsOnly.judged (fun _ => true) (untyped_ask (.serialRawWrite (ascii "\n")) rfl)
  intro _ w
  apply CallsOnly.judged (fun _ => true) (untyped_ask (.sleep 100) rfl)
  intro _ w
  apply CallsOnly.judged (fun _ => true) (untyped_ask .serialFlushBuffers rfl)
  intro _ w
  rw [wp_bind]
  apply (wp_serialRun sync_solid (by decide) w).mono
  · intro res w₁ h
    split
    · rename_i hseen
      rwa [decide_eq_true hseen] at h
    · rename_i hseen
      rwa [decide_eq_false hseen] at h
  · exact fun _ _ h => .inl ⟨rfl, h⟩

theorem judged_bootloaderEvent (fsm : Station) (ev : UartEvent) :
    JudgedBody "echo MES_SYNC" "MES_SYNC" (bootloaderEvent fsm ev : Fsm b.hardware Bool) := by
  have hsnipe (n : Nat) : Untyped (snipeAutoboot fsm n : Fsm b.hardware Unit) := by
    induction n with
    | zero => exact .pure _
    | succ n ih => exact (untyped_ask _ rfl).bind fun _ => (untyped_ask _ rfl).bind fun _ => ih
  cases ev with
  | promptDetected ptype =>
    rw [bootloaderEvent]
    split
    · intro w
      rw [wp_bind]
      exact judged_syncBootloader fsm w
    · exact .pure_false
  | autobootWindowDetected => exact .bind (hsnipe 3) fun _ => .pure_false
  | panicDetected raw => exact fun _ => .inl ⟨rfl, rfl⟩
  | milestoneReached name => exact .pure_false
  | bootDataReceived line => exact .pure_false
  | idleTick => exact .pure_false

theorem judged_eventWaitForBootloader (fsm : Station) (intercept : Bool) (w : World b.hardware) :
    wp (eventWaitForBootloader fsm intercept)
      (fun _ => Bench.Judged "echo MES_SYNC" "MES_SYNC" true w)
      (fun _ => Bench.Judged "echo MES_SYNC" "MES_SYNC" false w) w := by
  unfold eventWaitForBootloader
  rw [wp_bind]
  apply (JudgedBody.overStream (judged_bootloaderEvent fsm) _ _ _ w).mono
  · intro done w' h
    cases done with
    | true => exact h
    | false => exact .inl ⟨rfl, h⟩
  · exact fun _ _ h => h

/-- A board that hangs with its trap string on the screen. -/
def hungBoard : (c : Call) → Except Err c.Ans
  | .serialIsConnected => .ok true
  | .streamTurns => .ok 1
  | .rxQueueGet => .ok (.chunk (ascii "MES Framework Trap"))
  | _ => .ok default

/-- A tty that echoes what is typed, before anyone listens, and nothing behind it. -/
def deadTty : Bench where
  base := steady hungBoard
  shellPrompt := "root@"
  execToken _ := "0badf00d"
  console typed s := (.ok { missed := [ttyEcho typed] }, s)

def switchedOn : World deadTty.hardware := ⟨{}, ⟨(), []⟩, []⟩

theorem fooled_of_run {p : Fsm deadTty.hardware α} (cmd : String) (passes : α → Bool)
    (h : (match p switchedOn with
      | .ok a w' => passes a && w'.dev.typed.all fun x => !x.reply.executed
      | .error _ _ => false) = true) :
    ∃ a w', p switchedOn = .ok a w' ∧ passes a = true ∧ ¬ Bench.Executed cmd switchedOn w' := by
  cases hp : p switchedOn with
  | error e w' =>
    rw [hp] at h
    cases h
  | ok a w' =>
    rw [hp] at h
    obtain ⟨hpass, hidle⟩ := (Bool.and_eq_true_iff ..).1 h
    apply Exists.intro a
    apply Exists.intro w'
    apply And.intro rfl
    apply And.intro hpass
    intro hexec
    obtain ⟨x, hx, _, hexec⟩ := hexec
    have hno := List.all_eq_true.1 hidle x (List.mem_of_mem_drop hx)
    rw [hexec] at hno
    cases hno

/-- What a handshake that passed says is true exactly where no reply to a line that was not
executed has the word where it counts. -/
theorem handshakes_sound_iff (b : Bench) (fsm : Station) (intercept : Bool)
    (w : World b.hardware) :
    ((∀ w', verifyHeartbeat w = .ok true w' → Bench.Executed heartbeatCmd w w') ↔
        Bench.Unfooled "MES_HEARTBEAT" w (World.after (verifyHeartbeat w))) ∧
      ((∀ w', tryResumeExistingOs w = .ok true w' → Bench.Executed heartbeatCmd w w') ↔
        Bench.Unfooled "MES_HEARTBEAT" w (World.after (tryResumeExistingOs w))) ∧
      ((∀ w', eventWaitForBootloader fsm intercept w = .ok () w' →
          Bench.Executed "echo MES_SYNC" w w') ↔
        Bench.Unfooled "MES_SYNC" w (World.after (eventWaitForBootloader fsm intercept w))) := by
  have hbool {p : Fsm b.hardware Bool} {cmd word : String}
      (h : wp p (fun alive => Bench.Judged cmd word alive w)
        (fun _ => Bench.Judged cmd word false w) w) :
      (∀ w', p w = .ok true w' → Bench.Executed cmd w w') ↔
        Bench.Unfooled word w (World.after (p w)) := by
    rw [← Bench.trusted_iff id h]
    constructor
    · rintro h alive w' hp rfl
      exact h w' hp
    · exact fun h w' hp => h true w' hp rfl
  apply And.intro (hbool (judged_verifyHeartbeat w))
  apply And.intro (hbool (judged_tryResumeExistingOs w))
  rw [← Bench.trusted_iff (fun _ => true) (judged_eventWaitForBootloader fsm intercept w)]
  constructor
  · exact fun h _ w' hp _ => h w' hp
  · exact fun h w' hp => h () w' hp rfl

/-- An echo and nothing else passes every handshake; so does an echo before a prompt. -/
theorem handshakes_fooled :
    (∃ w', verifyHeartbeat switchedOn = .ok true w' ∧
        ¬ Bench.Executed heartbeatCmd switchedOn w') ∧
      (∃ w', tryResumeExistingOs switchedOn = .ok true w' ∧
        ¬ Bench.Executed heartbeatCmd switchedOn w') ∧
      (∃ w', eventWaitForBootloader {} true switchedOn = .ok () w' ∧
        ¬ Bench.Executed "echo MES_SYNC" switchedOn w') ∧
      heartbeatSeen (safeRunResult "root@" "0badf00d"
        { heard := [ttyEcho (typedLine "root@" "0badf00d" heartbeatCmd), ascii "root@dut:~# "]
          executed := false }) = true := by
  have hheartbeat := fooled_of_run (p := verifyHeartbeat) heartbeatCmd id (by decide +kernel)
  have hresume := fooled_of_run (p := tryResumeExistingOs) heartbeatCmd id (by decide +kernel)
  have hsync := fooled_of_run (p := eventWaitForBootloader {} true) "echo MES_SYNC"
    (fun _ => true) (by decide +kernel)
  obtain ⟨_, w₁, h₁, rfl, hidle₁⟩ := hheartbeat
  obtain ⟨_, w₂, h₂, rfl, hidle₂⟩ := hresume
  obtain ⟨_, w₃, h₃, _, hidle₃⟩ := hsync
  exact ⟨⟨w₁, h₁, hidle₁⟩, ⟨w₂, h₂, hidle₂⟩, ⟨w₃, h₃, hidle₃⟩, by decide +kernel⟩

end MesCore
