import MesCore.BootCalls
import MesCore.CallHistory

namespace MesCore
set_option autoImplicit true

def subscribes : Entry fsmInterface → Bool
  | .call .serialSubscribe _ => true
  | _ => false

def unsubscribes : Entry fsmInterface → Bool
  | .call .serialUnsubscribe _ => true
  | _ => false

def connectsSsh : Entry fsmInterface → Bool
  | .call .sshConnect _ => true
  | _ => false

def validates : Entry fsmInterface → Bool
  | .call (.runValidator _) _ => true
  | _ => false

def timesOut : Entry fsmInterface → Bool
  | .call _ (.error (.transportTimeoutError _)) => true
  | _ => false

/-- An answer to a heartbeat command that holds the token. -/
def beats : Entry fsmInterface → Bool
  | .call (.sshSafeRun cmd _ _) (.ok res) => decide (cmd = heartbeatCmd) && heartbeatSeen res
  | .call (.serialSafeRun cmd _ _ _) (.ok res) => decide (cmd = heartbeatCmd) && heartbeatSeen res
  | _ => false

/-- The history from where somebody first listens to the console. -/
def listening (seg : List (Entry fsmInterface)) : List (Entry fsmInterface) :=
  seg.dropWhile fun e => !subscribes e

/-- The needle stands in the current line when one of the chunks has come in; an empty chunk
completes nothing. -/
def shownIn (needle : Bytes) (buf : List Char) : List Bytes → Bool
  | [] => false
  | c :: cs =>
    if c = [] then shownIn needle buf cs
    else decide (needle <:+: encodeUtf8 (buf ++ decodeReplace (stripAnsi c))) ||
      shownIn needle (lineBuffer buf [c]) cs

/-- What follows the answer on which a finalization times out, after `n` attempts to connect over
SSH. The first nine of them and the validators may time out. -/
def afterTimeout : Nat → List (Entry fsmInterface) → Option (List (Entry fsmInterface))
  | _, [] => none
  | n, e :: rest =>
    if connectsSsh e then
      if timesOut e && decide (9 ≤ n) then some rest else afterTimeout (n + 1) rest
    else if timesOut e && !validates e then some rest
    else afterTimeout n rest

/-- What follows a login that is refused once its session on the console is over. -/
def afterSession (shown : Bool) :
    List (Entry fsmInterface) → Option (List (Entry fsmInterface))
  | [] => none
  | .call .serialUnsubscribe (.ok _) :: rest => if shown then afterTimeout 0 rest else some rest
  | _ :: rest => some rest

/-- What follows a login that is refused: nobody gets to listen, no shell prompt shows before the
session ends, or the finalization behind the prompt times out. -/
def afterLogin (fsm : Station) :
    List (Entry fsmInterface) → Option (List (Entry fsmInterface))
  | [] => none
  | .call .serialSubscribe (.ok _) :: rest =>
    afterSession (shownIn (ascii fsm.cfg.osShellPrompt) []
        (rxChunks (rest.takeWhile fun e => !unsubscribes e)))
      (rest.dropWhile fun e => !unsubscribes e)
  | _ :: rest => some rest

/-- The replies of the target that refuse the first login on its console. -/
def LoginRefused (fsm : Station) (seg : List (Entry fsmInterface)) : Prop :=
  (afterLogin fsm (listening seg)).isSome = true

section
variable {seg seg' tail : List (Entry fsmInterface)}

theorem heartbeatAnswered_iff : HeartbeatAnswered seg ↔ seg.any beats = true := by
  rw [List.any_eq_true]
  constructor
  · rintro (⟨t, k, res, hm, hr⟩ | ⟨p, t, k, res, hm, hr⟩)
    · exact ⟨_, hm, by simp [beats, hr]⟩
    · exact ⟨_, hm, by simp [beats, hr]⟩
  · rintro ⟨e, he, hb⟩
    unfold beats at hb
    split at hb
    · obtain ⟨hcmd, hr⟩ := Bool.and_eq_true_iff.1 hb
      cases of_decide_eq_true hcmd
      exact .inl ⟨_, _, _, he, hr⟩
    · obtain ⟨hcmd, hr⟩ := Bool.and_eq_true_iff.1 hb
      cases of_decide_eq_true hcmd
      exact .inr ⟨_, _, _, _, he, hr⟩
    · cases hb

instance : Decidable (HeartbeatAnswered seg) := decidable_of_iff _ heartbeatAnswered_iff.symm

instance (fsm : Station) : Decidable (LoginRefused fsm seg) :=
  inferInstanceAs (Decidable ((afterLogin fsm (listening seg)).isSome = true))

theorem listening_append (h : ∀ e ∈ seg, subscribes e = false) :
    listening (seg ++ tail) = listening tail :=
  List.dropWhile_append_of_pos fun e he => by rw [h e he]; rfl

theorem listening_subscribed {r : Except Err Unit} :
    listening (did .serialSubscribe r :: seg) = did .serialSubscribe r :: seg :=
  List.dropWhile_cons_of_neg (by simp [subscribes])

theorem afterLogin_session (fsm : Station) {u : Unit} {r : Except Err Unit}
    (h : ∀ e ∈ seg, unsubscribes e = false) :
    afterLogin fsm (did .serialSubscribe (.ok u) :: (seg ++ did .serialUnsubscribe r :: tail)) =
      afterSession (shownIn (ascii fsm.cfg.osShellPrompt) [] (rxChunks seg))
        (did .serialUnsubscribe r :: tail) := by
  have hall : ∀ e ∈ seg, (!unsubscribes e) = true := fun e he => by rw [h e he]; rfl
  rw [afterLogin, List.takeWhile_append_of_pos hall, List.dropWhile_append_of_pos hall,
    List.takeWhile_cons_of_neg (by simp [unsubscribes]),
    List.dropWhile_cons_of_neg (by simp [unsubscribes]), List.append_nil]

theorem rxChunks_off (h : ∀ e ∈ seg, received e = none) :
    rxChunks (seg ++ tail) = rxChunks tail := by
  rw [rxChunks_append, rxChunks, List.filterMap_eq_nil_iff.2 h, List.nil_append]

end

theorem promptScan_detected {clean : Bytes} {prompts : List (String × Bytes)}
    {detected : List String} {t : String} (h : t ∈ (promptScan clean prompts detected).2) :
    t ∈ detected ∨ UartEvent.promptDetected t ∈ (promptScan clean prompts detected).1 := by
  induction prompts generalizing detected with
  | nil => exact .inl h
  | cons kv rest ih =>
    obtain ⟨ptype, pbytes⟩ := kv
    rw [promptScan] at h ⊢
    split at h
    · rename_i hseen
      rw [if_pos hseen]
      rcases ih h with hd | he
      · rcases List.mem_append.1 hd with hd | hd
        · exact .inl hd
        · rw [List.mem_singleton.1 hd]
          exact .inr (List.mem_cons_self ..)
      · exact .inr (List.mem_cons_of_mem _ he)
    · rename_i hseen
      rw [if_neg hseen]
      exact ih h

section
variable {d : Hardware} (fsm : Station)

theorem feed_noShell {st : StreamState} {c : Bytes} (hs : "shell" ∉ st.detectedPrompts)
    (hc : ¬ ascii fsm.cfg.osShellPrompt <:+:
      encodeUtf8 (st.localBuf ++ decodeReplace (stripAnsi c))) :
    UartEvent.promptDetected "shell" ∉ (st.feed (osShellStream fsm) c).1 ∧
      "shell" ∉ (st.feed (osShellStream fsm) c).2.detectedPrompts := by
  have hno : UartEvent.promptDetected "shell" ∉ (st.feed (osShellStream fsm) c).1 := by
    intro h
    obtain ⟨pbytes, hm, hin⟩ := StreamState.feed_prompt h
    rw [osShellStream_shell fsm hm] at hin
    exact hc hin
  refine ⟨hno, fun h => ?_⟩
  rw [StreamState.feed] at h hno
  dsimp only at h hno
  split at h
  · exact hs h
  · rw [if_neg ‹_›] at hno
    rcases promptScan_detected h with h | h
    · exact hs h
    · exact hno (List.mem_append_left _ (List.mem_append_right _ h))

/-- With its prompt in the line, a chunk brings a shell before anything else, or a panic. -/
theorem feed_shell {st : StreamState} {c : Bytes} (hs : "shell" ∉ st.detectedPrompts)
    (hc : ascii fsm.cfg.osShellPrompt <:+:
      encodeUtf8 (st.localBuf ++ decodeReplace (stripAnsi c))) :
    (∃ raw, (st.feed (osShellStream fsm) c).1 = [.panicDetected raw]) ∨
      ∃ evs, (st.feed (osShellStream fsm) c).1 = .promptDetected "shell" :: evs := by
  have hscan : ∃ evs detected, promptScan (encodeUtf8 (st.localBuf ++ decodeReplace (stripAnsi c)))
      (osShellStream fsm).prompts st.detectedPrompts =
        (.promptDetected "shell" :: evs, detected) := by
    have hprompts : ∃ rest, (osShellStream fsm).prompts =
        ("shell", ascii fsm.cfg.osShellPrompt) :: rest := ⟨_, rfl⟩
    obtain ⟨rest, hrest⟩ := hprompts
    rw [hrest, promptScan, if_pos ⟨hs, hc⟩]
    exact ⟨_, _, rfl⟩
  obtain ⟨evs, detected, hscan⟩ := hscan
  rw [StreamState.feed]
  dsimp only
  split
  · exact .inl ⟨_, rfl⟩
  · right
    rw [hscan]
    exact ⟨_, rfl⟩

/-- Entries that neither open, read nor close a session on the console and hold no heartbeat. -/
structure Muted (e : Entry fsmInterface) : Prop where
  received : received e = none
  subscribes : subscribes e = false
  unsubscribes : unsubscribes e = false
  beats : beats e = false

theorem muted_of_finalizes {c : Call} (h : c.finalizes = true) (r : Except Err c.Ans) :
    Muted (did c r) := by
  cases c with
  | serialSafeRun cmd prompt timeoutMs check =>
    have hcmd : cmd ≠ heartbeatCmd := of_decide_eq_true (Call.beatless_of_finalizes h)
    refine ⟨rfl, rfl, rfl, ?_⟩
    cases r with
    | ok res => simp [MesCore.beats, hcmd]
    | error e => rfl
  | _ => first | exact ⟨rfl, rfl, rfl, rfl⟩ | cases h

theorem Finalizes.muted {p : Fsm d α} (h : Finalizes p) :
    Leaves p (fun _ seg => ∀ e ∈ seg, Muted e) fun _ seg => ∀ e ∈ seg, Muted e := by
  have hall (seg : List (Entry fsmInterface))
      (hk : ∀ c r, .call (I := fsmInterface) c r ∈ seg → Call.finalizes c = true) :
      ∀ e ∈ seg, Muted e := by
    intro e he
    cases e with
    | call c r => exact muted_of_finalizes (hk c r he) r
    | note n => exact ⟨rfl, rfl, rfl, rfl⟩
  exact h.leaves.mono (fun _ => hall) fun _ => hall

theorem runEvents_noShell {evs : List UartEvent} (h : .promptDetected "shell" ∉ evs) :
    Leaves (runEvents (osShellEvent fsm) evs : Fsm d Bool)
      (fun done seg => done = false ∧ ∀ e ∈ seg, Muted e) fun _ seg => ∀ e ∈ seg, Muted e := by
  have hmuted : Leaves (runEvents (osShellEvent fsm) evs : Fsm d Bool)
      (fun _ seg => ∀ e ∈ seg, Muted e) fun _ seg => ∀ e ∈ seg, Muted e := by
    refine Finalizes.muted ?_
    induction evs with
    | nil => exact .pure _
    | cons ev evs ih =>
      refine (bare_osShellEvent fsm ev).silent.finalizes.bind fun _ => .ite (.pure _) (ih ?_)
      exact fun hm => h (List.mem_cons_of_mem _ hm)
  refine ⟨fun w => ?_⟩
  unfold wp
  cases hrun : runEvents (osShellEvent fsm) evs w with
  | error e w' => exact (hmuted.runs w).error hrun
  | ok done w' =>
    obtain ⟨seg, hseg, hall⟩ := (hmuted.runs w).ok hrun
    refine ⟨seg, hseg, ?_, hall⟩
    cases done with
    | false => rfl
    | true =>
      obtain ⟨ev, hev, _, _, htrue⟩ := runEvents_true hrun
      rw [osShellEvent_true fsm htrue] at hev
      exact absurd hev h

/-- The console brought its chunks, and among them the shell prompt or not. -/
def SessionHeard (buf : List Char) (shown : Bool) (seg : List (Entry fsmInterface)) : Prop :=
  (∀ e ∈ seg, unsubscribes e = false) ∧
    shownIn (ascii fsm.cfg.osShellPrompt) buf (rxChunks seg) = shown

variable {fsm} in
theorem SessionHeard.muted {buf : List Char} {shown : Bool} {seg tail : List (Entry fsmInterface)}
    (h : SessionHeard fsm buf shown tail) (hm : ∀ e ∈ seg, Muted e) :
    SessionHeard fsm buf shown (seg ++ tail) := by
  refine ⟨fun e he => ?_, ?_⟩
  · rcases List.mem_append.1 he with he | he
    · exact (hm e he).unsubscribes
    · exact h.1 e he
  · rw [rxChunks_off fun e he => (hm e he).received]
    exact h.2

theorem sessionHeard_muted {buf : List Char} {seg : List (Entry fsmInterface)}
    (hm : ∀ e ∈ seg, Muted e) :
    SessionHeard fsm buf false seg := by
  have hnil : SessionHeard fsm buf false [] := ⟨List.forall_mem_nil _, rfl⟩
  simpa using hnil.muted hm

section
variable {buf buf' : List Char} {shown : Bool} {c : Bytes} {seg : List (Entry fsmInterface)}

variable {fsm} in
theorem SessionHeard.skip (h : SessionHeard fsm buf shown seg) :
    SessionHeard fsm buf shown (did .rxQueueGet (.ok (.chunk [])) :: seg) :=
  ⟨List.forall_mem_cons.2 ⟨rfl, h.1⟩, h.2⟩

variable {fsm} in
theorem SessionHeard.goOn (hc : c ≠ [])
    (hin : ¬ ascii fsm.cfg.osShellPrompt <:+: encodeUtf8 (buf ++ decodeReplace (stripAnsi c)))
    (h : SessionHeard fsm (lineBuffer buf [c]) shown seg) :
    SessionHeard fsm buf shown (did .rxQueueGet (.ok (.chunk c)) :: seg) := by
  refine ⟨List.forall_mem_cons.2 ⟨rfl, h.1⟩, ?_⟩
  change shownIn (ascii fsm.cfg.osShellPrompt) buf (c :: rxChunks seg) = shown
  rw [shownIn, if_neg hc, decide_eq_false hin, Bool.false_or]
  exact h.2

theorem sessionHeard_shown (hc : c ≠ [])
    (hin : ascii fsm.cfg.osShellPrompt <:+: encodeUtf8 (buf ++ decodeReplace (stripAnsi c))) :
    SessionHeard fsm buf true [did .rxQueueGet (.ok (.chunk c))] := by
  refine ⟨by simp [unsubscribes], ?_⟩
  change shownIn (ascii fsm.cfg.osShellPrompt) buf [c] = true
  rw [shownIn, if_neg hc, decide_eq_true hin, Bool.true_or]

/-- A run ends with the shell prompt, or without it; a call in it times out without it. -/
abbrev HearsSession (buf : List Char) (p : Fsm d Bool) : Prop :=
  Leaves p (fun done seg => SessionHeard fsm buf done seg)
    fun e seg => ∃ shown, SessionHeard fsm buf shown seg ∧
      (e.isTransportTimeoutError = true → shown = false)

theorem HearsSession.behind {p : Fsm d Bool} (hp : HearsSession fsm buf' p)
    (seg : List (Entry fsmInterface))
    (hseg : ∀ {shown tail}, SessionHeard fsm buf' shown tail →
      SessionHeard fsm buf shown (seg ++ tail)) :
    Leaves p (fun done tail => SessionHeard fsm buf done (seg ++ tail))
      fun e tail => ∃ shown, SessionHeard fsm buf shown (seg ++ tail) ∧
        (e.isTransportTimeoutError = true → shown = false) := by
  apply hp.mono
  · exact fun done tail h => hseg h
  · intro e tail h
    obtain ⟨shown, h, hto⟩ := h
    exact ⟨shown, hseg h, hto⟩

end

theorem streamLoop_heard (turns : Nat) {st : StreamState} (hs : "shell" ∉ st.detectedPrompts) :
    HearsSession fsm st.localBuf
      (streamLoop (osShellStream fsm) (some (ascii "\n")) (osShellEvent fsm) turns st :
        Fsm d Bool) := by
  induction turns generalizing st with
  | zero => exact .pure (sessionHeard_muted fsm (List.forall_mem_nil _))
  | succ turns ih =>
    refine Leaves.bind_call (fun e => ⟨false, sessionHeard_muted fsm ?_, fun _ => rfl⟩)
      fun poll => ?_
    · intro e he
      rw [List.mem_singleton.1 he]
      exact ⟨rfl, rfl, rfl, rfl⟩
    cases poll with
    | empty pingDue tickDue =>
      have hone {s : List (Entry fsmInterface)} (h : ∀ e ∈ s, Muted e) :
          ∀ e ∈ did .rxQueueGet (.ok (.empty pingDue tickDue)) :: s, Muted e :=
        List.forall_mem_cons.2 ⟨⟨rfl, rfl, rfl, rfl⟩, h⟩
      have hping : Silent (pingConsole (some (ascii "\n")) pingDue : Fsm d Unit) :=
        .onlyIf _ (silent_ask _ rfl)
      have hidle : idle (osShellEvent fsm) tickDue = (pure false : Fsm d Bool) := by
        cases tickDue <;> rfl
      refine Leaves.bind (hping.finalizes.muted.mono (fun _ _ h => h) fun _ _ h =>
        ⟨false, sessionHeard_muted fsm (hone h), fun _ => rfl⟩) fun _ s₁ h₁ => ?_
      rw [hidle]
      exact HearsSession.behind fsm (ih hs) (did _ _ :: s₁) fun h => h.muted (hone h₁)
    | chunk c =>
      by_cases hc : c = []
      · subst hc
        exact HearsSession.behind fsm (ih hs) [_] fun h => h.skip
      · dsimp only
        rw [if_neg hc]
        by_cases hin : ascii fsm.cfg.osShellPrompt <:+:
            encodeUtf8 (st.localBuf ++ decodeReplace (stripAnsi c))
        · -- the prompt ends the loop before anything else is done with the chunk
          have hshown := sessionHeard_shown fsm hc hin
          rcases feed_shell fsm hs hin with ⟨raw, hraw⟩ | ⟨evs, hevs⟩
          · rw [hraw]
            exact .fail ⟨true, hshown, nofun⟩
          · rw [hevs]
            exact .pure hshown
        · obtain ⟨hno, hs'⟩ := feed_noShell fsm hs hin
          have hgo {s : List (Entry fsmInterface)} (h : ∀ e ∈ s, Muted e) :
              SessionHeard fsm st.localBuf false (did .rxQueueGet (.ok (.chunk c)) :: s) :=
            (sessionHeard_muted fsm h).goOn hc hin
          refine Leaves.bind ((runEvents_noShell fsm hno).mono (fun _ _ h => h) fun _ seg h =>
            ⟨false, hgo h, fun _ => rfl⟩) fun done s₁ h₁ => ?_
          obtain ⟨rfl, h₁⟩ := h₁
          rw [if_neg Bool.false_ne_true]
          split
          · exact .pure (by simpa using hgo h₁)
          · rename_i hpanic
            have hbuf :
                (st.feed (osShellStream fsm) c).2.localBuf = lineBuffer st.localBuf [c] := by
              rw [StreamState.feed_localBuf (by simpa using hpanic), lineBuffer, List.foldl_cons,
                List.foldl_nil, if_neg hc]
            have hrest := ih hs'
            rw [hbuf] at hrest
            exact HearsSession.behind fsm hrest (did _ _ :: s₁) fun h => (h.muted h₁).goOn hc hin

/-- A wait for the shell opens a session, which shows its prompt if the wait returns; a wait that
times out is refused by what the session brought. -/
theorem eventWaitForOsShell_session :
    Leaves (eventWaitForOsShell fsm false : Fsm d Unit)
      (fun _ seg => ∃ u s u', seg = did .serialSubscribe (.ok u) ::
        (s ++ [did .serialUnsubscribe (.ok u')]) ∧ SessionHeard fsm [] true s)
      fun e seg => seg = [did .serialSubscribe (.error e)] ∨
        ∃ u s r shown, seg = did .serialSubscribe (.ok u) :: (s ++ [did .serialUnsubscribe r]) ∧
          SessionHeard fsm [] shown s ∧ (∀ e', r = .error e' → e = e') ∧
            (e.isTransportTimeoutError = true → r.isOk = true → shown = false) := by
  have hloop : Leaves (do
      let turns : Nat ← ask .streamTurns
      streamLoop (osShellStream fsm) (some (ascii "\n")) (osShellEvent fsm) turns
        (osShellStream fsm).start : Fsm d Bool)
      (fun done seg => SessionHeard fsm [] done seg)
      fun e seg => ∃ shown, SessionHeard fsm [] shown seg ∧
        (e.isTransportTimeoutError = true → shown = false) := by
    have hone (r : Except Err Nat) : ∀ e ∈ [did .streamTurns r], Muted e := by
      intro e he
      rw [List.mem_singleton.1 he]
      exact ⟨rfl, rfl, rfl, rfl⟩
    refine Leaves.bind_call (fun e => ⟨false, sessionHeard_muted fsm (hone _), fun _ => rfl⟩)
      fun turns => ?_
    apply (streamLoop_heard fsm turns (by exact List.not_mem_nil)).mono
    · intro done seg h
      exact h.muted (hone _)
    · rintro e seg ⟨shown, h, hto⟩
      exact ⟨shown, h.muted (hone _), hto⟩
  have hover : Leaves (overStream (osShellStream fsm) false (some (ascii "\n")) (osShellEvent fsm) :
      Fsm d Bool)
      (fun done seg => ∃ u s u', seg = did .serialSubscribe (.ok u) ::
        (s ++ [did .serialUnsubscribe (.ok u')]) ∧ SessionHeard fsm [] done s)
      fun e seg => seg = [did .serialSubscribe (.error e)] ∨
        ∃ u s r shown, seg = did .serialSubscribe (.ok u) :: (s ++ [did .serialUnsubscribe r]) ∧
          SessionHeard fsm [] shown s ∧ (∀ e', r = .error e' → e = e') ∧
            (e.isTransportTimeoutError = true → r.isOk = true → shown = false) := by
    refine Leaves.bind (Q := fun _ s => s = []) (Leaves.pure rfl) fun _ s₀ h₀ => ?_
    subst h₀
    refine Leaves.bind_call (fun e => .inl rfl) fun u => ?_
    apply Leaves.ensuring hloop
    · intro done s h
      refine Leaves.call (fun u' => ⟨u, s, u', rfl, h⟩) fun e => .inr ?_
      exact ⟨u, s, .error e, done, rfl, h, fun e' he => Except.error.inj he, fun _ hr => nomatch hr⟩
    · rintro e s ⟨shown, h, hto⟩
      refine Leaves.call (fun u' => .inr ?_) fun e' => .inr ?_
      · exact ⟨u, s, .ok u', shown, rfl, h, nofun, fun ht _ => hto ht⟩
      · exact ⟨u, s, .error e', shown, rfl, h, fun _ he => Except.error.inj he,
          fun _ hr => nomatch hr⟩
  refine Leaves.bind hover fun done s h => ?_
  obtain ⟨u, s, u', rfl, hs⟩ := h
  cases done with
  | true => exact .pure ⟨u, s, u', List.append_nil _, hs⟩
  | false =>
    refine .fail (.inr ⟨u, s, .ok u', false, List.append_nil _, hs, nofun, fun _ _ => rfl⟩)

/-- Calls whose errors nobody catches during a finalization. -/
def Call.unguarded : Call → Bool
  | .sshConnect | .runValidator _ => false
  | _ => true

/-- Answers that do not end a finalization, and leave it at the `m`-th attempt to connect. -/
def Skipped (n m : Nat) (seg : List (Entry fsmInterface)) : Prop :=
  ∀ tail, afterTimeout n (seg ++ tail) = afterTimeout m tail

/-- Answers that end a finalization by this error. -/
def EndedBy (n : Nat) (e : Err) (seg : List (Entry fsmInterface)) : Prop :=
  (e.isTransportTimeoutError = true → ∀ tail, afterTimeout n (seg ++ tail) = some tail) ∧
    (e.isTransportTimeoutError = false → afterTimeout n seg = none)

section
variable {n m k : Nat} {e : Err} {s t : List (Entry fsmInterface)}

theorem Skipped.nil : Skipped n n [] := fun _ => rfl

theorem Skipped.append (h : Skipped n m s) (h' : Skipped m k t) : Skipped n k (s ++ t) :=
  fun tail => by rw [List.append_assoc, h, h']

theorem Skipped.ended (h : Skipped n m s) (h' : EndedBy m e t) : EndedBy n e (s ++ t) :=
  ⟨fun he tail => by rw [List.append_assoc, h, h'.1 he], fun he => by rw [h, h'.2 he]⟩

theorem isTransportTimeoutError_eq (e : Err) (c : Call) :
    e.isTransportTimeoutError = timesOut (did c (.error e)) := by
  cases e <;> rfl

theorem skipped_ok {c : Call} (hc : c.unguarded = true) (a : c.Ans) :
    Skipped n n [did c (.ok a)] := by
  intro tail
  have hno : connectsSsh (did c (.ok a)) = false := by cases c <;> first | rfl | cases hc
  rw [List.singleton_append, afterTimeout, hno]
  rfl

theorem endedBy_error {c : Call} (hc : c.unguarded = true) : EndedBy n e [did c (.error e)] := by
  have hno : connectsSsh (did c (.error e)) = false := by cases c <;> first | rfl | cases hc
  have hval : validates (did c (.error e)) = false := by cases c <;> first | rfl | cases hc
  rw [EndedBy, isTransportTimeoutError_eq e c]
  constructor
  · intro he tail
    rw [List.singleton_append, afterTimeout, hno, he, hval]
    rfl
  · intro he
    rw [afterTimeout, hno, he]
    rfl

theorem skipped_validator (name : String) (r : Except Err ContextUpdate) :
    Skipped n n [did (.runValidator name) r] := by
  intro tail
  rw [List.singleton_append, afterTimeout]
  simp [connectsSsh, validates]

end

/-- Programs whose answers end a finalization exactly if they raise. -/
abbrev Scanned (n m : Nat) (p : Fsm d α) : Prop :=
  Leaves p (fun _ seg => Skipped n m seg) fun e seg => EndedBy n e seg

section
variable {n m k : Nat}

theorem Scanned.bind {p : Fsm d β} {q : β → Fsm d α} (hp : Scanned n m p)
    (hq : ∀ b, Scanned m k (q b)) : Scanned n k (p >>= q) := by
  refine Leaves.bind hp fun b s hs => ?_
  exact (hq b).mono (fun _ _ h => hs.append h) fun _ _ h => hs.ended h

theorem Scanned.pure (a : α) : Scanned n n (pure a : Fsm d α) := Leaves.pure .nil

theorem scanned_ask (c : Call) (hc : c.unguarded = true) : Scanned n n (ask c : Fsm d c.Ans) :=
  Leaves.call (I := fsmInterface) (fun a => skipped_ok hc a) fun _ => endedBy_error hc

theorem scanned_modifyContext (f : DeviceContext → DeviceContext) :
    Scanned n n (modifyContext f : Fsm d Unit) := Leaves.modifyVars .nil

theorem Scanned.onlyIf (c : Bool) {p : Fsm d Unit} (hp : Scanned n n p) :
    Scanned n n (onlyIf c p) := by
  cases c with
  | true => exact hp
  | false => exact .pure ()

theorem scanned_runValidators (names : List String) :
    Scanned n n (runValidators names : Fsm d Unit) := by
  induction names with
  | nil => exact .pure ()
  | cons name rest ih =>
    refine Scanned.bind (m := n) ?_ fun _ => ih
    have hvalidate : Leaves (do
        let u : ContextUpdate ← ask (.runValidator name)
        modifyContext fun c =>
          { c with
            activeRootfs := u.activeRootfs.getD c.activeRootfs
            cryptoDataMounted := u.cryptoDataMounted.getD c.cryptoDataMounted } : Fsm d Unit)
        (fun _ seg => Skipped n n seg)
        fun e seg => seg = [did (.runValidator name) (.error e)] := by
      refine Leaves.bind_call (fun _ => rfl) fun u => ?_
      exact .modifyVars (skipped_validator name _)
    refine Leaves.attempt hvalidate ?_ ?_
    · rintro e s rfl _
      exact .pure (skipped_validator name _)
    · rintro e s rfl hlost
      have hto : e.isTransportTimeoutError = false := by cases e <;> first | rfl | cases hlost
      refine ⟨fun h => ?_, fun _ => skipped_validator name _ []⟩
      rw [hto] at h
      cases h

theorem scanned_verifyLinuxContext : Scanned n n (verifyLinuxContext fsm : Fsm d Unit) := by
  rw [verifyLinuxContext]
  split
  · rw [swupdateVerifyContext]
    refine (scanned_ask _ rfl).bind fun connected => ?_
    split
    · refine (scanned_ask _ rfl).bind fun res => (scanned_modifyContext _).bind fun _ => ?_
      split
      · exact (scanned_ask _ rfl).bind fun _ => scanned_modifyContext _
      · exact .pure ()
    · exact scanned_modifyContext _
  · exact scanned_runValidators _

/-- Of the attempts to connect, the last is the one whose error is not caught. -/
theorem skipped_connect {r : Except Err Unit} (h : timesOut (did .sshConnect r) = false ∨ n < 9) :
    Skipped n (n + 1) [did .sshConnect r] := by
  intro tail
  have hcon : connectsSsh (did .sshConnect r) = true := rfl
  have hno : (timesOut (did .sshConnect r) && decide (9 ≤ n)) = false := by
    rcases h with h | h
    · rw [h, Bool.false_and]
    · rw [decide_eq_false (by omega), Bool.and_false]
  rw [List.singleton_append, afterTimeout, if_pos hcon, hno]
  rfl

theorem endedBy_connect {e : Err} (h : e.isTransportTimeoutError = false ∨ 9 ≤ n) :
    EndedBy n e [did .sshConnect (.error e)] := by
  have hcon : connectsSsh (did .sshConnect (.error e)) = true := rfl
  rw [EndedBy, isTransportTimeoutError_eq e .sshConnect] at *
  constructor
  · intro he tail
    have hlast : 9 ≤ n := h.resolve_left (by rw [he]; exact nofun)
    rw [List.singleton_append, afterTimeout, if_pos hcon, he, decide_eq_true hlast]
    rfl
  · exact fun he => skipped_connect (.inl he) []

theorem scanned_retry (n k : Nat) (hn : n + k = 9) :
    Leaves (retry Err.isException (ask (.sleep 1000)) (ask .sshConnect) k : Fsm d Unit)
      (fun _ seg => ∃ m, Skipped n m seg) fun e seg => EndedBy n e seg := by
  induction k generalizing n with
  | zero => exact Leaves.call (fun u => ⟨_, skipped_connect (.inl rfl)⟩) fun e =>
      endedBy_connect (.inr (by omega))
  | succ k ih =>
    have hcall : Leaves (ask .sshConnect : Fsm d Unit) (fun _ seg => ∃ m, Skipped n m seg)
        fun e seg => seg = [did .sshConnect (.error e)] :=
      Leaves.call (fun u => ⟨_, skipped_connect (.inl rfl)⟩) fun e => rfl
    refine Leaves.attempt hcall ?_ ?_
    · rintro e s rfl _
      have hfirst : Skipped n (n + 1) [did .sshConnect (.error e)] :=
        skipped_connect (.inr (by omega))
      refine Leaves.bind (Q := fun _ seg => Skipped (n + 1) (n + 1) seg) ?_ fun _ s₁ h₁ => ?_
      · exact (scanned_ask _ rfl).mono (fun _ _ h => h) fun _ _ h => hfirst.ended h
      · apply (ih (n + 1) (by omega)).mono
        · rintro u seg ⟨m, h⟩
          exact ⟨m, hfirst.append (h₁.append h)⟩
        · exact fun e seg h => hfirst.ended (h₁.ended h)
    · rintro e s rfl hraised
      apply endedBy_connect
      left
      cases e <;> first | rfl | cases hraised

theorem finalizeOsBoot_scanned : Leaves (finalizeOsBoot fsm : Fsm d Unit)
    (fun _ seg => ∃ m, Skipped 0 m seg) fun e seg => EndedBy 0 e seg := by
  have hpass {β : Type} {p : Fsm d β} {q : β → Fsm d Unit} (hp : Scanned 0 0 p)
      (hq : ∀ a, Leaves (q a) (fun _ seg => ∃ m, Skipped 0 m seg) fun e seg => EndedBy 0 e seg) :
      Leaves (p >>= q) (fun _ seg => ∃ m, Skipped 0 m seg) fun e seg => EndedBy 0 e seg := by
    refine Leaves.bind hp fun a s hs => ?_
    apply (hq a).mono
    · rintro u seg ⟨m, h⟩
      exact ⟨m, hs.append h⟩
    · exact fun _ _ h => hs.ended h
  refine hpass (scanned_ask _ rfl) fun connected => ?_
  split
  · exact .pure ⟨0, .nil⟩
  · refine hpass (scanned_verifyLinuxContext fsm) fun _ =>
      hpass (scanned_ask _ rfl) fun serial => ?_
    refine hpass (.onlyIf _ ((scanned_ask _ rfl).bind fun _ => .pure ())) fun _ => ?_
    exact scanned_retry 0 9 rfl

end

end

end MesCore
