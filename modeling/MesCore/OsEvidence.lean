import MesCore.Routing

namespace MesCore
set_option autoImplicit true

/-- The chunk a turn of the event stream took from its queue. -/
def received : Entry fsmInterface → Option Bytes
  | .call .rxQueueGet (.ok (.chunk c)) => some c
  | _ => none

def rxChunks (seg : List (Entry fsmInterface)) : List Bytes := seg.filterMap received

/-- The unfinished line after some chunks, starting from the unfinished line `buf`. -/
def lineBuffer (buf : List Char) (chunks : List Bytes) : List Char :=
  chunks.foldl (fun b c =>
    if c = [] then b
    else (splitNewline (normalizeNewlines (b ++ decodeReplace (stripAnsi c)))).getLast?.getD []) buf

/-- The bytes `needle` stood in the current line when the last of the chunks came in. -/
def SeenInLine (needle : Bytes) (buf : List Char) (chunks : List Bytes) : Prop :=
  ∃ cs c, (cs ++ [c]) <+: chunks ∧
    needle <:+: encodeUtf8 (lineBuffer buf cs ++ decodeReplace (stripAnsi c))

/-- A shell prompt on the UART, among the chunks received in this part of the history. -/
def ShellSeen (fsm : Station) (seg : List (Entry fsmInterface)) : Prop :=
  ∃ chunks, chunks <:+: rxChunks seg ∧ SeenInLine (ascii fsm.cfg.osShellPrompt) [] chunks

/-- A heartbeat command whose answer holds the token. -/
def HeartbeatAnswered (seg : List (Entry fsmInterface)) : Prop :=
  (∃ timeoutMs check res, did (.sshSafeRun heartbeatCmd timeoutMs check) (.ok res) ∈ seg ∧
      heartbeatSeen res = true) ∨
    ∃ prompt timeoutMs check res,
      did (.serialSafeRun heartbeatCmd prompt timeoutMs check) (.ok res) ∈ seg ∧
        heartbeatSeen res = true

def OsEvidence (fsm : Station) (seg : List (Entry fsmInterface)) : Prop :=
  ShellSeen fsm seg ∨ HeartbeatAnswered seg

def quiet (e : Entry fsmInterface) : Prop := received e = none

variable {d : Hardware} (fsm : Station)

theorem quiet_of_ne {c : Call} (h : c ≠ .rxQueueGet) (r : Except Err c.Ans) : quiet (did c r) := by
  cases c <;> first | rfl | exact absurd rfl h

theorem rxChunks_append (s t : List (Entry fsmInterface)) :
    rxChunks (s ++ t) = rxChunks s ++ rxChunks t := List.filterMap_append

theorem rxChunks_quiet {w w' w'' : World d} (h : Frame.Rel (routeFrame quiet) w w')
    (hg : w'.trace <+: w''.trace) : rxChunks (w.since w'') = rxChunks (w'.since w'') := by
  have hq : rxChunks (w.since w') = [] := List.filterMap_eq_nil_iff.2 h.since
  rw [World.since_append h.grows hg, rxChunks_append, hq, List.nil_append]

theorem ShellSeen.widen {seg seg' : List (Entry fsmInterface)} (h : ShellSeen fsm seg)
    (hs : seg <:+: seg') : ShellSeen fsm seg' := by
  obtain ⟨chunks, hc, hseen⟩ := h
  exact ⟨chunks, hc.trans (hs.filterMap _), hseen⟩

theorem HeartbeatAnswered.widen {seg seg' : List (Entry fsmInterface)}
    (h : HeartbeatAnswered seg) (hs : seg <:+: seg') : HeartbeatAnswered seg' := by
  rcases h with ⟨t, k, res, hm, hr⟩ | ⟨p, t, k, res, hm, hr⟩
  · exact .inl ⟨t, k, res, hs.subset hm, hr⟩
  · exact .inr ⟨p, t, k, res, hs.subset hm, hr⟩

theorem OsEvidence.widen {seg seg' : List (Entry fsmInterface)} (h : OsEvidence fsm seg)
    (hs : seg <:+: seg') : OsEvidence fsm seg' := by
  rcases h with h | h
  · exact .inl (h.widen fsm hs)
  · exact .inr (h.widen hs)

theorem within_quiet (c : Call) (h : c ≠ .rxQueueGet) :
    Within (routeFrame quiet) (ask c : Fsm d c.Ans) :=
  .call (I := fsmInterface) c (quiet_of_ne h)

section
variable {body : UartEvent → Fsm d Bool} {t : String}

theorem runEvents_true {evs : List UartEvent} {w w' : World d}
    (h : runEvents body evs w = .ok true w') :
    ∃ ev ∈ evs, ∃ w₁ w₂, body ev w₁ = .ok true w₂ := by
  induction evs generalizing w with
  | nil => cases h
  | cons ev evs ih =>
    obtain ⟨done, w₁, h₁, h⟩ := bind_ok h
    cases done with
    | true => exact ⟨ev, List.mem_cons_self .., w, w₁, h₁⟩
    | false =>
      obtain ⟨ev', hev, hrun⟩ := ih h
      exact ⟨ev', List.mem_cons_of_mem _ hev, hrun⟩

theorem SeenInLine.cons {needle : Bytes} {buf : List Char} {c : Bytes} {chunks : List Bytes}
    (h : SeenInLine needle (lineBuffer buf [c]) chunks) : SeenInLine needle buf (c :: chunks) := by
  obtain ⟨cs, c', hp, hn⟩ := h
  exact ⟨c :: cs, c', List.cons_prefix_cons.2 ⟨rfl, hp⟩, hn⟩

/-- A loop whose body only returns on one prompt type has seen a prompt of that type. -/
theorem streamLoop_true {p : StreamParams} {ping : Option Bytes} {turns : Nat} {st : StreamState}
    (hbody : ∀ ev w w', body ev w = .ok true w' → ev = .promptDetected t)
    (hquiet : ∀ ev, Within (routeFrame quiet) (body ev)) {w w' : World d}
    (h : streamLoop p ping body turns st w = .ok true w') :
    w.trace <+: w'.trace ∧ ∃ pbytes, (t, pbytes) ∈ p.prompts ∧
      SeenInLine pbytes st.localBuf (rxChunks (w.since w')) := by
  induction turns generalizing st w with
  | zero => cases h
  | succ turns ih =>
    obtain ⟨poll, w₁, h₁, h⟩ := bind_ok h
    have hg₁ := call_grows h₁
    cases poll with
    | empty pingDue tickDue =>
      obtain ⟨_, w₂, h₂, h⟩ := bind_ok h
      obtain ⟨done, w₃, h₃, h⟩ := bind_ok h
      have hping : Within (routeFrame quiet) (pingConsole ping pingDue : Fsm d Unit) := by
        cases ping with
        | none => exact .pure _
        | some c => exact .onlyIf _ (within_quiet _ (by rintro ⟨⟩))
      have hidle : Within (routeFrame quiet) (idle body tickDue) := .ite (hquiet _) (.pure _)
      have hrel := (hping.ok h₂).trans (hidle.ok h₃)
      cases done with
      | true =>
        cases tickDue with
        | true => cases hbody _ _ _ h₃
        | false => cases h₃
      | false =>
        obtain ⟨hg, pbytes, hm, hseen⟩ := ih h
        have hg' := hrel.grows.trans hg
        refine ⟨hg₁.trans hg', pbytes, hm, ?_⟩
        rw [World.since_append hg₁ hg', rxChunks_append, rxChunks_quiet hrel hg, call_since h₁]
        exact hseen
    | chunk c =>
      have hone (hg : w₁.trace <+: w'.trace) :
          rxChunks (w.since w') = c :: rxChunks (w₁.since w') := by
        rw [World.since_append hg₁ hg, rxChunks_append, call_since h₁]
        rfl
      dsimp only at h
      split at h
      · rename_i hc
        obtain ⟨hg, pbytes, hm, hseen⟩ := ih h
        refine ⟨hg₁.trans hg, pbytes, hm, ?_⟩
        rw [hone hg]
        apply SeenInLine.cons
        rw [hc]
        exact hseen
      · rename_i hc
        obtain ⟨done, w₂, h₂, h⟩ := bind_ok h
        have hrel := (within_runEvents hquiet _).ok h₂
        cases done with
        | true =>
          cases h
          obtain ⟨ev, hev, v, v', hv⟩ := runEvents_true h₂
          rw [hbody _ _ _ hv] at hev
          obtain ⟨pbytes, hm, hin⟩ := StreamState.feed_prompt hev
          refine ⟨hg₁.trans hrel.grows, pbytes, hm, ?_⟩
          rw [hone hrel.grows]
          exact ⟨[], c, List.cons_prefix_cons.2 ⟨rfl, List.nil_prefix⟩, hin⟩
        | false =>
          rw [if_neg Bool.false_ne_true] at h
          split at h
          · cases h
          · rename_i hpanic
            obtain ⟨hg, pbytes, hm, hseen⟩ := ih h
            have hg' := hrel.grows.trans hg
            refine ⟨hg₁.trans hg', pbytes, hm, ?_⟩
            rw [hone hg', rxChunks_quiet hrel hg]
            apply SeenInLine.cons
            rw [lineBuffer, List.foldl_cons, List.foldl_nil, if_neg hc,
              ← StreamState.feed_localBuf (by simpa using hpanic)]
            exact hseen

/-- A stream that returns has run its loop, between what sets it up and what takes it down. -/
theorem overStream_ok {body : UartEvent → Fsm d Bool} {p : StreamParams} {flush : Bool}
    {ping : Option Bytes} {done : Bool} {w w' : World d}
    (h : overStream p flush ping body w = .ok done w') : ∃ turns v v',
      w.trace <+: v.trace ∧ streamLoop p ping body turns p.start v = .ok done v' ∧
        v'.trace <+: w'.trace := by
  obtain ⟨_, w₁, h₁, h⟩ := bind_ok h
  obtain ⟨_, w₂, h₂, h⟩ := bind_ok h
  obtain ⟨w₃, h₃, h₄⟩ := ensuring_ok h
  obtain ⟨turns, w₄, h₅, h₃⟩ := bind_ok h₃
  have hflush : Within observeFrame (onlyIf flush (ask .serialFlushBuffers) : Fsm d Unit) :=
    .onlyIf _ (within_ask _ rfl)
  have hg := (hflush.ok h₁).grows.trans ((call_grows h₂).trans (call_grows h₅))
  exact ⟨turns, w₄, w₃, hg, h₃, call_grows h₄⟩

theorem overStream_true {p : StreamParams} {flush : Bool} {ping : Option Bytes}
    (hbody : ∀ ev w w', body ev w = .ok true w' → ev = .promptDetected t)
    (hquiet : ∀ ev, Within (routeFrame quiet) (body ev)) {w w' : World d}
    (h : overStream p flush ping body w = .ok true w') :
    w.trace <+: w'.trace ∧ ∃ pbytes, (t, pbytes) ∈ p.prompts ∧
      ∃ chunks, chunks <:+: rxChunks (w.since w') ∧ SeenInLine pbytes [] chunks := by
  obtain ⟨turns, v, v', hg, hloop, hg₂⟩ := overStream_ok h
  obtain ⟨hg₁, pbytes, hm, hseen⟩ := streamLoop_true hbody hquiet hloop
  refine ⟨hg.trans (hg₁.trans hg₂), pbytes, hm, _, ?_, hseen⟩
  exact (World.since_infix hg hg₁ hg₂).filterMap _

end

theorem osShellEvent_true {ev : UartEvent} {w w' : World d}
    (h : osShellEvent fsm ev w = .ok true w') : ev = .promptDetected "shell" := by
  cases ev with
  | promptDetected ptype =>
    rw [osShellEvent] at h
    split at h
    · rw [‹ptype = "shell"›]
    · have htyped {c₁ c₂ c₃ : Call} {w : World d}
          (h : (do let _ ← ask c₁; let _ ← ask c₂; let _ ← ask c₃; pure false : Fsm d Bool) w =
            .ok true w') : False := by
        obtain ⟨_, _, _, h⟩ := bind_ok h
        obtain ⟨_, _, _, h⟩ := bind_ok h
        obtain ⟨_, _, _, h⟩ := bind_ok h
        cases h
      split at h
      · exact (htyped h).elim
      · split at h
        · exact (htyped h).elim
        · split at h
          · obtain ⟨_, _, _, h⟩ := bind_ok h
            cases h
          · cases h
  | panicDetected raw => cases h
  | autobootWindowDetected => cases h
  | milestoneReached name => cases h
  | bootDataReceived line => cases h
  | idleTick => cases h

theorem eventWaitForOsShell_ok {flush : Bool} {w w' : World d}
    (h : eventWaitForOsShell fsm flush w = .ok () w') : ShellSeen fsm (w.since w') := by
  obtain ⟨done, w₁, h₁, h⟩ := bind_ok h
  cases done with
  | false => cases h
  | true =>
    cases h
    obtain ⟨_, pbytes, hm, chunks, hc, hseen⟩ :=
      overStream_true (fun _ _ _ => osShellEvent_true fsm)
        (within_osShellEvent fsm fun c _ h => within_quiet c h) h₁
    have hp : pbytes = ascii fsm.cfg.osShellPrompt := by
      rw [osShellStream] at hm
      split at hm <;> simpa using hm
    rw [hp] at hseen
    exact ⟨chunks, hc, hseen⟩

theorem tryResumeExistingOs_ok {w w' : World d} (h : tryResumeExistingOs w = .ok true w') :
    sshHeartbeat w = .ok true w' ∨ ∃ r w₁ w₂, sshHeartbeat w = .ok false w₁ ∧
      ask .serialIsConnected w₁ = .ok true w₂ ∧
      ask (.serialSafeRun heartbeatCmd none 2000 false) w₂ = .ok r w' ∧
      heartbeatSeen r = true := by
  obtain ⟨alive, w₁, h₁, h⟩ := bind_ok h
  cases alive with
  | true =>
    cases h
    exact .inl h₁
  | false =>
    obtain ⟨connected, w₂, h₂, h⟩ := bind_ok h
    cases connected with
    | false => cases h
    | true =>
      obtain ⟨res, w₃, h₃, h⟩ := bind_ok h
      rcases attempt_ok h₃ with h₃ | ⟨e, w₄, _, _, h₃⟩
      · obtain ⟨r, w₄, h₄, h₃⟩ := bind_ok h₃
        cases h₃
        dsimp only at h
        split at h
        · rename_i hseen
          cases h
          exact .inr ⟨r, w₁, w₂, h₁, h₂, h₄, hseen⟩
        · obtain ⟨_, _, _, h⟩ := bind_ok h
          cases h
      · cases h₃
        cases h

theorem sshHeartbeat_true {w w' : World d} (h : sshHeartbeat w = .ok true w') :
    HeartbeatAnswered (w.since w') := by
  rcases attempt_ok h with h | ⟨e, w₁, _, _, h⟩
  · obtain ⟨_, w₁, h₁, h⟩ := bind_ok h
    obtain ⟨res, w₂, h₂, h⟩ := bind_ok h
    obtain ⟨hseen, rfl⟩ := pure_ok h
    have hm := World.mem_since_right (within_connectSshWithRetry.ok h₁).grows (call_grows h₂)
      (by rw [call_since h₂]; exact List.mem_singleton_self _)
    exact .inl ⟨_, _, res, hm, hseen⟩
  · cases h

theorem tryResumeExistingOs_true {w w' : World d}
    (h : tryResumeExistingOs w = .ok true w') : HeartbeatAnswered (w.since w') := by
  rcases tryResumeExistingOs_ok h with h | ⟨r, w₁, w₂, h₁, h₂, h₃, hseen⟩
  · exact sshHeartbeat_true h
  · have hg := (within_sshHeartbeat.ok h₁).grows.trans (call_grows h₂)
    have hm := World.mem_since_right hg (call_grows h₃)
      (by rw [call_since h₃]; exact List.mem_singleton_self _)
    exact .inr ⟨_, _, _, r, hm, hseen⟩

theorem tryHotLogin_true {w w' : World d} (h : tryHotLogin fsm w = .ok true w') :
    ShellSeen fsm (w.since w') := by
  rcases attempt_ok h with h | ⟨e, w₁, _, _, h⟩
  · obtain ⟨_, w₁, h₁, h⟩ := bind_ok h
    obtain ⟨_, w₂, h₂, h⟩ := bind_ok h
    cases h
    have hg := ((within_eventWaitForOsShell fsm false).ok h₁).grows
    exact (eventWaitForOsShell_ok fsm h₁).widen fsm
      (World.since_infix (List.prefix_refl _) hg ((within_finalizeOsBoot fsm).ok h₂).grows)
  · cases h

theorem eventBootFromBootloaderToOs_ok {w w' : World d}
    (h : eventBootFromBootloaderToOs fsm w = .ok () w') : ShellSeen fsm (w.since w') := by
  have hwait := within_eventWaitForOsShell (d := d) fsm false
  obtain ⟨_, w₁, h₁, h⟩ := bind_ok h
  obtain ⟨_, w₂, h₂, h⟩ := bind_ok h
  obtain ⟨_, w₃, h₃, h⟩ := bind_ok h
  have hnote : w₂.trace <+: w₃.trace := by
    cases h₃
    exact List.prefix_append ..
  have hg := (call_grows h₁).trans ((call_grows h₂).trans hnote)
  exact (eventWaitForOsShell_ok fsm h).widen fsm
    (World.since_infix hg (hwait.ok h).grows (List.prefix_refl _))

theorem coldBootToOs_ok {w w' : World d} (h : coldBootToOs fsm w = .ok () w') :
    ∃ w₁, doEnergize fsm w = .ok () w₁ ∧ Frame.Rel converseFrame w₁ w' ∧
      ShellSeen fsm (w₁.since w') := by
  rw [coldBootToOs] at h
  split at h
  · obtain ⟨_, w₁, h₁, h⟩ := bind_ok h
    obtain ⟨_, w₂, h₂, h⟩ := bind_ok h
    have hr₂ := (within_eventWaitForBootloader fsm true).converse.ok h₂
    have hr := (within_eventBootFromBootloaderToOs fsm).ok h
    exact ⟨w₁, h₁, hr₂.trans hr, (eventBootFromBootloaderToOs_ok fsm h).widen fsm
      (World.since_infix hr₂.grows hr.grows (List.prefix_refl _))⟩
  · obtain ⟨_, w₁, h₁, h⟩ := bind_ok h
    exact ⟨w₁, h₁, (within_eventWaitForOsShell fsm true).ok h, eventWaitForOsShell_ok fsm h⟩

theorem resumeBootloaderToOs_ok {w w' : World d} (h : resumeBootloaderToOs fsm w = .ok () w') :
    ShellSeen fsm (w.since w') := by
  rw [resumeBootloaderToOs] at h
  split at h
  · exact eventBootFromBootloaderToOs_ok fsm h
  · obtain ⟨_, w₁, h₁, h⟩ := bind_ok h
    exact (eventBootFromBootloaderToOs_ok fsm h).widen fsm
      (World.since_infix ((within_restoreUbootTrap fsm).ok h₁).grows
        ((within_eventBootFromBootloaderToOs fsm).ok h).grows (List.prefix_refl _))

/-- What the cold boot of `_hw_boot_to_os` leaves behind, in order: straps, power, a shell. -/
theorem strapAndBootOs_ok {target : String} {w w' : World d}
    (h : strapAndBootOs fsm target w = .ok () w') :
    ∃ w₁ w₂ w₃, applyStraps fsm target w = .ok () w₁ ∧
      w₂.trace = w₁.trace ++ [.note (.bootstrapApplied target)] ∧
      doEnergize fsm w₂ = .ok () w₃ ∧ Frame.Rel converseFrame w₃ w' ∧
      ShellSeen fsm (w₃.since w') ∧ w'.vars.context.activeBootMedium = target ∧
      w'.vars.state = w.vars.state := by
  obtain ⟨_, v, hb, h⟩ := bind_ok h
  obtain ⟨_, w₁, h₁, hn⟩ := bind_ok hb
  obtain ⟨_, w₂, h₂, h⟩ := bind_ok h
  obtain ⟨_, w₄, h₄, h⟩ := bind_ok h
  obtain ⟨w₃, h₃, hr, hseen⟩ := coldBootToOs_ok fsm h₄
  have hfin := (within_finalizeOsBoot fsm).converse.ok h
  have hrest := hr.trans hfin
  have hstraps := (within_applyStraps fsm target).ok h₁
  have hpower := (within_doEnergize fsm).ok h₃
  cases hn
  cases h₂
  refine ⟨w₁, _, w₃, h₁, rfl, h₃, hrest, ?_, ?_, ?_⟩
  · exact hseen.widen fsm (World.since_infix (List.prefix_refl _) hr.grows hfin.grows)
  · exact hrest.2.2.trans hpower.2.2
  · exact (hrest.2.1.trans hpower.2.1).trans hstraps.2.1

theorem strapAndBootOs_seen {target : String} {w w' : World d}
    (h : strapAndBootOs fsm target w = .ok () w') : ShellSeen fsm (w.since w') := by
  obtain ⟨w₁, w₂, w₃, hr, hn, he, hc, hseen, _⟩ := strapAndBootOs_ok fsm h
  have hg : w₁.trace <+: w₂.trace := ⟨_, hn.symm⟩
  exact hseen.widen fsm (World.since_infix
    (((within_applyStraps fsm target).ok hr).grows.trans
      (hg.trans ((within_doEnergize fsm).ok he).grows)) hc.grows
    (List.prefix_refl _))

theorem probe_state {w w' : World d} {s : DutState} (h : probeHardwareState fsm w = .ok s w') :
    s ∈ [DutState.powerOff, .osUserland, .bootloader, .energized] := by
  obtain ⟨off, w₁, _, h⟩ := bind_ok h
  cases off with
  | true => cases h; decide
  | false =>
    obtain ⟨connected, w₂, _, h⟩ := bind_ok h
    cases connected with
    | true => cases h; decide
    | false =>
      obtain ⟨ready, w₃, _, h⟩ := bind_ok h
      cases ready with
      | true => cases h; decide
      | false =>
        obtain ⟨c, w₄, _, h⟩ := bind_ok h
        obtain ⟨_, w₅, _, h⟩ := bind_ok h
        obtain ⟨_, w₆, _, h⟩ := bind_ok h
        obtain ⟨passive, w₇, _, h⟩ := bind_ok h
        split at h
        · obtain ⟨rfl, _⟩ := pure_ok h
          rw [classifyPassive]
          split_ifs <;> decide
        · obtain ⟨resp, w₈, _, h⟩ := bind_ok h
          obtain ⟨rfl, _⟩ := pure_ok h
          rw [classifyResponse]
          split_ifs <;> decide

/-- `_hw_boot_to_os` returns with evidence from the target, or did nothing at all. -/
theorem routeBootToOs_evidence {medium : Option String} {w w' : World d}
    (h : routeBootToOs fsm medium w = .ok () w') :
    OsEvidence fsm (w.since w') ∨ ((∃ n, w.vars.state = .custom n) ∧ w' = w) := by
  have hself (v : World d) : v.trace <+: v.trace := List.prefix_refl _
  rcases routeBootToOs_ok fsm h with h | ⟨w₁, h₁, h⟩
  · rcases resumeOrReset_ok fsm h with ⟨_, hb, _⟩ | ⟨_, ⟨_, w₁, h₁, h₂⟩ | ⟨hb, _⟩⟩
    · cases hb
    · exact .inl (.inr ((tryResumeExistingOs_true h₁).widen (World.since_infix (hself _)
        (within_tryResumeExistingOs.ok h₁).grows ((within_finalizeOsBoot fsm).ok h₂).grows)))
    · cases hb
  · have hg₁ := ((within_resumeOrReset fsm).ok h₁).grows
    rcases h with h | ⟨w₂, h₂, h⟩
    · rcases hotLoginOrReset_ok fsm h with ⟨_, hb, _⟩ | ⟨_, ⟨_, h₂⟩ | ⟨hb, _⟩⟩
      · cases hb
      · exact .inl (.inl ((tryHotLogin_true fsm h₂).widen fsm
          (World.since_infix hg₁ ((within_tryHotLogin fsm).ok h₂).grows (hself _))))
      · cases hb
    · have hg₂ := hg₁.trans (((within_hotLoginOrReset fsm).ok h₂).grows)
      rcases coldBootOrResume_ok fsm h with
        ⟨_, w₃, h₃, h⟩ | ⟨_, h⟩ | ⟨_, w₃, h₃, h⟩ | ⟨hs, rfl⟩
      · have hg₃ := hg₂.trans ((within_doPowerOff fsm).ok h₃).grows
        exact .inl (.inl ((strapAndBootOs_seen fsm h).widen fsm
          (World.since_infix hg₃ (((within_strapAndBootOs fsm _).ok h).grows) (hself _))))
      · exact .inl (.inl ((strapAndBootOs_seen fsm h).widen fsm
          (World.since_infix hg₂ (((within_strapAndBootOs fsm _).ok h).grows) (hself _))))
      · exact .inl (.inl ((resumeBootloaderToOs_ok fsm h₃).widen fsm
          (World.since_infix hg₂ ((within_resumeBootloaderToOs fsm).ok h₃).grows
            ((within_finalizeOsBoot fsm).ok h).grows)))
      · right
        -- a state that falls through is one that neither block before it has left
        rcases hotLoginOrReset_ok fsm h₂ with ⟨he, _, rfl⟩ | ⟨_, ⟨hb, _⟩ | ⟨_, v, v', _, _, rfl⟩⟩
        · rcases resumeOrReset_ok fsm h₁ with ⟨ho, _, rfl⟩ | ⟨_, ⟨hb, _⟩ | ⟨_, v, v', _, _, rfl⟩⟩
          · refine ⟨?_, rfl⟩
            cases hw : w'.vars.state <;> simp_all
          · cases hb
          · exact absurd rfl he
        · cases hb
        · simp at hs

/-- A subclass may register `boot_to_os` for its own states, with the hook of the base class. -/
def Registration.keepsBootToOs : Registration d → Prop
  | .state _ => True
  | .transition trigger _ _ before => trigger = "boot_to_os" → before = hwBootToOs fsm

theorem Machine.addTransition_before {m : Machine d} {trigger : String} {source : Source}
    {dest : DutState} {before : Option String → Fsm d Unit}
    (hm : ∀ t ∈ m.transitions, t.trigger = "boot_to_os" → t.before = hwBootToOs fsm)
    (hb : trigger = "boot_to_os" → before = hwBootToOs fsm) :
    ∀ t ∈ (m.addTransition trigger source dest before).transitions,
      t.trigger = "boot_to_os" → t.before = hwBootToOs fsm := by
  intro t ht he
  rcases List.mem_append.1 ht with ht | ht
  · exact hm t ht he
  · obtain ⟨s, _, rfl⟩ := List.mem_map.1 ht
    exact hb he

theorem baseMachine_before : ∀ t ∈ (baseMachine fsm : Machine d).transitions,
    t.trigger = "boot_to_os" → t.before = hwBootToOs fsm := by
  refine Machine.addTransition_before fsm ?_ (by intro h; simp at h)
  refine Machine.addTransition_before fsm ?_ (by intro h; simp at h)
  refine Machine.addTransition_before fsm ?_ fun _ => rfl
  refine Machine.addTransition_before fsm ?_ (by intro h; simp at h)
  refine Machine.addTransition_before fsm ?_ (by intro h; simp at h)
  refine Machine.addTransition_before fsm ?_ (by intro h; simp at h)
  intro t ht
  cases ht

theorem customMachine_before {regs : List (Registration d)}
    (hregs : ∀ r ∈ regs, r.keepsBootToOs fsm) :
    ∀ t ∈ (customMachine fsm regs).transitions,
      t.trigger = "boot_to_os" → t.before = hwBootToOs fsm := by
  have hfold (m : Machine d)
      (hm : ∀ t ∈ m.transitions, t.trigger = "boot_to_os" → t.before = hwBootToOs fsm) :
      ∀ t ∈ (regs.foldl Machine.register m).transitions,
        t.trigger = "boot_to_os" → t.before = hwBootToOs fsm := by
    induction regs generalizing m with
    | nil => exact hm
    | cons r regs ih =>
      apply ih (fun r' hr' => hregs r' (List.mem_cons_of_mem _ hr'))
      have hr := hregs r (List.mem_cons_self ..)
      cases r with
      | state name => exact hm
      | transition trigger source dest before => exact Machine.addTransition_before fsm hm hr
  exact hfold _ (baseMachine_before fsm)

theorem OsEvidence.not_note (n : Note) : ¬ OsEvidence fsm [.note n] := by
  rintro (⟨chunks, hc, cs, c, hp, _⟩ | ⟨t, k, res, hm, _⟩ | ⟨p, t, k, res, hm, _⟩)
  · have hnil : chunks = [] := List.eq_nil_of_infix_nil hc
    rw [hnil] at hp
    simpa using List.eq_nil_of_prefix_nil hp
  · simp at hm
  · simp at hm

theorem Machine.fire_ok {m : Machine d} {trigger : String} {medium : Option String}
    {w w' : World d} (h : m.fire trigger medium w = .ok () w') :
    ∃ t ∈ m.transitions, t.trigger = trigger ∧ t.source = w.vars.state ∧ ∃ w₁,
      t.before medium w = .ok () w₁ ∧ w'.vars = { w₁.vars with state := t.dest } ∧
      w'.trace = w₁.trace ++ [.note (.stateChanged w.vars.state.name t.dest.name trigger)] := by
  obtain ⟨s, w₀, hs, h⟩ := bind_ok h
  cases hs
  cases hf : m.transitions.find? fun t => t.trigger = trigger ∧ t.source = w.vars.state with
  | none =>
    rw [hf] at h
    cases h
  | some t =>
    rw [hf] at h
    obtain ⟨_, w₁, h₁, h⟩ := bind_ok h
    cases h
    have hp := List.find?_some hf
    simp only [decide_eq_true_eq] at hp
    exact ⟨t, List.mem_of_find?_eq_some hf, hp.1, hp.2, w₁, h₁, rfl, rfl⟩

theorem trustsState_custom {n : String} (hp : fsm.psu.isSome = true) :
    trustsState fsm (.custom n) = true := by
  simp [trustsState, hp]

theorem hwBootToOs_custom {n : String} {medium : Option String} {w : World d}
    (hn : w.vars.state = .custom n) (hp : fsm.psu.isSome = true) :
    hwBootToOs fsm medium w = .ok () w := by
  have halign : alignToPhysicalState fsm false w = .ok () w := by
    rw [alignToPhysicalState, bind_of_ok (getState_apply w), hn, trustsState_custom fsm hp]
    rfl
  have hresume : resumeOrReset fsm w = .ok false w := by
    rw [resumeOrReset, bind_of_ok (getState_apply w), hn]
    rfl
  have hlogin : hotLoginOrReset fsm w = .ok false w := by
    rw [hotLoginOrReset, bind_of_ok (getState_apply w), hn]
    rfl
  rw [hwBootToOs, bind_of_ok halign, routeBootToOs, bind_of_ok (getContext_apply w),
    bind_of_ok hresume, if_neg Bool.false_ne_true, bind_of_ok hlogin,
    if_neg Bool.false_ne_true, coldBootOrResume, bind_of_ok (getState_apply w), hn]
  rfl

/-- `_hw_boot_to_os` returns with evidence from the target, except in a state the base class does
not know while a supply is present. -/
theorem hwBootToOs_evidence {medium : Option String} {w w' : World d}
    (h : hwBootToOs fsm medium w = .ok () w')
    (hc : ¬ ((∃ n, w.vars.state = .custom n) ∧ fsm.psu.isSome)) : OsEvidence fsm (w.since w') := by
  obtain ⟨_, w₁, ha, hroute⟩ := bind_ok h
  obtain ⟨s, hs⟩ := align_observes fsm w
  have hg : w.trace <+: w₁.trace := by
    rw [aligned, ha] at hs
    exact hs.grows
  rcases routeBootToOs_evidence fsm hroute with he | ⟨⟨n, hn⟩, rfl⟩
  · exact he.widen fsm (World.since_infix hg ((within_route fsm (.bootToOs _)).ok hroute).grows
      (List.prefix_refl _))
  · rcases align_ok fsm ha with ⟨htrust, rfl⟩ | ⟨_, s, v, hv, rfl⟩
    · rw [hn] at htrust
      exact absurd ⟨⟨n, hn⟩, by simpa [trustsState] using htrust⟩ hc
    · have hmem := probe_state fsm hv
      rw [World.withState_state] at hn
      rw [hn] at hmem
      simp at hmem

theorem hwBootToOs_grows {medium : Option String} {w w' : World d}
    (h : hwBootToOs fsm medium w = .ok () w') : w.trace <+: w'.trace := by
  obtain ⟨_, w₁, ha, hroute⟩ := bind_ok h
  obtain ⟨s, hs⟩ := align_observes fsm w
  rw [aligned, ha] at hs
  exact hs.grows.trans ((within_route fsm (.bootToOs _)).ok hroute).grows

/-- A successful `boot_to_os` rests on evidence from the target, except in a state the base
class does not know while a supply is present. -/
theorem bootToOs_evidence_iff {regs : List (Registration d)}
    (hregs : ∀ r ∈ regs, r.keepsBootToOs fsm) {medium : Option String} {w w' : World d}
    (h : (customMachine fsm regs).fire "boot_to_os" medium w = .ok () w') :
    OsEvidence fsm (w.since w') ↔ ¬ ((∃ n, w.vars.state = .custom n) ∧ fsm.psu.isSome) := by
  obtain ⟨t, ht, hname, _, w₁, h₁, _, htr⟩ := Machine.fire_ok h
  rw [customMachine_before fsm hregs t ht hname] at h₁
  by_cases hc : (∃ n, w.vars.state = .custom n) ∧ fsm.psu.isSome
  · obtain ⟨⟨n, hn⟩, hp⟩ := hc
    rw [hwBootToOs_custom fsm hn hp] at h₁
    cases h₁
    rw [World.since_eq htr]
    exact iff_of_false (OsEvidence.not_note fsm _) fun hcontra => hcontra ⟨⟨n, hn⟩, hp⟩
  · refine iff_of_true ?_ hc
    exact (hwBootToOs_evidence fsm h₁ hc).widen fsm
      (World.since_infix (List.prefix_refl _) (hwBootToOs_grows fsm h₁) ⟨_, htr.symm⟩)

/-- A target whose SSH session is open and whose shell answers every command with the token. -/
def liveTarget : Hardware := steady fun
  | .psuMeasureCurrent => .ok 1
  | .sshIsConnected => .ok true
  | .sshSafeRun _ _ _ => .ok { stdout := "MES_HEARTBEAT\n" }
  | _ => .ok default

/-- A subclass with one state of its own, from which the base trigger may be fired. -/
def labStation : List (Registration liveTarget) :=
  [.state "LAB", .transition "enter_lab" .wildcard (.custom "LAB") fun _ => pure (),
    .transition "boot_to_os" .wildcard .osUserland (hwBootToOs { psu := some {} })]

/-- The run that fails: the subclass leaves its own state by `boot_to_os`, nothing is asked of
the target, and the machine says `OS_USERLAND`. -/
theorem bootToOs_without_evidence :
    ∃ w₁ w₂ : World liveTarget,
      (customMachine { psu := some {} } labStation).fire "enter_lab" none ⟨{}, (), []⟩ =
        .ok () w₁ ∧
      (customMachine { psu := some {} } labStation).fire "boot_to_os" none w₁ = .ok () w₂ ∧
      w₂.vars.state = .osUserland ∧ ¬ OsEvidence { psu := some {} } (w₁.since w₂) :=
  ⟨_, _, rfl, rfl, rfl, OsEvidence.not_note _ _⟩

theorem labStation_keepsBootToOs :
    ∀ r ∈ labStation, r.keepsBootToOs { psu := some {} } := by
  intro r hr
  simp only [labStation, List.mem_cons, List.not_mem_nil, or_false] at hr
  rcases hr with rfl | rfl | rfl
  · trivial
  · intro h
    simp at h
  · exact fun _ => rfl

theorem bootToOs_evidence_iff_live :
    ∃ w w' : World liveTarget, w.vars.state = .osUserland ∧
      (customMachine { psu := some {} } labStation).fire "boot_to_os" none w = .ok () w' ∧
      OsEvidence { psu := some {} } (w.since w') := by
  obtain ⟨w', h⟩ : ∃ w' : World liveTarget,
    (customMachine { psu := some {} } labStation).fire "boot_to_os" none
      ⟨{ state := .osUserland }, (), []⟩ = .ok () w' := ⟨_, rfl⟩
  refine ⟨_, w', rfl, h, (bootToOs_evidence_iff _ labStation_keepsBootToOs h).2 ?_⟩
  rintro ⟨⟨n, hn⟩, _⟩
  cases hn

end MesCore
