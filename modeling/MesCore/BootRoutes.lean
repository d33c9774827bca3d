import MesCore.BootReplies

namespace MesCore
set_option autoImplicit true

def asksSsh : Entry fsmInterface → Bool
  | .call .sshIsConnected _ => true
  | _ => false

def resetQuestions (fsm : Station) : Nat := if (resetPin fsm).isSome then 0 else 1

/-- The login is over, and was not refused. -/
def LoggedIn (fsm : Station) (seg : List (Entry fsmInterface)) : Prop :=
  ∃ n, ∀ tail, afterLogin fsm (seg ++ tail) = afterTimeout n tail

/-- The login is refused by the first of these entries, and the others follow it. -/
def RefusedBefore (fsm : Station) (seg rest : List (Entry fsmInterface)) : Prop :=
  ∀ tail, afterLogin fsm (seg ++ tail) = some (rest ++ tail)

def Opens (seg : List (Entry fsmInterface)) : Prop := ∃ r s, seg = did .serialSubscribe r :: s

variable {d : Hardware} (fsm : Station)

section
variable {seg seg' tail : List (Entry fsmInterface)}

theorem Opens.append (h : Opens seg) : Opens (seg ++ tail) := by
  obtain ⟨r, s, rfl⟩ := h
  exact ⟨r, s ++ tail, rfl⟩

theorem Opens.listening (h : Opens seg) : listening seg = seg := by
  obtain ⟨r, s, rfl⟩ := h
  exact listening_subscribed

variable {fsm} in
theorem RefusedBefore.append (h : RefusedBefore fsm seg []) :
    RefusedBefore fsm (seg ++ seg') seg' := by
  intro tail
  rw [List.append_assoc, h, List.nil_append]

variable {fsm} in
theorem RefusedBefore.after {rest : List (Entry fsmInterface)} (h : RefusedBefore fsm seg rest) :
    afterLogin fsm seg = some rest := by
  simpa using h []

end

/-- What a session on the console that shows its prompt leaves to the finalization behind it. -/
theorem afterLogin_shown {s : List (Entry fsmInterface)} (u u' : Unit)
    (h : SessionHeard fsm [] true s) (tail : List (Entry fsmInterface)) :
    afterLogin fsm
        (did .serialSubscribe (.ok u) :: (s ++ [did .serialUnsubscribe (.ok u')]) ++ tail) =
      afterTimeout 0 tail := by
  have hcons : did .serialSubscribe (.ok u) :: (s ++ [did .serialUnsubscribe (.ok u')]) ++ tail =
      did .serialSubscribe (.ok u) :: (s ++ did .serialUnsubscribe (.ok u') :: tail) := by
    simp only [List.cons_append, List.append_assoc, List.nil_append]
  rw [hcons, afterLogin_session fsm h.1, h.2]
  rfl

/-- What a session that ends without its prompt leaves, or one that cannot be closed. -/
theorem afterLogin_hidden {s : List (Entry fsmInterface)} (u : Unit) {r : Except Err Unit}
    {shown : Bool} (h : SessionHeard fsm [] shown s) (hr : r.isOk = true → shown = false)
    (tail : List (Entry fsmInterface)) :
    afterLogin fsm (did .serialSubscribe (.ok u) :: (s ++ [did .serialUnsubscribe r]) ++ tail) =
      some tail := by
  have hcons : did .serialSubscribe (.ok u) :: (s ++ [did .serialUnsubscribe r]) ++ tail =
      did .serialSubscribe (.ok u) :: (s ++ did .serialUnsubscribe r :: tail) := by
    simp only [List.cons_append, List.append_assoc, List.nil_append]
  rw [hcons, afterLogin_session fsm h.1, h.2]
  cases r with
  | ok u' =>
    rw [hr rfl]
    rfl
  | error e => rfl

theorem tryHotLogin_reads : Leaves (tryHotLogin fsm : Fsm d Bool)
    (fun reached seg => Opens seg ∧ if reached then LoggedIn fsm seg else RefusedBefore fsm seg [])
    fun _ seg => Opens seg ∧ (afterLogin fsm seg).getD [] = [] := by
  have hlogin : Leaves (do
      eventWaitForOsShell fsm false
      finalizeOsBoot fsm
      pure true : Fsm d Bool)
      (fun reached seg => Opens seg ∧
        if reached then LoggedIn fsm seg else RefusedBefore fsm seg [])
      fun e seg => Opens seg ∧
        if e.isTransportTimeoutError then RefusedBefore fsm seg []
        else (afterLogin fsm seg).getD [] = [] := by
    apply Leaves.bind ((eventWaitForOsShell_session (d := d) fsm).mono (fun _ _ h => h) ?_)
    · intro _ s₁ h₁
      obtain ⟨u, s, u', rfl, hs⟩ := h₁
      have hshown := afterLogin_shown fsm u u' hs
      refine (finalizeOsBoot_scanned fsm).mono (fun _ _ h => h) ?_ |>.bind fun _ s₂ h₂ => ?_
      · intro e s₂ h₂
        refine ⟨⟨_, _, rfl⟩, ?_⟩
        split
        · intro tail
          rw [List.append_assoc, hshown, h₂.1 ‹_›]
          rfl
        · rw [hshown, h₂.2 (Bool.eq_false_iff.2 ‹_›)]
          rfl
      · obtain ⟨m, hm⟩ := h₂
        refine .pure ⟨⟨_, _, rfl⟩, m, fun tail => ?_⟩
        rw [List.append_nil, List.append_assoc, hshown, hm]
    · rintro e seg (rfl | ⟨u, s, r, shown, rfl, hs, hlast, hto⟩)
      · refine ⟨⟨_, _, rfl⟩, ?_⟩
        split
        · exact fun tail => rfl
        · rfl
      · refine ⟨⟨_, _, rfl⟩, ?_⟩
        split
        · exact fun tail => afterLogin_hidden fsm u hs (hto ‹_›) tail
        · cases shown with
          | false =>
            have hnone := afterLogin_hidden fsm u (r := r) hs (fun _ => rfl) []
            rw [List.append_nil] at hnone
            rw [hnone]
            rfl
          | true =>
            cases r with
            | ok u' =>
              have hnone := afterLogin_shown fsm u u' hs []
              rw [List.append_nil] at hnone
              rw [hnone]
              rfl
            | error e' =>
              have hnone := afterLogin_hidden fsm u (r := .error e') hs nofun []
              rw [List.append_nil] at hnone
              rw [hnone]
              rfl
  apply hlogin.attempt
  · rintro e s ⟨ho, h⟩ hcaught
    rw [if_pos hcaught] at h
    refine .pure ⟨ho.append, ?_⟩
    rw [List.append_nil]
    exact h
  · rintro e s ⟨ho, h⟩ hlost
    rw [hlost] at h
    exact ⟨ho, h⟩

theorem bare.asksNothing {c : Call} (h : c.bare = true) (r : Except Err c.Ans) :
    asksSsh (did c r) = false := by
  have hc : c ≠ .sshIsConnected := of_decide_eq_true (Bool.and_eq_true_iff.1 h).2
  cases c <;> first | rfl | exact absurd rfl hc

theorem CallsOnly.asksNothing {p : Fsm d α} (h : Bare p) :
    Leaves p (fun _ seg => seg.countP asksSsh = 0) fun _ seg => seg.countP asksSsh = 0 := by
  have hnone (seg : List (Entry fsmInterface))
      (hk : ∀ c r, .call (I := fsmInterface) c r ∈ seg → Call.bare c = true) :
      seg.countP asksSsh = 0 := by
    rw [List.countP_eq_zero]
    intro e he
    cases e with
    | call c r => exact Bool.not_eq_true _ ▸ bare.asksNothing (hk c r he) r
    | note n => exact Bool.false_ne_true
  exact h.leaves.mono (fun _ => hnone) fun _ => hnone

/-- A reset that takes the power away asks for the SSH session once, before anything else. -/
theorem doHardwareReset_asks : Leaves (doHardwareReset fsm : Fsm d Unit)
    (fun _ seg => seg.countP asksSsh = resetQuestions fsm)
    fun _ seg => seg.countP asksSsh ≤ resetQuestions fsm := by
  rw [doHardwareReset, resetQuestions]
  split
  · rename_i pin hpin
    rw [hpin]
    have hpulse : Bare (do
        let s ← getState
        if s = .powerOff then pure () else pulseResetPin pin : Fsm d Unit) :=
      calls_getState.bind fun _ => .ite (.pure _) (bare_pulseResetPin pin)
    exact hpulse.asksNothing.mono (fun _ _ h => h) fun _ _ h => h.le
  · rename_i hpin
    rw [hpin]
    have hrest : Bare (do
        dropPower fsm
        doEnergize fsm : Fsm d Unit) := (bare_dropPower fsm).bind fun _ => bare_doEnergize fsm
    have hpower : (do doPowerOff fsm; doEnergize fsm : Fsm d Unit) = (do
        let connected : Bool ← ask .sshIsConnected
        onlyIf connected (ask .sshDisconnect)
        modifyContext fun c => { activeBootMedium := c.activeBootMedium }
        dropPower fsm
        doEnergize fsm) := by
      simp only [doPowerOff, leaveSession, bind_assoc]
    rw [hpower]
    refine Leaves.bind_call (fun e => Nat.le_refl _) fun connected => ?_
    have hall : Bare (do
        onlyIf connected (ask .sshDisconnect)
        modifyContext fun c => { activeBootMedium := c.activeBootMedium }
        dropPower fsm
        doEnergize fsm : Fsm d Unit) :=
      (CallsOnly.onlyIf _ (bare_ask _ rfl)).bind fun _ =>
        (CallsOnly.modifyVars _).bind fun _ => hrest
    apply hall.asksNothing.mono
    · intro _ seg h
      rw [List.countP_cons, h]
      rfl
    · intro _ seg h
      rw [List.countP_cons, h]
      exact Nat.le_refl _

/-- A login from `ENERGIZED` gets in, or it is refused and the target is reset. -/
theorem hotLoginOrReset_reads {w : World d} (hs : w.vars.state = .energized) :
    wp (hotLoginOrReset fsm)
      (fun reached w' => ∃ seg, w'.trace = w.trace ++ seg ∧ Opens seg ∧
        if reached then LoggedIn fsm seg
        else ∃ rest, RefusedBefore fsm seg rest ∧ rest.countP asksSsh = resetQuestions fsm)
      (fun _ w' => ∃ seg, w'.trace = w.trace ++ seg ∧ Opens seg ∧
        ((afterLogin fsm seg).getD []).countP asksSsh ≤ resetQuestions fsm) w := by
  have hbody : Leaves (do
      let reached ← tryHotLogin fsm
      if reached then pure true
      else do
        doHardwareReset fsm
        setState .dirty
        pure false : Fsm d Bool)
      (fun reached seg => Opens seg ∧
        if reached then LoggedIn fsm seg
        else ∃ rest, RefusedBefore fsm seg rest ∧ rest.countP asksSsh = resetQuestions fsm)
      fun _ seg => Opens seg ∧
        ((afterLogin fsm seg).getD []).countP asksSsh ≤ resetQuestions fsm := by
    refine Leaves.bind ((tryHotLogin_reads fsm).mono (fun _ _ h => h) ?_) fun reached s₁ h₁ => ?_
    · intro _ seg h
      rw [h.2]
      exact ⟨h.1, Nat.zero_le _⟩
    · obtain ⟨ho, h₁⟩ := h₁
      cases reached with
      | true =>
        refine .pure ⟨ho.append, ?_⟩
        rw [List.append_nil]
        exact h₁
      | false =>
        have hrefused : RefusedBefore fsm s₁ [] := h₁
        refine Leaves.bind ((doHardwareReset_asks fsm).mono (fun _ _ h => h) ?_) fun _ s₂ h₂ => ?_
        · intro _ s₂ h₂
          refine ⟨ho.append, ?_⟩
          have hrefused' : RefusedBefore fsm (s₁ ++ s₂) s₂ := hrefused.append
          rw [hrefused'.after]
          exact h₂
        · refine Leaves.bind (.modifyVars (P := fun _ s => s = []) rfl) fun _ s₃ h₃ => ?_
          subst h₃
          refine .pure ⟨ho.append, s₂, ?_, h₂⟩
          simp only [List.append_nil]
          exact hrefused.append
  rw [hotLoginOrReset, wp_bind, wp_getState, if_pos hs]
  exact hbody.runs w

theorem any_muted {seg : List (Entry fsmInterface)} (h : ∀ e ∈ seg, Muted e) :
    seg.any beats = false ∧ seg.any subscribes = false := by
  rw [List.any_eq_false, List.any_eq_false]
  exact ⟨fun e he => by simp [(h e he).beats], fun e he => by simp [(h e he).subscribes]⟩

/-- An answered heartbeat is what `_try_resume_existing_os` returns; it does not listen. -/
abbrev Pulse (p : Fsm d Bool) : Prop :=
  Leaves p (fun alive seg => seg.any beats = alive ∧ seg.any subscribes = false)
    fun _ seg => seg.any subscribes = false

/-- What came before without an answer or a listener changes nothing. -/
theorem Pulse.after {p : Fsm d Bool} {seg : List (Entry fsmInterface)} (h : Pulse p)
    (hb : seg.any beats = false) (hs : seg.any subscribes = false) :
    Leaves p
      (fun alive tail => (seg ++ tail).any beats = alive ∧ (seg ++ tail).any subscribes = false)
      fun _ tail => (seg ++ tail).any subscribes = false := by
  apply h.mono
  · intro alive tail h
    rw [List.any_append, List.any_append, hb, hs]
    exact h
  · intro e tail h
    rw [List.any_append, hs]
    exact h

theorem Pulse.then {p : Fsm d α} {k : α → Fsm d Bool} (hp : Finalizes p) (hk : ∀ a, Pulse (k a)) :
    Pulse (p >>= k) := by
  apply (hp.muted.mono (fun _ _ h => h) fun _ _ h => (any_muted h).2).bind
  intro a s h
  obtain ⟨hb, hs⟩ := any_muted h
  exact (hk a).after hb hs

theorem pulse_sshHeartbeat : Pulse (sshHeartbeat : Fsm d Bool) := by
  have hask : Leaves (do
      connectSshWithRetry
      let res : CommandResult ← ask (.sshSafeRun heartbeatCmd 2000 false)
      pure (heartbeatSeen res) : Fsm d Bool)
      (fun alive seg => seg.any beats = alive ∧ seg.any subscribes = false)
      fun _ seg => seg.any beats = false ∧ seg.any subscribes = false := by
    refine (bare_connectSshWithRetry.silent.finalizes.muted.mono (fun _ _ h => h)
      fun _ _ h => any_muted h).bind fun _ s h => ?_
    obtain ⟨hb, hs⟩ := any_muted h
    refine Leaves.bind_call (fun e => ?_) fun res => .pure ?_
    · simp only [List.any_append, hb, hs]
      exact ⟨rfl, rfl⟩
    · simp only [List.any_append, hb, hs]
      refine ⟨?_, rfl⟩
      rw [Bool.false_or, List.any_cons, List.any_nil, Bool.or_false, beats, decide_eq_true rfl,
        Bool.true_and]
  apply hask.attempt
  · intro e s h _
    apply Leaves.pure
    rw [List.append_nil]
    exact h
  · exact fun e s h _ => h.2

theorem pulse_tryResumeExistingOs : Pulse (tryResumeExistingOs : Fsm d Bool) := by
  refine pulse_sshHeartbeat.bind fun alive s₁ h₁ => ?_
  obtain ⟨hb₁, hs₁⟩ := h₁
  cases alive with
  | true =>
    apply Leaves.pure
    rw [List.append_nil]
    exact ⟨hb₁, hs₁⟩
  | false =>
    rw [if_neg Bool.false_ne_true]
    apply Pulse.after _ hb₁ hs₁
    apply Pulse.then (silent_ask _ rfl).finalizes
    intro connected
    cases connected with
    | false => exact .pure ⟨rfl, rfl⟩
    | true =>
      rw [if_pos rfl]
      have hask : Leaves (attempt (do
          let r : CommandResult ← ask (.serialSafeRun heartbeatCmd none 2000 false)
          pure (some r))
          Err.isTransportConnectionError fun _ => pure none : Fsm d (Option CommandResult))
          (fun res seg => seg.any beats = res.any heartbeatSeen ∧ seg.any subscribes = false)
          fun _ seg => seg.any subscribes = false := by
        refine Leaves.attempt
          (S := fun _ seg => seg.any beats = false ∧ seg.any subscribes = false)
          (Leaves.bind_call (fun e => ⟨rfl, rfl⟩) fun r => .pure ⟨?_, rfl⟩) ?_ fun _ _ h _ => h.2
        · rw [List.any_cons, List.any_nil, Bool.or_false, beats, decide_eq_true rfl, Bool.true_and]
          rfl
        · intro e s h _
          apply Leaves.pure
          rw [List.append_nil]
          exact h
      apply hask.bind
      intro res s h
      cases res with
      | none =>
        apply Leaves.pure
        rw [List.append_nil]
        exact h
      | some r =>
        dsimp only
        split
        · rename_i hseen
          apply Leaves.pure
          rw [List.append_nil, h.1, h.2]
          exact ⟨hseen, rfl⟩
        · rename_i hseen
          have hflush : Silent (flushDeadUart : Fsm d Unit) :=
            .attempt ((silent_ask _ rfl).bind fun _ => .ite
              ((silent_ask _ rfl).bind fun _ => (silent_ask _ rfl).bind fun _ =>
                (silent_ask _ rfl).bind fun _ => silent_ask _ rfl) (.pure _)) fun _ => .pure _
          apply Pulse.after _ (h.1.trans (Bool.eq_false_iff.2 hseen)) h.2
          exact Pulse.then hflush.finalizes fun _ => .pure ⟨rfl, rfl⟩

theorem resumeOrReset_reads {w : World d} (hs : w.vars.state = .osUserland) :
    wp (resumeOrReset fsm)
      (fun resumed w' => ∃ seg, w'.trace = w.trace ++ seg ∧ seg.any beats = resumed ∧
        seg.any subscribes = false)
      (fun _ w' => ∃ seg, w'.trace = w.trace ++ seg ∧ seg.any subscribes = false) w := by
  have hbody : Pulse (do
      let alive ← tryResumeExistingOs
      if alive then do
        finalizeOsBoot fsm
        pure true
      else do
        doHardwareReset fsm
        setState .energized
        pure false : Fsm d Bool) := by
    refine pulse_tryResumeExistingOs.bind fun alive s h => ?_
    have hafter {p : Fsm d Unit} (hp : Finalizes p) :
        Leaves (do p; pure alive : Fsm d Bool)
          (fun alive seg => (s ++ seg).any beats = alive ∧ (s ++ seg).any subscribes = false)
          fun _ seg => (s ++ seg).any subscribes = false := by
      refine (hp.muted.mono (fun _ _ h => h) fun _ seg h' => ?_).bind fun _ seg h' => .pure ?_
      · rw [List.any_append, h.2, (any_muted h').2]
        rfl
      · rw [List.append_nil, List.any_append, List.any_append, h.1, h.2, (any_muted h').1,
          (any_muted h').2, Bool.or_false]
        exact ⟨rfl, rfl⟩
    cases alive with
    | true => exact hafter (finalizes_finalizeOsBoot fsm)
    | false =>
      have hreset : Finalizes (do doHardwareReset fsm; setState .energized : Fsm d Unit) :=
        (silent_doHardwareReset fsm).finalizes.bind fun _ => .modifyVars _
      have h := hafter hreset
      rw [bind_assoc] at h
      exact h
  rw [resumeOrReset, wp_bind, wp_getState, if_pos hs]
  exact hbody.runs w

/-- Nobody resumed the target that the probe found: it is to be logged in to. -/
def LoginDue (s : DutState) (seg : List (Entry fsmInterface)) : Prop :=
  (s = .osUserland ∧ ¬ HeartbeatAnswered seg) ∨ s = .energized

instance (s : DutState) (seg : List (Entry fsmInterface)) : Decidable (LoginDue s seg) :=
  inferInstanceAs (Decidable (_ ∨ _))

theorem beats_of_beatless {c : Call} (h : c.beatless = true) (r : Except Err c.Ans) :
    beats (did c r) = false := by
  cases r with
  | error e => cases c <;> rfl
  | ok a =>
    cases c with
    | sshSafeRun cmd timeoutMs check =>
      have hcmd : cmd ≠ heartbeatCmd := of_decide_eq_true h
      simp [beats, hcmd]
    | serialSafeRun cmd prompt timeoutMs check =>
      have hcmd : cmd ≠ heartbeatCmd := of_decide_eq_true h
      simp [beats, hcmd]
    | _ => rfl

theorem Beatless.since {p : Fsm d α} (h : Beatless p) {w w' : World d} {a : α}
    (hp : p w = .ok a w') : (w.since w').any beats = false := by
  have hk := h.leaves.ok hp
  rw [List.any_eq_false]
  intro e he
  cases e with
  | call c r => exact Bool.not_eq_true _ ▸ beats_of_beatless (hk c r he) r
  | note n => exact Bool.false_ne_true

section
variable {pre seg tail : List (Entry fsmInterface)}

/-- What comes before the login and what comes after it neither answer a heartbeat nor hide it. -/
theorem login_reads (hb : pre.any beats = false) (hs : pre.any subscribes = false) (ho : Opens seg)
    (hseg : seg.any beats = false) (htail : tail.any beats = false) :
    ¬ HeartbeatAnswered (pre ++ (seg ++ tail)) ∧
      (LoginRefused fsm (pre ++ (seg ++ tail)) ↔ (afterLogin fsm (seg ++ tail)).isSome = true) := by
  constructor
  · rw [heartbeatAnswered_iff, List.any_append, List.any_append, hb, hseg, htail]
    exact Bool.false_ne_true
  · have hpre : ∀ e ∈ pre, subscribes e = false := by
      intro e he
      exact Bool.eq_false_iff.2 (List.any_eq_false.1 hs e he)
    rw [LoginRefused, listening_append hpre, ho.append.listening]

end

section
variable {w v v' w₁ w₂ : World d} {pre : List (Entry fsmInterface)}

theorem loggedIn_reads (hb : pre.any beats = false) (hs : pre.any subscribes = false)
    (hen : w₁.vars.state = .energized) (h : hotLoginOrReset fsm w₁ = .ok true v') (n : Note) :
    ¬ HeartbeatAnswered (pre ++ (w₁.since v' ++ [.note n])) ∧
      ¬ LoginRefused fsm (pre ++ (w₁.since v' ++ [.note n])) := by
  obtain ⟨seg, htrace, ho, m, hm⟩ := (hotLoginOrReset_reads fsm hen).ok h
  have hbeat := (beatless_hotLoginOrReset fsm).since h
  rw [World.since_eq htrace] at hbeat ⊢
  have hnote : [Entry.note (I := fsmInterface) n].any beats = false := rfl
  obtain ⟨hno, hiff⟩ := login_reads fsm hb hs ho hbeat hnote
  refine ⟨hno, ?_⟩
  rw [hiff, hm]
  exact Bool.false_ne_true

theorem refused_reads {target : String} (hb : pre.any beats = false)
    (hs : pre.any subscribes = false)
    (hen : w₁.vars.state = .energized) (h : hotLoginOrReset fsm w₁ = .ok false w₂)
    (hcold : coldBootOrResume fsm target w₂ = .ok () v') (n : Note) :
    ¬ HeartbeatAnswered (pre ++ (w₁.since v' ++ [.note n])) ∧
      LoginRefused fsm (pre ++ (w₁.since v' ++ [.note n])) := by
  obtain ⟨seg, htrace, ho, rest, hrest, _⟩ := (hotLoginOrReset_reads fsm hen).ok h
  have hbeat := (beatless_hotLoginOrReset fsm).since h
  have hbeat' := (beatless_coldBootOrResume fsm target).since hcold
  have hsince : w₁.since v' = seg ++ w₂.since v' := by
    rw [World.since_append (((within_hotLoginOrReset fsm).ok h).grows)
      (((within_coldBootOrResume fsm target).ok hcold).grows), World.since_eq htrace]
  rw [World.since_eq htrace] at hbeat
  have htail : (w₂.since v' ++ [Entry.note n]).any beats = false := by
    rw [List.any_append, hbeat']
    rfl
  obtain ⟨hno, hiff⟩ := login_reads fsm hb hs ho hbeat htail
  rw [hsince, List.append_assoc]
  refine ⟨hno, hiff.2 ?_⟩
  rw [hrest]
  rfl

/-- The ways `_hw_boot_to_os` returns, told by what the target replied. -/
inductive Course (fsm : Station) (target : String) (seg : List (Entry fsmInterface))
    (v v' : World d) : Prop
  | resumed : v.vars.state = .osUserland → HeartbeatAnswered seg →
      resumeOrReset fsm v = .ok true v' → Course fsm target seg v v'
  | loggedIn (w₁ : World d) : LoginDue v.vars.state seg → ¬ LoginRefused fsm seg →
      resumeOrReset fsm v = .ok false w₁ → hotLoginOrReset fsm w₁ = .ok true v' →
      Course fsm target seg v v'
  | refused (w₁ w₂ : World d) : LoginDue v.vars.state seg → LoginRefused fsm seg →
      resumeOrReset fsm v = .ok false w₁ → w₁.vars.state = .energized →
      hotLoginOrReset fsm w₁ = .ok false w₂ → w₂.vars.state = .dirty →
      coldBootOrResume fsm target w₂ = .ok () v' → Course fsm target seg v v'
  | booted : v.vars.state ≠ .osUserland → v.vars.state ≠ .energized →
      coldBootOrResume fsm target v = .ok () v' → Course fsm target seg v v'

theorem Course.of_login {target : String} (hb : pre.any beats = false)
    (hs : pre.any subscribes = false) (hen : w₁.vars.state = .energized)
    (hdue : ∀ seg, ¬ HeartbeatAnswered seg → LoginDue v.vars.state seg)
    (h₁ : resumeOrReset fsm v = .ok false w₁)
    (h : hotLoginOrReset fsm w₁ = .ok true v' ∨ ∃ w₂, hotLoginOrReset fsm w₁ = .ok false w₂ ∧
      coldBootOrResume fsm target w₂ = .ok () v') (n : Note) :
    Course fsm target (pre ++ (w₁.since v' ++ [.note n])) v v' := by
  rcases h with h₂ | ⟨w₂, h₂, h₃⟩
  · obtain ⟨hno, hin⟩ := loggedIn_reads fsm hb hs hen h₂ n
    exact .loggedIn w₁ (hdue _ hno) hin h₁ h₂
  · obtain ⟨hno, hout⟩ := refused_reads fsm hb hs hen h₂ h₃ n
    exact .refused w₁ w₂ (hdue _ hno) hout h₁ hen h₂ (hotLoginOrReset_dirty fsm hen h₂) h₃

theorem align_muted (h : alignToPhysicalState fsm false w = .ok () v) :
    (w.since v).any beats = false ∧ (w.since v).any subscribes = false :=
  any_muted ((silent_align fsm).finalizes.muted.ok h)

theorem hwBootToOs_course {medium : Option String} (h : hwBootToOs fsm medium w = .ok () v')
    (n : Note) : ∃ v, alignToPhysicalState fsm false w = .ok () v ∧ w.trace <+: v.trace ∧
      v.trace <+: v'.trace ∧
      Course fsm (medium.getD v.vars.context.activeBootMedium) (w.since v' ++ [.note n]) v v' := by
  obtain ⟨_, v, ha, hroute⟩ := bind_ok h
  obtain ⟨s, hobs⟩ := align_observes fsm w
  rw [aligned, ha] at hobs
  have hg : w.trace <+: v.trace := hobs.grows
  have hg' : v.trace <+: v'.trace := ((within_route fsm (.bootToOs medium)).ok hroute).grows
  refine ⟨v, ha, hg, hg', ?_⟩
  obtain ⟨hb, hs⟩ := align_muted fsm ha
  rcases routeBootToOs_ok fsm hroute with h₁ | ⟨w₁, h₁, h₂⟩
  · -- the target resumed
    rcases resumeOrReset_ok fsm h₁ with ⟨_, hfalse, _⟩ | ⟨hos, _⟩
    · cases hfalse
    · obtain ⟨seg, htrace, hbeat, _⟩ := (resumeOrReset_reads fsm hos).ok h₁
      refine .resumed hos ?_ h₁
      rw [heartbeatAnswered_iff, World.since_append hg hg', World.since_eq htrace, List.any_append,
        List.any_append, hbeat, Bool.or_true, Bool.true_or]
  · by_cases hos : v.vars.state = .osUserland
    · -- the target was reset
      obtain ⟨seg, htrace, hbeat, hsub⟩ := (resumeOrReset_reads fsm hos).ok h₁
      have hg₁ : v.trace <+: w₁.trace := ⟨_, htrace.symm⟩
      have hg₂ : w₁.trace <+: v'.trace := by
        rcases h₂ with h₂ | ⟨w₂, h₂, h₃⟩
        · exact ((within_hotLoginOrReset fsm).ok h₂).grows
        · exact ((within_hotLoginOrReset fsm).ok h₂).grows.trans
            ((within_coldBootOrResume fsm _).ok h₃).grows
      have hsince : w.since v' ++ [.note n] =
          (w.since v ++ seg) ++ (w₁.since v' ++ [.note n]) := by
        rw [World.since_append hg hg', World.since_append hg₁ hg₂, World.since_eq htrace]
        simp only [List.append_assoc]
      rw [hsince]
      refine .of_login fsm ?_ ?_ (resumeOrReset_energized fsm hos h₁)
        (fun seg hno => .inl ⟨hos, hno⟩)
        h₁ h₂ n
      · rw [List.any_append, hb, hbeat]
        rfl
      · rw [List.any_append, hs, hsub]
        rfl
    · rcases resumeOrReset_ok fsm h₁ with ⟨_, _, rfl⟩ | ⟨hos', _⟩
      · by_cases hen : w₁.vars.state = .energized
        · rw [World.since_append hg hg', List.append_assoc]
          exact .of_login fsm hb hs hen (fun _ _ => .inr hen) h₁ h₂ n
        · rcases h₂ with h₂ | ⟨w₂, h₂, h₃⟩
          · rcases hotLoginOrReset_ok fsm h₂ with ⟨_, hfalse, _⟩ | ⟨hen', _⟩
            · cases hfalse
            · exact absurd hen' hen
          · rcases hotLoginOrReset_ok fsm h₂ with ⟨_, _, rfl⟩ | ⟨hen', _⟩
            · exact .booted hos hen h₃
            · exact absurd hen' hen
      · exact absurd hos' hos

end

@[reducible] def stateFrame : Frame fsmInterface where
  entry _ := True
  vars u v := v.state = u.state
  refl _ := rfl
  trans h h' := h'.trans h

theorem Within.state {P : Entry fsmInterface → Prop} {p : Fsm d α} (h : Within (routeFrame P) p) :
    Within stateFrame p :=
  h.mono (fun _ _ => trivial) fun _ _ h => h.1

theorem keeps_doHardwareReset : Within stateFrame (doHardwareReset fsm : Fsm d Unit) := by
  rw [doHardwareReset]
  split
  · rename_i pin _
    have hpulse : Within (routeFrame (made Call.straps)) (pulseResetPin pin : Fsm d Unit) :=
      (within_made _ rfl).bind fun _ => (within_made _ rfl).bind fun _ =>
        (within_made _ rfl).bind fun _ => within_made _ rfl
    exact within_getState.bind fun _ => .ite (.pure _) hpulse.state
  · exact (within_doPowerOff fsm).state.bind fun _ => (within_doEnergize fsm).state

theorem keeps_changeStraps (target : String) :
    Within stateFrame (changeStraps fsm target : Fsm d Unit) :=
  (within_doPowerOff fsm).state.bind fun _ =>
    ((within_applyStraps fsm target).state.bind fun _ => .note (I := fsmInterface) _ trivial).bind
      fun _ => .modifyVars _ fun _ => rfl

theorem keeps_strapAndBootOs (target : String) :
    Within stateFrame (strapAndBootOs fsm target : Fsm d Unit) :=
  ((within_applyStraps fsm target).state.bind fun _ => .note (I := fsmInterface) _ trivial).bind
    fun _ => (Within.modifyVars _ fun _ => rfl).bind fun _ =>
      (within_coldBootToOs fsm).state.bind fun _ => (within_finalizeOsBoot fsm).state

theorem keeps_coldBootOrResume (target : String) :
    Within stateFrame (coldBootOrResume fsm target : Fsm d Unit) := by
  refine within_getState.bind fun s => .ite ?_ (.ite ?_ (.pure _))
  · exact (Within.onlyIf _ (within_doPowerOff fsm).state).bind fun _ =>
      keeps_strapAndBootOs fsm target
  · exact (within_resumeBootloaderToOs fsm).state.bind fun _ => (within_finalizeOsBoot fsm).state

theorem keeps_route {t : Trigger} (ht : ∀ medium, t ≠ .bootToOs medium) :
    Within stateFrame (t.route fsm : Fsm d Unit) := by
  cases t with
  | powerOff =>
    exact within_getState.bind fun _ => .ite (.pure _) (within_doPowerOff fsm).state
  | energize medium =>
    refine within_getContext.bind fun _ => within_getState.bind fun _ => .ite ?_ (.ite (.pure _) ?_)
    · exact (keeps_changeStraps fsm _).bind fun _ => (within_doEnergize fsm).state
    · exact ((within_applyStraps fsm _).state.bind fun _ =>
        .note (I := fsmInterface) _ trivial).bind fun _ => (Within.modifyVars _ fun _ => rfl).bind
          fun _ => (within_doEnergize fsm).state
  | bootToBootloader medium =>
    refine within_getContext.bind fun _ => within_getState.bind fun _ => .ite ?_ (.ite (.pure _)
      (.ite ?_ (.ite ?_ ?_)))
    · exact (keeps_changeStraps fsm _).bind fun _ => (within_coldBootToBootloader fsm).state
    · exact (within_rebootFromOs fsm).state.bind fun _ =>
        (within_eventWaitForBootloader fsm _).state
    · exact (within_rebootEnergized fsm).state
    · exact (within_coldBootToBootloader fsm).state
  | bootToOs medium => exact absurd rfl (ht medium)
  | bootToRecovery =>
    have hask (c : Call) : Within stateFrame (ask c : Fsm d c.Ans) :=
      .call (I := fsmInterface) c fun _ => trivial
    refine within_getState.bind fun _ => .ite (.pure _) ?_
    refine (Within.onlyIf _ (within_doPowerOff fsm).state).bind fun _ =>
      Within.bind ?_ fun _ => hask _
    rw [triggerRecovery]
    split
    · exact (hask _).bind fun _ => (within_doEnergize fsm).state.bind fun _ => (hask _).bind
        fun _ => hask _
    · exact .ite (.fail _) (Within.bind (.attempt (hask _) _ fun _ => .pure _) fun _ =>
        (within_doEnergize fsm).state)
  | markDirty => exact .pure _

section
variable {w w' : World d} {e : Err}

theorem resumeOrReset_error (h : resumeOrReset fsm w = .error e w') :
    w.vars.state = .osUserland ∧ w'.vars.state = .osUserland := by
  rcases bind_error h with h | ⟨s, w₀, hs, h⟩
  · cases h
  · cases hs
    split at h
    · rename_i hos
      refine ⟨hos, ?_⟩
      rcases bind_error h with h | ⟨alive, w₁, h₁, h⟩
      · exact (within_tryResumeExistingOs.error h).2.1.trans hos
      · have hs₁ := (within_tryResumeExistingOs.ok h₁).2.1.trans hos
        cases alive with
        | true =>
          rcases bind_error h with h | ⟨_, w₂, _, h⟩
          · exact ((within_finalizeOsBoot fsm).error h).2.1.trans hs₁
          · cases h
        | false =>
          rcases bind_error h with h | ⟨_, w₂, _, h⟩
          · exact ((keeps_doHardwareReset fsm).error h).2.trans hs₁
          · cases h
    · cases h

theorem hotLoginOrReset_error (h : hotLoginOrReset fsm w = .error e w') :
    w.vars.state = .energized ∧ w'.vars.state = .energized := by
  rcases bind_error h with h | ⟨s, w₀, hs, h⟩
  · cases h
  · cases hs
    split at h
    · rename_i hen
      refine ⟨hen, ?_⟩
      rcases bind_error h with h | ⟨reached, w₁, h₁, h⟩
      · exact ((within_tryHotLogin fsm).error h).2.1.trans hen
      · have hs₁ := ((within_tryHotLogin fsm).ok h₁).2.1.trans hen
        cases reached with
        | true => cases h
        | false =>
          rcases bind_error h with h | ⟨_, w₂, _, h⟩
          · exact ((keeps_doHardwareReset fsm).error h).2.trans hs₁
          · cases h
    · cases h

theorem Leaves.starts {c : Call} {k : c.Ans → Fsm d α} (hk : ∀ a, Within stateFrame (k a)) :
    Leaves (ask c >>= k) (fun _ seg => ∃ r s, seg = did c r :: s)
      fun _ seg => ∃ r s, seg = did c r :: s := by
  refine Leaves.bind_call (fun e => ⟨_, [], rfl⟩) fun a => ?_
  exact (Leaves.of_within (hk a)).mono (fun _ s _ => ⟨_, s, rfl⟩) fun _ s _ => ⟨_, s, rfl⟩

/-- A cold boot from `DIRTY` asks for the SSH session before anything else. -/
theorem coldBootOrResume_asks {target : String} (hd : w.vars.state = .dirty)
    (h : coldBootOrResume fsm target w = .error e w') :
    ∃ r s, w.since w' = did .sshIsConnected r :: s := by
  have hcold : (do doPowerOff fsm; strapAndBootOs fsm target : Fsm d Unit) = (do
      let connected : Bool ← ask .sshIsConnected
      onlyIf connected (ask .sshDisconnect)
      modifyContext fun c => { activeBootMedium := c.activeBootMedium }
      dropPower fsm
      strapAndBootOs fsm target) := by
    simp only [doPowerOff, leaveSession, bind_assoc]
  have hask (c : Call) : Within stateFrame (ask c : Fsm d c.Ans) :=
    .call (I := fsmInterface) c fun _ => trivial
  rw [coldBootOrResume, bind_of_ok (getState_apply w), hd] at h
  change (do doPowerOff fsm; strapAndBootOs fsm target : Fsm d Unit) w = _ at h
  rw [hcold] at h
  refine Leaves.error (Leaves.starts fun connected => ?_) h
  refine (Within.onlyIf _ (hask _)).bind fun _ => (Within.modifyVars _ fun _ => rfl).bind fun _ =>
    (within_dropPower fsm).state.bind fun _ => keeps_strapAndBootOs fsm target

/-- The state in which a refused login leaves the machine: its reset asks for the SSH session at
most so often, and the cold boot behind it once more. -/
def leftByLogin (seg : List (Entry fsmInterface)) : DutState :=
  if resetQuestions fsm < ((afterLogin fsm (listening seg)).getD []).countP asksSsh then .dirty
  else .energized

/-- The state in which a trigger that raises leaves the machine, by the state it was routed from
and by what the target replied. -/
def stateLeft (t : Trigger) (s : DutState) (seg : List (Entry fsmInterface)) : DutState :=
  match t with
  | .bootToOs _ =>
    if s = .energized ∨ (s = .osUserland ∧ seg.any subscribes = true) then leftByLogin fsm seg
    else s
  | _ => s

end

section
variable {w w' w₁ w₂ : World d} {pre seg : List (Entry fsmInterface)} {e : Err}

theorem leftByLogin_eq (hpre : pre.any subscribes = false) (ho : Opens seg) :
    leftByLogin fsm (pre ++ seg) =
      if resetQuestions fsm < ((afterLogin fsm seg).getD []).countP asksSsh then .dirty
      else .energized := by
  have hquiet : ∀ e ∈ pre, subscribes e = false := by
    intro e he
    exact Bool.eq_false_iff.2 (List.any_eq_false.1 hpre e he)
  rw [leftByLogin, listening_append hquiet, ho.listening]

theorem login_left {target : String} (hpre : pre.any subscribes = false)
    (hen : w₁.vars.state = .energized)
    (h : hotLoginOrReset fsm w₁ = .error e w' ∨ ∃ w₂, hotLoginOrReset fsm w₁ = .ok false w₂ ∧
      coldBootOrResume fsm target w₂ = .error e w') :
    leftByLogin fsm (pre ++ w₁.since w') = w'.vars.state ∧ (w₁.since w').any subscribes = true := by
  have hopens {s : List (Entry fsmInterface)} (ho : Opens s) : s.any subscribes = true := by
    obtain ⟨r, t, rfl⟩ := ho
    rfl
  rcases h with h | ⟨w₂, h, hcold⟩
  · obtain ⟨seg, htrace, ho, hcount⟩ := (hotLoginOrReset_reads fsm hen).error h
    rw [World.since_eq htrace, leftByLogin_eq fsm hpre ho, if_neg (Nat.not_lt.2 hcount),
      (hotLoginOrReset_error fsm h).2]
    exact ⟨rfl, hopens ho⟩
  · obtain ⟨seg, htrace, ho, rest, hrest, hcount⟩ := (hotLoginOrReset_reads fsm hen).ok h
    have hd := hotLoginOrReset_dirty fsm hen h
    obtain ⟨r, s, hs⟩ := coldBootOrResume_asks fsm hd hcold
    have hkept := (keeps_coldBootOrResume fsm target).error hcold
    have hsince : w₁.since w' = seg ++ did .sshIsConnected r :: s := by
      rw [World.since_append ⟨_, htrace.symm⟩ hkept.grows, World.since_eq htrace, hs]
    have hmore : resetQuestions fsm < (rest ++ did .sshIsConnected r :: s).countP asksSsh := by
      rw [List.countP_append, hcount, List.countP_cons_of_pos (by rfl)]
      omega
    rw [hsince, leftByLogin_eq fsm hpre ho.append, hrest, Option.getD_some, if_pos hmore,
      hkept.2, hd]
    exact ⟨rfl, hopens ho.append⟩

theorem routeBootToOs_left {medium : Option String} (hpre : pre.any subscribes = false)
    (h : routeBootToOs fsm medium w = .error e w') :
    stateLeft fsm (.bootToOs medium) w.vars.state (pre ++ w.since w') = w'.vars.state := by
  rcases bind_error h with h | ⟨ctx, w₀, hc, h⟩
  · cases h
  cases hc
  rcases bind_error h with h₁ | ⟨resumed, w₁, h₁, h⟩
  · obtain ⟨hos, hos'⟩ := resumeOrReset_error fsm h₁
    obtain ⟨seg, htrace, hseg⟩ := (resumeOrReset_reads fsm hos).error h₁
    have hquiet : (pre ++ seg).any subscribes = false := by
      rw [List.any_append, hpre, hseg]
      rfl
    rw [World.since_eq htrace, stateLeft, hos, hquiet, hos', if_neg (by simp)]
  · cases resumed with
    | true => cases h
    | false =>
      have hlogin : hotLoginOrReset fsm w₁ = .error e w' ∨ ∃ w₂,
          hotLoginOrReset fsm w₁ = .ok false w₂ ∧
            coldBootOrResume fsm (medium.getD w.vars.context.activeBootMedium) w₂ =
              .error e w' := by
        rcases bind_error h with h₂ | ⟨loggedIn, w₂, h₂, h⟩
        · exact .inl h₂
        · cases loggedIn with
          | true => cases h
          | false => exact .inr ⟨w₂, h₂, h⟩
      have hg₂ : w₁.trace <+: w'.trace := by
        rcases hlogin with h₂ | ⟨w₂, h₂, h₃⟩
        · exact ((within_hotLoginOrReset fsm).error h₂).grows
        · exact ((within_hotLoginOrReset fsm).ok h₂).grows.trans
            ((within_coldBootOrResume fsm _).error h₃).grows
      by_cases hos : w.vars.state = .osUserland
      · obtain ⟨seg, htrace, _, hseg⟩ := (resumeOrReset_reads fsm hos).ok h₁
        have hquiet : (pre ++ seg).any subscribes = false := by
          rw [List.any_append, hpre, hseg]
          rfl
        obtain ⟨hleft, hlistened⟩ :=
          login_left fsm hquiet (resumeOrReset_energized fsm hos h₁) hlogin
        rw [World.since_append ⟨_, htrace.symm⟩ hg₂, World.since_eq htrace, ← List.append_assoc,
          stateLeft, hos, if_pos (.inr ⟨rfl, by rw [List.any_append, hlistened, Bool.or_true]⟩),
          hleft]
      · rcases resumeOrReset_ok fsm h₁ with ⟨_, _, rfl⟩ | ⟨hos', _⟩
        · by_cases hen : w₁.vars.state = .energized
          · rw [stateLeft, if_pos (.inl hen), (login_left fsm hpre hen hlogin).1]
          · rw [stateLeft, if_neg (by simp [hos, hen])]
            rcases hlogin with h₂ | ⟨w₂, h₂, h₃⟩
            · exact absurd (hotLoginOrReset_error fsm h₂).1 hen
            · rcases hotLoginOrReset_ok fsm h₂ with ⟨_, _, rfl⟩ | ⟨hen', _⟩
              · exact ((keeps_coldBootOrResume fsm _).error h₃).2.symm
              · exact absurd hen' hen
        · exact absurd hos' hos

/-- A trigger that raises leaves the machine where the probe and the replies say. -/
theorem fire_left {t : Trigger} (h : fire fsm t w = .error e w') :
    stateLeft fsm t (routingState fsm w) (w.since w') = w'.vars.state := by
  replace h := fire_error fsm h
  have ht : t ≠ .markDirty := by
    rintro rfl
    cases h
  rcases hook_error fsm ht h with ⟨ha, hw⟩ | ⟨v, ha, hw, hroute⟩
  · -- the probe raised, and nothing was asked of the target behind it
    rw [routingState, hw]
    have hquiet := (any_muted ((silent_align fsm).finalizes.muted.error ha)).2
    have hnone : listening (w.since w') = [] := by
      have h : listening (w.since w' ++ []) = [] := listening_append fun e he =>
        Bool.eq_false_iff.2 (List.any_eq_false.1 hquiet e he)
      rwa [List.append_nil] at h
    cases t with
    | bootToOs medium =>
      rw [stateLeft, hquiet]
      split
      · rename_i hlogin
        rw [leftByLogin, hnone, hlogin.resolve_right (by simp)]
        rfl
      · rfl
    | _ => rfl
  · obtain ⟨s, hobs⟩ := align_observes fsm w
    rw [hw] at hobs
    rw [routingState, hw]
    by_cases hos : ∃ medium, t = .bootToOs medium
    · obtain ⟨medium, rfl⟩ := hos
      have hg : w.trace <+: v.trace := hobs.grows
      have hg' : v.trace <+: w'.trace := ((within_route fsm (.bootToOs medium)).error hroute).grows
      rw [World.since_append hg hg']
      exact routeBootToOs_left fsm (align_muted fsm ha).2 hroute
    · have hkept := (keeps_route fsm (fun medium he => hos ⟨medium, he⟩)).error hroute
      rw [hkept.2]
      cases t with
      | bootToOs medium => exact absurd ⟨medium, rfl⟩ hos
      | _ => rfl

end

end MesCore
