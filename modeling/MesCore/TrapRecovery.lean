import MesCore.BoardConsole
import Mathlib.Tactic.Linarith

namespace MesCore
set_option autoImplicit true

namespace IdealBoard
variable {fsm : Station} {B : IdealBoard fsm} {st : DutState} {pl : Place} {o : Bool}
  {w : World B.hardware} {E : Err → World B.hardware → Prop}

theorem wp_ask_error {c : Call} {Q : c.Ans → World B.hardware → Prop} {e : Err} {s : BoardState}
    (h : B.respond c w.dev = (.error e, s))
    (hE : E e { w with dev := s, trace := w.trace ++ [did c (.error e)] }) : wp (ask c) Q E w := by
  have hr : B.hardware.respond c w.dev = (.error e, s) := h
  unfold wp ask call
  rw [hr]
  exact hE

theorem shellRun_harmless {cmd : String} {s : BoardState} (h : B.Stands .linux s)
    (hcmd : cmd ≠ "reboot") (htrap : cmd ≠ trapCmd) : B.Stands .linux (B.shellRun cmd s) := by
  rw [shellRun, if_neg hcmd, Board.carryOut]
  rw [h.1]
  dsimp only
  refine ⟨rfl, ?_⟩
  change (s.board.flash.fwSetenv cmd).bootcmd = some B.orig
  rw [Env.fwSetenv, if_neg htrap]
  split <;> exact h.2

theorem shellRun_port (cmd : String) (s : BoardState) : (B.shellRun cmd s).port = s.port := by
  rw [shellRun]
  split
  · exact restart_port s
  · rfl

theorem shellRun_ssh {cmd : String} (hcmd : cmd ≠ "reboot") (s : BoardState) :
    (B.shellRun cmd s).ssh = s.ssh := by
  rw [shellRun, if_neg hcmd]

theorem serialRun_linux {s : BoardState} (hm : s.board.mode = .linux) (hp : s.port = true)
    (cmd : String) : B.serialRun cmd none s = (.ok (succeeded cmd), B.shellRun cmd s) := by
  unfold serialRun
  rw [if_pos hp]
  simp only [hm]

theorem serialRun_closed {s : BoardState} (hp : s.port = false) (cmd : String)
    (prompt : Option String) : B.serialRun cmd prompt s = (.error closedPort, s) :=
  if_neg (by simp [hp])

theorem serialRun_lost {s : BoardState} {env : Env} (hm : s.board.mode = .uboot env)
    (hp : s.port = true) (cmd : String) :
    B.serialRun cmd none s = (.error (.transportTimeoutError cmd), s) := by
  unfold serialRun
  rw [if_pos hp]
  simp only [hm]

theorem serialRun_uboot {s : BoardState} {env : Env} (hm : s.board.mode = .uboot env)
    (hp : s.port = true) (cmd prompt : String) : B.serialRun cmd (some prompt) s =
      (.ok (succeeded cmd), { s with board := s.board.carryOut cmd }) := by
  unfold serialRun
  rw [if_pos hp]
  simp only [hm]

theorem At.serialSafeRun_linux (h : B.At st .linux o w) (hp : w.dev.port = true) {cmd : String}
    {timeoutMs : Nat} {check : Bool} (hcmd : cmd ≠ "reboot") (htrap : cmd ≠ trapCmd) :
    wp (MesCore.ask (.serialSafeRun cmd none timeoutMs check))
      (fun _ w' => B.At st .linux o w' ∧ w'.dev.port = true) never w := by
  have hport : (B.shellRun cmd w.dev).port = true := by
    rw [shellRun_port, hp]
  exact h.ask (serialRun_linux h.stands.1 hp cmd) (shellRun_harmless h.stands hcmd htrap)
    (fun _ => hport) fun _ h' hd => ⟨h', hd ▸ hport⟩

theorem At.serialIsConnected (h : B.At st pl o w) : wp (MesCore.ask .serialIsConnected)
    (fun (c : Bool) w' => B.At st pl o w' ∧ c = w.dev.port ∧ w'.dev = w.dev) E w :=
  h.ask rfl h.stands h.port fun _ h' hd => ⟨h', rfl, hd⟩

theorem At.sshIsConnected (h : B.At st pl o w) : wp (MesCore.ask .sshIsConnected)
    (fun (c : Bool) w' => B.At st pl o w' ∧ c = w.dev.ssh ∧ w'.dev = w.dev) E w :=
  h.ask rfl h.stands h.port fun _ h' hd => ⟨h', rfl, hd⟩

theorem At.swupdateVerifyContext (h : B.At st .linux o w) :
    wp (swupdateVerifyContext fsm) (fun _ w' => B.At st .linux o w') never w := by
  rw [MesCore.swupdateVerifyContext]
  apply h.serialIsConnected.bind
  rintro connected w₁ ⟨h₁, hc, hd₁⟩
  cases connected with
  | false => exact (Keeps.modifyContext fun c => { c with activeRootfs := "UNKNOWN" }).keep h₁
  | true =>
    have hp₁ : w₁.dev.port = true := by
      rw [hd₁, ← hc]
    apply (h₁.serialSafeRun_linux hp₁ (by decide) (by decide)).bind
    rintro _ w₂ ⟨h₂, hp₂⟩
    apply wp.bind (R := fun _ w' => B.At st .linux o w' ∧ w'.dev.port = true)
    · exact ⟨⟨h₂.state, h₂.stands, h₂.port⟩, hp₂⟩
    · rintro _ w₃ ⟨h₃, hp₃⟩
      split
      · apply (h₃.serialSafeRun_linux hp₃ (by decide) (by decide)).bind
        rintro _ w₄ ⟨h₄, _⟩
        exact (Keeps.modifyContext _).keep h₄
      · exact h₃

theorem keeps_runValidators (names : List String) : B.Keeps (runValidators names) := by
  induction names with
  | nil => exact .pure ()
  | cons name names ih =>
    exact (((Keeps.aside _ rfl).bind fun _ => .modifyContext _).attempt _ _).bind fun _ => ih

theorem At.verifyLinuxContext (h : B.At st .linux o w) :
    wp (verifyLinuxContext fsm) (fun _ w' => B.At st .linux o w') never w := by
  rw [MesCore.verifyLinuxContext]
  split
  · exact h.swupdateVerifyContext
  · exact (keeps_runValidators _).keep h

theorem At.connectSsh (h : B.At st .linux o w) : wp connectSshWithRetry
    (fun _ w' => B.At st .linux o w' ∧ w'.dev.ssh = true) never w := by
  apply wp.retry_of_never
  have hr : B.respond .sshConnect w.dev = (.ok (), { w.dev with ssh := true }) :=
    if_pos h.stands.1
  exact h.ask hr h.stands h.port fun _ h' hd => ⟨h', hd ▸ rfl⟩

theorem At.finalizeOsBoot (h : B.At st .linux o w) :
    wp (finalizeOsBoot fsm) (fun _ w' => B.At st .linux o w') never w := by
  rw [MesCore.finalizeOsBoot]
  apply h.sshIsConnected.bind
  rintro connected w₁ ⟨h₁, _, _⟩
  split
  · exact h₁
  · apply h₁.verifyLinuxContext.bind
    intro _ w₂ h₂
    apply h₂.serialIsConnected.bind
    rintro serial w₃ ⟨h₃, hs, hd₃⟩
    apply wp.bind (R := fun _ w' => B.At st .linux o w')
    · apply wp_onlyIf
      · rintro rfl
        have hp₃ : w₃.dev.port = true := by
          rw [hd₃, ← hs]
        apply (h₃.serialSafeRun_linux hp₃ (by decide) (by decide)).bind
        exact fun _ _ h₄ => h₄.1
      · exact fun _ => h₃
    · intro _ w₄ h₄
      exact h₄.connectSsh.mono (fun _ _ h' => h'.1) fun _ _ he => he

theorem At.tryResumeExistingOs (h : B.At st .linux o w) : wp tryResumeExistingOs
    (fun alive w' => alive = true ∧ B.At st .linux o w') never w := by
  rw [MesCore.tryResumeExistingOs, sshHeartbeat]
  apply wp.bind (R := fun alive w' => alive = true ∧ B.At st .linux o w')
  · apply wp.attempt_of_never
    apply h.connectSsh.bind
    rintro _ w₁ ⟨h₁, hssh⟩
    have hr : B.respond (.sshSafeRun heartbeatCmd 2000 false) w₁.dev =
        (.ok (succeeded heartbeatCmd), B.shellRun heartbeatCmd w₁.dev) := if_pos hssh
    have hport : o = true → (B.shellRun heartbeatCmd w₁.dev).port = true := by
      rw [shellRun_port]
      exact h₁.port
    apply wp.bind (R := fun res w' => res = succeeded heartbeatCmd ∧ B.At st .linux o w')
    · exact h₁.ask hr (shellRun_harmless h₁.stands (by decide) (by decide)) hport
        fun _ h' _ => ⟨rfl, h'⟩
    · rintro res w₂ ⟨rfl, h₂⟩
      exact ⟨by decide +kernel, h₂⟩
  · rintro alive w₁ ⟨rfl, h₁⟩
    exact ⟨rfl, h₁⟩

theorem At.tryHotLogin (h : B.At st .linux o w) :
    wp (tryHotLogin fsm) (fun _ w' => B.At st .linux o w') never w := by
  rw [MesCore.tryHotLogin, wp_attempt, wp_bind]
  refine (h.eventWaitForOsShell false).mono (fun _ w₁ h₁ => ?_) fun e w₁ h₁ => ?_
  · apply wp.bind (h₁.finalizeOsBoot.succeeds)
    exact fun _ _ h₂ => h₂
  · rw [if_pos h₁.2.1]
    exact h₁.2.2

theorem transportSafeRun_linux (hm : w.dev.board.mode = .linux)
    (hup : w.dev.ssh = true ∨ w.dev.port = true) (cmd : String) (timeoutMs : Nat) (check : Bool) :
    wp (transportSafeRun cmd timeoutMs check)
      (fun _ w' => w'.vars = w.vars ∧ w'.dev = B.shellRun cmd w.dev) never w := by
  have hssh : B.respond .sshIsConnected w.dev = (.ok w.dev.ssh, w.dev) := rfl
  rw [transportSafeRun, wp_bind]
  apply wp_ask_ok hssh
  split
  · rename_i hs
    have hr : B.respond (.sshSafeRun cmd timeoutMs check) w.dev =
        (.ok (succeeded cmd), B.shellRun cmd w.dev) := if_pos hs
    exact wp_ask_ok hr ⟨rfl, rfl⟩
  · rename_i hs
    have hr : B.respond (.serialSafeRun cmd none timeoutMs check) w.dev =
        (.ok (succeeded cmd), B.shellRun cmd w.dev) := serialRun_linux hm (hup.resolve_left hs) cmd
    exact wp_ask_ok hr ⟨rfl, rfl⟩

theorem At.transportSafeRun_lost (h : B.At st pl o w) (hssh : w.dev.ssh = false)
    (hlost : w.dev.port = false ∨ pl = .uboot) (cmd : String) (timeoutMs : Nat) (check : Bool) :
    wp (transportSafeRun cmd timeoutMs check) (fun _ _ => False)
      (fun _ w' => B.At st pl o w') w := by
  have hs : B.respond .sshIsConnected w.dev = (.ok false, w.dev) := by
    rw [← hssh]
    rfl
  have hr : ∃ e, B.respond (.serialSafeRun cmd none timeoutMs check) w.dev = (.error e, w.dev) := by
    cases hp : w.dev.port with
    | false => exact ⟨_, serialRun_closed hp cmd none⟩
    | true =>
      have hu : pl = .uboot := hlost.resolve_left (by simp [hp])
      rw [hu] at h
      exact ⟨_, serialRun_lost (congrArg Board.mode h.stands.1) hp cmd⟩
  obtain ⟨e, hr⟩ := hr
  rw [transportSafeRun, wp_bind]
  apply wp_ask_ok hs
  exact wp_ask_error hr ⟨h.state, h.stands, h.port⟩

theorem shellRun_connected {cmd : String} (hcmd : cmd ≠ "reboot") {s : BoardState}
    (h : s.ssh = true ∨ s.port = true) :
    (B.shellRun cmd s).ssh = true ∨ (B.shellRun cmd s).port = true := by
  rwa [shellRun_ssh hcmd, shellRun_port]

/-- The backup and the trap, and a reboot that ends at the prompt of U-Boot. -/
theorem trap_set {s : BoardState} (h : B.Stands .linux s) :
    B.Stands .uboot (B.shellRun "reboot" (B.shellRun trapCmd (B.shellRun trapBackupCmd s))) ∧
      (B.shellRun "reboot" (B.shellRun trapCmd (B.shellRun trapBackupCmd s))).output = .boot := by
  obtain ⟨⟨flash, mode⟩, ssh, port, output⟩ := s
  obtain ⟨bootcmd, prev⟩ := flash
  obtain ⟨hm, hb⟩ := h
  cases hm
  cases hb
  have hbackup : B.shellRun trapBackupCmd ⟨⟨⟨some B.orig, prev⟩, .linux⟩, ssh, port, output⟩ =
      ⟨⟨⟨some B.orig, some B.orig⟩, .linux⟩, ssh, port, output⟩ := rfl
  have htrap : B.shellRun trapCmd ⟨⟨⟨some B.orig, some B.orig⟩, .linux⟩, ssh, port, output⟩ =
      ⟨⟨B.trapEnv, .linux⟩, ssh, port, output⟩ := rfl
  have hreboot : B.shellRun "reboot" ⟨⟨B.trapEnv, .linux⟩, ssh, port, output⟩ =
      ⟨⟨B.trapEnv, B.run B.trapEnv⟩, false, port, .boot⟩ := rfl
  rw [hbackup, htrap, hreboot, run_trapEnv]
  exact ⟨⟨rfl, rfl⟩, rfl⟩

theorem At.asyncRebootDut (hst : w.vars.state = st) (hm : w.dev.board.mode = .linux)
    (hup : w.dev.ssh = true ∨ w.dev.port = true)
    (hreset : B.Stands .uboot (B.shellRun "reboot" w.dev)) (hp : o = true → w.dev.port = true) :
    wp asyncRebootDut (fun _ w' => B.At st .uboot o w' ∧
      w'.dev.output = (B.shellRun "reboot" w.dev).output) never w := by
  rw [MesCore.asyncRebootDut]
  apply wp.bind (R := fun _ w' => B.At st .uboot o w' ∧ w'.dev = B.shellRun "reboot" w.dev)
  · apply wp.attempt_of_never
    apply (transportSafeRun_linux hm hup _ _ _).bind
    rintro _ w₁ ⟨hv₁, hd₁⟩
    refine ⟨⟨hv₁ ▸ hst, hd₁ ▸ hreset, fun ho => ?_⟩, hd₁⟩
    rw [hd₁, shellRun_port, hp ho]
  · rintro _ w₁ ⟨h₁, hd₁⟩
    apply h₁.sshIsConnected.bind
    rintro connected w₂ ⟨h₂, rfl, hd₂⟩
    rw [h₁.stands.2]
    exact ⟨h₂, by rw [hd₂, hd₁]⟩

theorem At.setTrap (h : B.At st .linux o w) : wp setUbootTrapAndReboot
    (fun _ w' => B.At st .uboot o w' ∧ w'.dev.output = .boot)
    (fun _ w' => o = false ∧ B.At st .linux o w') w := by
  rw [setUbootTrapAndReboot]
  by_cases hup : w.dev.ssh = true ∨ w.dev.port = true
  · obtain ⟨hset, hboot⟩ := trap_set h.stands
    apply (transportSafeRun_linux h.stands.1 hup _ _ _).succeeds.bind
    rintro _ w₁ ⟨hv₁, hd₁⟩
    have hm₁ : w₁.dev.board.mode = .linux := by
      rw [hd₁]
      exact (shellRun_harmless h.stands (by decide) (by decide)).1
    have hup₁ : w₁.dev.ssh = true ∨ w₁.dev.port = true := by
      rw [hd₁]
      exact shellRun_connected (by decide) hup
    apply (transportSafeRun_linux hm₁ hup₁ _ _ _).succeeds.bind
    rintro _ w₂ ⟨hv₂, hd₂⟩
    have hm₂ : w₂.dev.board.mode = .linux := by
      rw [hd₂, shellRun, if_neg (by decide), Board.carryOut, hm₁]
    have hup₂ : w₂.dev.ssh = true ∨ w₂.dev.port = true := by
      rw [hd₂]
      exact shellRun_connected (by decide) hup₁
    rw [← hd₁, ← hd₂] at hset hboot
    have hst : w₂.vars.state = st := by
      rw [hv₂, hv₁, h.state]
    have hp : o = true → w₂.dev.port = true := by
      rw [hd₂, hd₁, shellRun_port, shellRun_port]
      exact h.port
    exact (At.asyncRebootDut hst hm₂ hup₂ hset hp).succeeds.mono
      (fun _ _ h₃ => ⟨h₃.1, h₃.2.trans hboot⟩) fun _ _ he => he
  · obtain ⟨hssh, hport⟩ := not_or.1 hup
    have hclosed : o = false := Bool.eq_false_iff.2 fun ho => hport (h.port ho)
    apply wp.bind ((h.transportSafeRun_lost (Bool.eq_false_iff.2 hssh)
      (.inl (Bool.eq_false_iff.2 hport)) _ _ _).mono (fun _ _ hf => hf) fun _ _ h' => ⟨hclosed, h'⟩)
    exact fun _ _ hf => hf.elim

theorem At.setTrap_trapped (h : B.At st .uboot o w) :
    wp setUbootTrapAndReboot (fun _ _ => False) (fun _ w' => B.At st .uboot o w') w := by
  rw [setUbootTrapAndReboot]
  apply wp.bind (h.transportSafeRun_lost h.stands.2 (.inr rfl) _ _ _)
  exact fun _ _ hf => hf.elim

theorem At.syncBootloader (h : B.At st .uboot true w) :
    wp (syncBootloader fsm) (fun _ w' => B.At st .uboot true w') never w := by
  rw [MesCore.syncBootloader]
  apply (h.rawWrite lineOf_newline).bind
  rintro _ w₁ ⟨h₁, _⟩
  apply (h₁.aside rfl).bind
  intro _ w₂ h₂
  apply (h₂.aside rfl).bind
  intro _ w₃ h₃
  have hm : w₃.dev.board.mode = .uboot B.trapEnv := congrArg Board.mode h₃.stands.1
  have hr : B.respond (.serialSafeRun "echo MES_SYNC" (some fsm.cfg.bootloaderPrompt) 3000 false)
      w₃.dev = (.ok (succeeded "echo MES_SYNC"), _) := serialRun_uboot hm (h₃.port rfl) _ _
  have hb : w₃.dev.board.carryOut "echo MES_SYNC" = w₃.dev.board := by
    rw [h₃.stands.1]
    rfl
  apply wp.bind (R := fun res w' => res = succeeded "echo MES_SYNC" ∧ B.At st .uboot true w')
  · exact h₃.ask hr (h₃.stands.congr hb rfl) h₃.port fun _ h' _ => ⟨rfl, h'⟩
  · rintro res w₄ ⟨rfl, h₄⟩
    rw [if_pos (by decide +kernel)]
    exact h₄

theorem bootloaderStream_feed {c : Bytes} (hc : c ∈ B.texts .uboot) :
    ∃ evs, ((bootloaderStream fsm false).start.feed (bootloaderStream fsm false) c).1 =
      .promptDetected "bootloader" :: evs := by
  have hquiet := (B.uboot_quiet [] c (by simpa [texts] using hc)).1
  exact feed_first rfl rfl hquiet (infix_sanitise (B.uboot_shown c hc).1)

theorem At.eventWaitForBootloader (h : B.At st .uboot o w) (hboot : w.dev.output = .boot) :
    wp (eventWaitForBootloader fsm false) (fun _ w' => B.At st .uboot true w')
      (fun _ w' => o = false ∧ B.At st .uboot o w') w := by
  by_cases hp : w.dev.port = true
  · apply wp.bind (R := fun done w' => done = true ∧ B.At st .uboot true w')
    · apply wp.succeeds
      have h' : B.At st .uboot true w := ⟨h.state, h.stands, fun _ => hp⟩
      have hkept (s : BoardState) (hs : s.output = .boot) : (flushed s).output = .boot := by
        rw [flushed, hs, if_neg (by intro h; cases h), hs]
      apply h'.overStream hkept true hboot
      intro w₁ h₁ hw₁
      obtain ⟨n, hn⟩ := Nat.exists_eq_add_of_le' B.time
      rw [hn]
      apply h₁.streamLoop_heard _ fun _ hc => bootloaderStream_feed hc
      · intro w₂ h₂
        rw [bootloaderEvent, if_pos (by decide)]
        apply h₂.syncBootloader.bind
        exact fun _ _ h₃ => ⟨rfl, h₃⟩
      · apply texts_ne_nil (heard_of_output h₁.stands rfl (h₁.port rfl) _)
        rw [hw₁]
        intro h
        cases h
    · rintro done w₁ ⟨rfl, h₁⟩
      exact h₁
  · have hclosed := Bool.eq_false_iff.2 hp
    have ho : o = false := Bool.eq_false_iff.2 fun ho => hp (h.port ho)
    apply wp.bind (R := fun done w' => done = false ∧ B.At st .uboot o w')
    · apply wp.succeeds
      exact h.overStream (R := (· = false)) (flushed_port false) true hclosed fun h₁ hw₁ =>
        h₁.streamLoop_closed (by simp) _ _ hw₁
    · rintro done w₁ ⟨rfl, h₁⟩
      exact ⟨ho, h₁⟩

/-- A cold boot to the bootloader sets the trap, or finds it set and fails. -/
theorem At.coldBootToBootloader (h : B.At st pl o w) :
    wp (coldBootToBootloader fsm) (fun _ w' => B.At st .uboot true w')
      (fun _ w' => B.At st .uboot true w') w := by
  rw [MesCore.coldBootToBootloader, B.autobootDisabled, if_neg Bool.false_ne_true]
  apply h.doEnergize.succeeds.bind
  intro _ w₁ h₁
  have hon := pl.powered_isOn
  generalize pl.powered = place at h₁ hon
  cases place with
  | off trapped => cases hon
  | linux =>
    apply ((h₁.eventWaitForOsShell true).mono (fun _ _ h => h)
      fun _ _ he => Bool.noConfusion he.1).bind
    intro _ w₂ h₂
    apply h₂.finalizeOsBoot.succeeds.bind
    intro _ w₃ h₃
    apply (h₃.setTrap.mono (fun _ _ h => h) fun _ _ he => Bool.noConfusion he.1).bind
    rintro _ w₄ ⟨h₄, hboot⟩
    exact (h₄.eventWaitForBootloader hboot).mono (fun _ _ h => h)
      fun _ _ he => Bool.noConfusion he.1
  | uboot =>
    apply wp.bind ((h₁.eventWaitForOsShell_trapped true).mono (fun _ _ hf => hf)
      fun _ _ he => he.2)
    exact fun _ _ hf => hf.elim

theorem At.coldBootToOs (h : B.At st pl o w) (hpl : pl.powered = .linux) :
    wp (coldBootToOs fsm) (fun _ w' => B.At st .linux true w') never w := by
  rw [MesCore.coldBootToOs, B.autobootDisabled, if_neg Bool.false_ne_true]
  apply h.doEnergize.bind
  intro _ w₁ h₁
  rw [hpl] at h₁
  exact (h₁.eventWaitForOsShell true).mono (fun _ _ h => h) fun _ _ he => Bool.noConfusion he.1

/-- At the prompt of U-Boot with an open port. -/
structure AtPrompt (st : DutState) (flash env : Env) (w : World B.hardware) : Prop where
  state : w.vars.state = st
  board : w.dev.board = ⟨flash, .uboot env⟩
  ssh : w.dev.ssh = false
  port : w.dev.port = true

theorem AtPrompt.run {flash env : Env} (h : AtPrompt st flash env w) (cmd prompt : String)
    (timeoutMs : Nat) {flash' env' : Env}
    (hrun : (Board.mk flash (.uboot env)).carryOut cmd = ⟨flash', .uboot env'⟩) :
    wp (MesCore.ask (.serialSafeRun cmd (some prompt) timeoutMs false))
      (fun _ w' => AtPrompt st flash' env' w') never w := by
  have hr : B.respond (.serialSafeRun cmd (some prompt) timeoutMs false) w.dev =
      (.ok (succeeded cmd), { w.dev with board := w.dev.board.carryOut cmd }) :=
    serialRun_uboot (congrArg Board.mode h.board) h.port cmd prompt
  rw [h.board, hrun] at hr
  exact wp_ask_ok hr ⟨h.state, rfl, h.ssh, h.port⟩

theorem At.restoreUbootTrap (h : B.At st .uboot true w) : wp (restoreUbootTrap fsm)
    (fun _ w' => AtPrompt st ⟨some B.orig, none⟩ ⟨some B.orig, none⟩ w') never w := by
  have h₀ : AtPrompt st B.trapEnv B.trapEnv w := ⟨h.state, h.stands.1, h.stands.2, h.port rfl⟩
  rw [MesCore.restoreUbootTrap]
  have hrestore : (Board.mk B.trapEnv (.uboot B.trapEnv)).carryOut restoreBootcmdCmd =
      ⟨B.trapEnv, .uboot ⟨some B.orig, some B.orig⟩⟩ := rfl
  apply (h₀.run _ _ _ hrestore).bind
  intro _ w₁ h₁
  have hdelete : (Board.mk B.trapEnv (.uboot ⟨some B.orig, some B.orig⟩)).carryOut
      deleteBackupCmd = ⟨B.trapEnv, .uboot ⟨some B.orig, none⟩⟩ := rfl
  apply (h₁.run _ _ _ hdelete).bind
  intro _ w₂ h₂
  apply (h₂.run "saveenv" _ _ rfl).bind
  exact fun _ w₃ h₃ => h₃

theorem At.resumeBootloaderToOs (h : B.At st .uboot true w) :
    wp (resumeBootloaderToOs fsm) (fun _ w' => B.At st .linux true w') never w := by
  rw [MesCore.resumeBootloaderToOs, B.autobootDisabled, if_neg Bool.false_ne_true]
  apply h.restoreUbootTrap.bind
  intro _ w₁ h₁
  rw [eventBootFromBootloaderToOs]
  have hflush : B.respond .serialFlushBuffers w₁.dev = (.ok (), flushed w₁.dev) := rfl
  apply wp.bind (R := fun _ w' => AtPrompt st ⟨some B.orig, none⟩ ⟨some B.orig, none⟩ w')
  · apply wp_ask_ok hflush
    have hs : (flushed w₁.dev).board = w₁.dev.board ∧ (flushed w₁.dev).ssh = w₁.dev.ssh ∧
        (flushed w₁.dev).port = w₁.dev.port := flushed_keeps w₁.dev
    exact ⟨h₁.state, hs.1.trans h₁.board, hs.2.1.trans h₁.ssh, hs.2.2.trans h₁.port⟩
  · intro _ w₂ h₂
    have hwrite : B.respond (.serialRawWrite (bootCommand fsm)) w₂.dev = (.ok (),
        { w₂.dev with board := ⟨⟨some B.orig, none⟩, .linux⟩, output := .boot }) := by
      rw [respond, lineOf_bootCommand B, h₂.port, if_pos rfl, typeLine, h₂.board]
      dsimp only
      rw [if_pos (.tail _ (.head _)), run, if_pos rfl]
    apply wp.bind (R := fun _ w' => B.At st .linux true w')
    · exact wp_ask_ok hwrite ⟨h₂.state, ⟨rfl, rfl⟩, fun _ => h₂.port⟩
    · intro _ w₃ h₃
      apply ((Keeps.note _).keep h₃).bind
      intro _ w₄ h₄
      exact (h₄.eventWaitForOsShell false).mono (fun _ _ h => h) fun _ _ he => Bool.noConfusion he.1

theorem At.sleep (h : B.At st pl o w) (ms : Nat) :
    wp (MesCore.ask (.sleep ms)) (fun _ w' => B.At st pl o w' ∧ w'.dev = w.dev) E w :=
  h.ask rfl h.stands h.port fun _ h' hd => ⟨h', hd⟩

theorem At.measure (h : B.At st pl o w) : wp (MesCore.ask .psuMeasureCurrent)
    (fun (i : ℚ) w' => B.At st pl o w' ∧ (pl.isOn = true → i = B.draw)) E w := by
  have hr : B.respond .psuMeasureCurrent w.dev =
      (.ok (if w.dev.board.mode = .off then 0 else B.draw), w.dev) := rfl
  refine h.ask hr h.stands h.port fun _ h' _ => ⟨h', fun hon => if_neg ?_⟩
  rw [h.stands.off_iff, hon]
  exact Bool.true_eq_false.mp

theorem At.probePower (h : B.At st pl o w) : wp (probePower fsm)
    (fun off w' => B.At st pl o w' ∧ (off = true → pl.isOn = false)) never w := by
  rw [MesCore.probePower]
  split
  · rw [probePowerOff]
    split
    · apply wp.attempt_of_never
      apply h.measure.bind
      rintro i₁ w₁ ⟨h₁, hi₁⟩
      apply h₁.measure.bind
      rintro i₂ w₂ ⟨h₂, hi₂⟩
      apply h₂.measure.bind
      rintro i₃ w₃ ⟨h₃, hi₃⟩
      refine ⟨h₃, fun hlow => ?_⟩
      have hlow := of_decide_eq_true hlow
      by_contra hon
      have hon := Bool.eq_true_of_not_eq_false hon
      have hdraws := B.draws
      rw [hi₁ hon, hi₂ hon, hi₃ hon] at hlow
      linarith
    · exact ⟨h, fun hf => (Bool.false_ne_true hf).elim⟩
  · exact ⟨h, fun hf => (Bool.false_ne_true hf).elim⟩

theorem At.probeSshBanner (h : B.At st pl o w) : wp probeSshBanner
    (fun ready w' => B.At st pl o w' ∧ (ready = true ↔ pl = .linux)) never w := by
  rw [MesCore.probeSshBanner, wp_attempt, wp_bind]
  by_cases hm : w.dev.board.mode = .linux
  · have hr : B.respond .sshBanner w.dev = (.ok "SSH-2.0-sshd", w.dev) := if_pos hm
    apply wp_ask_ok hr
    refine ⟨⟨h.state, h.stands, h.port⟩, ?_⟩
    exact iff_of_true (by decide +kernel) (h.stands.linux_iff.1 hm)
  · have hr : B.respond .sshBanner w.dev = (.error (.osError "timed out"), w.dev) := if_neg hm
    apply wp_ask_error hr
    refine ⟨⟨h.state, h.stands, h.port⟩, ?_⟩
    exact iff_of_false Bool.false_ne_true fun hpl => hm (h.stands.linux_iff.2 hpl)

theorem shell_notShown {c : Bytes} (hc : c ∈ B.texts .uboot) :
    ¬ ascii fsm.cfg.osShellPrompt <:+: stripAnsi c :=
  fun h => (B.uboot_quiet [] c (by simpa [texts] using hc)).2 (infix_sanitise h)

theorem classifyPassive_uboot {c : Bytes} (hc : c ∈ B.texts .uboot) :
    classifyPassive fsm c = .bootloader := by
  rw [classifyPassive]
  rw [if_neg (shell_notShown hc), if_pos (B.uboot_shown c hc).1]

theorem classifyResponse_uboot {c : Bytes} (hc : c ∈ B.texts .uboot) :
    classifyResponse fsm c = .bootloader := by
  obtain ⟨hshown, hlogin⟩ := B.uboot_shown c hc
  rw [classifyResponse]
  rw [if_neg (shell_notShown hc), if_neg hlogin, if_pos hshown]

/-- Silence is taken for a board without power: no prompt of the configuration is empty. -/
theorem classifyResponse_nil (B : IdealBoard fsm) : classifyResponse fsm [] = .powerOff := by
  have hempty {p : Bytes} (hp : p ≠ []) : ¬ p <:+: stripAnsi [] :=
    fun h => hp (List.infix_nil.1 h)
  have hshell : ascii fsm.cfg.osShellPrompt ≠ [] := by
    intro h
    apply shell_notShown (B := B) (c := B.uboot) (.tail _ (.head _))
    rw [h]
    exact List.nil_infix
  have hlogin : ascii fsm.cfg.osLoginPrompt ≠ [] := by
    intro h
    apply (B.uboot_shown B.uboot (.tail _ (.head _))).2
    rw [h]
    exact List.nil_infix
  rw [classifyResponse]
  rw [if_neg (hempty hshell), if_neg (hempty hlogin), if_neg (hempty B.uboot_prompt)]
  rfl

/-- A newline is answered by a text of the board, or by silence if it is off. -/
theorem At.probePasses (h : B.At st pl true w) (waits : List Nat) (hwaits : waits ≠ []) :
    wp (probePasses waits []) (fun resp w' => B.At st pl true w' ∧
      (pl.isOn = true → resp ∈ B.texts pl) ∧ (pl.isOn = false → resp = [])) never w := by
  induction waits generalizing w with
  | nil => exact (hwaits rfl).elim
  | cons waitMs waits ih =>
    rw [MesCore.probePasses, if_neg (not_not.2 rfl)]
    apply (h.aside rfl).bind
    intro _ w₁ h₁
    have hline : lineOf (ascii "\r\n") = "" := by decide +kernel
    apply (h₁.rawWrite hline).bind
    rintro _ w₂ ⟨h₂, hd₂⟩
    rw [h₁.port rfl, if_pos rfl] at hd₂
    apply (h₂.sleep _).bind
    rintro _ w₃ ⟨h₃, hd₃⟩
    have hr : B.respond .serialReadUntilSilent w₃.dev =
      (.ok [B.heard w₃.dev], { w₃.dev with output := .silent }) := rfl
    apply wp.bind (R := fun chunks w' => chunks = [B.heard w₃.dev] ∧ B.At st pl true w')
    · exact h₃.ask hr (h₃.stands.congr rfl rfl) h₃.port fun _ h' _ => ⟨rfl, h'⟩
    · rintro chunks w₄ ⟨rfl, h₄⟩
      rw [List.nil_append, List.flatten_singleton]
      cases hon : pl.isOn with
      | true =>
        have hmem : B.heard w₃.dev ∈ B.texts pl := by
          apply heard_of_output h₃.stands hon (h₃.port rfl)
          rw [hd₃, hd₂]
          exact newline_answered h₁.stands hon
        have hdone : MesCore.probePasses waits (B.heard w₃.dev) =
            (pure (B.heard w₃.dev) : Fsm B.hardware Bytes) := by
          cases waits with
          | nil => rfl
          | cons n waits => exact if_pos (texts_ne_nil hmem)
        rw [hdone]
        exact ⟨h₄, fun _ => hmem, fun hf => (Bool.false_ne_true hf.symm).elim⟩
      | false =>
        have hsilent : B.heard w₃.dev = [] := by
          rcases heard_cases h₃.stands with hs | hmem
          · exact hs
          · cases pl with
            | off trapped => cases hmem
            | linux => cases hon
            | uboot => cases hon
        rw [hsilent]
        cases waits with
        | nil => exact ⟨h₄, fun hf => (Bool.false_ne_true hf).elim, fun _ => rfl⟩
        | cons n waits =>
          have hrest := ih h₄ (by intro h; cases h)
          rwa [hon] at hrest

theorem At.probeSerial (h : B.At st pl o w) (hpl : pl ≠ .linux) :
    wp (probeSerial fsm) (fun s w' => s = pl.seen ∧ B.At st pl true w') never w := by
  rw [MesCore.probeSerial]
  apply h.serialIsConnected.bind
  rintro connected w₁ ⟨h₁, hc, hd₁⟩
  apply wp.bind (R := fun _ w' => B.At st pl true w')
  · apply wp_onlyIf
    · intro _
      apply wp.bind (R := fun _ w' => B.At st pl true w')
      · exact h₁.ask rfl (h₁.stands.congr rfl rfl) (fun _ => rfl) fun _ h' _ => h'
      · exact fun _ w₂ h₂ => h₂.aside rfl
    · intro hopen
      refine ⟨h₁.state, h₁.stands, fun _ => ?_⟩
      rw [hd₁, ← hc]
      simpa using hopen
  · intro _ w₂ h₂
    apply (h₂.aside rfl).bind
    intro _ w₃ h₃
    have hr : B.respond .serialRawReadChunk w₃.dev =
      (.ok (B.heard w₃.dev), { w₃.dev with output := .silent }) := rfl
    apply wp.bind (R := fun passive w' => passive = B.heard w₃.dev ∧ B.At st pl true w')
    · exact h₃.ask hr (h₃.stands.congr rfl rfl) h₃.port fun _ h' _ => ⟨rfl, h'⟩
    · rintro passive w₄ ⟨rfl, h₄⟩
      split
      · rename_i hheard
        have hmem := (heard_cases h₃.stands).resolve_left hheard
        cases pl with
        | off trapped => cases hmem
        | linux => exact (hpl rfl).elim
        | uboot => exact ⟨classifyPassive_uboot hmem, h₄⟩
      · apply (h₄.probePasses _ (List.cons_ne_nil _ _)).bind
        rintro resp w₅ ⟨h₅, hon, hoff⟩
        refine ⟨?_, h₅⟩
        cases pl with
        | off trapped =>
          rw [hoff rfl]
          exact classifyResponse_nil B
        | linux => exact (hpl rfl).elim
        | uboot => exact classifyResponse_uboot (hon rfl)

theorem At.probeHardwareState (h : B.At st pl o w) : wp (probeHardwareState fsm)
    (fun s w' => s = pl.seen ∧ B.At st pl (o || pl = .uboot) w') never w := by
  have hopen {w : World B.hardware} (h : B.At st pl o w) (hpl : pl ≠ .uboot) :
      B.At st pl (o || decide (pl = .uboot)) w :=
    h.mono fun ho => by simpa [hpl] using ho
  rw [MesCore.probeHardwareState]
  apply h.probePower.bind
  rintro off w₁ ⟨h₁, hoff⟩
  split
  · rename_i hlow
    cases pl with
    | off trapped => exact ⟨rfl, hopen h₁ (by intro h; cases h)⟩
    | linux => cases hoff hlow
    | uboot => cases hoff hlow
  · apply h₁.sshIsConnected.bind
    rintro connected w₂ ⟨h₂, hc, _⟩
    split
    · rename_i hssh
      have hpl := h₁.stands.linux_of_ssh (hc ▸ hssh)
      rw [hpl] at h₂ hopen ⊢
      exact ⟨rfl, hopen h₂ (by intro h; cases h)⟩
    · apply h₂.probeSshBanner.bind
      rintro ready w₃ ⟨h₃, hready⟩
      split
      · rename_i hup
        have hpl := hready.1 hup
        rw [hpl] at h₃ hopen ⊢
        exact ⟨rfl, hopen h₃ (by intro h; cases h)⟩
      · rename_i hdown
        exact (h₃.probeSerial fun hpl => hdown (hready.2 hpl)).mono
          (fun _ _ h' => ⟨h'.1, h'.2.mono fun _ => rfl⟩) fun _ _ he => he

theorem At.alignToPhysicalState (h : B.At st pl o w) : wp (alignToPhysicalState fsm false)
    (fun _ w' => (trustsState fsm st = true ∧ B.At st pl o w') ∨
      (trustsState fsm st = false ∧ B.At pl.seen pl (o || pl = .uboot) w')) never w := by
  rw [MesCore.alignToPhysicalState, wp_bind, wp_getState, h.state]
  cases htrust : trustsState fsm st with
  | true => exact .inl ⟨rfl, h⟩
  | false =>
    apply h.probeHardwareState.bind
    rintro s w₁ ⟨rfl, h₁⟩
    exact .inr ⟨rfl, rfl, h₁.stands, h₁.port⟩

end IdealBoard
end MesCore
