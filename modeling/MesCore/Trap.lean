import MesCore.BootEnv

namespace MesCore
set_option autoImplicit true

variable {d : Hardware} (fsm : Station)

/-- A program that sets the trap over a backup only, whatever the hardware answers. -/
def TrapSafe (p : Fsm d α) : Prop :=
  ∀ w, ∃ seg, (World.after (p w)).trace = w.trace ++ seg ∧ TrapGuarded false seg

theorem TrapSafe.of_within {F : Frame fsmInterface} {p : Fsm d α} (h : Within F p)
    (hF : ∀ e, F.entry e → untrapped e) : TrapSafe p := by
  intro w
  obtain ⟨⟨seg, hseg, he⟩, _⟩ := h w
  exact ⟨seg, hseg, .of_untrapped fun e hm => hF e (he e hm)⟩

theorem TrapSafe.pure (a : α) : TrapSafe (pure a : Fsm d α) :=
  fun _ => ⟨[], (List.append_nil _).symm, trivial⟩

theorem TrapSafe.bind {p : Fsm d α} {k : α → Fsm d β} (hp : TrapSafe p)
    (hk : ∀ a, TrapSafe (k a)) : TrapSafe (p >>= k) := by
  intro w
  obtain ⟨s, hs, hgs⟩ := hp w
  rw [bind_apply]
  cases h : p w with
  | error e w' =>
    rw [h] at hs
    exact ⟨s, hs, hgs⟩
  | ok a w' =>
    rw [h] at hs
    obtain ⟨t, ht, hgt⟩ := hk a w'
    refine ⟨s ++ t, ?_, hgs.append_false hgt⟩
    rw [ht, show w'.trace = _ from hs, List.append_assoc]

theorem TrapSafe.ite {c : Prop} [Decidable c] {p q : Fsm d α} (hp : TrapSafe p)
    (hq : TrapSafe q) : TrapSafe (if c then p else q) := by
  split
  · exact hp
  · exact hq

theorem ask_trace (c : Call) (w : World d) :
    ∃ r, (World.after (ask c w)).trace = w.trace ++ [did c r] ∧
      ∀ x w', ask c w = .ok x w' → r = .ok x := by
  cases h : ask c w with
  | ok x w' => exact ⟨.ok x, (call_ok h).2, by rintro _ _ ⟨⟩; rfl⟩
  | error e w' => exact ⟨.error e, (call_error h).2, by rintro _ _ ⟨⟩⟩

/-- The entries of a command over a transport: only the trap command needs the trap armed, and a
confirmed backup arms it. -/
theorem run_guarded {cmd : String} {c : Call} (hc : c.command = some cmd) (up : Bool)
    (r : Except Err c.Ans) :
    (∀ a, (cmd = trapCmd → a = true) → TrapGuarded a [did .sshIsConnected (.ok up), did c r]) ∧
      (cmd = trapBackupCmd → confirmed (did c r) = true →
        [did .sshIsConnected (.ok up), did c r].foldl armed false = true) := by
  refine ⟨fun a ha => ⟨?_, ?_, trivial⟩, ?_⟩
  · rintro _ _ ⟨⟩ ⟨⟩
  · rintro _ _ ⟨⟩ htrap
    rw [hc, Option.some_inj] at htrap
    exact ha htrap
  · rintro rfl hconf
    exact if_pos ⟨hc, hconf⟩

theorem transportSafeRun_seg (cmd : String) (timeoutMs : Nat) (w : World d) :
    ∃ seg, (World.after (transportSafeRun cmd timeoutMs true w)).trace = w.trace ++ seg ∧
      (∀ a, (cmd = trapCmd → a = true) → TrapGuarded a seg) ∧
      ∀ res w', transportSafeRun cmd timeoutMs true w = .ok res w' → cmd = trapBackupCmd →
        seg.foldl armed false = true := by
  rw [transportSafeRun, bind_apply]
  cases hssh : ask .sshIsConnected w with
  | error e w₁ =>
    refine ⟨[did .sshIsConnected (.error e)], (call_error hssh).2, fun a _ => ⟨?_, trivial⟩, ?_⟩
    · rintro _ _ ⟨⟩ ⟨⟩
    · rintro _ _ ⟨⟩
  | ok up w₁ =>
    have htr : w₁.trace = _ := (call_ok hssh).2
    cases up with
    | true =>
      obtain ⟨r, hr, hok⟩ := ask_trace (.sshSafeRun cmd timeoutMs true) w₁
      obtain ⟨hguard, harm⟩ := run_guarded (c := .sshSafeRun cmd timeoutMs true) rfl true r
      refine ⟨[did .sshIsConnected (.ok true), did (.sshSafeRun cmd timeoutMs true) r],
        ?_, hguard, fun res w' h hcmd => harm hcmd ?_⟩
      · exact hr.trans (by rw [htr, List.append_assoc]; rfl)
      · rw [hok res w' h]
        rfl
    | false =>
      obtain ⟨r, hr, hok⟩ := ask_trace (.serialSafeRun cmd none timeoutMs true) w₁
      obtain ⟨hguard, harm⟩ := run_guarded (c := .serialSafeRun cmd none timeoutMs true) rfl false r
      refine ⟨[did .sshIsConnected (.ok false), did (.serialSafeRun cmd none timeoutMs true) r],
        ?_, hguard, fun res w' h hcmd => harm hcmd ?_⟩
      · exact hr.trans (by rw [htr, List.append_assoc]; rfl)
      · rw [hok res w' h]
        rfl

/-- The trap goes over a backup that was confirmed: its command is only sent once the backup's
call has returned. -/
theorem setUbootTrapAndReboot_trapSafe : TrapSafe (setUbootTrapAndReboot : Fsm d Unit) := by
  intro w
  have hreboot : TrapSafe (asyncRebootDut : Fsm d Unit) :=
    .of_within within_asyncRebootDut untrapped_of_conversing
  obtain ⟨s, hs, hgs, harm⟩ := transportSafeRun_seg trapBackupCmd 3000 w
  have hbackup : TrapGuarded false s := hgs false fun h => absurd h (by decide)
  rw [setUbootTrapAndReboot, bind_apply]
  cases h₁ : transportSafeRun trapBackupCmd 3000 true w with
  | error e w₁ =>
    rw [h₁] at hs
    exact ⟨s, hs, hbackup⟩
  | ok res w₁ =>
    rw [h₁] at hs
    obtain ⟨t, ht, hgt, _⟩ := transportSafeRun_seg trapCmd 3000 w₁
    have htrap : TrapGuarded false (s ++ t) :=
      hbackup.append (hgt _ fun _ => harm res w₁ h₁ rfl)
    have htr : (World.after (transportSafeRun trapCmd 3000 true w₁)).trace =
        w.trace ++ (s ++ t) := by
      rw [ht, show w₁.trace = _ from hs, List.append_assoc]
    dsimp only
    rw [bind_apply]
    cases h₂ : transportSafeRun trapCmd 3000 true w₁ with
    | error e w₂ =>
      rw [h₂] at htr
      exact ⟨s ++ t, htr, htrap⟩
    | ok res w₂ =>
      rw [h₂] at htr
      obtain ⟨u, hu, hgu⟩ := hreboot w₂
      refine ⟨s ++ t ++ u, ?_, htrap.append_false hgu⟩
      rw [← List.append_assoc, ← show w₂.trace = _ from htr]
      exact hu

theorem coldBootToBootloader_trapSafe : TrapSafe (coldBootToBootloader fsm : Fsm d Unit) := by
  have hon : TrapSafe (doEnergize fsm : Fsm d Unit) :=
    .of_within (within_doEnergize fsm) untrapped_of_supplies
  have hwait (intercept : Bool) : TrapSafe (eventWaitForBootloader fsm intercept : Fsm d Unit) :=
    .of_within (within_eventWaitForBootloader fsm intercept) untrapped_of_observing
  refine .ite (hon.bind fun _ => hwait true) (hon.bind fun _ => ?_)
  refine (TrapSafe.of_within (within_eventWaitForOsShell fsm true) untrapped_of_conversing).bind
    fun _ => ?_
  refine (TrapSafe.of_within (within_finalizeOsBoot fsm) untrapped_of_observing).bind fun _ => ?_
  exact setUbootTrapAndReboot_trapSafe.bind fun _ => hwait false

theorem rebootEnergized_trapSafe : TrapSafe (rebootEnergized fsm : Fsm d Unit) := by
  rw [rebootEnergized]
  split
  · exact (TrapSafe.of_within (within_doSoftReboot fsm) untrapped_of_conversing).bind fun _ =>
      .of_within (within_eventWaitForBootloader fsm _) untrapped_of_observing
  · exact (TrapSafe.of_within (within_doPowerOff fsm) untrapped_of_removes).bind fun _ =>
      coldBootToBootloader_trapSafe fsm

theorem routeBootToBootloader_trapSafe (medium : Option String) :
    TrapSafe (routeBootToBootloader fsm medium : Fsm d Unit) := by
  refine TrapSafe.bind (fun _ => ⟨[], (List.append_nil _).symm, trivial⟩) fun ctx => ?_
  refine TrapSafe.bind (fun _ => ⟨[], (List.append_nil _).symm, trivial⟩) fun s => ?_
  refine .ite ?_ (.ite (.pure _) (.ite ?_ (.ite (rebootEnergized_trapSafe fsm)
    (coldBootToBootloader_trapSafe fsm))))
  · exact (TrapSafe.of_within (within_changeStraps fsm _) ordinary.untrapped).bind fun _ =>
      coldBootToBootloader_trapSafe fsm
  · have hwait : TrapSafe (eventWaitForBootloader fsm fsm.cfg.autobootEnabled : Fsm d Unit) :=
      .of_within (within_eventWaitForBootloader fsm _) untrapped_of_observing
    refine TrapSafe.bind (.ite ?_ setUbootTrapAndReboot_trapSafe) fun _ => hwait
    exact .of_within within_asyncRebootDut untrapped_of_conversing

theorem route_trapSafe (t : Trigger) : TrapSafe (t.route fsm : Fsm d Unit) := by
  by_cases ht : ∀ medium, t ≠ .bootToBootloader medium
  · exact .of_within (within_route_untrapped fsm ht) fun _ h => h
  · obtain ⟨medium, ht⟩ := not_forall.1 ht
    rw [not_not.1 ht]
    exact routeBootToBootloader_trapSafe fsm medium

theorem align_trapSafe : TrapSafe (alignToPhysicalState fsm false : Fsm d Unit) := by
  intro w
  obtain ⟨s, ⟨seg, hseg, he⟩, _⟩ := align_observes fsm w
  exact ⟨seg, hseg, .of_untrapped fun e hm => untrapped_of_observing e (he e hm)⟩

theorem fire_trapSafe (t : Trigger) : TrapSafe (fire fsm t : Fsm d Unit) := by
  have hhook : TrapSafe (t.hook fsm : Fsm d Unit) := by
    by_cases ht : t = .markDirty
    · rw [ht]
      exact .pure _
    · rw [Trigger.hook_eq fsm ht]
      exact (align_trapSafe fsm).bind fun _ => route_trapSafe fsm t
  refine TrapSafe.bind (fun _ => ⟨[], (List.append_nil _).symm, trivial⟩) fun s => ?_
  refine hhook.bind fun _ => TrapSafe.bind (fun _ => ⟨[], (List.append_nil _).symm, trivial⟩) ?_
  exact fun _ _ => ⟨[_], rfl, by rintro c r ⟨⟩, trivial⟩

theorem Reachable.trapGuarded {w : World d} (h : Reachable fsm w) : TrapGuarded false w.trace := by
  induction h with
  | init s => trivial
  | step t hw ih =>
    obtain ⟨seg, hseg, hg⟩ := fire_trapSafe fsm t _
    rw [hseg]
    exact ih.append_false hg

/-- At every point of every run in which the commands that take effect are careful ones, the
flash still knows the original boot command. -/
theorem bootcmd_kept {w : World d} (h : Reachable fsm w) {tr : List (Entry fsmInterface)}
    (htr : tr <+: w.trace) {orig : String} {b : Board}
    (hp : Path (Board.Careful orig) tr ⟨⟨some orig, none⟩, .off⟩ b) : b.flash.Holds orig :=
  (hp.holds ((h.trapGuarded fsm).initial htr) (fun h => (Bool.false_ne_true h).elim)
    ⟨.inl rfl, trivial⟩).1

def trapBench : Station where
  cfg := { autobootEnabled := false }
  psu := some { hasMeasureCurrent := false }

def offBoard : Board := ⟨⟨some "run distro_bootcmd", none⟩, .off⟩

def atPrompt : Hardware := steady fun
  | .serialIsConnected => .ok true
  | .serialRawReadChunk => .ok (ascii "=> ")
  | _ => .ok default

/-- After one `boot_to_os` of a board that was never trapped. -/
def restored : World atPrompt := World.after (fire trapBench (.bootToOs none) ⟨{}, (), []⟩)

theorem restore_loses_bootcmd : Reachable trapBench restored ∧
    ∃ b, Path (fun _ _ => True) restored.trace offBoard b ∧
      ¬ b.flash.Holds "run distro_bootcmd" := by
  have hall : Board.allowsAll (fun _ _ => true) ⟨offBoard.flash, .uboot offBoard.flash⟩
      restored.trace = true := by decide +kernel
  refine ⟨.step _ (.init (d := atPrompt) ()), _, .move (.reset _) (.move (.prompt _ _)
    (Path.obeyed (fun _ _ _ => trivial) hall)), ?_⟩
  decide +kernel

def underLinux : Hardware := steady fun
  | .sshIsConnected => .ok true
  | _ => .ok default

/-- After one `boot_to_bootloader`, which sets the trap and does not see U-Boot. -/
def trapped : World underLinux :=
  World.after (fire trapBench (.bootToBootloader none) ⟨{}, (), []⟩)

theorem trapped_holds : ∃ b : Board, b.flash.bootcmd = some trapString ∧
    b.flash.Holds "run distro_bootcmd" := by
  have hall : Board.allowsAll (fun b cmd => b.Careful "run distro_bootcmd" cmd)
      ⟨offBoard.flash, .linux⟩ trapped.trace = true := by decide +kernel
  refine ⟨trapped.trace.foldl Board.obey ⟨offBoard.flash, .linux⟩, by decide +kernel, ?_⟩
  exact bootcmd_kept trapBench (.step _ (.init (d := underLinux) ())) (List.prefix_refl _)
    (.move (.reset _) (.move (.userland _ _)
      (Path.obeyed (fun _ _ h => of_decide_eq_true h) hall)))

end MesCore
