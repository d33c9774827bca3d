import MesCore.Watchdog
import MesCore.Runs
import MesCore.Workers

namespace MesCore
set_option autoImplicit true

/-- Where a monitor thread stands in `_monitor_loop`. -/
inductive MonitorPc
  | unborn
  | outer
  | dial
  | inner
  | get
  | callbacks
  | emit
  | unsubscribe
  | ended
  deriving DecidableEq

instance : ThreadPlace MonitorPc where
  unborn := .unborn
  alive
    | .unborn | .ended => false
    | _ => true
  unborn_dead := rfl

/-- Where a caller stands in `start` (up to `launch`) or in `stop`. -/
inductive CallerPc
  | idle
  | start
  | newEvent
  | reset
  | create
  | launch
  | stop
  | look
  | join (t : Nat)
  | drop
  deriving DecidableEq

/-- The watchdog, its monitor threads with the attribute `_thread`, and the callers of `start` and
`stop`. The last two fields are no attributes: the loops some `stop` was called for, and those
for which such a call has returned. -/
structure WatchdogThreads (C : Type) extends Crew MonitorPc where
  dog : Watchdog := {}
  stopEvent : Option Nat := none
  freshEvent : Nat := 0
  isSet : Nat → Bool := fun _ => false
  caller : C → CallerPc := fun _ => .idle
  requested : Nat → Bool := fun _ => false
  dismissed : Nat → Bool := fun _ => false

/-- One step: a caller begins a call or goes on with it, a `join` gives up after its second, or
a monitor thread goes on. `up` is what `is_connected` says, or that publishing the event does
not raise; `chunk` is what the queue holds. -/
inductive ThreadAct (C : Type)
  | begin (c : C) (start : Bool)
  | advance (c : C)
  | timeout (c : C)
  | monitor (t : Nat) (up : Bool) (chunk : Option Bytes)

section
variable (s : WatchdogThreads C)

/-- `self._stop_event.is_set()`. -/
def WatchdogThreads.stopSet : Bool :=
  match s.stopEvent with
  | some e => s.isSet e
  | none => false

/-- The next step of a monitor thread: the watchdog and the thread's place after it. -/
def WatchdogThreads.monitorNext (up : Bool) (chunk : Option Bytes) :
    MonitorPc → Option (Watchdog × MonitorPc)
  | .unborn | .ended => none
  | .outer => some (s.dog, if s.stopSet then .ended else .dial)
  | .dial => some (s.dog, if up then .inner else .outer)
  | .inner => some (s.dog, if !s.stopSet && up then .get else .unsubscribe)
  | .get =>
    match chunk with
    | none => some (s.dog, .inner)
    | some c => some ((s.dog.hear c).1, if (s.dog.hear c).2 then .callbacks else .inner)
  | .callbacks => some (s.dog, .emit)
  | .emit => some (s.dog, if up then .unsubscribe else .inner)
  | .unsubscribe => some (s.dog, .outer)

def WatchdogThreads.monitorStep (t : Nat) (up : Bool) (chunk : Option Bytes) :
    Option (WatchdogThreads C) :=
  (s.monitorNext up chunk (s.place t)).map fun next =>
    { s with toCrew := s.toCrew.goto t next.2, dog := next.1 }

/-- A `stop` asks every loop that was started to end. -/
def WatchdogThreads.request : WatchdogThreads C :=
  { s with requested := fun t => s.requested t || decide (s.place t ≠ .unborn) }

end

section
variable [DecidableEq C] (s : WatchdogThreads C)

def WatchdogThreads.goOn (c : C) (pc : CallerPc) : WatchdogThreads C :=
  { s with caller := Function.update s.caller c pc }

/-- The next statement of `start` or `stop`. A call that raises ends there. -/
def WatchdogThreads.advance (c : C) : Option (WatchdogThreads C) :=
  match s.caller c with
  | .idle => none
  | .start =>
    match s.thread with
    | some t => some (s.goOn c (if s.alive t then .idle else .newEvent))
    | none => some (s.goOn c .newEvent)
  | .newEvent =>
    some ({ s with stopEvent := some s.freshEvent, freshEvent := s.freshEvent + 1 }.goOn c .reset)
  | .reset => some ({ s with dog := s.dog.rearm }.goOn c .create)
  | .create => some ({ s with toCrew := s.toCrew.create }.goOn c .launch)
  | .launch =>
    match s.thread with
    | some t =>
      if s.place t = .unborn then some ({ s with toCrew := s.toCrew.goto t .outer }.goOn c .idle)
      else some (s.goOn c .idle)
    | none => some (s.goOn c .idle)
  | .stop =>
    match s.stopEvent with
    | some e => some ({ s.request with isSet := Function.update s.isSet e true }.goOn c .look)
    | none => some (s.request.goOn c .look)
  | .look =>
    match s.thread with
    | some t => some (s.goOn c (if s.alive t then .join t else .drop))
    | none => some (s.goOn c .drop)
  | .join t => if s.alive t then none else some (s.goOn c .drop)
  | .drop => some ({ s with thread := none, dismissed := s.requested }.goOn c .idle)

def WatchdogThreads.step : ThreadAct C → Option (WatchdogThreads C)
  | .begin c start =>
    if s.caller c = .idle then some (s.goOn c (if start then .start else .stop)) else none
  | .advance c => s.advance c
  | .timeout c =>
    match s.caller c with
    | .join _ => some (s.goOn c .drop)
    | _ => none
  | .monitor t up chunk => s.monitorStep t up chunk

end

def ThreadAct.ofMonitor : ThreadAct C → Prop
  | .monitor .. => True
  | _ => False

section
variable [DecidableEq C] (s : WatchdogThreads C)

/-- The loop gets to another chunk by steps of monitor threads alone. -/
def WatchdogThreads.MayHear (t : Nat) : Prop :=
  ∃ as s', Run WatchdogThreads.step (fun _ a => a.ofMonitor) s as s' ∧ s'.place t = .get

/-- At most one loop can still take monitoring steps, and no chunk makes a loop raise a panic
once a `stop` that was called for it has returned. -/
def WatchdogThreads.OneLoop : Prop :=
  (∀ t u, s.MayHear t → s.MayHear u → t = u) ∧
    ∀ t c, s.dismissed t = true → ¬ (s.place t = .get ∧ (s.dog.hear c).2 = true)

/-- Calls do not overlap, and `join` does not give up while the loop lives. -/
def WatchdogThreads.Joined : ThreadAct C → Prop
  | .begin _ _ => ∀ c, s.caller c = .idle
  | .timeout c => ∀ t, s.caller c = .join t → s.alive t = false
  | _ => True

end

/-- What must hold while a caller is at this place: no loop lives while a call replaces or drops
the thread, and only the recorded thread is waited for. -/
def CallerPc.Fits (k : Crew MonitorPc) : CallerPc → Prop
  | .newEvent | .reset | .create | .launch | .drop => ∀ t, k.alive t = false
  | .join t => k.thread = some t
  | .idle | .start | .stop | .look => True

structure WatchdogThreads.Orderly (s : WatchdogThreads C) : Prop where
  alone : Alone .idle s.caller
  crew : s.toCrew.Sound
  fits : ∀ c, (s.caller c).Fits s.toCrew
  requested : ∀ t, s.requested t = true → s.place t ≠ .unborn
  dismissed : ∀ t, s.dismissed t = true → s.place t = .ended

theorem MonitorPc.ended_of_dead {pc : MonitorPc} (h : ThreadPlace.alive pc = false)
    (hne : pc ≠ .unborn) : pc = .ended := by
  cases pc with
  | ended => rfl
  | unborn => exact absurd rfl hne
  | outer | dial | inner | get | callbacks | emit | unsubscribe => cases h

section
variable {s s' : WatchdogThreads C} {c : C} {t : Nat}

/-- Only a live thread takes steps, and it does not go back to before its start. -/
theorem WatchdogThreads.monitorNext_cases {up : Bool} {chunk : Option Bytes} {pc : MonitorPc}
    {next : Watchdog × MonitorPc} (h : s.monitorNext up chunk pc = some next) :
    ThreadPlace.alive pc = true ∧ next.2 ≠ .unborn := by
  cases pc with
  | unborn => cases h
  | ended => cases h
  | get =>
    refine ⟨rfl, ?_⟩
    cases chunk with
    | none =>
      rw [← Option.some.inj h]
      exact MonitorPc.noConfusion
    | some c =>
      rw [← Option.some.inj h]
      dsimp only
      split <;> nofun
  | callbacks =>
    rw [← Option.some.inj h]
    exact ⟨rfl, MonitorPc.noConfusion⟩
  | unsubscribe =>
    rw [← Option.some.inj h]
    exact ⟨rfl, MonitorPc.noConfusion⟩
  | outer | dial | inner | emit =>
    rw [← Option.some.inj h]
    refine ⟨rfl, ?_⟩
    dsimp only
    split <;> decide

theorem WatchdogThreads.monitorStep_cases {up : Bool} {chunk : Option Bytes}
    (h : s.monitorStep t up chunk = some s') : s.alive t = true ∧
      ∃ next : Watchdog × MonitorPc, next.2 ≠ .unborn ∧
        s' = { s with toCrew := s.toCrew.goto t next.2, dog := next.1 } := by
  obtain ⟨next, hnext, rfl⟩ := Option.map_eq_some_iff.1 h
  obtain ⟨hlive, hborn⟩ := monitorNext_cases hnext
  exact ⟨hlive, next, hborn, rfl⟩

theorem WatchdogThreads.MayHear.alive [DecidableEq C] (h : s.MayHear t) : s.alive t = true := by
  obtain ⟨as, s', hrun, hget⟩ := h
  by_contra hdead
  have hstay : s'.alive t = false := by
    refine hrun.invariant (fun s => s.alive t = false) ?_ (Bool.eq_false_iff.2 hdead)
    intro s a s' hs ha hstep
    cases a with
    | monitor u up chunk =>
      obtain ⟨hlive, next, _, rfl⟩ := monitorStep_cases hstep
      refine (Crew.alive_goto t).trans ?_
      split
      · rename_i htu
        rw [htu, hlive] at hs
        cases hs
      · exact hs
    | begin c start => cases ha
    | advance c => cases ha
    | timeout c => cases ha
  rw [Crew.alive, hget] at hstay
  cases hstay

theorem WatchdogThreads.Orderly.monitorStep {up : Bool} {chunk : Option Bytes} (h : s.Orderly)
    (hs : s.monitorStep t up chunk = some s') : s'.Orderly := by
  obtain ⟨hlive, ⟨dog, pc⟩, hpc, rfl⟩ := monitorStep_cases hs
  refine ⟨h.alone, h.crew.step hlive pc, fun c => ?_, fun u hu => ?_, fun u hu => ?_⟩
  · have hfit := h.fits c
    dsimp only at hfit ⊢
    cases hc : s.caller c with
    | newEvent | reset | create | launch | drop =>
      -- no thread lives there, so none can have taken a step
      rw [hc] at hfit
      have hdead : s.alive t = false := hfit t
      rw [hlive] at hdead
      cases hdead
    | join u =>
      rw [hc] at hfit
      exact hfit
    | idle | start | stop | look => trivial
  · change (s.toCrew.goto t pc).place u ≠ .unborn
    rw [Crew.place_goto]
    split
    · exact hpc
    · exact h.requested u hu
  · have hut : u ≠ t := by
      rintro rfl
      rw [Crew.alive, h.dismissed u hu] at hlive
      cases hlive
    change (s.toCrew.goto t pc).place u = .ended
    rw [Crew.place_goto, if_neg hut]
    exact h.dismissed u hu

theorem WatchdogThreads.orderly_init : ({} : WatchdogThreads C).Orderly where
  alone := .of_idle fun _ => rfl
  crew := Crew.sound_init
  fits _ := trivial
  requested _ hu := nomatch hu
  dismissed _ hu := nomatch hu

end

section
variable [DecidableEq C] {s s' : WatchdogThreads C} {c : C} {t : Nat} {pc : CallerPc}

theorem WatchdogThreads.Orderly.goOn (h : s.Orderly) (hc : ∀ c', s.caller c' ≠ .idle → c' = c)
    (hf : pc.Fits s.toCrew) : (s.goOn c pc).Orderly :=
  { h with
    alone := .update hc pc
    fits := (Function.forall_update_iff _ fun _ (pc : CallerPc) => pc.Fits s.toCrew).2
      ⟨hf, fun u _ => h.fits u⟩ }

theorem WatchdogThreads.Orderly.replace {k : Crew MonitorPc} (_h : s.Orderly)
    (hc : ∀ c', s.caller c' ≠ .idle → c' = c) (hk : k.Sound) (hf : pc.Fits k)
    (hr : ∀ t, s.requested t = true → k.place t ≠ .unborn)
    (hd : ∀ t, s.dismissed t = true → k.place t = .ended) :
    ({ s with toCrew := k }.goOn c pc).Orderly := by
  refine ⟨.update hc pc, hk,
    (Function.forall_update_iff _ fun _ (pc : CallerPc) => pc.Fits k).2 ⟨hf, fun u huc => ?_⟩,
    hr, hd⟩
  have hidle : s.caller u = .idle := by
    by_contra hu
    exact huc (hc u hu)
  rw [hidle]
  trivial

omit [DecidableEq C] in
theorem WatchdogThreads.Orderly.request (h : s.Orderly) : s.request.Orderly :=
  { h with
    requested := fun u hu => by
      rcases (Bool.or_eq_true _ _).mp hu with hr | hr
      · exact h.requested u hr
      · exact of_decide_eq_true hr }

theorem WatchdogThreads.Orderly.advance (h : s.Orderly) (hs : s.advance c = some s') :
    s'.Orderly := by
  have hown (hc : s.caller c ≠ .idle) (c' : C) (hc' : s.caller c' ≠ .idle) : c' = c :=
    h.alone c' c hc' hc
  have hfit := h.fits c
  unfold WatchdogThreads.advance at hs
  cases hpc : s.caller c with
  | idle =>
    rw [hpc] at hs
    cases hs
  | start =>
    have hactive := hown (by rw [hpc]; decide)
    cases ht : s.thread with
    | none =>
      simp only [hpc, ht, Option.some.injEq] at hs
      rw [← hs]
      exact h.goOn hactive (h.crew.dead_of_none ht)
    | some t =>
      simp only [hpc, ht, Option.some.injEq] at hs
      rw [← hs]
      refine h.goOn hactive ?_
      split
      · trivial
      · exact h.crew.dead_of_recorded ht (Bool.eq_false_iff.2 ‹_›)
  | newEvent =>
    simp only [hpc, Option.some.injEq] at hs
    rw [← hs]
    rw [hpc] at hfit
    have hevent : ({ s with stopEvent := some s.freshEvent, freshEvent := s.freshEvent + 1 } :
        WatchdogThreads C).Orderly := { h with }
    exact hevent.goOn (hown (by rw [hpc]; decide)) hfit
  | reset =>
    simp only [hpc, Option.some.injEq] at hs
    rw [← hs]
    rw [hpc] at hfit
    have hreset : ({ s with dog := s.dog.rearm } : WatchdogThreads C).Orderly := { h with }
    exact hreset.goOn (hown (by rw [hpc]; decide)) hfit
  | create =>
    simp only [hpc, Option.some.injEq] at hs
    rw [← hs]
    rw [hpc] at hfit
    exact h.replace (hown (by rw [hpc]; decide)) (h.crew.create hfit) hfit h.requested h.dismissed
  | launch =>
    have hactive := hown (by rw [hpc]; decide)
    rw [hpc] at hfit
    cases ht : s.thread with
    | none =>
      simp only [hpc, ht, Option.some.injEq] at hs
      rw [← hs]
      exact h.goOn hactive trivial
    | some t =>
      simp only [hpc, ht] at hs
      split at hs
      · rename_i hunborn
        cases hs
        refine h.replace hactive (h.crew.launch ht hfit _) trivial (fun u hu => ?_) (fun u hu => ?_)
        · rw [Crew.place_goto]
          split
          · decide
          · exact h.requested u hu
        · rw [Crew.place_goto, if_neg]
          · exact h.dismissed u hu
          · rintro rfl
            have hended := h.dismissed u hu
            rw [hunborn] at hended
            cases hended
      · cases hs
        exact h.goOn hactive trivial
  | stop =>
    have hactive := hown (by rw [hpc]; decide)
    cases he : s.stopEvent with
    | none =>
      simp only [hpc, he, Option.some.injEq] at hs
      rw [← hs]
      exact h.request.goOn hactive trivial
    | some e =>
      simp only [hpc, he, Option.some.injEq] at hs
      rw [← hs]
      have hset : ({ s.request with isSet := Function.update s.isSet e true } :
          WatchdogThreads C).Orderly := { h.request with }
      exact hset.goOn hactive trivial
  | look =>
    have hactive := hown (by rw [hpc]; decide)
    cases ht : s.thread with
    | none =>
      simp only [hpc, ht, Option.some.injEq] at hs
      rw [← hs]
      exact h.goOn hactive (h.crew.dead_of_none ht)
    | some t =>
      simp only [hpc, ht, Option.some.injEq] at hs
      rw [← hs]
      refine h.goOn hactive ?_
      split
      · exact ht
      · exact h.crew.dead_of_recorded ht (Bool.eq_false_iff.2 ‹_›)
  | join t =>
    have hactive := hown (by rw [hpc]; nofun)
    rw [hpc] at hfit
    simp only [hpc] at hs
    split at hs
    · cases hs
    · cases hs
      exact h.goOn hactive (h.crew.dead_of_recorded hfit (Bool.eq_false_iff.2 ‹_›))
  | drop =>
    simp only [hpc, Option.some.injEq] at hs
    rw [← hs]
    rw [hpc] at hfit
    have hdismissed : ({ s with dismissed := s.requested } : WatchdogThreads C).Orderly :=
      { h with dismissed := fun u hu => MonitorPc.ended_of_dead (hfit u) (h.requested u hu) }
    exact hdismissed.replace (hown (by rw [hpc]; decide)) (h.crew.drop hfit) trivial
      h.requested hdismissed.dismissed

/-- One step lemma: what joined callers and the monitor threads do keeps the order. -/
theorem WatchdogThreads.Orderly.step {a : ThreadAct C} (h : s.Orderly) (ha : s.Joined a)
    (hs : s.step a = some s') : s'.Orderly := by
  cases a with
  | begin c start =>
    rw [WatchdogThreads.step] at hs
    split at hs
    · cases hs
      refine h.goOn (fun c' hc' => absurd (ha c') hc') ?_
      split <;> trivial
    · cases hs
  | advance c => exact h.advance hs
  | timeout c =>
    rw [WatchdogThreads.step] at hs
    split at hs
    · rename_i t hpc
      cases hs
      have hfit := h.fits c
      rw [hpc] at hfit
      exact h.goOn (fun c' hc' => h.alone c' c hc' (by rw [hpc]; nofun))
        (h.crew.dead_of_recorded hfit (ha t hpc))
    · cases hs
  | monitor t up chunk => exact h.monitorStep hs

/-- In a run whose calls do not overlap and whose joins wait for the loop, at most one loop goes
on at any time, and none that a returned `stop` was called for raises a panic. -/
theorem one_loop_of_joined {l : List (ThreadAct C)}
    (h : Run WatchdogThreads.step WatchdogThreads.Joined {} l s) : s.OneLoop := by
  have horder : s.Orderly :=
    h.invariant _ (fun hs ha hstep => hs.step ha hstep) WatchdogThreads.orderly_init
  refine ⟨fun t u ht hu => horder.crew.unique ht.alive hu.alive, fun t chunk hd ⟨hget, _⟩ => ?_⟩
  rw [horder.dismissed t hd] at hget
  cases hget

end

def startCall : List (ThreadAct Unit) :=
  [.begin () true, .advance (), .advance (), .advance (), .advance (), .advance ()]

/-- The panic callback outlasts the `join` of `stop`, and `start` is called again. -/
def zombieRun : List (ThreadAct Unit) :=
  startCall ++ [.monitor 0 true none, .monitor 0 true none, .monitor 0 true none,
    .monitor 0 true (some (ascii "Kernel panic - not syncing")),
    .begin () false, .advance (), .advance (), .timeout (), .advance ()] ++ startCall

def zombie : WatchdogThreads Unit := (runFrom WatchdogThreads.step {} zombieRun).getD {}

/-- The old loop returns from the callback and reads the new stop event. -/
def revival : List (ThreadAct Unit) := List.replicate 6 (.monitor 0 true none)

def revived : WatchdogThreads Unit := (runFrom WatchdogThreads.step zombie revival).getD {}

def second : WatchdogThreads Unit :=
  (runFrom WatchdogThreads.step zombie (List.replicate 3 (.monitor 1 true none))).getD {}

theorem zombie_revived : Run WatchdogThreads.step (fun _ _ => True) {} zombieRun zombie ∧
    (∃ t u, t ≠ u ∧ zombie.MayHear t ∧ zombie.MayHear u) ∧
      Run WatchdogThreads.step (fun _ _ => True) zombie revival revived ∧
        ∃ t c, revived.dismissed t = true ∧ revived.place t = .get ∧
          (revived.dog.hear c).2 = true := by
  have hzombie : runFrom WatchdogThreads.step {} zombieRun = some zombie :=
    runFrom_getD (by decide +kernel)
  have hrevived : runFrom WatchdogThreads.step zombie revival = some revived :=
    runFrom_getD (by decide +kernel)
  have hsecond : runFrom WatchdogThreads.step zombie (List.replicate 3 (.monitor 1 true none)) =
      some second := runFrom_getD (by decide +kernel)
  have hold : ∀ a ∈ revival, a.ofMonitor := fun a ha => by
    rw [List.eq_of_mem_replicate ha]
    trivial
  have hnew : ∀ a ∈ List.replicate 3 (ThreadAct.monitor (C := Unit) 1 true none), a.ofMonitor :=
    fun a ha => by
      rw [List.eq_of_mem_replicate ha]
      trivial
  refine ⟨.of_runFrom hzombie fun _ _ _ => trivial, ⟨0, 1, by decide, ?_, ?_⟩,
    .of_runFrom hrevived fun _ _ _ => trivial, 0, [0x0A], by decide +kernel, by decide +kernel,
    by decide +kernel⟩
  · exact ⟨revival, revived, .of_runFrom hrevived fun a ha _ => hold a ha, by decide +kernel⟩
  · exact ⟨_, second, .of_runFrom hsecond fun a ha _ => hnew a ha, by decide +kernel⟩

/-- A loop that was started once. -/
theorem one_loop_started : ∃ s : WatchdogThreads Unit, s.place 0 = .dial ∧ s.OneLoop :=
  ⟨_, rfl, one_loop_of_joined
    (l := [.begin () true, .advance (), .advance (), .advance (), .advance (), .advance (),
      .monitor 0 true none])
    (.cons (fun _ => rfl) rfl (.cons trivial rfl (.cons trivial rfl (.cons trivial rfl
      (.cons trivial rfl (.cons trivial rfl (.cons trivial rfl (.nil _))))))))⟩

end MesCore
