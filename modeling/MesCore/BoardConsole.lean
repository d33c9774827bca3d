import MesCore.IdealBoard

namespace MesCore
set_option autoImplicit true

namespace IdealBoard
variable {fsm : Station} {B : IdealBoard fsm}

theorem infix_sanitise {p : String} {c : Bytes} (h : ascii p <:+: stripAnsi c) :
    ascii p <:+: encodeUtf8 (sanitise c) := by
  obtain ⟨l, r, hlr⟩ := infix_decodeReplace h
  refine ⟨encodeUtf8 l, encodeUtf8 r, ?_⟩
  rw [ascii, ← encodeUtf8_append, ← encodeUtf8_append, hlr, sanitise]

theorem feed_calm {p : StreamParams} {sst : StreamState} {c : Bytes}
    (hc : panicSearch (encodeUtf8 (sst.localBuf ++ sanitise c)) = false) :
    (sst.feed p c).2.panicked = false ∧ ∀ raw, .panicDetected raw ∉ (sst.feed p c).1 := by
  have hlines (lines : List (List Char)) (pending : List (String × String)) (raw : String) :
      .panicDetected raw ∉ (lineScan lines pending).1 := by
    induction lines generalizing pending with
    | nil => exact List.not_mem_nil
    | cons line lines ih =>
      rw [lineScan]
      dsimp only
      split
      · exact ih _
      · simp [ih]
  have hprompts (clean : Bytes) (prompts : List (String × Bytes)) (seen : List String)
      (raw : String) : .panicDetected raw ∉ (promptScan clean prompts seen).1 := by
    intro h
    obtain ⟨_, _, he, _⟩ := promptScan_mem h
    cases he
  rw [sanitise, ← Bool.not_eq_true] at hc
  rw [StreamState.feed]
  dsimp only
  rw [if_neg hc]
  refine ⟨rfl, fun raw h => ?_⟩
  rcases List.mem_append.1 h with h | h
  · rcases List.mem_append.1 h with h | h
    · split at h <;> simp at h
    · exact hprompts _ _ _ _ h
  · exact hlines _ _ _ h

/-- The first prompt of the table comes first, if it is in the first chunk. -/
theorem feed_first {p : StreamParams} {c pbytes : Bytes} {t : String} {rest : List (String × Bytes)}
    (hp : p.prompts = (t, pbytes) :: rest) (ha : p.autobootTrigger = none)
    (hc : panicSearch (encodeUtf8 (sanitise c)) = false)
    (hshown : pbytes <:+: encodeUtf8 (sanitise c)) :
    ∃ evs, (p.start.feed p c).1 = .promptDetected t :: evs := by
  have hcalm :
      ¬ panicSearch (encodeUtf8 (p.start.localBuf ++ decodeReplace (stripAnsi c))) = true :=
    ne_true_of_eq_false hc
  have hfirst : t ∉ p.start.detectedPrompts ∧
      pbytes <:+: encodeUtf8 (p.start.localBuf ++ decodeReplace (stripAnsi c)) :=
    ⟨List.not_mem_nil, hshown⟩
  rw [StreamState.feed]
  dsimp only
  rw [if_neg hcalm, ha, hp, promptScan, if_pos hfirst]
  exact ⟨_, rfl⟩

section
variable {st : DutState} {pl : Place} {o o' : Bool} {w : World B.hardware} {p : StreamParams}
  {E : Err → World B.hardware → Prop} {body : UartEvent → Fsm B.hardware Bool}

theorem At.poll (h : B.At st pl o w) : wp (MesCore.ask .rxQueueGet) (fun poll w' =>
    B.At st pl o w' ∧ w'.dev.port = w.dev.port ∧
      ((B.heard w.dev = [] ∧ poll = .empty true false) ∨
        (B.heard w.dev ∈ B.texts pl ∧ poll = .chunk (B.heard w.dev)))) E w := by
  by_cases hs : B.heard w.dev = []
  · have hr : B.respond .rxQueueGet w.dev = (.ok (.empty true false), w.dev) := if_pos hs
    exact h.ask hr h.stands h.port fun _ h' hd => ⟨h', congrArg _ hd, .inl ⟨hs, rfl⟩⟩
  · have hr : B.respond .rxQueueGet w.dev =
        (.ok (.chunk (B.heard w.dev)), { w.dev with output := .silent }) := if_neg hs
    exact h.ask hr (h.stands.congr rfl rfl) h.port fun _ h' hd =>
      ⟨h', hd ▸ rfl, .inr ⟨(heard_cases h.stands).resolve_left hs, rfl⟩⟩

theorem At.rawWrite {data : Bytes} (h : B.At st pl o w) (hd : lineOf data = "") :
    wp (MesCore.ask (.serialRawWrite data)) (fun _ w' => B.At st pl o w' ∧
      w'.dev = if w.dev.port then B.typeLine "" w.dev else w.dev) E w := by
  have hr : B.respond (.serialRawWrite data) w.dev =
      (.ok (), if w.dev.port then B.typeLine "" w.dev else w.dev) := by
    rw [respond, hd]
  have hs : B.Stands pl (if w.dev.port then B.typeLine "" w.dev else w.dev) := by
    split
    · exact h.stands.newline
    · exact h.stands
  refine h.ask hr hs ?_ fun _ h' hw => ⟨h', hw⟩
  split
  · rw [typeLine_port]
    exact h.port
  · exact h.port

theorem At.pingConsole {ping : Option Bytes} (h : B.At st pl o w) (hp : ∀ c ∈ ping, lineOf c = "") :
    wp (pingConsole ping true) (fun _ w' => B.At st pl o w' ∧ w'.dev.port = w.dev.port) E w := by
  cases ping with
  | none => exact ⟨h, rfl⟩
  | some c =>
    refine (h.rawWrite (hp c rfl)).mono (fun _ w' h' => ⟨h'.1, ?_⟩) fun _ _ he => he
    rw [h'.2]
    split
    · exact typeLine_port ""
    · rfl

theorem At.streamLoop_closed {ping : Option Bytes} (hp : ∀ c ∈ ping, lineOf c = "") (turns : Nat)
    (sst : StreamState) (h : B.At st pl o w) (hclosed : w.dev.port = false) :
    wp (streamLoop p ping body turns sst) (fun done w' => done = false ∧ B.At st pl o w') E w := by
  induction turns generalizing w with
  | zero => exact ⟨rfl, h⟩
  | succ turns ih =>
    have hsilent : B.heard w.dev = [] := by
      rw [heard, hclosed]
      rfl
    rw [streamLoop]
    apply h.poll.bind
    rintro poll w₁ ⟨h₁, hp₁, ⟨_, rfl⟩ | ⟨hmem, _⟩⟩
    · apply (h₁.pingConsole hp).bind
      rintro _ w₂ ⟨h₂, hp₂⟩
      apply ih h₂
      rw [hp₂, hp₁, hclosed]
    · exact (texts_ne_nil hmem hsilent).elim

/-- A stream ends with the first text it hears, if that text starts with the right event. -/
theorem At.streamLoop_heard {ping : Option Bytes} {ev : UartEvent} (turns : Nat)
    (hfeed : ∀ c ∈ B.texts pl, ∃ evs, (p.start.feed p c).1 = ev :: evs)
    (hbody : ∀ {w}, B.At st pl true w →
      wp (body ev) (fun done w' => done = true ∧ B.At st pl true w') E w)
    (h : B.At st pl true w) (hheard : B.heard w.dev ≠ []) :
    wp (streamLoop p ping body (turns + 1) p.start)
      (fun done w' => done = true ∧ B.At st pl true w') E w := by
  rw [streamLoop]
  apply h.poll.bind
  rintro poll w₁ ⟨h₁, _, ⟨hs, _⟩ | ⟨hmem, rfl⟩⟩
  · exact (hheard hs).elim
  · obtain ⟨evs, hevs⟩ := hfeed _ hmem
    dsimp only
    rw [if_neg hheard, hevs, runEvents]
    apply wp.bind (R := fun done w' => done = true ∧ B.At st pl true w')
    · apply (hbody h₁).bind
      rintro done w₂ ⟨rfl, h₂⟩
      exact ⟨rfl, h₂⟩
    · rintro done w₂ ⟨rfl, h₂⟩
      exact ⟨rfl, h₂⟩

theorem At.streamLoop_pinged {ev : UartEvent} {c : Bytes} (hc : lineOf c = "") {turns : Nat}
    (hturns : 2 ≤ turns) (hon : pl.isOn = true)
    (hfeed : ∀ c ∈ B.texts pl, ∃ evs, (p.start.feed p c).1 = ev :: evs)
    (hbody : ∀ {w}, B.At st pl true w →
      wp (body ev) (fun done w' => done = true ∧ B.At st pl true w') E w)
    (h : B.At st pl true w) : wp (streamLoop p (some c) body turns p.start)
      (fun done w' => done = true ∧ B.At st pl true w') E w := by
  obtain ⟨turns, rfl⟩ := Nat.exists_eq_add_of_le' hturns
  by_cases hheard : B.heard w.dev = []
  · rw [streamLoop]
    apply h.poll.bind
    rintro poll w₁ ⟨h₁, _, ⟨_, rfl⟩ | ⟨hmem, _⟩⟩
    · apply (h₁.rawWrite hc).bind
      rintro _ w₂ ⟨h₂, hd₂⟩
      apply h₂.streamLoop_heard turns hfeed hbody
      have hport : (B.typeLine "" w₁.dev).port = true := by
        rw [typeLine_port]
        exact h₁.port rfl
      rw [hd₂, h₁.port rfl, if_pos rfl]
      exact texts_ne_nil (heard_of_output h₁.stands.newline hon hport
        (newline_answered h₁.stands hon))
    · exact (texts_ne_nil hmem hheard).elim
  · exact h.streamLoop_heard _ hfeed hbody hheard

theorem At.overStream {C : BoardState → Prop} {ping : Option Bytes} {R : Bool → Prop}
    (hC : ∀ s, C s → C (flushed s)) (flush : Bool) (h : B.At st pl o w) (hw : C w.dev)
    (hloop : ∀ {w}, B.At st pl o w → C w.dev → wp (streamLoop p ping body B.turns p.start)
      (fun done w' => R done ∧ B.At st pl o' w') never w) :
    wp (overStream p flush ping body) (fun done w' => R done ∧ B.At st pl o' w') never w := by
  have hkeep {c : Call} {w : World B.hardware} {a : c.Ans} (h : B.At st pl o w) (hw : C w.dev)
      (hr : B.respond c w.dev = (.ok a, w.dev)) : wp (MesCore.ask c) (fun b w' =>
        b = a ∧ B.At st pl o w' ∧ C w'.dev) never w :=
    h.ask hr h.stands h.port fun _ h' hd => ⟨rfl, h', hd ▸ hw⟩
  apply wp.bind (R := fun _ w' => B.At st pl o w' ∧ C w'.dev)
  · cases flush with
    | false => exact ⟨h, hw⟩
    | true =>
      have hs := flushed_keeps w.dev
      have hr : B.respond .serialFlushBuffers w.dev = (.ok (), flushed w.dev) := rfl
      exact h.ask hr (h.stands.congr hs.1 hs.2.1) (hs.2.2 ▸ h.port) fun _ h' hd =>
        ⟨h', hd ▸ hC _ hw⟩
  · rintro _ w₁ ⟨h₁, hw₁⟩
    apply (hkeep h₁ hw₁ rfl).bind
    rintro _ w₂ ⟨_, h₂, hw₂⟩
    rw [wp_ensuring]
    have hrun : wp (do
        let turns : Nat ← MesCore.ask .streamTurns
        streamLoop p ping body turns p.start)
        (fun done w' => R done ∧ B.At st pl o' w') never w₂ := by
      apply (hkeep h₂ hw₂ rfl).bind
      rintro _ w₃ ⟨rfl, h₃, hw₃⟩
      exact hloop h₃ hw₃
    refine hrun.mono (fun done w₃ h₃ => ?_) fun _ _ he => he.elim
    exact (h₃.2.aside rfl).mono (fun _ _ h' => ⟨h₃.1, h'⟩) fun _ _ he => he

theorem lineOf_newline : lineOf (ascii "\n") = "" := by decide +kernel

theorem newline_pings : ∀ c ∈ some (ascii "\n"), lineOf c = "" := by
  intro c hc
  cases hc
  exact lineOf_newline

theorem flushed_port (b : Bool) (s : BoardState) (hs : s.port = b) : (flushed s).port = b :=
  (flushed_keeps s).2.2.trans hs

theorem osShellStream_feed {c : Bytes} (hc : c ∈ B.texts .linux) :
    ∃ evs, ((osShellStream fsm).start.feed (osShellStream fsm) c).1 =
      .promptDetected "shell" :: evs := by
  obtain ⟨hshown, hcalm⟩ := B.shell_shown c hc
  exact feed_first rfl rfl hcalm (infix_sanitise hshown)

/-- On Linux the wait for the shell ends with it, unless the port is closed. -/
theorem At.eventWaitForOsShell (h : B.At st .linux o w) (flush : Bool) :
    wp (eventWaitForOsShell fsm flush) (fun _ w' => B.At st .linux o w')
      (fun e w' => o = false ∧ e.isTransportTimeoutError = true ∧ B.At st .linux o w') w := by
  by_cases hp : w.dev.port = true
  · apply wp.bind (R := fun done w' => done = true ∧ B.At st .linux o w')
    · apply wp.succeeds
      have h' : B.At st .linux true w := ⟨h.state, h.stands, fun _ => hp⟩
      refine (h'.overStream (C := fun _ => True) (R := (· = true)) (fun _ h => h) flush trivial
        fun h₁ _ => ?_).mono (fun _ _ h₂ => ⟨h₂.1, h₂.2.mono fun _ => rfl⟩) fun _ _ he => he
      apply h₁.streamLoop_pinged lineOf_newline B.time rfl fun _ hc => osShellStream_feed hc
      intro w₂ h₂
      exact ⟨rfl, h₂⟩
    · rintro done w₁ ⟨rfl, h₁⟩
      exact h₁
  · have hclosed := Bool.eq_false_iff.2 hp
    have ho : o = false := Bool.eq_false_iff.2 fun ho => hp (h.port ho)
    apply wp.bind (R := fun done w' => done = false ∧ B.At st .linux o w')
    · apply wp.succeeds
      exact h.overStream (R := (· = false)) (flushed_port false) flush hclosed fun h₁ hw₁ =>
        h₁.streamLoop_closed newline_pings _ _ hw₁
    · rintro done w₁ ⟨rfl, h₁⟩
      exact ⟨ho, rfl, h₁⟩

/-- At the prompt of U-Boot the wait for the shell types the boot command, and waits on. -/
theorem At.osShellEvent (h : B.At st .uboot o w) {ev : UartEvent}
    (hev : ev ≠ .promptDetected "shell") (hcalm : ∀ raw, ev ≠ .panicDetected raw)
    (hp : w.dev.port = true) : wp (osShellEvent fsm ev)
      (fun done w' => done = false ∧ B.At st .uboot o w' ∧ w'.dev.port = true) never w := by
  have hline (line : String) (sensitive : Bool) {w : World B.hardware} (h : B.At st .uboot o w)
      (hp : w.dev.port = true) : wp (MesCore.ask (.serialWriteLine line sensitive))
        (fun _ w' => B.At st .uboot o w' ∧ w'.dev.port = true) never w := by
    have hr : B.respond (.serialWriteLine line sensitive) w.dev =
        (.ok (), B.typeLine line w.dev) := if_pos hp
    have hport : (B.typeLine line w.dev).port = true := by
      rw [typeLine_port, hp]
    exact h.ask hr (h.stands.typeLine line) (fun _ => hport) fun _ h' hd => ⟨h', hd ▸ hport⟩
  have haside {c : Call} {a : c.Ans} {w : World B.hardware} (h : B.At st .uboot o w)
      (hp : w.dev.port = true) (hr : B.respond c w.dev = (.ok a, w.dev)) :
      wp (MesCore.ask c) (fun _ w' => B.At st .uboot o w' ∧ w'.dev.port = true) never w :=
    h.ask hr h.stands h.port fun _ h' hd => ⟨h', hd ▸ hp⟩
  have hlogin (line : String) (sensitive : Bool) : wp (do
      MesCore.ask (.sleep 100)
      MesCore.ask (.serialWriteLine line sensitive)
      MesCore.ask .serialClearParser
      pure false : Fsm B.hardware Bool)
      (fun done w' => done = false ∧ B.At st .uboot o w' ∧ w'.dev.port = true) never w := by
    apply (haside h hp rfl).bind
    rintro _ w₁ ⟨h₁, hp₁⟩
    apply (hline line sensitive h₁ hp₁).bind
    rintro _ w₂ ⟨h₂, hp₂⟩
    apply (haside h₂ hp₂ rfl).bind
    exact fun _ w₃ h₃ => ⟨rfl, h₃⟩
  cases ev with
  | panicDetected raw => exact (hcalm raw rfl).elim
  | promptDetected t =>
    have ht : t ≠ "shell" := by
      rintro rfl
      exact hev rfl
    rw [MesCore.osShellEvent, if_neg ht]
    split
    · exact hlogin _ _
    · split
      · exact hlogin _ _
      · split
        · apply (hline _ _ h hp).bind
          exact fun _ w₁ h₁ => ⟨rfl, h₁⟩
        · exact ⟨rfl, h, hp⟩
  | autobootWindowDetected => exact ⟨rfl, h, hp⟩
  | milestoneReached name => exact ⟨rfl, h, hp⟩
  | bootDataReceived line => exact ⟨rfl, h, hp⟩
  | idleTick => exact ⟨rfl, h, hp⟩

theorem At.runEvents_deaf (h : B.At st .uboot o w) {evs : List UartEvent}
    (hevs : .promptDetected "shell" ∉ evs) (hcalm : ∀ raw, .panicDetected raw ∉ evs)
    (hp : w.dev.port = true) : wp (runEvents (MesCore.osShellEvent fsm) evs)
      (fun done w' => done = false ∧ B.At st .uboot o w' ∧ w'.dev.port = true) never w := by
  induction evs generalizing w with
  | nil => exact ⟨rfl, h, hp⟩
  | cons ev evs ih =>
    have hne : ev ≠ .promptDetected "shell" := fun he => hevs (he ▸ List.mem_cons_self ..)
    have hnp (raw : String) : ev ≠ .panicDetected raw :=
      fun he => hcalm raw (he ▸ List.mem_cons_self ..)
    apply (h.osShellEvent hne hnp hp).bind
    rintro done w₁ ⟨rfl, h₁, hp₁⟩
    exact ih h₁ (fun hm => hevs (List.mem_cons_of_mem _ hm))
      (fun raw hm => hcalm raw (List.mem_cons_of_mem _ hm)) hp₁

/-- However long it lasts, the wait for the shell ends in vain at the prompt of U-Boot: the boot
command only runs the trap again. The induction carries the unfinished line of the stream. -/
theorem At.streamLoop_deaf (turns : Nat) {sst : StreamState} (cs : List Bytes)
    (hcs : ∀ c ∈ cs, c ∈ B.texts .uboot) (hbuf : sst.localBuf = lineBuffer [] cs)
    (h : B.At st .uboot o w) (hp : w.dev.port = true) :
    wp (streamLoop (osShellStream fsm) (some (ascii "\n")) (MesCore.osShellEvent fsm) turns sst)
      (fun done w' => done = false ∧ B.At st .uboot o w') never w := by
  induction turns generalizing w sst cs with
  | zero => exact ⟨rfl, h⟩
  | succ turns ih =>
    rw [streamLoop]
    apply h.poll.bind
    rintro poll w₁ ⟨h₁, hp₁, ⟨_, rfl⟩ | ⟨hc, rfl⟩⟩
    · apply (h₁.rawWrite lineOf_newline).bind
      rintro _ w₂ ⟨h₂, hd₂⟩
      apply ih cs hcs hbuf h₂
      rw [hd₂, hp₁, hp, if_pos rfl, typeLine_port, hp₁, hp]
    · generalize B.heard w.dev = c at hc
      rw [hp] at hp₁
      have hcs' : ∀ b ∈ cs ++ [c], b ∈ B.texts .uboot := by
        intro b hb
        rcases List.mem_append.1 hb with hb | hb
        · exact hcs b hb
        · rwa [List.mem_singleton.1 hb]
      obtain ⟨hquiet, hshell⟩ := B.uboot_quiet cs c hcs'
      rw [← hbuf] at hquiet hshell
      obtain ⟨hon, hcalm⟩ := feed_calm (p := osShellStream fsm) hquiet
      have hdeaf : .promptDetected "shell" ∉ (sst.feed (osShellStream fsm) c).1 := by
        intro hm
        obtain ⟨pbytes, hkey, hin⟩ := StreamState.feed_prompt hm
        rw [osShellStream_shell fsm hkey] at hin
        exact hshell hin
      dsimp only
      rw [if_neg (texts_ne_nil hc)]
      apply (h₁.runEvents_deaf hdeaf hcalm hp₁).bind
      rintro done w₂ ⟨rfl, h₂, hp₂⟩
      rw [if_neg Bool.false_ne_true, hon, if_neg Bool.false_ne_true]
      apply ih (cs ++ [c]) hcs' _ h₂ hp₂
      rw [StreamState.feed_localBuf hon, hbuf, lineBuffer, lineBuffer, List.foldl_append,
        List.foldl_cons, List.foldl_nil, if_neg (texts_ne_nil hc)]

theorem At.eventWaitForOsShell_trapped (h : B.At st .uboot o w) (flush : Bool) :
    wp (MesCore.eventWaitForOsShell fsm flush) (fun _ _ => False)
      (fun e w' => e.isTransportTimeoutError = true ∧ B.At st .uboot o w') w := by
  apply wp.bind (R := fun done w' => done = false ∧ B.At st .uboot o w')
  · apply wp.succeeds
    cases hp : w.dev.port with
    | true =>
      exact h.overStream (R := (· = false)) (flushed_port true) flush hp fun h₁ hp₁ =>
        h₁.streamLoop_deaf _ [] (List.forall_mem_nil _) rfl hp₁
    | false =>
      exact h.overStream (R := (· = false)) (flushed_port false) flush hp fun h₁ hp₁ =>
        h₁.streamLoop_closed newline_pings _ _ hp₁
  · rintro done w₁ ⟨rfl, h₁⟩
    exact ⟨rfl, h₁⟩

end

end IdealBoard
end MesCore
