import MesCore.Delivery
import MesCore.SerialClient
import MesCore.StateMachine
import Mathlib.Data.List.Basic

namespace MesCore
set_option autoImplicit true

/-- One write after the other; the first that fails ends the sequence. -/
def writeSlices (failed next : Code) : List Bytes → Code
  | [] => next
  | s :: rest => .write s fun ok => if ok then writeSlices failed next rest else failed

/-- The slices of sixteen bytes in which `write_line` sends a line. -/
def lineSlices (line : String) : List Bytes := (ascii (line ++ "\n")).toChunks 16

/-- The newline a listener sends into a silent console; a write that fails ends its listening. -/
def redraw (q : QueueId) (next : Code) : Code :=
  .clock fun silent =>
    if silent = 0 then next
    else .write (ascii "\n") fun ok => if ok then next else .unsubscribe q .done

/-- The loop of `expect`: what `next` gets is the cleaned buffer, or nothing at the timeout. -/
def expectLoop (pattern : Bytes) (q : QueueId) (next : Option Bytes → Code) : Nat → Bytes → Code
  | 0, _ => .unsubscribe q (next none)
  | turns + 1, raw => .get q fun
    | none => redraw q (expectLoop pattern q next turns raw)
    | some chunk =>
      if pattern <:+: stripAnsi (raw ++ chunk) then
        .unsubscribe q (next (some (stripAnsi (raw ++ chunk))))
      else redraw q (expectLoop pattern q next turns (raw ++ chunk))

/-- `expect`: it listens before it sends its `blast_char`. -/
def expect (pattern blast : Bytes) (next : Option Bytes → Code) : Code :=
  .subscribe 0 fun q =>
    writeSlices (.unsubscribe q .done)
      (.clock fun turns => expectLoop pattern q next turns [])
      (if blast = [] then [] else List.replicate 3 blast)

/-- `safe_run`: it writes the command and then calls `expect`. -/
def safeRun (expectedPrompt token cmd : String) : Code :=
  let pattern := encodeUtf8 expectedPrompt.toList
  .flush <|
    if pyStrip cmd.toList = [] then
      writeSlices .done (expect pattern [] fun _ => .done) (lineSlices "")
    else .write [0x03] fun ok =>
      if ok then expect pattern [] fun _ =>
        .flush <| writeSlices .done (.written (expect pattern [] fun _ => .done))
          (lineSlices (injectedCmd expectedPrompt token cmd))
      else .done

section
variable (fsm : Station)

/-- What the boot monitor does about a prompt: the line it types, if any, or its return. -/
def osShellAnswer (ptype : String) : Option (List Bytes) :=
  if ptype = "shell" then none
  else if ptype = "login" then some (lineSlices (loginUser fsm))
  else if ptype = "password" then some (lineSlices (fsm.cfg.osPassword.getD ""))
  else if ptype = "bootloader" then some (lineSlices "boot")
  else some []

/-- The boot monitor over the events of one chunk: `stop` when it returns or raises. -/
def osShellAnswers (stop next : Code) : List UartEvent → Code
  | [] => next
  | .panicDetected _ :: _ => stop
  | .promptDetected ptype :: evs =>
    match osShellAnswer fsm ptype with
    | none => stop
    | some slices => writeSlices stop (osShellAnswers stop next evs) slices
  | _ :: evs => osShellAnswers stop next evs

/-- The event stream of `event_wait_for_os_shell` on its queue. -/
def osShellLoop (q : QueueId) : Nat → StreamState → Code
  | 0, _ => .unsubscribe q .done
  | turns + 1, st => .get q fun
    | none => redraw q (osShellLoop q turns st)
    | some chunk =>
      if chunk = [] then osShellLoop q turns st
      else osShellAnswers fsm (.unsubscribe q .done) (osShellLoop q turns
        (st.feed (osShellStream fsm) chunk).2) (st.feed (osShellStream fsm) chunk).1

/-- `event_boot_from_bootloader_to_os` on the multiplexer. -/
def bootFromBootloader : Code :=
  .flush <| .write (bootCommand fsm) fun ok =>
    if ok then .written <| .subscribe 0 fun q => .clock fun turns =>
      osShellLoop fsm q turns (osShellStream fsm).start
    else .done

end

/-- Code that drains nothing before it gives the queue up. -/
def Code.Quiet (q : QueueId) : Code → Prop
  | .done => True
  | .subscribe _ next => ∀ q', (next q').Quiet q
  | .unsubscribe q' next => q' = q ∨ next.Quiet q
  | .get _ next => ∀ r, (next r).Quiet q
  | .flush _ => False
  | .write _ next => ∀ ok, (next ok).Quiet q
  | .clock next => ∀ n, (next n).Quiet q
  | .written next => next.Quiet q

/-- Code that makes unbounded queues only, and is quiet on each. -/
def Code.Careful : Code → Prop
  | .done => True
  | .subscribe maxsize next => maxsize = 0 ∧ ∀ q, (next q).Quiet q ∧ (next q).Careful
  | .unsubscribe _ next => next.Careful
  | .get _ next => ∀ r, (next r).Careful
  | .flush next => next.Careful
  | .write _ next => ∀ ok, (next ok).Careful
  | .clock next => ∀ n, (next n).Careful
  | .written next => next.Careful

section
variable {failed next : Code} {q : QueueId}

theorem unsubscribe_quiet : (Code.unsubscribe q next).Quiet q := .inl rfl

theorem done_careful : Code.done.Careful := trivial

theorem unsubscribe_done_careful : (Code.unsubscribe q .done).Careful := trivial

theorem clock_quiet {next : Nat → Code} (h : ∀ n, (next n).Quiet q) : (Code.clock next).Quiet q := h

theorem clock_careful {next : Nat → Code} (h : ∀ n, (next n).Careful) :
    (Code.clock next).Careful := h

theorem written_careful (h : next.Careful) : (Code.written next).Careful := h

theorem writeSlices_quiet (hf : failed.Quiet q) (hn : next.Quiet q) (l : List Bytes) :
    (writeSlices failed next l).Quiet q := by
  induction l with
  | nil => exact hn
  | cons s rest ih =>
    intro ok
    cases ok with
    | true => exact ih
    | false => exact hf

theorem writeSlices_careful (hf : failed.Careful) (hn : next.Careful) (l : List Bytes) :
    (writeSlices failed next l).Careful := by
  induction l with
  | nil => exact hn
  | cons s rest ih =>
    intro ok
    cases ok with
    | true => exact ih
    | false => exact hf

theorem redraw_quiet (hn : next.Quiet q) : (redraw q next).Quiet q := by
  intro silent
  dsimp only
  split
  · exact hn
  · intro ok
    cases ok with
    | true => exact hn
    | false => exact .inl rfl

theorem redraw_careful (hn : next.Careful) : (redraw q next).Careful := by
  intro silent
  dsimp only
  split
  · exact hn
  · intro ok
    cases ok with
    | true => exact hn
    | false => exact trivial

theorem expectLoop_quiet (pattern : Bytes) (next : Option Bytes → Code) (turns : Nat)
    (raw : Bytes) : (expectLoop pattern q next turns raw).Quiet q := by
  induction turns generalizing raw with
  | zero => exact .inl rfl
  | succ turns ih =>
    intro r
    cases r with
    | none => exact redraw_quiet (ih raw)
    | some chunk =>
      dsimp only
      split
      · exact .inl rfl
      · exact redraw_quiet (ih _)

theorem expectLoop_careful {next : Option Bytes → Code} (hn : ∀ r, (next r).Careful)
    (pattern : Bytes) (turns : Nat) (raw : Bytes) :
    (expectLoop pattern q next turns raw).Careful := by
  induction turns generalizing raw with
  | zero => exact hn none
  | succ turns ih =>
    intro r
    cases r with
    | none => exact redraw_careful (ih raw)
    | some chunk =>
      dsimp only
      split
      · exact hn _
      · exact redraw_careful (ih _)

theorem expect_careful {next : Option Bytes → Code} (hn : ∀ r, (next r).Careful)
    (pattern blast : Bytes) : (expect pattern blast next).Careful := by
  refine ⟨rfl, fun q => ⟨?_, ?_⟩⟩
  · exact writeSlices_quiet unsubscribe_quiet
      (clock_quiet fun turns => expectLoop_quiet pattern next turns []) _
  · exact writeSlices_careful unsubscribe_done_careful
      (clock_careful fun turns => expectLoop_careful hn pattern turns []) _

theorem safeRun_careful (expectedPrompt token cmd : String) :
    (safeRun expectedPrompt token cmd).Careful := by
  have hdone : ∀ _ : Option Bytes, Code.done.Careful := fun _ => trivial
  have hsend : (Code.flush (writeSlices .done
      (.written (expect (encodeUtf8 expectedPrompt.toList) [] fun _ => .done))
      (lineSlices (injectedCmd expectedPrompt token cmd)))).Careful :=
    writeSlices_careful done_careful (written_careful (expect_careful hdone _ _)) _
  change Code.Careful (if _ then _ else _)
  split
  · exact writeSlices_careful done_careful (expect_careful hdone _ _) _
  · intro ok
    cases ok with
    | true =>
      exact expect_careful (fun _ => hsend) _ _
    | false => exact trivial

theorem osShellAnswers_quiet (fsm : Station) (hf : failed.Quiet q) (hn : next.Quiet q)
    (evs : List UartEvent) : (osShellAnswers fsm failed next evs).Quiet q := by
  induction evs with
  | nil => exact hn
  | cons ev evs ih =>
    cases ev with
    | panicDetected raw => exact hf
    | promptDetected ptype =>
      rw [osShellAnswers]
      split
      · exact hf
      · exact writeSlices_quiet hf ih _
    | autobootWindowDetected => exact ih
    | milestoneReached name => exact ih
    | bootDataReceived line => exact ih
    | idleTick => exact ih

theorem osShellAnswers_careful (fsm : Station) (hf : failed.Careful) (hn : next.Careful)
    (evs : List UartEvent) : (osShellAnswers fsm failed next evs).Careful := by
  induction evs with
  | nil => exact hn
  | cons ev evs ih =>
    cases ev with
    | panicDetected raw => exact hf
    | promptDetected ptype =>
      rw [osShellAnswers]
      split
      · exact hf
      · exact writeSlices_careful hf ih _
    | autobootWindowDetected => exact ih
    | milestoneReached name => exact ih
    | bootDataReceived line => exact ih
    | idleTick => exact ih

theorem osShellLoop_quiet (fsm : Station) (turns : Nat) (st : StreamState) :
    (osShellLoop fsm q turns st).Quiet q := by
  induction turns generalizing st with
  | zero => exact .inl rfl
  | succ turns ih =>
    intro r
    cases r with
    | none => exact redraw_quiet (ih st)
    | some chunk =>
      dsimp only
      split
      · exact ih st
      · exact osShellAnswers_quiet fsm unsubscribe_quiet (ih _) _

theorem osShellLoop_careful (fsm : Station) (turns : Nat) (st : StreamState) :
    (osShellLoop fsm q turns st).Careful := by
  induction turns generalizing st with
  | zero => exact trivial
  | succ turns ih =>
    intro r
    cases r with
    | none => exact redraw_careful (ih st)
    | some chunk =>
      dsimp only
      split
      · exact ih st
      · exact osShellAnswers_careful fsm unsubscribe_done_careful (ih _) _

theorem bootFromBootloader_careful (fsm : Station) : (bootFromBootloader fsm).Careful := by
  intro ok
  cases ok with
  | true =>
    exact ⟨rfl, fun q => ⟨fun turns => osShellLoop_quiet fsm turns _,
      fun turns => osShellLoop_careful fsm turns _⟩⟩
  | false => exact trivial

end

/-- A lone client that is careful: what is left of its code, and that nothing was drained from
a queue of its own. -/
structure Mux.Attentive (m : Mux Unit) : Prop where
  careful : (m.code ()).Careful
  quiet : ∀ q ∈ m.subscribers, q ≠ defaultQueue → (m.code ()).Quiet q
  flushing : ∀ t todo, m.holder = .flushing t todo → ∀ q ∈ todo, q = defaultQueue
  undrained : ∀ q, q ≠ defaultQueue → flushed q m.history = []
  unbounded : ∀ q, q ≠ defaultQueue → (m.queue q).maxsize = 0

theorem flushed_concat {e : MuxEvent T} (h : ∀ t c, e ≠ .drained t q c)
    (hs : List (MuxEvent T)) : flushed q (hs ++ [e]) = flushed q hs := by
  rw [flushed, flushed, List.filterMap_append]
  cases e with
  | drained t q' c =>
    have hq : q' ≠ q := by
      rintro rfl
      exact h t c rfl
    simp [hq]
  | _ => simp

@[simp] theorem Mux.setItems_maxsize (m : Mux T) (q q' : QueueId) (items : List Bytes) :
    ((m.setItems q items).queue q').maxsize = (m.queue q').maxsize := by
  by_cases h : q' = q
  · simp [Mux.setItems, h]
  · simp [Mux.setItems, h]

section
variable {m m' : Mux Unit}

theorem Mux.start_attentive {code : Code} (h : code.Careful) :
    (Mux.start fun _ => code).Attentive where
  careful := h
  quiet q hq hne := absurd (List.mem_singleton.1 hq) hne
  flushing t todo hold := by cases hold
  undrained q hq := rfl
  unbounded q hq := by
    change (if q = defaultQueue then _ else _ : RxQueue Unit).maxsize = 0
    rw [if_neg hq]

theorem Mux.Attentive.log {e : MuxEvent Unit} (h : m.Attentive)
    (he : ∀ t q c, e = .drained t q c → q = defaultQueue) : (m.log e).Attentive where
  careful := h.careful
  quiet := h.quiet
  flushing := h.flushing
  undrained q hq := by
    refine (flushed_concat ?_ _).trans (h.undrained q hq)
    rintro t c rfl
    exact hq (he t q c rfl)
  unbounded := h.unbounded

theorem Mux.Attentive.hold {k : Holder Unit} (h : m.Attentive)
    (hk : ∀ t todo, k = .flushing t todo → ∀ q ∈ todo, q = defaultQueue) :
    (m.hold k).Attentive := { h with flushing := hk }

theorem Mux.Attentive.setItems {q : QueueId} {items : List Bytes} (h : m.Attentive) :
    (m.setItems q items).Attentive where
  careful := h.careful
  quiet := h.quiet
  flushing := h.flushing
  undrained := h.undrained
  unbounded q' hq' := by
    rw [Mux.setItems_maxsize]
    exact h.unbounded q' hq'

theorem Mux.Attentive.goOn {code : Code} (h : m.Attentive) (hc : code.Careful)
    (hq : ∀ q ∈ m.subscribers, q ≠ defaultQueue → code.Quiet q) : (m.goOn () code).Attentive where
  careful := hc
  quiet := hq
  flushing := h.flushing
  undrained := h.undrained
  unbounded := h.unbounded

theorem Mux.Attentive.readChunk {c : Bytes} (h : m.Attentive) (hs : m.readChunk c = some m') :
    m'.Attentive := by
  obtain ⟨-, -, rfl⟩ := Mux.readChunk_some hs
  exact (h.log (by rintro _ _ _ ⟨⟩)).hold (by rintro _ _ ⟨⟩)

theorem Mux.Attentive.publish (h : m.Attentive) (hs : m.publish = some m') : m'.Attentive := by
  obtain ⟨k, hk, hcase⟩ := Mux.publish_some hs
  have hnot : ∀ t todo, k = .flushing t todo → ∀ q ∈ todo, q = defaultQueue :=
    fun t todo ht => absurd ht (hk t todo)
  rcases hcase with rfl | ⟨q, c, rfl⟩ | ⟨q, items, rfl⟩ | ⟨q, c, items, rfl⟩
  · exact h.hold hnot
  · exact (h.log (by rintro _ _ _ ⟨⟩)).hold hnot
  · exact h.setItems.hold hnot
  · exact (h.setItems.log (by rintro _ _ _ ⟨⟩)).hold hnot

theorem Mux.Attentive.subscribe {maxsize : Nat} {next : QueueId → Code} (h : m.Attentive)
    (hc : m.code () = .subscribe maxsize next) (hs : m.subscribe () maxsize next = some m') :
    m'.Attentive := by
  have hcareful := h.careful
  have hquiet := h.quiet
  rw [hc] at hcareful hquiet
  obtain ⟨rfl, hnext⟩ := hcareful
  rw [Mux.subscribe] at hs
  split at hs
  · cases hs
    exact {
      careful := (hnext m.fresh).2
      quiet := by
        intro q hq hne
        rcases List.mem_append.1 hq with hq | hq
        · exact hquiet q hq hne m.fresh
        · rw [List.mem_singleton.1 hq]
          exact (hnext m.fresh).1
      flushing := h.flushing
      undrained := fun q hq => (flushed_concat (by rintro _ _ ⟨⟩) _).trans (h.undrained q hq)
      unbounded := by
        intro q hq
        change (Function.update m.queue m.fresh _ q).maxsize = 0
        by_cases hf : q = m.fresh
        · rw [← hf, Function.update_self]
        · rw [Function.update_of_ne hf]
          exact h.unbounded q hq }
  · cases hs

theorem Mux.Attentive.unsubscribe {q : QueueId} {next : Code} (h : m.Attentive)
    (hnodup : m.subscribers.Nodup) (hc : m.code () = .unsubscribe q next)
    (hs : m.unsubscribe () q next = some m') : m'.Attentive := by
  have hcareful := h.careful
  have hquiet := h.quiet
  rw [hc] at hcareful hquiet
  have hleft (q' : QueueId) (hq' : q' ∈ m.subscribers) (hne : q' ≠ defaultQueue) (hqq : q' ≠ q) :
      next.Quiet q' := (hquiet q' hq' hne).resolve_left (Ne.symm hqq)
  rw [Mux.unsubscribe] at hs
  split at hs
  · split at hs
    · cases hs
      exact {
        careful := hcareful
        quiet := fun q' hq' hne =>
          hleft q' (List.mem_of_mem_erase hq') hne (hnodup.mem_erase_iff.1 hq').1
        flushing := h.flushing
        undrained := fun q hq => (flushed_concat (by rintro _ _ ⟨⟩) _).trans (h.undrained q hq)
        unbounded := h.unbounded }
    · rename_i hnot
      cases hs
      refine h.goOn hcareful fun q' hq' hne => hleft q' hq' hne ?_
      rintro rfl
      exact hnot hq'
  · cases hs

theorem Mux.Attentive.get {q : QueueId} {next : Option Bytes → Code} (h : m.Attentive)
    (hc : m.code () = .get q next) (hs : m.get () q next = some m') : m'.Attentive := by
  have hcareful := h.careful
  have hquiet := h.quiet
  rw [hc] at hcareful hquiet
  rw [Mux.get] at hs
  split at hs
  · split at hs
    · cases hs
      exact h.goOn (hcareful none) fun q hq hne => hquiet q hq hne none
    · cases hs
      exact (h.setItems.log (by rintro _ _ _ ⟨⟩)).goOn (hcareful _)
        fun q hq hne => hquiet q hq hne _
  · cases hs

theorem Mux.Attentive.flush {next : Code} (h : m.Attentive) (hc : m.code () = .flush next)
    (hs : m.flush () next = some m') : m'.Attentive := by
  have hcareful := h.careful
  have hquiet := h.quiet
  rw [hc] at hcareful hquiet
  have hdefault : ∀ q ∈ m.subscribers, q = defaultQueue :=
    fun q hq => by_contra fun hne => hquiet q hq hne
  rw [Mux.flush] at hs
  split at hs
  · cases hs
    refine h.hold ?_
    rintro _ _ ⟨⟩
    exact hdefault
  · split at hs
    · cases hs
      exact (h.hold (by rintro _ _ ⟨⟩)).goOn hcareful
        fun q hq hne => absurd (hdefault q hq) hne
    · cases hs
  · rename_i u q todo hold
    have htodo := h.flushing u _ hold
    split at hs
    · split at hs
      · cases hs
        refine h.hold ?_
        rintro _ _ ⟨⟩
        exact fun q' hq' => htodo q' (List.mem_cons_of_mem _ hq')
      · cases hs
        refine h.setItems.log ?_
        rintro _ _ _ ⟨⟩
        exact htodo q (List.mem_cons_self ..)
    · cases hs
  · cases hs

theorem Mux.Attentive.client {n : Nat} (h : m.Attentive) (hnodup : m.subscribers.Nodup)
    (hs : m.client () n = some m') : m'.Attentive := by
  have hcareful := h.careful
  have hquiet := h.quiet
  rw [Mux.client] at hs
  split at hs
  · cases hs
  · exact h.subscribe ‹_› hs
  · exact h.unsubscribe hnodup ‹_› hs
  · exact h.get ‹_› hs
  · exact h.flush ‹_› hs
  · rename_i data next hc
    rw [hc] at hcareful hquiet
    split at hs
    · cases hs
      exact h.goOn (hcareful _) fun q hq hne => hquiet q hq hne _
    · cases hs
      exact (h.log (by rintro _ _ _ ⟨⟩)).goOn (hcareful _) fun q hq hne => hquiet q hq hne _
  · rename_i next hc
    rw [hc] at hcareful hquiet
    cases hs
    exact h.goOn (hcareful n) fun q hq hne => hquiet q hq hne n
  · rename_i next hc
    rw [hc] at hcareful hquiet
    cases hs
    exact (h.log (by rintro _ _ _ ⟨⟩)).goOn hcareful hquiet

theorem Mux.run_attentive {code : Code} (hcode : code.Careful) {acts : List (Act Unit)}
    (hr : (Mux.start fun _ => code).run acts = some m) : m.Attentive := by
  have hboth : m.Sound defaultQueue ∧ m.Attentive := by
    refine Mux.run_induct (P := fun m => m.Sound defaultQueue ∧ m.Attentive) ?_
      ⟨Mux.start_sound _ _, Mux.start_attentive hcode⟩ hr
    rintro m a m' ⟨hsound, h⟩ hs
    refine ⟨hsound.step hs, ?_⟩
    cases a with
    | read c => exact h.readChunk hs
    | publish => exact h.publish hs
    | client t n => exact h.client hsound.nodup hs
  exact hboth.2

end

def reads (h : List (MuxEvent T)) : List Bytes :=
  h.filterMap fun
    | .read chunk => some chunk
    | _ => none

theorem joins_cons (e : MuxEvent T) (h : List (MuxEvent T)) :
    joins q (e :: h) = joins q h + if e.joins q then 1 else 0 := List.countP_cons

theorem Ear.hear_closed {q : QueueId} {a : Ear} {h : List (MuxEvent T)} (ha : a.isOpen = false)
    (hj : joins q h = 0) : h.foldl (Ear.hear q) a = a := by
  induction h with
  | nil => rfl
  | cons e h ih =>
    rw [joins_cons, Nat.add_eq_zero_iff] at hj
    have he : a.hear q e = a := by
      obtain ⟨isOpen, heard⟩ := a
      cases ha
      cases e with
      | subscribed t q' => exact if_neg fun hq => by simp [MuxEvent.joins, hq] at hj
      | unsubscribed t q' =>
        rw [Ear.hear]
        split <;> rfl
      | _ => rfl
    rw [List.foldl_cons, he]
    exact ih hj.1

/-- A queue that is subscribed and stays so hears everything that is read. -/
theorem Ear.hear_open {q : QueueId} {a : Ear} {h : List (MuxEvent T)} (ha : a.isOpen = true)
    (hj : joins q h = 0) (hend : (h.foldl (Ear.hear q) a).isOpen = true) :
    (h.foldl (Ear.hear q) a).heard = a.heard ++ reads h := by
  induction h generalizing a with
  | nil => exact (List.append_nil _).symm
  | cons e h ih =>
    rw [joins_cons, Nat.add_eq_zero_iff] at hj
    rw [List.foldl_cons] at hend ⊢
    cases e with
    | read c =>
      have he : a.hear q (.read c : MuxEvent T) = { a with heard := a.heard ++ [c] } := if_pos ha
      rw [he] at hend ⊢
      rw [ih (a := { a with heard := a.heard ++ [c] }) ha hj.1 hend]
      exact List.append_assoc ..
    | subscribed t q' =>
      have he : a.hear q (.subscribed t q') = a :=
        if_neg fun hq => by simp [MuxEvent.joins, hq] at hj
      rw [he] at hend ⊢
      exact ih ha hj.1 hend
    | unsubscribed t q' =>
      by_cases hq : q' = q
      · have he : a.hear q (.unsubscribed t q') = { a with isOpen := false } := if_pos hq
        rw [he, Ear.hear_closed rfl hj.1] at hend
        cases hend
      · have he : a.hear q (.unsubscribed t q') = a := if_neg hq
        rw [he] at hend ⊢
        exact ih ha hj.1 hend
    | _ => exact ih ha hj.1 hend

/-- The window of a queue that is still subscribed is what was read since it was made. -/
theorem Mux.Sound.window_since {q : QueueId} {m : Mux T} {t : T} {pre post : List (MuxEvent T)}
    (h : m.Sound q) (hh : m.history = pre ++ .subscribed t q :: post) (hq : q ∈ m.subscribers) :
    q ≠ defaultQueue ∧ window q m.history = reads post := by
  have hj := h.joined
  have hself : (MuxEvent.subscribed t q).joins q = true := decide_eq_true rfl
  rw [hh, joins, List.countP_append, List.countP_cons, if_pos hself] at hj
  split at hj
  · rename_i hlt
    have hpre : joins q pre = 0 := by rw [joins]; omega
    have hpost : joins q post = 0 := by rw [joins]; omega
    have hopen := h.listening.2 hq
    have hear : ear q m.history = post.foldl (Ear.hear q) ⟨true, []⟩ := by
      rw [hh, ear_append, List.foldl_cons, ear, Ear.hear_closed (decide_eq_false hlt.2) hpre]
      rw [Ear.hear, if_pos rfl]
    rw [hear] at hopen
    refine ⟨hlt.2, ?_⟩
    rw [window, hear, Ear.hear_open rfl hpost hopen, List.nil_append]
  · omega

/-- The steps of `safe_run` until its command is written. -/
def sendVersion : List (Act Unit) :=
  List.replicate 5 (.client () 1) ++ [.client () 0] ++ List.replicate 6 (.client () 1)

/-- The daemon reads the answer and hands it to the default queue. -/
def answer : List (Act Unit) := [.read (ascii "=> "), .publish, .publish]

end MesCore
