import MesCore.StreamChunks
import Mathlib.Algebra.Order.Field.Rat

namespace MesCore
set_option autoImplicit true

theorem mem_promptTypes {evs : List UartEvent} {t : String} :
    t ∈ promptTypes evs ↔ .promptDetected t ∈ evs := by
  rw [promptTypes, List.mem_filterMap]
  constructor
  · rintro ⟨ev, hev, heq⟩
    cases ev with
    | promptDetected t' =>
      cases heq
      exact hev
    | milestoneReached | autobootWindowDetected | panicDetected | bootDataReceived | idleTick =>
      cases heq
  · exact fun h => ⟨_, h, rfl⟩

namespace UuuTeziProvisioner

def promptBytes (successPrompt : String) : Bytes :=
  if successPrompt = "" then ascii "login:" else encodeUtf8 successPrompt.toList

def prompts (successPrompt : String) : List (String × Bytes) :=
  [("tezi_shell_hash", ascii "~ #"),
    ("tezi_shell_root", ascii "root@"),
    ("tezi_shell_slash", ascii "/ #"),
    ("success_installed", ascii "Successfully installed"),
    ("success_rebooting", ascii "Restarting system"),
    ("success_prompt", promptBytes successPrompt),
    ("post_install_login", ascii "login:")]

def params (successPrompt : String) : StreamParams where
  prompts := prompts successPrompt

def shellTypes : List String := ["tezi_shell_hash", "tezi_shell_root", "tezi_shell_slash"]

def conclusiveTypes : List String :=
  ["success_installed", "success_rebooting", "post_install_login"]

/-- How the loop over the events ends. -/
inductive Verdict
  | success
  | panicked
  | provisioningError (msg : String)
  deriving DecidableEq

/-- What an event meets: the clock at the three deadlines, whether a write goes through, and the
clock behind it. -/
structure Moment where
  probeNow : ℚ
  mediaNow : ℚ
  shellNow : ℚ
  writes : Bool
  sentAt : ℚ

/-- The local variables of the loop. -/
structure Locals where
  tailSent : Bool := false
  txProbeSent : Bool := false
  txVerified : Bool := false
  txProbeDeadline : ℚ := 0
  mediaCheckSent : Bool := false
  mediaCheckVerified : Bool := false
  mediaCheckDeadline : ℚ := 0
  shellFallbackDeadline : ℚ

/-- A prompt; a shell is probed once, and the prompt of the caller counts only behind the tail. -/
def onPrompt (l : Locals) (m : Moment) (promptType : String) : Except Verdict Locals :=
  if promptType ∈ shellTypes then
    if !l.tailSent && !l.txProbeSent then
      if m.writes then .ok { l with txProbeSent := true, txProbeDeadline := m.sentAt + 10 }
      else .ok { l with tailSent := true }
    else .ok l
  else if promptType ∈ conclusiveTypes then .error .success
  else if promptType = "success_prompt" then
    if !l.tailSent then .ok l else .error .success
  else .ok l

/-- A line: the echo of the probe, then the answer of the media check. -/
def onLine (l : Locals) (m : Moment) (line : String) : Except Verdict Locals :=
  if l.txProbeSent && !l.txVerified then
    if occursIn "__MES_TX_OK__" line then
      let l := { l with txVerified := true }
      if m.writes then .ok { l with mediaCheckSent := true, mediaCheckDeadline := m.sentAt + 15 }
      else .ok { l with tailSent := true }
    else .ok l
  else if l.mediaCheckSent && !l.mediaCheckVerified then
    if stripText line = "__MES_MEDIA_OK__" then
      let l := { l with mediaCheckVerified := true }
      if m.writes then .ok { l with tailSent := true } else .ok l
    else if stripText line = "__MES_MEDIA_MISSING__" then
      .error (.provisioningError
        "No removable media detected (e.g. USB-SD-Mux is missing or not fully plugged in)!")
    else .ok l
  else .ok l

/-- The probe that was not echoed in time leaves the tail out. -/
def checkProbe (l : Locals) (m : Moment) : Locals :=
  if l.txProbeSent && !l.txVerified && decide (l.txProbeDeadline < m.probeNow) then
    { l with txVerified := true, tailSent := true }
  else l

def checkShell (l : Locals) (m : Moment) : Locals :=
  if !l.tailSent && !l.txProbeSent && decide (l.shellFallbackDeadline < m.shellNow) then
    { l with tailSent := true }
  else l

def handle (l : Locals) (m : Moment) : UartEvent → Except Verdict Locals
  | .panicDetected _ => .error .panicked
  | ev =>
    let l := checkProbe l m
    if l.mediaCheckSent && !l.mediaCheckVerified && decide (l.mediaCheckDeadline < m.mediaNow) then
      .error (.provisioningError
        "Timeout waiting for removable media check response from DUT!")
    else
      let l := checkShell l m
      match ev with
      | .promptDetected promptType => onPrompt l m promptType
      | .bootDataReceived line => onLine l m line
      | _ => .ok l

def handleAll (l : Locals) (moments : ℕ → Moment) : List UartEvent → Except Verdict Locals
  | [] => .ok l
  | ev :: evs =>
    match handle l (moments 0) ev with
    | .ok l => handleAll l (fun n => moments (n + 1)) evs
    | .error v => .error v

/-- A turn of the stream, and what the events it yields meet. -/
structure Turn where
  poll : RxPoll
  moments : ℕ → Moment

def advance (p : StreamParams) (s : Locals × StreamState) (turn : Turn) :
    Except Verdict (Locals × StreamState) :=
  match handleAll s.1 turn.moments (s.2.turn p turn.poll).1 with
  | .ok l => .ok (l, (s.2.turn p turn.poll).2)
  | .error v => .error v

def listen (p : StreamParams) (s : Locals × StreamState) :
    List Turn → Except Verdict (Locals × StreamState)
  | [] => .ok s
  | turn :: turns =>
    match advance p s turn with
    | .ok s => listen p s turns
    | .error v => .error v

/-- What ends the stream if the loop does not: its timeout, or an exception of the serial client. -/
inductive Ending
  | timeout
  | raised

/-- What `provision` returns, if it does, and the state it leaves the machine in. -/
structure Report where
  returned : Option Bool
  fsm : Option DutState
  deriving DecidableEq

def opening (startedAt : ℚ) (successPrompt : String) : Locals × StreamState :=
  ({ shellFallbackDeadline := startedAt + 15 }, (params successPrompt).start)

/-- `provision` from the opening of the stream on. -/
def provision (fsm : Option DutState) (startedAt : ℚ) (successPrompt : String)
    (turns : List Turn) (ending : Ending) : Report :=
  match listen (params successPrompt) (opening startedAt successPrompt) turns with
  | .error .success => ⟨some true, fsm.map fun _ => .energized⟩
  | .error .panicked => ⟨some false, fsm⟩
  | .error (.provisioningError _) => ⟨none, fsm⟩
  | .ok _ =>
    match ending with
    | .timeout => ⟨some false, fsm⟩
    | .raised => ⟨none, fsm⟩

def Turn.chunks (turn : Turn) : List Bytes :=
  match turn.poll with
  | .empty _ _ => []
  | .chunk c => if c = [] then [] else [c]

def chunks (turns : List Turn) : List Bytes := turns.flatMap Turn.chunks

/-- The media check comes behind the echo of the probe, and that behind the probe; a tail that was
sent before them does without. -/
structure Orderly (l : Locals) : Prop where
  probed : l.txVerified = true → l.txProbeSent = true
  sent : l.mediaCheckVerified = true → l.mediaCheckSent = true
  verified : l.mediaCheckSent = true → l.txVerified = true
  probing : l.txProbeSent = true → l.tailSent = true → l.txVerified = true
  checking : l.mediaCheckSent = true → l.tailSent = true → l.mediaCheckVerified = true

/-- The tail is on its way, and nothing is left to wait for but a signature. -/
structure Tailing (l : Locals) : Prop where
  tail : l.tailSent = true
  probe : l.txVerified = true
  media : l.mediaCheckVerified = true

theorem Orderly.tailing (h : Orderly l) (htail : l.tailSent = true)
    (hmedia : l.mediaCheckVerified = true) : Tailing l :=
  ⟨htail, h.verified (h.sent hmedia), hmedia⟩

theorem not_shell_of_conclusive : ∀ t ∈ conclusiveTypes, t ∉ shellTypes := by decide

section
variable {l l' : Locals} {m : Moment}

theorem Orderly.checkProbe (h : Orderly l) (m : Moment) : Orderly (checkProbe l m) := by
  obtain ⟨hprobed, hsent, hverified, hprobing, hchecking⟩ := h
  unfold UuuTeziProvisioner.checkProbe
  split
  · constructor
    all_goals simp_all
  · exact ⟨hprobed, hsent, hverified, hprobing, hchecking⟩

theorem Orderly.checkShell (h : Orderly l) (m : Moment) : Orderly (checkShell l m) := by
  obtain ⟨hprobed, hsent, hverified, hprobing, hchecking⟩ := h
  unfold UuuTeziProvisioner.checkShell
  split
  · constructor
    all_goals simp_all
  · exact ⟨hprobed, hsent, hverified, hprobing, hchecking⟩

theorem Orderly.onPrompt (h : Orderly l) (hl : onPrompt l m t = .ok l') : Orderly l' := by
  obtain ⟨hprobed, hsent, hverified, hprobing, hchecking⟩ := h
  unfold UuuTeziProvisioner.onPrompt at hl
  split_ifs at hl
  all_goals
    cases hl
    constructor
    all_goals simp_all

theorem Orderly.onLine (h : Orderly l) (hl : onLine l m line = .ok l') : Orderly l' := by
  obtain ⟨hprobed, hsent, hverified, hprobing, hchecking⟩ := h
  unfold UuuTeziProvisioner.onLine at hl
  dsimp only at hl
  split_ifs at hl
  all_goals
    cases hl
    constructor
    all_goals simp_all

theorem handle_ok {ev : UartEvent} (h : handle l m ev = .ok l') :
    (∀ raw, ev ≠ .panicDetected raw) ∧ (match ev with
      | .promptDetected t => onPrompt (checkShell (checkProbe l m) m) m t
      | .bootDataReceived line => onLine (checkShell (checkProbe l m) m) m line
      | _ => .ok (checkShell (checkProbe l m) m)) = .ok l' := by
  cases ev with
  | panicDetected raw => cases h
  | _ =>
    refine ⟨nofun, ?_⟩
    rw [handle] at h
    · dsimp only at h
      split at h
      · cases h
      · exact h
    · exact nofun

theorem Orderly.handle (h : Orderly l) {ev : UartEvent} (hl : handle l m ev = .ok l') :
    Orderly l' := by
  obtain ⟨-, hev⟩ := handle_ok hl
  have hchecked := (h.checkProbe m).checkShell m
  cases ev with
  | promptDetected t => exact hchecked.onPrompt hev
  | bootDataReceived line => exact hchecked.onLine hev
  | panicDetected raw | autobootWindowDetected | milestoneReached name | idleTick =>
    cases hev
    exact hchecked

theorem handle_conclusive (h : handle l m (.promptDetected t) = .ok l') :
    t ∉ conclusiveTypes := by
  intro ht
  have hshell := not_shell_of_conclusive t ht
  have hev := (handle_ok h).2
  dsimp only at hev
  rw [onPrompt, if_neg hshell, if_pos ht] at hev
  cases hev

def winningTypes : List String := "success_prompt" :: conclusiveTypes

theorem onPrompt_tailing (h : l.tailSent = true) (m : Moment) (t : String) :
    onPrompt l m t = if t ∈ winningTypes then .error .success else .ok l := by
  have hwin : t ∈ winningTypes ↔ t = "success_prompt" ∨ t ∈ conclusiveTypes := List.mem_cons
  by_cases hconclusive : t ∈ conclusiveTypes
  · rw [onPrompt, if_neg (not_shell_of_conclusive t hconclusive), if_pos hconclusive,
      if_pos (hwin.2 (.inr hconclusive))]
  by_cases hprompt : t = "success_prompt"
  · have hshell : "success_prompt" ∉ shellTypes := by decide
    rw [hprompt] at hconclusive hwin
    rw [hprompt, onPrompt, if_neg hshell, if_neg hconclusive, if_pos rfl, h,
      if_pos (hwin.2 (.inl rfl))]
    rfl
  rw [if_neg (mt hwin.1 (not_or.2 ⟨hprompt, hconclusive⟩)), onPrompt, h, if_neg hconclusive,
    if_neg hprompt]
  simp only [Bool.not_true, Bool.false_and, if_neg Bool.false_ne_true, ite_self]

theorem onLine_tailing (h : Tailing l) (m : Moment) (line : String) : onLine l m line = .ok l := by
  rw [onLine, h.probe, h.media, Bool.not_true, Bool.and_false, Bool.and_false]
  rfl

theorem handle_tailing (h : Tailing l) (m : Moment) (ev : UartEvent) :
    handle l m ev = match ev with
      | .panicDetected _ => .error .panicked
      | .promptDetected t => if t ∈ winningTypes then .error .success else .ok l
      | _ => .ok l := by
  have hprobe : checkProbe l m = l := by
    rw [checkProbe, h.probe, Bool.not_true, Bool.and_false]
    rfl
  have hshell : checkShell l m = l := by
    rw [checkShell, h.tail]
    rfl
  have hmedia : (l.mediaCheckSent && !l.mediaCheckVerified &&
      decide (l.mediaCheckDeadline < m.mediaNow)) = false := by
    rw [h.media, Bool.not_true, Bool.and_false]
    rfl
  have hbody (next : Locals → Except Verdict Locals) (e : Verdict) :
      (if (checkProbe l m).mediaCheckSent && !(checkProbe l m).mediaCheckVerified &&
          decide ((checkProbe l m).mediaCheckDeadline < m.mediaNow) then .error e
        else next (checkShell (checkProbe l m) m)) = next l := by
    rw [hprobe, hmedia, if_neg Bool.false_ne_true, hshell]
  cases ev with
  | panicDetected raw => rfl
  | promptDetected t =>
    exact (hbody (onPrompt · m t) _).trans (onPrompt_tailing h.tail m t)
  | bootDataReceived line => exact (hbody (onLine · m line) _).trans (onLine_tailing h m line)
  | autobootWindowDetected | milestoneReached name | idleTick => exact hbody .ok _

theorem handleAll_tailing (h : Tailing l) (moments : ℕ → Moment) {evs : List UartEvent}
    (hcalm : ∀ raw, .panicDetected raw ∉ evs) :
    handleAll l moments evs =
      if ∃ t ∈ promptTypes evs, t ∈ winningTypes then .error .success else .ok l := by
  induction evs generalizing moments with
  | nil => exact (if_neg fun ⟨t, ht, _⟩ => List.not_mem_nil ht).symm
  | cons ev evs ih =>
    have hrest : ∀ raw, .panicDetected raw ∉ evs := fun raw hmem =>
      hcalm raw (List.mem_cons_of_mem _ hmem)
    rw [handleAll, handle_tailing h]
    cases ev with
    | panicDetected raw => exact (hcalm raw (List.mem_cons_self ..)).elim
    | promptDetected t =>
      have hcons : promptTypes (.promptDetected t :: evs) = t :: promptTypes evs := rfl
      rw [hcons]
      dsimp only
      by_cases ht : t ∈ winningTypes
      · rw [if_pos ht, if_pos ⟨t, List.mem_cons_self .., ht⟩]
      · rw [if_neg ht]
        simp only [ih _ hrest, List.exists_mem_cons_iff, ht, false_or]
    | autobootWindowDetected | milestoneReached name | bootDataReceived line | idleTick =>
      exact ih _ hrest

theorem handleAll_ok {moments : ℕ → Moment} {evs : List UartEvent} (ho : Orderly l)
    (h : handleAll l moments evs = .ok l') :
    Orderly l' ∧ (∀ raw, .panicDetected raw ∉ evs) ∧
      ∀ t ∈ promptTypes evs, t ∉ conclusiveTypes := by
  induction evs generalizing l moments with
  | nil =>
    cases h
    exact ⟨ho, fun _ => List.not_mem_nil, fun _ ht => (List.not_mem_nil ht).elim⟩
  | cons ev evs ih =>
    rw [handleAll] at h
    cases hev : handle l (moments 0) ev with
    | error v =>
      rw [hev] at h
      cases h
    | ok l₁ =>
      rw [hev] at h
      obtain ⟨ho', hcalm, hprompts⟩ := ih (ho.handle hev) h
      refine ⟨ho', fun raw hmem => ?_, fun t ht => ?_⟩
      · rcases List.mem_cons.1 hmem with heq | hmem
        · exact (handle_ok hev).1 raw heq.symm
        · exact hcalm raw hmem
      · cases ev with
        | promptDetected t' =>
          rcases List.mem_cons.1 ht with rfl | ht
          · exact handle_conclusive hev
          · exact hprompts t ht
        | _ => exact hprompts t ht

end

section
variable {p : StreamParams} {st : StreamState} {cs : List Bytes} {c : Bytes} {evs : List UartEvent}

theorem detected_feed {buf : List Char} (hbuf : st.localBuf ++ sanitise c = buf)
    (hquiet : panicSearch (encodeUtf8 buf) = false) :
    (st.feed p c).2.detectedPrompts = st.detectedPrompts ++ promptTypes (st.feed p c).1 := by
  rw [StreamState.feed_quiet hbuf hquiet]
  dsimp only
  rw [promptTypes_append, promptTypes_append, promptTypes_lineScan, promptTypes_promptScan,
    List.append_nil]
  split <;> rfl

theorem turn_of_nil {turn : Turn} (h : turn.chunks = []) (p : StreamParams) (st : StreamState) :
    (st.turn p turn.poll).2 = st ∧ ∀ ev ∈ (st.turn p turn.poll).1, ev = .idleTick := by
  rw [Turn.chunks] at h
  cases hpoll : turn.poll with
  | empty pingDue tickDue =>
    refine ⟨rfl, fun ev hev => ?_⟩
    rw [StreamState.turn] at hev
    cases tickDue with
    | false => cases hev
    | true => exact List.mem_singleton.1 hev
  | chunk c =>
    rw [hpoll] at h
    dsimp only at h
    split at h
    · rename_i hc
      rw [StreamState.turn, if_pos hc]
      exact ⟨rfl, fun ev hev => (List.not_mem_nil hev).elim⟩
    · cases h

theorem turn_of_cons {turn : Turn} (h : turn.chunks = c :: rest) :
    rest = [] ∧ ∀ (p : StreamParams) (st : StreamState), st.turn p turn.poll = st.feed p c := by
  rw [Turn.chunks] at h
  cases hpoll : turn.poll with
  | empty pingDue tickDue =>
    rw [hpoll] at h
    cases h
  | chunk d =>
    rw [hpoll] at h
    dsimp only at h
    split at h
    · cases h
    · rename_i hd
      cases h
      exact ⟨rfl, fun p st => if_neg hd⟩

/-- What is known while the loop goes on. -/
structure Known (p : StreamParams) (cs : List Bytes) (s : Locals × StreamState) : Prop where
  heard : ∃ evs, Heard p evs cs s.2
  orderly : Orderly s.1
  unseen : ∀ t ∈ conclusiveTypes, t ∉ s.2.detectedPrompts

theorem advance_ok {s s' : Locals × StreamState} {turn : Turn} (h : advance p s turn = .ok s') :
    handleAll s.1 turn.moments (s.2.turn p turn.poll).1 = .ok s'.1 ∧
      s'.2 = (s.2.turn p turn.poll).2 := by
  rw [advance] at h
  split at h
  · rename_i l hl
    cases h
    exact ⟨hl, rfl⟩
  · cases h

theorem Known.advance {s s' : Locals × StreamState} {turn : Turn} (hk : Known p cs s)
    (h : advance p s turn = .ok s') : Known p (cs ++ turn.chunks) s' := by
  obtain ⟨hall, hst⟩ := advance_ok h
  obtain ⟨evs, hheard⟩ := hk.heard
  obtain ⟨horderly, hcalm, hprompts⟩ := handleAll_ok hk.orderly hall
  cases hchunks : turn.chunks with
  | nil =>
    obtain ⟨hsame, -⟩ := turn_of_nil hchunks p s.2
    rw [hsame] at hst
    rw [List.append_nil]
    exact ⟨⟨evs, hst ▸ hheard⟩, horderly, hst ▸ hk.unseen⟩
  | cons c rest =>
    obtain ⟨rfl, hturn⟩ := turn_of_cons hchunks
    rw [hturn] at hst hcalm hprompts
    have hbuf := hheard.buffer c
    cases hquiet : panicSearch (encodeUtf8 (lastLine (textOf cs) ++ sanitise c)) with
    | true =>
      rw [StreamState.feed_panic hbuf hquiet] at hcalm
      exact (hcalm _ (List.mem_singleton_self _)).elim
    | false =>
      refine ⟨⟨_, hst ▸ hheard.feed hquiet⟩, horderly, fun t ht hmem => ?_⟩
      rw [hst, detected_feed hbuf hquiet] at hmem
      rcases List.mem_append.1 hmem with hmem | hmem
      · exact hk.unseen t ht hmem
      · exact hprompts t hmem ht

theorem Known.listen {s s' : Locals × StreamState} {turns : List Turn} (hk : Known p cs s)
    (h : listen p s turns = .ok s') : Known p (cs ++ chunks turns) s' := by
  induction turns generalizing s cs with
  | nil =>
    cases h
    rw [chunks, List.flatMap_nil, List.append_nil]
    exact hk
  | cons turn turns ih =>
    rw [UuuTeziProvisioner.listen] at h
    cases hadvance : UuuTeziProvisioner.advance p s turn with
    | error v =>
      rw [hadvance] at h
      cases h
    | ok s₁ =>
      rw [hadvance] at h
      rw [chunks, List.flatMap_cons, ← List.append_assoc]
      exact ih (hk.advance hadvance) h

theorem listen_append {s : Locals × StreamState} {pre post : List Turn} {s' : Locals × StreamState}
    (h : listen p s pre = .ok s') : listen p s (pre ++ post) = listen p s' post := by
  induction pre generalizing s with
  | nil =>
    cases h
    rfl
  | cons turn pre ih =>
    rw [listen] at h
    rw [List.cons_append, listen]
    cases hadvance : advance p s turn with
    | error v =>
      rw [hadvance] at h
      cases h
    | ok s₁ =>
      rw [hadvance] at h
      exact ih h

/-- A chunk completes a buffer that shows a winning type not detected before, and no buffer up to
it shows a panic. -/
def Signed (p : StreamParams) (cs : List Bytes) (detected : List String) (a : List Bytes)
    (c : Bytes) : Prop :=
  (∀ buf ∈ buffers [] (cs ++ a ++ [c]), panicSearch (encodeUtf8 buf) = false) ∧
    ∃ t ∈ winningTypes, t ∉ detected ∧ ∃ b, (t, b) ∈ p.prompts ∧
      b <:+: encodeUtf8 (lastLine (textOf (cs ++ a)) ++ sanitise c)

theorem advance_tailing (hheard : Heard p evs cs st) (h : Tailing l) {turn : Turn}
    (hturn : st.turn p turn.poll = st.feed p c)
    (hquiet : panicSearch (encodeUtf8 (lastLine (textOf cs) ++ sanitise c)) = false) :
    advance p (l, st) turn =
      if ∃ t ∈ promptTypes (st.feed p c).1, t ∈ winningTypes then .error .success
      else .ok (l, (st.feed p c).2) := by
  have hfed := hheard.feed hquiet
  have hcalm : ∀ raw, .panicDetected raw ∉ (st.feed p c).1 := fun raw hmem =>
    hfed.not_panicked ⟨raw, List.mem_append_right _ hmem⟩
  rw [advance, hturn, handleAll_tailing h _ hcalm]
  by_cases hwin : ∃ t ∈ promptTypes (st.feed p c).1, t ∈ winningTypes
  · rw [if_pos hwin, if_pos hwin]
  · rw [if_neg hwin, if_neg hwin]

/-- A winning type of this chunk is one that was not detected and that its buffer shows. -/
theorem mem_promptTypes_feed (hheard : Heard p evs cs st)
    (hquiet : panicSearch (encodeUtf8 (lastLine (textOf cs) ++ sanitise c)) = false) {t : String} :
    t ∈ promptTypes (st.feed p c).1 ↔ t ∉ st.detectedPrompts ∧ ∃ b, (t, b) ∈ p.prompts ∧
      b <:+: encodeUtf8 (lastLine (textOf cs) ++ sanitise c) := by
  have hfed := hheard.feed hquiet
  have hbuf := hheard.buffer c
  have hdetected := detected_feed (p := p) hbuf hquiet
  have honce := hfed.told.promptsOnce
  rw [hdetected] at honce
  constructor
  · intro ht
    refine ⟨fun hmem => (List.nodup_append.1 honce).2.2 t hmem t ht rfl, ?_⟩
    obtain ⟨b, hb, hin⟩ := StreamState.feed_prompt (mem_promptTypes.1 ht)
    exact ⟨b, hb, hbuf ▸ hin⟩
  · rintro ⟨hnot, b, hb, hin⟩
    have hmem : t ∈ (st.feed p c).2.detectedPrompts :=
      (hfed.prompts t).2 ⟨b, hb, _, mem_buffers_concat.2 (.inr rfl), hin⟩
    rw [hdetected] at hmem
    exact (List.mem_append.1 hmem).resolve_left hnot

theorem exists_signed_cons (hheard : Heard p evs cs st) (rest : List Bytes)
    (hquiet : panicSearch (encodeUtf8 (lastLine (textOf cs) ++ sanitise c)) = false) :
    (∃ a c' b, c :: rest = a ++ c' :: b ∧ Signed p cs st.detectedPrompts a c') ↔
      (∃ t ∈ promptTypes (st.feed p c).1, t ∈ winningTypes) ∨
        ∃ a c' b, rest = a ++ c' :: b ∧
          Signed p (cs ++ [c]) (st.feed p c).2.detectedPrompts a c' := by
  have hfed := hheard.feed hquiet
  have hbuf := hheard.buffer c
  have hdetected := detected_feed (p := p) hbuf hquiet
  have hsplit (a : List Bytes) : cs ++ c :: a = cs ++ [c] ++ a := by
    rw [List.append_assoc, List.singleton_append]
  constructor
  · rintro ⟨a, c', b, heq, hcalm, t, ht, hnot, bytes, hbytes, hin⟩
    by_cases hnow : ∃ t ∈ promptTypes (st.feed p c).1, t ∈ winningTypes
    · exact .inl hnow
    right
    have hnew : t ∉ promptTypes (st.feed p c).1 := fun hmem => hnow ⟨t, hmem, ht⟩
    cases a with
    | nil =>
      cases heq
      rw [List.append_nil] at hin
      exact (hnew ((mem_promptTypes_feed hheard hquiet).2 ⟨hnot, bytes, hbytes, hin⟩)).elim
    | cons d a =>
      obtain ⟨rfl, hrest⟩ := List.cons.inj heq
      rw [hsplit] at hcalm hin
      refine ⟨a, c', b, hrest, hcalm, t, ht, ?_, bytes, hbytes, hin⟩
      rw [hdetected, List.mem_append, not_or]
      exact ⟨hnot, hnew⟩
  · rintro (⟨t, hmem, ht⟩ | ⟨a, c', b, rfl, hcalm, t, ht, hnot, bytes, hbytes, hin⟩)
    · obtain ⟨hnot, bytes, hbytes, hin⟩ := (mem_promptTypes_feed hheard hquiet).1 hmem
      refine ⟨[], c, rest, rfl, ?_, t, ht, hnot, bytes, hbytes, ?_⟩
      · rw [List.append_nil]
        exact hfed.quiet
      · rwa [List.append_nil]
    · refine ⟨c :: a, c', b, rfl, ?_, t, ht, ?_, bytes, hbytes, ?_⟩
      · rwa [hsplit]
      · rw [hdetected, List.mem_append, not_or] at hnot
        exact hnot.1
      · rwa [hsplit]

theorem not_signed_of_panic
    (hpanic : panicSearch (encodeUtf8 (lastLine (textOf cs) ++ sanitise c)) = true)
    (detected : List String) (rest : List Bytes) :
    ¬ ∃ a c' b, c :: rest = a ++ c' :: b ∧ Signed p cs detected a c' := by
  rintro ⟨a, c', b, heq, hcalm, -⟩
  have hbuffer : lastLine (textOf cs) ++ sanitise c ∈ buffers [] (cs ++ a ++ [c']) := by
    cases a with
    | nil =>
      cases heq
      rw [List.append_nil]
      exact mem_buffers_concat.2 (.inr rfl)
    | cons d a =>
      obtain ⟨rfl, -⟩ := List.cons.inj heq
      refine mem_buffers.2 ⟨cs, c, a ++ [c'], ?_, rfl⟩
      rw [List.append_assoc, List.cons_append]
  rw [hcalm _ hbuffer] at hpanic
  cases hpanic

theorem listen_tailing (hheard : Heard p evs cs st) (h : Tailing l) (turns : List Turn) :
    listen p (l, st) turns = .error .success ↔
      ∃ a c b, chunks turns = a ++ c :: b ∧ Signed p cs st.detectedPrompts a c := by
  induction turns generalizing evs cs st with
  | nil =>
    refine iff_of_false nofun ?_
    rintro ⟨a, c, b, heq, -⟩
    exact absurd heq.symm (List.append_ne_nil_of_right_ne_nil a nofun)
  | cons turn turns ih =>
    rw [listen, chunks, List.flatMap_cons]
    cases hchunks : turn.chunks with
    | nil =>
      obtain ⟨hsame, hidle⟩ := turn_of_nil hchunks p st
      have hcalm : ∀ raw, .panicDetected raw ∉ (st.turn p turn.poll).1 := fun raw hmem =>
        nomatch hidle _ hmem
      have hnone : ¬ ∃ t ∈ promptTypes (st.turn p turn.poll).1, t ∈ winningTypes := by
        rintro ⟨t, ht, -⟩
        cases hidle _ (mem_promptTypes.1 ht)
      rw [advance, handleAll_tailing h _ hcalm, if_neg hnone, hsame]
      exact ih hheard
    | cons c rest =>
      obtain ⟨rfl, hturn⟩ := turn_of_cons hchunks
      rw [List.singleton_append]
      cases hquiet : panicSearch (encodeUtf8 (lastLine (textOf cs) ++ sanitise c)) with
      | true =>
        have hbuf := hheard.buffer c
        rw [advance, hturn, StreamState.feed_panic hbuf hquiet]
        exact iff_of_false nofun (not_signed_of_panic hquiet _ _)
      | false =>
        rw [advance_tailing hheard h (hturn p st) hquiet,
          exists_signed_cons hheard (turns.flatMap Turn.chunks) hquiet]
        by_cases hwin : ∃ t ∈ promptTypes (st.feed p c).1, t ∈ winningTypes
        · rw [if_pos hwin]
          exact iff_of_true rfl (.inl hwin)
        · rw [if_neg hwin, or_iff_right hwin]
          exact ih (hheard.feed hquiet)

end

def conclusiveSignatures : List Bytes :=
  [ascii "Successfully installed", ascii "Restarting system", ascii "login:"]

/-- The media check has succeeded and the tail of the log is on its way. -/
def TailStarted (startedAt : ℚ) (successPrompt : String) (turns : List Turn) : Prop :=
  ∃ l st, listen (params successPrompt) (opening startedAt successPrompt) turns = .ok (l, st) ∧
    l.mediaCheckVerified = true ∧ l.tailSent = true

/-- A chunk behind the tail completes a buffer with a conclusive signature, or with the prompt of
the caller where no buffer before it showed that prompt; and no panic shows up to there. -/
def Recognisable (successPrompt : String) (before after : List Bytes) : Prop :=
  ∃ a c b, after = a ++ c :: b ∧
    (∀ buf ∈ buffers [] (before ++ a ++ [c]), panicSearch (encodeUtf8 buf) = false) ∧
    ((∃ sig ∈ conclusiveSignatures,
        sig <:+: encodeUtf8 (lastLine (textOf (before ++ a)) ++ sanitise c)) ∨
      promptBytes successPrompt <:+: encodeUtf8 (lastLine (textOf (before ++ a)) ++ sanitise c) ∧
        ∀ buf ∈ buffers [] before, ¬ promptBytes successPrompt <:+: encodeUtf8 buf)

/-- In a transcript without panic, the prompt that comes behind the tail is a success. -/
def Recognised (fsm : Option DutState) (startedAt : ℚ) (successPrompt : String)
    (pre post : List Turn) (ending : Ending) : Prop :=
  TailStarted startedAt successPrompt pre →
    panicSearch (encodeUtf8 (sanitise (chunks (pre ++ post)).flatten)) = false →
      promptBytes successPrompt <:+: encodeUtf8 (sanitise (chunks post).flatten) →
        provision fsm startedAt successPrompt (pre ++ post) ending =
          ⟨some true, fsm.map fun _ => .energized⟩

section
variable {successPrompt : String} {cs : List Bytes} {s : Locals × StreamState}

theorem known_opening (startedAt : ℚ) (successPrompt : String) :
    Known (params successPrompt) [] (opening startedAt successPrompt) where
  heard := ⟨[], .start List.nodup_nil⟩
  orderly := ⟨nofun, nofun, nofun, nofun, nofun⟩
  unseen _ _ := List.not_mem_nil

theorem mem_prompts_success {b : Bytes} :
    ("success_prompt", b) ∈ prompts successPrompt ↔ b = promptBytes successPrompt := by
  simp [prompts]

theorem mem_prompts_conclusive {b : Bytes} :
    (∃ t ∈ conclusiveTypes, (t, b) ∈ prompts successPrompt) ↔ b ∈ conclusiveSignatures := by
  simp [prompts, conclusiveTypes, conclusiveSignatures]

theorem Known.new_winning (hk : Known (params successPrompt) cs s) (clean : Bytes) :
    (∃ t ∈ winningTypes, t ∉ s.2.detectedPrompts ∧ ∃ b, (t, b) ∈ (params successPrompt).prompts ∧
        b <:+: clean) ↔
      (∃ sig ∈ conclusiveSignatures, sig <:+: clean) ∨ promptBytes successPrompt <:+: clean ∧
        ∀ buf ∈ buffers [] cs, ¬ promptBytes successPrompt <:+: encodeUtf8 buf := by
  obtain ⟨evs, hheard⟩ := hk.heard
  have hdetected : "success_prompt" ∈ s.2.detectedPrompts ↔
      ∃ buf ∈ buffers [] cs, promptBytes successPrompt <:+: encodeUtf8 buf := by
    rw [hheard.prompts]
    constructor
    · rintro ⟨b, hb, hbuf⟩
      rwa [mem_prompts_success.1 hb] at hbuf
    · exact fun hbuf => ⟨_, mem_prompts_success.2 rfl, hbuf⟩
  constructor
  · rintro ⟨t, ht, hnot, b, hb, hin⟩
    rcases List.mem_cons.1 ht with rfl | ht
    · rw [mem_prompts_success.1 hb] at hin
      exact .inr ⟨hin, fun buf hbuf hshown => hnot (hdetected.2 ⟨buf, hbuf, hshown⟩)⟩
    · exact .inl ⟨b, mem_prompts_conclusive.1 ⟨t, ht, hb⟩, hin⟩
  · rintro (⟨b, hb, hin⟩ | ⟨hin, hnone⟩)
    · obtain ⟨t, ht, hmem⟩ := mem_prompts_conclusive.2 hb
      exact ⟨t, List.mem_cons_of_mem _ ht, hk.unseen t ht, b, hmem, hin⟩
    · refine ⟨"success_prompt", List.mem_cons_self .., fun hmem => ?_, _,
        mem_prompts_success.2 rfl, hin⟩
      obtain ⟨buf, hbuf, hshown⟩ := hdetected.1 hmem
      exact hnone buf hbuf hshown

end

section
variable {startedAt : ℚ} {successPrompt : String} {pre : List Turn}

/-- Behind the tail the loop succeeds exactly if the chunks that follow can be recognised. -/
theorem TailStarted.listen_iff (h : TailStarted startedAt successPrompt pre) (post : List Turn) :
    listen (params successPrompt) (opening startedAt successPrompt) (pre ++ post) =
        .error .success ↔
      Recognisable successPrompt (chunks pre) (chunks post) := by
  obtain ⟨l, st, hpre, hmedia, htail⟩ := h
  have hk := (known_opening startedAt successPrompt).listen hpre
  obtain ⟨evs, hheard⟩ := hk.heard
  rw [List.nil_append] at hk hheard
  rw [listen_append hpre, listen_tailing hheard (hk.orderly.tailing htail hmedia)]
  simp only [Recognisable, Signed, hk.new_winning]

theorem provision_success (fsm : Option DutState) (startedAt : ℚ) (successPrompt : String)
    (turns : List Turn) (ending : Ending) :
    provision fsm startedAt successPrompt turns ending =
        ⟨some true, fsm.map fun _ => .energized⟩ ↔
      listen (params successPrompt) (opening startedAt successPrompt) turns = .error .success := by
  unfold provision
  cases listen (params successPrompt) (opening startedAt successPrompt) turns with
  | ok s =>
    cases ending with
    | timeout | raised => exact iff_of_false nofun nofun
  | error v =>
    cases v with
    | success => exact iff_of_true rfl rfl
    | panicked | provisioningError msg => exact iff_of_false nofun nofun

/-- The signature is recognised exactly if a chunk shows it for the first time. -/
theorem recognised_iff (fsm : Option DutState) (startedAt : ℚ) (successPrompt : String)
    (pre post : List Turn) (ending : Ending) :
    Recognised fsm startedAt successPrompt pre post ending ↔
      (TailStarted startedAt successPrompt pre →
        panicSearch (encodeUtf8 (sanitise (chunks (pre ++ post)).flatten)) = false →
          promptBytes successPrompt <:+: encodeUtf8 (sanitise (chunks post).flatten) →
            Recognisable successPrompt (chunks pre) (chunks post)) := by
  unfold Recognised
  refine forall_congr' fun h => ?_
  rw [provision_success, h.listen_iff]

end

def turnOf (text : String) : Turn :=
  ⟨.chunk (ascii text), fun _ => ⟨0, 0, 0, true, 0⟩⟩

/-- The shell comes with the prompt above it, and answers the probe and the media check. -/
def handshake : List Turn :=
  [turnOf "Flushing buffers...\n~ #", turnOf "__MES_TX_OK__\n", turnOf "__MES_MEDIA_OK__\n"]

/-- A prompt that was passed over before the tail is never reported again. -/
theorem prompt_unrecognised : ¬ Recognised (some .recovery) 0 "Flushing buffers" handshake
    [turnOf "Flushing buffers...\n"] .timeout := by
  intro h
  have hstarted : TailStarted 0 "Flushing buffers" handshake := by
    have htail : (listen (params "Flushing buffers") (opening 0 "Flushing buffers") handshake).map
        (fun s => (s.1.mediaCheckVerified, s.1.tailSent)) = .ok (true, true) := by
      decide +kernel
    cases hs : listen (params "Flushing buffers") (opening 0 "Flushing buffers") handshake with
    | error v =>
      rw [hs] at htail
      cases htail
    | ok s =>
      rw [hs] at htail
      exact ⟨s.1, s.2, hs, congrArg Prod.fst (Except.ok.inj htail),
        congrArg Prod.snd (Except.ok.inj htail)⟩
  have hreport := h hstarted (by decide +kernel) (by decide +kernel)
  have hfalse : provision (some .recovery) 0 "Flushing buffers"
      (handshake ++ [turnOf "Flushing buffers...\n"]) .timeout =
        ⟨some false, some .recovery⟩ := by
    decide +kernel
  rw [hfalse] at hreport
  exact absurd hreport (by decide)

end UuuTeziProvisioner
end MesCore
