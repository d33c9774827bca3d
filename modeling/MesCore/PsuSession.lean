import MesCore.Telemetry
import MesCore.Runs

namespace MesCore
set_option autoImplicit true

namespace DPS150

/-- A byte of the device, and whether it belongs to the answer to the request of `read_state`. -/
abbrev SentByte := Bool × UInt8

/-- Where a `read_state` is. `want` is what a `read` of the port still waits for. -/
inductive Reader
  | idle
  | asked
  | reading (want : Nat) (resp : List SentByte)
  | settling (resp : List SentByte)
  | readingExtra (want : Nat) (resp : List SentByte)
  | done (resp : List SentByte)
  deriving DecidableEq

/-- What a `read_state` has received so far. -/
def Reader.received : Reader → Option (List SentByte)
  | .idle | .asked => none
  | .reading _ resp | .settling resp | .readingExtra _ resp | .done resp => some resp

/-- Where the telemetry thread is. What it has read goes to the callback. -/
inductive Listener
  | idle
  | counting
  | reading (want : Nat)
  deriving DecidableEq

/-- The session: what the device has sent and has not arrived yet, the unread bytes of the port,
and its two readers. -/
structure PsuSession where
  coming : List SentByte
  line : List SentByte
  answered : Bool := false
  reader : Reader := .idle
  listener : Listener := .idle

inductive PsuAct
  | push (p : Packet)
  | answer
  | arrive (n : Nat)
  | ask
  | count
  | read
  | giveUp
  | look
  | listenerCount
  | listenerRead
  | listenerGiveUp

def answerBytes (reply : Packet) : List SentByte := reply.bytes.map (true, ·)

namespace PsuSession
section
variable (reply : Packet) (s : PsuSession)

/-- One step of the device, of `read_state` or of `_telemetry_loop`. A `read` takes what is there,
up to what it wants, and gives up only on an empty port. Only the telemetry thread takes the lock,
so it keeps nobody out. -/
def step : PsuAct → Option PsuSession
  | .push p =>
    if p.register = regAll then none
    else some { s with coming := s.coming ++ p.bytes.map (false, ·) }
  | .answer =>
    if s.answered || s.reader = .idle then none
    else some { s with coming := s.coming ++ answerBytes reply, answered := true }
  | .arrive n => some { s with line := s.line ++ s.coming.take n, coming := s.coming.drop n }
  | .ask =>
    match s.reader with
    | .idle => some { s with reader := .asked }
    | _ => none
  | .count =>
    match s.reader with
    | .asked =>
      some { s with reader := .reading (if s.line.length = 0 then 256 else s.line.length) [] }
    | .settling resp =>
      some { s with
        reader := if s.line.length = 0 then .done resp else .readingExtra s.line.length resp }
    | _ => none
  | .read =>
    if s.line = [] then none
    else match s.reader with
      | .reading want resp =>
        let resp := resp ++ s.line.take want
        some { s with
          line := s.line.drop want
          reader := if want ≤ s.line.length then .settling resp
            else .reading (want - s.line.length) resp }
      | .readingExtra want resp =>
        let resp := resp ++ s.line.take want
        some { s with
          line := s.line.drop want
          reader := if want ≤ s.line.length then .done resp
            else .readingExtra (want - s.line.length) resp }
      | _ => none
  | .giveUp =>
    if s.line ≠ [] then none
    else match s.reader with
      | .reading _ resp => some { s with reader := .settling resp }
      | .readingExtra _ resp => some { s with reader := .done resp }
      | _ => none
  | .look =>
    match s.listener with
    | .idle => if s.line = [] then some s else some { s with listener := .counting }
    | _ => none
  | .listenerCount =>
    match s.listener with
    | .counting =>
      some { s with listener := if s.line.length = 0 then .idle else .reading s.line.length }
    | _ => none
  | .listenerRead =>
    match s.listener with
    | .reading want =>
      if s.line = [] then none
      else some { s with
        line := s.line.drop want
        listener := if want ≤ s.line.length then .idle else .reading (want - s.line.length) }
    | _ => none
  | .listenerGiveUp =>
    match s.listener with
    | .reading _ => if s.line = [] then some { s with listener := .idle } else none
    | _ => none

end
end PsuSession

/-- `state[field] if state else 0.0`, where zero has the bits of 0.0. -/
def measured (field : State → UInt32) (resp : Bytes) : Except BufferError UInt32 := do
  let state ← stateOf resp
  pure ((state.map field).getD 0)

/-- `measure_current`, from the bytes its `read_state` received. -/
def measureCurrent (resp : Bytes) : Except BufferError UInt32 := measured State.outputCurrent resp

def measureVoltage (resp : Bytes) : Except BufferError UInt32 := measured State.outputVoltage resp

/-- Whole packets that the device pushed on its own, none of them a full state. -/
structure Ahead (l : List SentByte) : Prop where
  pushed : ∀ b ∈ l, b.1 = false
  tidy : packetFormat.Tidy (l.map Prod.snd)
  other : ∀ pkt ∈ packetFormat.cut (l.map Prod.snd), pkt[2]? ≠ some regAll

/-- The answer stands in these bytes, behind nothing but whole packets. -/
def Answered (reply : Packet) (l : List SentByte) : Prop :=
  ∃ before behind, l = before ++ (answerBytes reply ++ behind) ∧ Ahead before

namespace PsuSession

/-- The device answers within the wait time: all of its answer has arrived when the bytes are
first counted. -/
def InTime (s : PsuSession) : PsuAct → Prop
  | .count => s.reader = .asked → s.answered = true ∧ ∀ b ∈ s.coming, b.1 = false
  | _ => True

/-- `read_state` has not received anything yet. -/
def Waiting (s : PsuSession) : Prop := s.reader = .asked ∨ ∃ want, s.reader = .reading want []

/-- A call starts in front of whole packets, and while it waits the telemetry thread takes whole
packets only, and none of the answer. -/
def Undisturbed (s : PsuSession) : PsuAct → Prop
  | .ask => Ahead (s.line ++ s.coming)
  | .listenerRead => s.Waiting → ∀ want, s.listener = .reading want →
    (∀ b ∈ s.line.take want, b.1 = false) ∧ packetFormat.Tidy ((s.line.take want).map Prod.snd)
  | _ => True

/-- What an undisturbed session keeps: the answer stands behind whole packets in the bytes ahead of
the call, then in those it wants, then in those it has. -/
inductive Kept (reply : Packet) (s : PsuSession) : Prop
  | idle (hr : s.reader = .idle) (hno : s.answered = false)
  | asked (hr : s.reader = .asked) (hno : s.answered = false) (h : Ahead (s.line ++ s.coming))
  | answered (hr : s.reader = .asked) (hyes : s.answered = true)
      (h : Answered reply (s.line ++ s.coming))
  | wanted (hr : s.reader = .reading want []) (hyes : s.answered = true)
      (h : Answered reply (s.line.take want))
  | received (hr : s.reader.received = some resp) (hyes : s.answered = true)
      (h : Answered reply resp)

end PsuSession

section
variable {reply p : Packet} {l m taken : List SentByte} {s s' : PsuSession} {n want : Nat}

theorem Ahead.push (h : Ahead l) (hp : p.register ≠ regAll) :
    Ahead (l ++ p.bytes.map (false, ·)) := by
  have hbytes : (p.bytes.map (false, ·)).map Prod.snd = p.bytes := by
    rw [List.map_map]
    exact List.map_id _
  refine ⟨?_, ?_, ?_⟩
  · intro b hb
    rcases List.mem_append.1 hb with hb | hb
    · exact h.pushed b hb
    · obtain ⟨x, -, rfl⟩ := List.mem_map.1 hb
      rfl
  · rw [List.map_append, hbytes]
    exact h.tidy.append p.whole.tidy
  · rw [List.map_append, hbytes, h.tidy.cut_append]
    intro pkt hpkt
    rcases List.mem_append.1 hpkt with hpkt | hpkt
    · exact h.other pkt hpkt
    · have hone := p.whole.cut_append []
      rw [List.append_nil, RecordFormat.cut_nil] at hone
      rw [hone] at hpkt
      rw [List.mem_singleton.1 hpkt, p.register_bytes]
      exact fun heq => hp (Option.some.inj heq)

theorem Ahead.of_append (h : Ahead (taken ++ l)) (ht : packetFormat.Tidy (taken.map Prod.snd)) :
    Ahead l := by
  have hcut := ht.cut_append (l.map Prod.snd)
  have htidy := h.tidy
  have hother := h.other
  rw [List.map_append] at htidy hother
  refine ⟨fun b hb => h.pushed b (List.mem_append_right _ hb), ht.of_append htidy, ?_⟩
  intro pkt hpkt
  apply hother
  rw [hcut]
  exact List.mem_append_right _ hpkt

theorem map_answerBytes (reply : Packet) : (answerBytes reply).map Prod.snd = reply.bytes := by
  rw [answerBytes, List.map_map]
  exact List.map_id _

theorem answerBytes_cons (reply : Packet) : ∃ b rest, answerBytes reply = (true, b) :: rest := by
  rw [answerBytes, reply.bytes_eq]
  exact ⟨_, _, rfl⟩

/-- Whole packets without a byte of the answer are taken from in front of it. -/
theorem Answered.of_append (h : Answered reply (taken ++ l)) (hpushed : ∀ b ∈ taken, b.1 = false)
    (ht : packetFormat.Tidy (taken.map Prod.snd)) : Answered reply l := by
  obtain ⟨before, behind, heq, hbefore⟩ := h
  rcases List.append_eq_append_iff.1 heq with ⟨more, hmore, hl⟩ | ⟨more, htaken, hmore⟩
  · rw [hmore] at hbefore
    exact ⟨more, behind, hl, hbefore.of_append ht⟩
  · cases more with
    | nil =>
      rw [List.append_nil] at htaken
      exact ⟨[], behind, hmore.symm, by simp, rfl, by simp [RecordFormat.cut_nil]⟩
    | cons x more =>
      obtain ⟨b, rest, hanswer⟩ := answerBytes_cons reply
      rw [hanswer, List.cons_append, List.cons_append] at hmore
      have hx := hpushed x (htaken ▸ List.mem_append_right _ (List.mem_cons_self ..))
      rw [← (List.cons.inj hmore).1] at hx
      cases hx

theorem Answered.append (h : Answered reply l) (m : List SentByte) : Answered reply (l ++ m) := by
  obtain ⟨before, behind, rfl, hbefore⟩ := h
  exact ⟨before, behind ++ m, by simp only [List.append_assoc], hbefore⟩

theorem Answered.ne_nil (h : Answered reply l) : l ≠ [] := by
  rintro rfl
  obtain ⟨before, behind, heq, -⟩ := h
  obtain ⟨b, rest, hanswer⟩ := answerBytes_cons reply
  rw [hanswer] at heq
  simp at heq

theorem answerBytes_concat (reply : Packet) :
    ∃ front b, answerBytes reply = front ++ [(true, b)] := by
  rcases List.eq_nil_or_concat (answerBytes reply) with hnil | ⟨front, x, hfront⟩
  · obtain ⟨b, rest, hanswer⟩ := answerBytes_cons reply
    rw [hnil] at hanswer
    cases hanswer
  · rw [List.concat_eq_append] at hfront
    have hx : x ∈ answerBytes reply := hfront ▸ List.mem_append_right _ (List.mem_singleton_self x)
    obtain ⟨b, -, rfl⟩ := List.mem_map.1 hx
    exact ⟨front, b, hfront⟩

/-- Where the bytes behind hold nothing of the answer, the bytes in front hold all of it. -/
theorem Answered.of_front (h : Answered reply (l ++ m)) (hm : ∀ b ∈ m, b.1 = false) :
    Answered reply l := by
  obtain ⟨before, behind, heq, hbefore⟩ := h
  rw [← List.append_assoc] at heq
  rcases List.append_eq_append_iff.1 heq with ⟨more, hmore, hm'⟩ | ⟨more, hl, -⟩
  · rcases List.eq_nil_or_concat more with rfl | ⟨more', x, hx⟩
    · rw [List.append_nil] at hmore
      exact ⟨before, [], by rw [List.append_nil, hmore], hbefore⟩
    · -- the last byte of the answer would stand among the bytes behind
      obtain ⟨front, b, hanswer⟩ := answerBytes_concat reply
      rw [List.concat_eq_append] at hx
      rw [hanswer, hx, ← List.append_assoc, ← List.append_assoc] at hmore
      have hlast := (List.append_inj' hmore rfl).2
      have hmem : x ∈ m := by
        rw [hm', hx]
        exact List.mem_append_left _ (List.mem_append_right _ (List.mem_singleton_self x))
      have htag := hm x hmem
      rw [← (List.cons.inj hlast).1] at htag
      cases htag
  · exact ⟨before, more, by rw [hl, List.append_assoc], hbefore⟩

/-- Behind whole packets of other registers the answer is the response that is found. -/
theorem Answered.found (h : Answered reply l) (hreg : reply.register = regAll) :
    findResponse (l.map Prod.snd) regAll = some reply.bytes := by
  obtain ⟨before, behind, rfl, hbefore⟩ := h
  rw [List.map_append, List.map_append, map_answerBytes, findResponse, parseResponses_eq,
    hbefore.tidy.cut_append, reply.whole.cut_append, List.find?_append]
  have hnone : (packetFormat.cut (before.map Prod.snd)).find?
      (fun pkt => 5 ≤ pkt.length && pkt[2]? = some regAll) = none := by
    rw [List.find?_eq_none]
    intro pkt hpkt hmatch
    rw [Bool.and_eq_true, decide_eq_true_eq, decide_eq_true_eq] at hmatch
    exact hbefore.other pkt hpkt hmatch.2
  have hlen : 5 ≤ reply.bytes.length := by
    rw [reply.length_bytes]
    exact Nat.le_add_right _ _
  rw [hnone, Option.none_or, List.find?_cons_of_pos]
  rw [Bool.and_eq_true, decide_eq_true_eq, decide_eq_true_eq, reply.register_bytes, hreg]
  exact ⟨hlen, rfl⟩

theorem stateOf_found {resp pkt : Bytes} (h : findResponse resp regAll = some pkt)
    (h' : findResponse pkt regAll = some pkt) : stateOf resp = stateOf pkt := by
  rw [stateOf, stateOf, h, h']

theorem Answered.state (h : Answered reply l) (hreg : reply.register = regAll) :
    stateOf (l.map Prod.snd) = stateOf reply.bytes := by
  have hself : Answered reply (answerBytes reply) :=
    ⟨[], [], (List.append_nil _).symm, by simp, rfl, by simp [RecordFormat.cut_nil]⟩
  have hfound := hself.found hreg
  rw [map_answerBytes] at hfound
  exact stateOf_found (h.found hreg) hfound

theorem Answered.marked (h : Answered reply l) : ∃ b ∈ l, b.1 = true := by
  obtain ⟨before, behind, rfl, -⟩ := h
  obtain ⟨b, rest, hanswer⟩ := answerBytes_cons reply
  refine ⟨(true, b), List.mem_append_right _ (List.mem_append_left _ ?_), rfl⟩
  rw [hanswer]
  exact List.mem_cons_self ..

namespace PsuSession

theorem Kept.of_eq (h : s.Kept reply) (hreader : s'.reader = s.reader)
    (hanswered : s'.answered = s.answered) (hline : s'.line = s.line)
    (hcoming : s'.coming = s.coming) : s'.Kept reply := by
  cases h with
  | idle hr hno => exact .idle (hreader.trans hr) (hanswered.trans hno)
  | asked hr hno h =>
    exact .asked (hreader.trans hr) (hanswered.trans hno) (by rwa [hline, hcoming])
  | answered hr hyes h =>
    exact .answered (hreader.trans hr) (hanswered.trans hyes) (by rwa [hline, hcoming])
  | wanted hr hyes h =>
    exact .wanted (hreader.trans hr) (hanswered.trans hyes) (by rwa [hline])
  | received hr hyes h => exact .received (by rwa [hreader]) (hanswered.trans hyes) h

theorem Kept.push (h : s.Kept reply) (hs : s.step reply (.push p) = some s') : s'.Kept reply := by
  rw [step] at hs
  split at hs
  · cases hs
  · rename_i hp
    cases hs
    cases h with
    | idle hr hno => exact .idle hr hno
    | asked hr hno h =>
      refine .asked hr hno ?_
      rw [← List.append_assoc]
      exact h.push hp
    | answered hr hyes h =>
      refine .answered hr hyes ?_
      rw [← List.append_assoc]
      exact h.append _
    | wanted hr hyes h => exact .wanted hr hyes h
    | received hr hyes h => exact .received hr hyes h

theorem Kept.answer (h : s.Kept reply) (hs : s.step reply .answer = some s') : s'.Kept reply := by
  rw [step] at hs
  split at hs
  · cases hs
  · rename_i hopen
    rw [Bool.or_eq_true, not_or, Bool.not_eq_true, decide_eq_true_eq] at hopen
    cases hs
    cases h with
    | idle hr hno => exact absurd hr hopen.2
    | asked hr hno h =>
      refine .answered hr rfl ⟨s.line ++ s.coming, [], ?_, h⟩
      rw [List.append_nil, List.append_assoc]
    | answered hr hyes h => rw [hyes] at hopen; cases hopen.1
    | wanted hr hyes h => rw [hyes] at hopen; cases hopen.1
    | received hr hyes h => rw [hyes] at hopen; cases hopen.1

theorem Kept.arrive (h : s.Kept reply) (hs : s.step reply (.arrive n) = some s') :
    s'.Kept reply := by
  have hahead : s.line ++ s.coming.take n ++ s.coming.drop n = s.line ++ s.coming := by
    rw [List.append_assoc, List.take_append_drop]
  cases hs
  cases h with
  | idle hr hno => exact .idle hr hno
  | asked hr hno h => exact .asked hr hno (by rwa [hahead])
  | answered hr hyes h => exact .answered hr hyes (by rwa [hahead])
  | wanted hr hyes h =>
    refine .wanted hr hyes ?_
    rw [List.take_append]
    exact h.append _
  | received hr hyes h => exact .received hr hyes h

theorem Kept.of_idle (h : s.Kept reply) (hidle : s.reader = .idle) : s.answered = false := by
  cases h with
  | idle hr hno => exact hno
  | asked hr hno => exact hno
  | answered hr => rw [hidle] at hr; cases hr
  | wanted hr => rw [hidle] at hr; cases hr
  | received hr => rw [hidle] at hr; cases hr

theorem Kept.of_asked (h : s.Kept reply) (hasked : s.reader = .asked) (hyes : s.answered = true) :
    Answered reply (s.line ++ s.coming) := by
  cases h with
  | idle hr => rw [hasked] at hr; cases hr
  | asked hr hno => rw [hyes] at hno; cases hno
  | answered hr hyes h => exact h
  | wanted hr => rw [hasked] at hr; cases hr
  | received hr => rw [hasked] at hr; cases hr

theorem Kept.of_received {resp : List SentByte} (h : s.Kept reply)
    (hresp : s.reader.received = some resp) :
    s.answered = true ∧ (Answered reply resp ∨
      ∃ want, s.reader = .reading want [] ∧ Answered reply (s.line.take want)) := by
  cases h with
  | idle hr => rw [hr] at hresp; cases hresp
  | asked hr => rw [hr] at hresp; cases hresp
  | answered hr => rw [hr] at hresp; cases hresp
  | wanted hr hyes h => exact ⟨hyes, .inr ⟨_, hr, h⟩⟩
  | received hr hyes h =>
    rw [hr] at hresp
    cases hresp
    exact ⟨hyes, .inl h⟩

theorem Kept.ask (h : s.Kept reply) (hahead : Ahead (s.line ++ s.coming))
    (hs : s.step reply .ask = some s') : s'.Kept reply := by
  rw [step] at hs
  split at hs
  · rename_i hidle
    cases hs
    exact .asked rfl (h.of_idle hidle) hahead
  · cases hs

theorem Kept.count (h : s.Kept reply) (htime : s.InTime .count)
    (hs : s.step reply .count = some s') : s'.Kept reply := by
  rw [step] at hs
  split at hs
  · rename_i hasked
    obtain ⟨hyes, hcoming⟩ := htime hasked
    cases hs
    have hline := (h.of_asked hasked hyes).of_front hcoming
    have hlen : s.line.length ≠ 0 := fun h0 => hline.ne_nil (List.eq_nil_of_length_eq_zero h0)
    rw [if_neg hlen]
    refine .wanted rfl hyes ?_
    rwa [List.take_length]
  · rename_i resp hsettling
    have hreceived : s.reader.received = some resp := congrArg Reader.received hsettling
    obtain ⟨hyes, hresp | ⟨want, hr, -⟩⟩ := h.of_received hreceived
    · cases hs
      refine .received ?_ hyes hresp
      dsimp only
      split <;> rfl
    · rw [hsettling] at hr
      cases hr
  · cases hs

theorem Kept.read (h : s.Kept reply) (hs : s.step reply .read = some s') : s'.Kept reply := by
  rw [step] at hs
  split at hs
  · cases hs
  · split at hs
    · rename_i want resp hreading
      have hreceived : s.reader.received = some resp := congrArg Reader.received hreading
      have hanswered : s.answered = true ∧ Answered reply (resp ++ s.line.take want) := by
        obtain ⟨hyes, hresp | ⟨want', hr, hline⟩⟩ := h.of_received hreceived
        · exact ⟨hyes, hresp.append _⟩
        · rw [hreading] at hr
          cases hr
          exact ⟨hyes, hline⟩
      cases hs
      refine .received ?_ hanswered.1 hanswered.2
      dsimp only
      split <;> rfl
    · rename_i want resp hreading
      have hreceived : s.reader.received = some resp := congrArg Reader.received hreading
      obtain ⟨hyes, hresp | ⟨want', hr, -⟩⟩ := h.of_received hreceived
      · cases hs
        refine .received ?_ hyes (hresp.append (s.line.take want))
        dsimp only
        split <;> rfl
      · rw [hreading] at hr
        cases hr
    · cases hs

theorem Kept.giveUp (h : s.Kept reply) (hs : s.step reply .giveUp = some s') : s'.Kept reply := by
  rw [step] at hs
  split at hs
  · cases hs
  · rename_i hempty
    rw [not_not] at hempty
    have hkept {resp : List SentByte} (hresp : s.reader.received = some resp) :
        s.answered = true ∧ Answered reply resp := by
      obtain ⟨hyes, hresp | ⟨want, -, hline⟩⟩ := h.of_received hresp
      · exact ⟨hyes, hresp⟩
      · exact absurd (by rw [hempty, List.take_nil]) hline.ne_nil
    split at hs
    · rename_i want resp hreading
      have hreceived : s.reader.received = some resp := congrArg Reader.received hreading
      obtain ⟨hyes, hresp⟩ := hkept hreceived
      cases hs
      exact .received rfl hyes hresp
    · rename_i want resp hreading
      have hreceived : s.reader.received = some resp := congrArg Reader.received hreading
      obtain ⟨hyes, hresp⟩ := hkept hreceived
      cases hs
      exact .received rfl hyes hresp
    · cases hs

theorem Kept.listenerRead (h : s.Kept reply) (hfree : s.Undisturbed .listenerRead)
    (hs : s.step reply .listenerRead = some s') : s'.Kept reply := by
  rw [step] at hs
  split at hs
  · rename_i want hlistener
    split at hs
    · cases hs
    · have hsplit : s.line.take want ++ s.line.drop want = s.line := List.take_append_drop _ _
      cases hs
      cases h with
      | idle hr hno => exact .idle hr hno
      | asked hr hno h =>
        obtain ⟨-, htidy⟩ := hfree (.inl hr) want hlistener
        rw [← hsplit, List.append_assoc] at h
        exact .asked hr hno (h.of_append htidy)
      | answered hr hyes h =>
        obtain ⟨hpushed, htidy⟩ := hfree (.inl hr) want hlistener
        rw [← hsplit, List.append_assoc] at h
        exact .answered hr hyes (h.of_append hpushed htidy)
      | wanted hr hyes h =>
        obtain ⟨hpushed, htidy⟩ := hfree (.inr ⟨_, hr⟩) want hlistener
        refine .wanted hr hyes ?_
        rename_i wanted
        by_cases hle : (s.line.take want).length ≤ wanted
        · rw [← hsplit, List.take_append, List.take_of_length_le hle] at h
          have hrest := h.of_append hpushed htidy
          obtain ⟨more, hmore⟩ : (s.line.drop want).take (wanted - (s.line.take want).length) <+:
              (s.line.drop want).take wanted := List.take_prefix_take_left (Nat.sub_le _ _)
          rw [← hmore]
          exact hrest.append more
        · -- more was taken than is wanted, so the answer would be among it
          obtain ⟨b, hb, hmark⟩ := h.marked
          have hmem : b ∈ s.line.take want := by
            rw [← hsplit, List.take_append_of_le_length (by omega)] at hb
            exact List.mem_of_mem_take hb
          rw [hpushed b hmem] at hmark
          cases hmark
      | received hr hyes h => exact .received hr hyes h
  · cases hs

theorem Kept.step {a : PsuAct} (h : s.Kept reply) (ha : s.InTime a ∧ s.Undisturbed a)
    (hs : s.step reply a = some s') : s'.Kept reply := by
  cases a with
  | push p => exact h.push hs
  | answer => exact h.answer hs
  | arrive n => exact h.arrive hs
  | ask => exact h.ask ha.2 hs
  | count => exact h.count ha.1 hs
  | read => exact h.read hs
  | giveUp => exact h.giveUp hs
  | listenerRead => exact h.listenerRead ha.2 hs
  | look =>
    rw [PsuSession.step] at hs
    split at hs
    · split at hs
      · cases hs
        exact h
      · cases hs
        exact h.of_eq rfl rfl rfl rfl
    · cases hs
  | listenerCount =>
    rw [PsuSession.step] at hs
    split at hs
    · cases hs
      exact h.of_eq rfl rfl rfl rfl
    · cases hs
  | listenerGiveUp =>
    rw [PsuSession.step] at hs
    split at hs
    · split at hs
      · cases hs
        exact h.of_eq rfl rfl rfl rfl
      · cases hs
    · cases hs

end PsuSession

end

/-- In every undisturbed run a `read_state` that is answered in time returns the state of the
answer, and what is measured is measured from it. -/
theorem readState_answered {reply : Packet} {st : State} (hreg : reply.register = regAll)
    (hst : stateOf reply.bytes = .ok (some st)) {s s' : PsuSession} {acts : List PsuAct}
    (hidle : s.reader = .idle) (hno : s.answered = false)
    (hrun : Run (PsuSession.step reply) (fun s a => s.InTime a ∧ s.Undisturbed a) s acts s')
    {resp : List SentByte} (hdone : s'.reader = .done resp) :
    stateOf (resp.map Prod.snd) = .ok (some st) ∧
      measureCurrent (resp.map Prod.snd) = .ok st.outputCurrent ∧
      measureVoltage (resp.map Prod.snd) = .ok st.outputVoltage := by
  have hkept : s'.Kept reply :=
    hrun.invariant (PsuSession.Kept reply) (fun h ha hs => h.step ha hs) (.idle hidle hno)
  have hreceived : s'.reader.received = some resp := congrArg Reader.received hdone
  obtain ⟨-, hresp | ⟨want, hr, -⟩⟩ := hkept.of_received hreceived
  · have hstate := (hresp.state hreg).trans hst
    refine ⟨hstate, ?_, ?_⟩
    · rw [measureCurrent, measured, hstate]
      rfl
    · rw [measureVoltage, measured, hstate]
      rfl
  · rw [hdone] at hr
    cases hr

/-- A full state of an energised output: one ampere, everything else zero. -/
def fullState : Packet where
  header := headerRx
  command := cmdRead
  register := regAll
  data := List.replicate 16 0 ++ [0x00, 0x00, 0x80, 0x3F] ++ List.replicate 119 0
  short := by simp

theorem fullState_state : ∃ st, stateOf fullState.bytes = .ok (some st) ∧
    st.outputCurrent = 0x3F800000 := by
  have hcurrent : ((stateOf fullState.bytes).toOption.join.map State.outputCurrent) =
      some 0x3F800000 := by decide +kernel
  obtain ⟨st, hst, hamps⟩ := Option.map_eq_some_iff.1 hcurrent
  refine ⟨st, ?_, hamps⟩
  cases h : stateOf fullState.bytes with
  | error e =>
    rw [h] at hst
    cases hst
  | ok o =>
    rw [h] at hst
    exact congrArg Except.ok hst

def answeredActs (reply : Packet) : List PsuAct :=
  [.ask, .answer, .arrive (answerBytes reply).length, .count, .read, .count]

theorem answeredActs_run (reply : Packet) : Run (PsuSession.step reply)
    (fun s a => s.InTime a ∧ s.Undisturbed a) ⟨[], [], false, .idle, .idle⟩ (answeredActs reply)
    ⟨[], [], true, .done (answerBytes reply), .idle⟩ := by
  obtain ⟨b, rest, hanswer⟩ := answerBytes_cons reply
  generalize hbytes : answerBytes reply = bytes at hanswer
  have hne : bytes ≠ [] := by simp [hanswer]
  have hahead : Ahead [] := ⟨by simp, rfl, by simp [RecordFormat.cut_nil]⟩
  rw [answeredActs, hbytes]
  let idle : PsuSession := ⟨[], [], false, .idle, .idle⟩
  let asked : PsuSession := ⟨[], [], false, .asked, .idle⟩
  let sent : PsuSession := ⟨bytes, [], true, .asked, .idle⟩
  let arrived : PsuSession := ⟨[], bytes, true, .asked, .idle⟩
  let reading : PsuSession := ⟨[], bytes, true, .reading bytes.length [], .idle⟩
  let settling : PsuSession := ⟨[], [], true, .settling bytes, .idle⟩
  have hask : idle.step reply .ask = some asked := rfl
  have hanswered : asked.step reply .answer = some sent := by
    simp [PsuSession.step, hbytes, asked, sent]
  have harrive : sent.step reply (.arrive bytes.length) = some arrived := by
    simp [PsuSession.step, sent, arrived]
  have hcount : arrived.step reply .count = some reading := by
    simp [PsuSession.step, hne, arrived, reading]
  have hread : reading.step reply .read = some settling := by
    simp [PsuSession.step, hne, reading, settling]
  have hlast : settling.step reply .count = some ⟨[], [], true, .done bytes, .idle⟩ := rfl
  have htime : arrived.InTime .count := fun _ => ⟨rfl, by simp [arrived]⟩
  have htime' : settling.InTime .count := fun h => by simp [settling] at h
  exact .cons ⟨trivial, hahead⟩ hask (.cons ⟨trivial, trivial⟩ hanswered
    (.cons ⟨trivial, trivial⟩ harrive (.cons ⟨htime, trivial⟩ hcount
      (.cons ⟨trivial, trivial⟩ hread (.cons ⟨htime', trivial⟩ hlast (.nil _))))))

theorem readState_undisturbed : ∃ st, stateOf ((answerBytes fullState).map Prod.snd) =
    .ok (some st) ∧ measureCurrent ((answerBytes fullState).map Prod.snd) = .ok 0x3F800000 := by
  obtain ⟨st, hst, hcurrent⟩ := fullState_state
  have h := readState_answered rfl hst rfl rfl (answeredActs_run fullState) rfl
  exact ⟨st, h.1, by rw [h.2.1, hcurrent]⟩

/-- The telemetry thread reads the answer away, whatever it is. -/
def stolenActs (reply : Packet) : List PsuAct :=
  [.ask, .answer, .arrive (answerBytes reply).length, .look, .listenerCount, .listenerRead, .count,
    .giveUp, .count]

theorem stolenActs_run (reply : Packet) : Run (PsuSession.step reply) PsuSession.InTime
    ⟨[], [], false, .idle, .idle⟩ (stolenActs reply) ⟨[], [], true, .done [], .idle⟩ := by
  obtain ⟨b, rest, hanswer⟩ := answerBytes_cons reply
  generalize hbytes : answerBytes reply = bytes at hanswer
  have hne : bytes ≠ [] := by simp [hanswer]
  rw [stolenActs, hbytes]
  let idle : PsuSession := ⟨[], [], false, .idle, .idle⟩
  let asked : PsuSession := ⟨[], [], false, .asked, .idle⟩
  let sent : PsuSession := ⟨bytes, [], true, .asked, .idle⟩
  let arrived : PsuSession := ⟨[], bytes, true, .asked, .idle⟩
  let counting : PsuSession := ⟨[], bytes, true, .asked, .counting⟩
  let listening : PsuSession := ⟨[], bytes, true, .asked, .reading bytes.length⟩
  let robbed : PsuSession := ⟨[], [], true, .asked, .idle⟩
  let reading : PsuSession := ⟨[], [], true, .reading 256 [], .idle⟩
  let settling : PsuSession := ⟨[], [], true, .settling [], .idle⟩
  have hask : idle.step reply .ask = some asked := rfl
  have hanswered : asked.step reply .answer = some sent := by
    simp [PsuSession.step, hbytes, asked, sent]
  have harrive : sent.step reply (.arrive bytes.length) = some arrived := by
    simp [PsuSession.step, sent, arrived]
  have hlook : arrived.step reply .look = some counting := by
    simp [PsuSession.step, hne, arrived, counting]
  have hcounted : counting.step reply .listenerCount = some listening := by
    simp [PsuSession.step, hne, counting, listening]
  have hrobbed : listening.step reply .listenerRead = some robbed := by
    simp [PsuSession.step, hne, listening, robbed]
  have hcount : robbed.step reply .count = some reading := rfl
  have hgiveUp : reading.step reply .giveUp = some settling := rfl
  have hlast : settling.step reply .count = some ⟨[], [], true, .done [], .idle⟩ := rfl
  have htime : robbed.InTime .count := fun _ => ⟨rfl, by simp [robbed]⟩
  have htime' : settling.InTime .count := fun h => by simp [settling] at h
  exact .cons trivial hask (.cons trivial hanswered (.cons trivial harrive (.cons trivial hlook
    (.cons trivial hcounted (.cons trivial hrobbed (.cons htime hcount (.cons trivial hgiveUp
      (.cons htime' hlast (.nil _)))))))))

/-- An energised output that is answered for in time is reported to draw nothing. -/
theorem readState_stolen :
    (¬ ∀ (reply : Packet) (st : State) (s s' : PsuSession) (acts : List PsuAct)
      (resp : List SentByte), reply.register = regAll → stateOf reply.bytes = .ok (some st) →
        s.reader = .idle → s.answered = false →
          Run (PsuSession.step reply) PsuSession.InTime s acts s' →
          s'.reader = .done resp → stateOf (resp.map Prod.snd) = .ok (some st)) ∧
      measureCurrent [] = .ok 0 := by
  refine ⟨?_, rfl⟩
  intro h
  obtain ⟨st, hst, -⟩ := fullState_state
  have hnone := h fullState st _ _ _ [] rfl hst rfl rfl (stolenActs_run fullState) rfl
  cases hnone

end DPS150

end MesCore
