import MesCore.McuRpc

namespace MesCore
set_option autoImplicit true
open McuRpcClient

/-- A byte on the link, and the number of the request whose reply it belongs to. -/
abbrev ReplyByte := Nat × UInt8

/-- A `_call_raw`: its number, its arguments, what its reads have returned, and whether the clock
has passed the timeout when it leaves its loop. -/
structure RpcCall where
  id : Nat
  methodId : Nat
  payload : Bytes
  reads : List (Option ReplyByte) := []
  late : Bool := false

/-- The client and the link to the MCU. A request is answered at most once, at any time after it
was sent, also when its call has returned. -/
structure RpcLink where
  requests : Nat := 0
  awaited : List Nat := []
  replies : List (Nat × Bytes) := []
  link : List ReplyByte := []
  current : Option RpcCall := none
  returned : List RpcCall := []

inductive RpcAct
  | call (methodId : Nat) (payload : Bytes)
  | reply (id : Nat) (bytes : Bytes)
  | read (ready late : Bool)
  | timeUp

namespace RpcCall
section
variable (c : RpcCall)

def taken : List ReplyByte := c.reads.reduceOption

def rx : List (Option UInt8) := c.reads.map (Option.map Prod.snd)

def value : Except StructError (Option Bytes) := callRaw c.methodId c.payload c.rx c.late

def invoked (fromBytes : Bytes → Option R) : Except StructError (Option R) :=
  invoke c.methodId c.payload fromBytes c.rx c.late

end
end RpcCall

namespace RpcLink
section
variable (s : RpcLink)

/-- A read of the call in progress: the next byte, if there is one and it is ready. The loop is
left at a delimiter. -/
def read (c : RpcCall) (ready late : Bool) : RpcLink :=
  match ready, s.link with
  | true, b :: link =>
    let c := { c with reads := c.reads ++ [some b] }
    if (receive [] c.rx).isSome then
      { s with link := link, current := none, returned := s.returned ++ [{ c with late := late }] }
    else { s with link := link, current := some c }
  | _, _ => { s with current := some { c with reads := c.reads ++ [none] } }

def step : RpcAct → RpcLink
  | .call methodId payload =>
    match s.current, requestFrame methodId payload with
    | none, .ok _ =>
      { s with
        requests := s.requests + 1
        awaited := s.requests :: s.awaited
        current := some { id := s.requests, methodId := methodId, payload := payload } }
    | _, _ => s
  | .reply id bytes =>
    if id ∈ s.awaited then
      { s with
        awaited := s.awaited.erase id
        replies := s.replies ++ [(id, bytes)]
        link := s.link ++ bytes.map (id, ·) }
    else s
  | .read ready late =>
    match s.current with
    | some c => s.read c ready late
    | none => s
  | .timeUp =>
    match s.current with
    | some c => { s with current := none, returned := s.returned ++ [{ c with late := true }] }
    | none => s

def run (s : RpcLink) (acts : List RpcAct) : RpcLink := acts.foldl step s

/-- What a call took is the front of the reply to its own request. -/
def Own (c : RpcCall) : Prop := ∃ bytes, (c.id, bytes) ∈ s.replies ∧ c.taken <+: bytes.map (c.id, ·)

end

/-- The first whole frame ahead of a call is its own, or the call rejects it. -/
def Safe (id methodId : Nat) (ahead : List ReplyByte) : Prop :=
  ∀ frame z rest, ahead = frame ++ z :: rest → (∀ x ∈ frame, x.2 ≠ 0x00) → z.2 = 0x00 →
    (∀ x ∈ frame ++ [z], x.1 = id) ∨ response methodId (frame.map Prod.snd) = none

/-- When a call starts and when a reply comes in during one, the first whole frame ahead of the
call is safe. -/
def Guarded (s : RpcLink) : RpcAct → Prop
  | .call methodId _ => s.current = none → Safe s.requests methodId s.link
  | .reply id bytes => id ∈ s.awaited → ∀ c, s.current = some c →
    Safe c.id c.methodId (c.taken ++ (s.link ++ bytes.map (id, ·)))
  | _ => True

/-- Something holds before every step. -/
def AtSteps (P : RpcLink → RpcAct → Prop) (s : RpcLink) : List RpcAct → Prop
  | [] => True
  | act :: acts => P s act ∧ AtSteps P (s.step act) acts

/-- What every history keeps. The reply to the call in progress is still to come, or it stands as
one piece among the bytes ahead of the call. -/
structure Kept (s : RpcLink) : Prop where
  distinct : s.awaited.Nodup
  sent : ∀ id ∈ s.awaited, id < s.requests
  tagged : ∀ x ∈ s.link, x.1 < s.requests
  waiting : ∀ c, s.current = some c → ∀ x ∈ c.taken, x.2 ≠ 0x00
  piece : ∀ c, s.current = some c →
    (∀ x ∈ c.taken ++ s.link, x.1 ≠ c.id) ∨
      c.id ∉ s.awaited ∧ ∃ bytes, (c.id, bytes) ∈ s.replies ∧ ∃ before behind,
        c.taken ++ s.link = before ++ (bytes.map (c.id, ·) ++ behind) ∧
          (∀ x ∈ before, x.1 ≠ c.id) ∧ ∀ x ∈ behind, x.1 ≠ c.id

/-- The call in progress is safe, and what calls have returned was their own reply. -/
structure Sound (s : RpcLink) : Prop where
  safe : ∀ c, s.current = some c → Safe c.id c.methodId (c.taken ++ s.link)
  own : ∀ c ∈ s.returned, ∀ p, c.value = .ok (some p) → s.Own c

section
variable {s : RpcLink} {c : RpcCall}

theorem taken_read (c : RpcCall) (b : ReplyByte) :
    RpcCall.taken { c with reads := c.reads ++ [some b] } = c.taken ++ [b] :=
  List.reduceOption_append _ _

theorem taken_empty (c : RpcCall) : RpcCall.taken { c with reads := c.reads ++ [none] } = c.taken :=
  (List.reduceOption_append _ _).trans (List.append_nil _)

theorem rx_taken (c : RpcCall) : c.rx.reduceOption = c.taken.map Prod.snd := by
  rw [RpcCall.rx, RpcCall.taken]
  exact List.reduceOption_map

theorem receive_taken (h : ∀ x ∈ c.taken, x.2 ≠ 0x00) (b : ReplyByte) :
    receive [] (RpcCall.rx { c with reads := c.reads ++ [some b] }) =
      if b.2 = 0x00 then some (c.taken.map Prod.snd ++ [0x00]) else none := by
  have hrx : (RpcCall.rx { c with reads := c.reads ++ [some b] }).reduceOption =
      c.taken.map Prod.snd ++ [b.2] := by
    rw [rx_taken, taken_read, List.map_append]
    rfl
  have hclean : 0x00 ∉ c.taken.map Prod.snd := by
    intro hmem
    obtain ⟨x, hx, hzero⟩ := List.mem_map.1 hmem
    exact h x hx hzero
  split
  · rename_i hb
    exact Delimited.receive ⟨[], by rw [hrx, hb], hclean⟩
  · rename_i hb
    rw [Option.eq_none_iff_forall_ne_some]
    intro buffer hbuffer
    obtain ⟨body, rest, hbody, -, -⟩ := receive_iff.1 hbuffer
    have hmem : 0x00 ∈ c.taken.map Prod.snd ++ [b.2] := by
      rw [← hrx, hbody]
      exact List.mem_append_right _ (List.mem_cons_self ..)
    rcases List.mem_append.1 hmem with hmem | hmem
    · exact hclean hmem
    · exact hb (List.mem_singleton.1 hmem).symm

theorem read_cases (s : RpcLink) (c : RpcCall) (ready late : Bool)
    (hwaiting : ∀ x ∈ c.taken, x.2 ≠ 0x00) :
    (s.read c ready late = { s with current := some { c with reads := c.reads ++ [none] } }) ∨
      ∃ b link, s.link = b :: link ∧
        ((b.2 ≠ 0x00 ∧ s.read c ready late =
            { s with link := link, current := some { c with reads := c.reads ++ [some b] } }) ∨
          (b.2 = 0x00 ∧ s.read c ready late =
            { s with
              link := link
              current := none
              returned := s.returned ++
                [{ c with reads := c.reads ++ [some b], late := late }] })) := by
  rw [read.eq_def]
  split
  · rename_i b link hlink
    right
    refine ⟨b, link, hlink, ?_⟩
    dsimp only
    rw [receive_taken hwaiting]
    by_cases hb : b.2 = 0x00
    · right
      rw [if_pos hb, Option.isSome_some, if_pos rfl]
      exact ⟨hb, rfl⟩
    · left
      rw [if_neg hb, Option.isSome_none, if_neg Bool.false_ne_true]
      exact ⟨hb, rfl⟩
  · exact .inl rfl

theorem Kept.call (h : s.Kept) (methodId : Nat) (payload : Bytes) :
    (s.step (.call methodId payload)).Kept := by
  rw [step.eq_def]
  dsimp only
  split
  · have hfresh : s.requests ∉ s.awaited := fun hmem => Nat.lt_irrefl _ (h.sent _ hmem)
    refine ⟨List.nodup_cons.2 ⟨hfresh, h.distinct⟩, ?_, ?_, ?_, ?_⟩
    · intro id hid
      rcases List.mem_cons.1 hid with rfl | hid
      · exact Nat.lt_succ_self _
      · exact Nat.lt_succ_of_lt (h.sent id hid)
    · intro x hx
      exact Nat.lt_succ_of_lt (h.tagged x hx)
    · intro c hc x hx
      cases hc
      cases hx
    · intro c hc
      cases hc
      left
      intro x hx
      exact Nat.ne_of_lt (h.tagged x hx)
  · exact h

theorem Kept.reply (h : s.Kept) (id : Nat) (bytes : Bytes) : (s.step (.reply id bytes)).Kept := by
  rw [step.eq_def]
  dsimp only
  split
  · rename_i hid
    have hnew : ∀ x ∈ bytes.map (id, ·), x.1 = id := by
      intro x hx
      obtain ⟨b, -, rfl⟩ := List.mem_map.1 hx
      rfl
    refine ⟨h.distinct.erase _, ?_, ?_, h.waiting, ?_⟩
    · intro j hj
      exact h.sent j (List.mem_of_mem_erase hj)
    · intro x hx
      rcases List.mem_append.1 hx with hx | hx
      · exact h.tagged x hx
      · exact hnew x hx ▸ h.sent id hid
    · intro c hc
      dsimp only
      rw [← List.append_assoc]
      rcases h.piece c hc with hnone | ⟨hdone, own, hown, before, behind, hahead, hbefore, hbehind⟩
      · by_cases heq : c.id = id
        · right
          refine ⟨?_, bytes, ?_, c.taken ++ s.link, [], ?_, hnone, fun x hx => by cases hx⟩
          · rw [heq]
            exact h.distinct.not_mem_erase
          · rw [heq]
            exact List.mem_append_right _ (List.mem_singleton_self _)
          · rw [List.append_nil, heq]
        · left
          intro x hx
          rcases List.mem_append.1 hx with hx | hx
          · exact hnone x hx
          · rw [hnew x hx]
            exact fun h => heq h.symm
      · right
        refine ⟨fun hmem => hdone (List.mem_of_mem_erase hmem), own,
          List.mem_append_left _ hown, before, behind ++ bytes.map (id, ·), ?_, hbefore, ?_⟩
        · rw [hahead]
          simp only [List.append_assoc]
        · intro x hx
          rcases List.mem_append.1 hx with hx | hx
          · exact hbehind x hx
          · rw [hnew x hx]
            rintro rfl
            exact hdone hid
  · exact h

theorem Kept.read (h : s.Kept) (hc : s.current = some c) (ready late : Bool) :
    (s.read c ready late).Kept := by
  rcases read_cases s c ready late (h.waiting c hc) with heq | ⟨b, link, hlink, hread⟩
  · rw [heq]
    refine ⟨h.distinct, h.sent, h.tagged, ?_, ?_⟩
    · intro c' hc'
      cases hc'
      rw [taken_empty]
      exact h.waiting c hc
    · intro c' hc'
      cases hc'
      rw [taken_empty]
      exact h.piece c hc
  have htagged : ∀ x ∈ link, x.1 < s.requests := fun x hx =>
    h.tagged x (hlink ▸ List.mem_cons_of_mem _ hx)
  rcases hread with ⟨hb, heq⟩ | ⟨-, heq⟩
  · rw [heq]
    refine ⟨h.distinct, h.sent, htagged, ?_, ?_⟩
    · intro c' hc'
      cases hc'
      rw [taken_read]
      intro x hx
      rcases List.mem_append.1 hx with hx | hx
      · exact h.waiting c hc x hx
      · rwa [List.mem_singleton.1 hx]
    · intro c' hc'
      cases hc'
      have hpiece := h.piece c hc
      rwa [hlink, List.append_cons, ← taken_read] at hpiece
  · rw [heq]
    refine ⟨h.distinct, h.sent, htagged, ?_, ?_⟩
    · intro c' hc'
      cases hc'
    · intro c' hc'
      cases hc'

theorem Kept.step (h : s.Kept) (act : RpcAct) : (s.step act).Kept := by
  cases act with
  | call methodId payload => exact h.call methodId payload
  | reply id bytes => exact h.reply id bytes
  | read ready late =>
    rw [RpcLink.step]
    split
    · rename_i c hc
      exact h.read hc ready late
    · exact h
  | timeUp =>
    rw [RpcLink.step]
    split
    · refine ⟨h.distinct, h.sent, h.tagged, ?_, ?_⟩
      · intro c hc
        cases hc
      · intro c hc
        cases hc
    · exact h

theorem Kept.own (h : s.Kept) (hc : s.current = some c) {b : ReplyByte} {link : List ReplyByte}
    (hlink : s.link = b :: link) (hown : ∀ x ∈ c.taken ++ [b], x.1 = c.id) :
    ∃ bytes, (c.id, bytes) ∈ s.replies ∧ c.taken ++ [b] <+: bytes.map (c.id, ·) := by
  have hahead : c.taken ++ s.link = (c.taken ++ [b]) ++ link := by
    rw [hlink]
    exact List.append_cons ..
  have hb := hown b (List.mem_append_right _ (List.mem_singleton_self b))
  have hpiece := h.piece c hc
  rw [hahead] at hpiece
  rcases hpiece with hnone | ⟨-, bytes, hbytes, before, behind, heq, hbefore, hbehind⟩
  · have hmem := List.mem_append_right c.taken (List.mem_singleton_self b)
    exact absurd hb (hnone b (List.mem_append_left _ hmem))
  · have hnil : before = [] := by
      cases before with
      | nil => rfl
      | cons x before =>
        have hx := hbefore x (List.mem_cons_self ..)
        cases htaken : c.taken ++ [b] with
        | nil => exact absurd htaken (List.append_ne_nil_of_right_ne_nil _ (List.cons_ne_nil _ _))
        | cons y ys =>
          rw [htaken] at heq hown
          rw [← (List.cons.inj heq).1] at hx
          exact absurd (hown y (List.mem_cons_self ..)) hx
    rw [hnil, List.nil_append] at heq
    refine ⟨bytes, hbytes, ?_⟩
    rcases List.prefix_or_prefix_of_prefix (List.prefix_append _ link)
      (heq ▸ List.prefix_append _ behind) with hfront | ⟨more, hmore⟩
    · exact hfront
    · rw [← hmore, List.append_assoc, List.append_cancel_left_eq] at heq
      cases more with
      | nil =>
        rw [List.append_nil] at hmore
        rw [hmore]
      | cons x more =>
        have hx := hown x (hmore ▸ List.mem_append_right _ (List.mem_cons_self ..))
        rw [List.cons_append] at heq
        exact absurd hx (hbehind x (heq ▸ List.mem_cons_self ..))

/-- A call that a delimiter ends and that is safe returns its own reply, if anything. -/
theorem own_of_safe (hwaiting : ∀ x ∈ c.taken, x.2 ≠ 0x00) {b : ReplyByte} {link : List ReplyByte}
    (hsafe : Safe c.id c.methodId (c.taken ++ b :: link)) (hb : b.2 = 0x00) {p : Bytes}
    {late : Bool}
    (hvalue : RpcCall.value { c with reads := c.reads ++ [some b], late := late } =
      .ok (some p)) : ∀ x ∈ c.taken ++ [b], x.1 = c.id := by
  obtain ⟨-, buffer, hbuffer, hresponse⟩ := callRaw_eq_some hvalue
  have hreceive := receive_taken hwaiting b
  rw [if_pos hb] at hreceive
  cases Option.some.inj (hbuffer.symm.trans hreceive)
  rw [List.dropLast_concat] at hresponse
  rcases hsafe c.taken b link rfl hwaiting hb with hown | hnone
  · exact hown
  · rw [hnone] at hresponse
    cases hresponse

theorem Sound.call (h : s.Sound) {methodId : Nat} {payload : Bytes}
    (hg : s.Guarded (.call methodId payload)) : (s.step (.call methodId payload)).Sound := by
  rw [step.eq_def]
  dsimp only
  split
  · rename_i hc _
    refine ⟨?_, h.own⟩
    intro c heq
    cases heq
    exact hg hc
  · exact h

theorem Sound.reply (h : s.Sound) {id : Nat} {bytes : Bytes} (hg : s.Guarded (.reply id bytes)) :
    (s.step (.reply id bytes)).Sound := by
  rw [step.eq_def]
  dsimp only
  split
  · rename_i hid
    refine ⟨hg hid, ?_⟩
    intro c hc p hp
    obtain ⟨own, hown, hfront⟩ := h.own c hc p hp
    exact ⟨own, List.mem_append_left _ hown, hfront⟩
  · exact h

theorem Sound.read (h : s.Sound) (hk : s.Kept) (hc : s.current = some c) (ready late : Bool) :
    (s.read c ready late).Sound := by
  have hwaiting := hk.waiting c hc
  have hsafe := h.safe c hc
  rcases read_cases s c ready late hwaiting with heq | ⟨b, link, hlink, ⟨-, heq⟩ | ⟨hb, heq⟩⟩
  · rw [heq]
    refine ⟨?_, h.own⟩
    intro c' hc'
    cases hc'
    rwa [taken_empty]
  · rw [heq]
    refine ⟨?_, h.own⟩
    intro c' hc'
    cases hc'
    rwa [hlink, List.append_cons, ← taken_read] at hsafe
  · rw [heq]
    refine ⟨?_, ?_⟩
    · intro c' hc'
      cases hc'
    · intro c' hc' p hp
      rcases List.mem_append.1 hc' with hc' | hc'
      · exact h.own c' hc' p hp
      · rw [List.mem_singleton.1 hc'] at hp ⊢
        obtain ⟨bytes, hbytes, hfront⟩ :=
          hk.own hc hlink (own_of_safe hwaiting (hlink ▸ hsafe) hb hp)
        exact ⟨bytes, hbytes, taken_read c b ▸ hfront⟩

theorem Sound.timeUp (h : s.Sound) : (s.step .timeUp).Sound := by
  rw [step.eq_def]
  dsimp only
  split
  · refine ⟨?_, ?_⟩
    · intro c hc
      cases hc
    · intro c hc p hp
      rcases List.mem_append.1 hc with hc | hc
      · exact h.own c hc p hp
      · rw [List.mem_singleton.1 hc] at hp
        cases (callRaw_eq_some hp).1
  · exact h

theorem Sound.step (h : s.Sound) (hk : s.Kept) {act : RpcAct} (hg : s.Guarded act) :
    (s.step act).Sound := by
  cases act with
  | call methodId payload => exact h.call hg
  | reply id bytes => exact h.reply hg
  | read ready late =>
    rw [RpcLink.step]
    split
    · rename_i c hc
      exact h.read hk hc ready late
    · exact h
  | timeUp => exact h.timeUp

theorem Sound.run (h : s.Sound) (hk : s.Kept) {acts : List RpcAct} (hg : AtSteps Guarded s acts) :
    (s.run acts).Sound := by
  induction acts generalizing s with
  | nil => exact h
  | cons act acts ih => exact ih (h.step hk hg.1) (hk.step act) hg.2

theorem kept_start : Kept {} where
  distinct := .nil
  sent := List.forall_mem_nil _
  tagged := List.forall_mem_nil _
  waiting _ hc := by cases hc
  piece _ hc := by cases hc

theorem sound_start : Sound {} where
  safe _ hc := by cases hc
  own := List.forall_mem_nil _

theorem not_own (h : ∀ r ∈ s.replies, r.1 ≠ c.id) : ¬ s.Own c := by
  rintro ⟨bytes, hbytes, -⟩
  exact h _ hbytes rfl

theorem safe_of_own {ahead : List ReplyByte} {id methodId : Nat} (h : ∀ x ∈ ahead, x.1 = id) :
    Safe id methodId ahead := by
  rintro frame z rest rfl _ _
  left
  intro x hx
  rw [List.append_cons] at h
  exact h x (List.mem_append_left _ hx)

end
end RpcLink

/-- In a history that is guarded at every step, what a call or `invoke` returns comes from the
reply to its own request. -/
theorem replies_own {acts : List RpcAct} (hguarded : RpcLink.AtSteps RpcLink.Guarded {} acts) :
    ∀ c ∈ (RpcLink.run {} acts).returned,
      (∀ p, c.value = .ok (some p) → (RpcLink.run {} acts).Own c) ∧
        ∀ (R : Type) (fromBytes : Bytes → Option R) v, c.invoked fromBytes = .ok (some v) →
          (RpcLink.run {} acts).Own c := by
  have h := RpcLink.sound_start.run RpcLink.kept_start hguarded
  intro c hc
  refine ⟨h.own c hc, ?_⟩
  intro R fromBytes v hv
  obtain ⟨p, hp, -⟩ := invoke_eq_some hv
  exact h.own c hc p hp

def answeredHistory : List RpcAct :=
  [.call 16 [], .reply 0 (pong 1)] ++ List.replicate 9 (.read true false)

theorem answeredHistory_own : ∃ c, (RpcLink.run {} answeredHistory).returned = [c] ∧
    c.value = .ok (some [0x05]) ∧ (RpcLink.run {} answeredHistory).Own c := by
  have hguarded : RpcLink.AtSteps RpcLink.Guarded {} answeredHistory := by
    refine ⟨fun _ => RpcLink.safe_of_own (List.forall_mem_nil _), ?_, trivial, trivial, trivial,
      trivial, trivial, trivial, trivial, trivial, trivial, trivial⟩
    intro _ c hc
    cases hc
    exact RpcLink.safe_of_own (by decide)
  refine ⟨_, rfl, by decide, ?_⟩
  exact ((replies_own hguarded) _ (List.mem_singleton_self _)).1 [0x05] (by decide)

/-- The first call times out; its reply comes in late, and the second call, with the same method
id, returns it. -/
def staleHistory : List RpcAct :=
  [.call 16 [], .timeUp, .reply 0 (pong 1), .call 16 []] ++ List.replicate 9 (.read true false)

theorem stale_reply_returned : ∃ first second,
    (RpcLink.run {} staleHistory).returned = [first, second] ∧ first.value = .ok none ∧
      second.value = .ok (some [0x05]) ∧ ¬ (RpcLink.run {} staleHistory).Own second ∧
        ∀ x ∈ second.taken, x.1 = first.id := by
  exact ⟨_, _, rfl, by decide, by decide, RpcLink.not_own (by decide), by decide⟩

end MesCore
