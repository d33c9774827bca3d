import MesCore.Listening

namespace MesCore
set_option autoImplicit true

/-- The loop of `raw_read`; `next` gets the bytes it returns. -/
def rawReadLoop (q : QueueId) (size : Nat) (next : Bytes → Code) : Nat → Bytes → Code
  | 0, buf => .unsubscribe q (next buf)
  | turns + 1, buf => .get q fun
    | none => rawReadLoop q size next turns buf
    | some chunk =>
      if size ≤ (buf ++ chunk).length then .unsubscribe q (next ((buf ++ chunk).take size))
      else rawReadLoop q size next turns (buf ++ chunk)

/-- `raw_read`. The clock says how often it looks at its queue before the deadline. -/
def rawRead (size : Nat) (next : Bytes → Code) : Code :=
  .subscribe 0 fun q => .clock fun turns => rawReadLoop q size next turns []

/-- Successive calls of `raw_read`, with what they have returned so far. -/
def rawReads (results : List Bytes) : List Nat → Code
  | [] => .done
  | size :: sizes => rawRead size fun r => rawReads (results ++ [r]) sizes

def stretch (ss : List (List (MuxEvent T))) : MuxEvent T → List (List (MuxEvent T))
  | .subscribed _ _ => ss ++ [[]]
  | e => ss.dropLast ++ (ss.getLast?.map (· ++ [e])).toList

def stretches (h : List (MuxEvent T)) : List (List (MuxEvent T)) := h.foldl stretch []

def taken (h : List (MuxEvent T)) : List Bytes :=
  h.filterMap fun
    | .took _ _ chunk => some chunk
    | _ => none

def MuxEvent.leaves : MuxEvent T → Bool
  | .unsubscribed _ _ => true
  | _ => false

/-- The chunks that were read before the queue was given up. -/
def gathered (s : List (MuxEvent T)) : List Bytes := reads (s.takeWhile fun e => !e.leaves)

def pieces (sizes : List Nat) (ss : List (List (MuxEvent T))) : List Bytes :=
  List.zipWith (fun size s => (taken s).flatten.take size) sizes ss

/-- The calls that were followed by another one got all the bytes they asked for. -/
def FullSize (sizes : List Nat) (ss : List (List (MuxEvent T))) : Prop :=
  ∀ c ∈ sizes.zip ss, c.1 ≤ (taken c.2).flatten.length

/-- A chunk comes in before the call gives its queue up, and is no longer than what the call still
lacks. -/
def FitsCall (size : Nat) (s : List (MuxEvent T)) : Prop :=
  ∀ before chunk after, s = before ++ .read chunk :: after →
    before.all (fun e => !e.leaves) = true ∧ (reads before).flatten.length + chunk.length ≤ size

/-- Every chunk that is read from the first call's subscription to the last call's fits the call
that was made last. -/
def OnTime (sizes : List Nat) (ss : List (List (MuxEvent T))) : Prop :=
  ∀ c ∈ sizes.zip ss, FitsCall c.1 c.2

section
variable {s h : List (MuxEvent T)} {e : MuxEvent T} {size : Nat}

theorem reads_append (h h' : List (MuxEvent T)) : reads (h ++ h') = reads h ++ reads h' :=
  List.filterMap_append

theorem reads_read (h : List (MuxEvent T)) (c : Bytes) : reads (h ++ [.read c]) = reads h ++ [c] :=
  reads_append h [.read c]

theorem reads_concat (he : ∀ c, e ≠ .read c) (h : List (MuxEvent T)) :
    reads (h ++ [e]) = reads h := by
  rw [reads_append]
  cases e with
  | read c => exact (he c rfl).elim
  | _ => exact List.append_nil _

theorem taken_append (h h' : List (MuxEvent T)) : taken (h ++ h') = taken h ++ taken h' :=
  List.filterMap_append

theorem stretches_concat (h : List (MuxEvent T)) (e : MuxEvent T) :
    stretches (h ++ [e]) = stretch (stretches h) e := List.foldl_append

theorem stretch_concat (he : ∀ t q, e ≠ .subscribed t q) (ss : List (List (MuxEvent T)))
    (s : List (MuxEvent T)) : stretch (ss ++ [s]) e = ss ++ [s ++ [e]] := by
  cases e with
  | subscribed t q => exact (he t q rfl).elim
  | _ => simp [stretch]

theorem gathered_reads (s : List (MuxEvent T)) : gathered s <+: reads s :=
  (List.takeWhile_prefix _).filterMap _

theorem gathered_of_all (hs : s.all (fun e => !e.leaves) = true) : gathered s = reads s := by
  rw [gathered, List.takeWhile_eq_self_iff.2 (List.all_eq_true.1 hs)]

theorem gathered_append (s s' : List (MuxEvent T)) : gathered s <+: gathered (s ++ s') := by
  have htake : s.takeWhile (fun e => !e.leaves) <+: (s ++ s').takeWhile fun e => !e.leaves := by
    rw [List.takeWhile_append]
    split
    · rename_i hall
      have hself := (List.takeWhile_prefix fun e : MuxEvent T => !e.leaves).eq_of_length hall
      rw [hself]
      exact List.prefix_append ..
    · exact List.prefix_rfl
  exact htake.filterMap _

theorem pieces_append {sizes : List Nat} {ss : List (List (MuxEvent T))}
    (hlen : ss.length ≤ sizes.length) (ss' : List (List (MuxEvent T))) :
    pieces sizes (ss ++ ss') = pieces sizes ss ++ pieces (sizes.drop ss.length) ss' := by
  induction ss generalizing sizes with
  | nil =>
    rw [pieces, pieces, List.zipWith_nil_right]
    rfl
  | cons s ss ih =>
    cases sizes with
    | nil => simp at hlen
    | cons size sizes =>
      exact congrArg ((taken s).flatten.take size :: ·) (ih (Nat.le_of_succ_le_succ hlen))

theorem pieces_concat {done todo : List Nat} {ss : List (List (MuxEvent T))}
    (hlen : ss.length = done.length) (size : Nat) (s : List (MuxEvent T)) :
    pieces (done ++ size :: todo) (ss ++ [s]) =
      pieces (done ++ size :: todo) ss ++ [(taken s).flatten.take size] := by
  have hle : ss.length ≤ (done ++ size :: todo).length := by
    rw [List.length_append]
    omega
  have hone : pieces (size :: todo) [s] = [(taken s).flatten.take size] := by
    rw [pieces, List.zipWith_cons_cons, List.zipWith_nil_right]
  rw [pieces_append hle, List.drop_left' hlen.symm, hone]

theorem pieces_congr {ss ss' : List (List (MuxEvent T))} (h : ss.map taken = ss'.map taken)
    (sizes : List Nat) : pieces sizes ss = pieces sizes ss' := by
  have hmap (ss : List (List (MuxEvent T))) : pieces sizes ss =
      List.zipWith (fun size chunks => chunks.flatten.take size) sizes (ss.map taken) := by
    rw [List.zipWith_map_right]
    rfl
  rw [hmap, hmap, h]

end

section
variable {q : QueueId} {next : Bytes → Code}

theorem rawReadLoop_quiet (size turns : Nat) (buf : Bytes) :
    (rawReadLoop q size next turns buf).Quiet q := by
  induction turns generalizing buf with
  | zero => exact .inl rfl
  | succ turns ih =>
    intro r
    cases r with
    | none => exact ih buf
    | some chunk =>
      dsimp only
      split
      · exact .inl rfl
      · exact ih _

theorem rawReadLoop_careful (hn : ∀ r, (next r).Careful) (size turns : Nat) (buf : Bytes) :
    (rawReadLoop q size next turns buf).Careful := by
  induction turns generalizing buf with
  | zero => exact hn buf
  | succ turns ih =>
    intro r
    cases r with
    | none => exact ih buf
    | some chunk =>
      dsimp only
      split
      · exact hn _
      · exact ih _

theorem rawReads_careful (results : List Bytes) (sizes : List Nat) :
    (rawReads results sizes).Careful := by
  induction sizes generalizing results with
  | nil => exact trivial
  | cons size sizes ih =>
    refine ⟨rfl, fun q => ⟨fun turns => rawReadLoop_quiet size turns [], fun turns => ?_⟩⟩
    exact rawReadLoop_careful (fun r => ih _) size turns []

end

/-- Where a call stands that has these bytes. -/
inductive InCall (q : QueueId) (size : Nat) (next : Bytes → Code) (buf : Bytes) : Code → Prop
  | asking (h : buf = []) :
    InCall q size next buf (.clock fun turns => rawReadLoop q size next turns [])
  | waiting (turns : Nat) (h : buf.length ≤ size) :
    InCall q size next buf (rawReadLoop q size next turns buf)
  | leaving : InCall q size next buf (.unsubscribe q (next (buf.take size)))

/-- Where the client stands: before a call, with the pieces of those before it, or within one. -/
inductive Reading (sizes : List Nat) (m : Mux Unit) : Prop
  | between (done todo : List Nat) (hsizes : sizes = done ++ todo)
    (hcalls : (stretches m.history).length = done.length)
    (hcode : m.code () = rawReads (pieces sizes (stretches m.history)) todo)
    (hsettled : ∀ s ∈ stretches m.history, taken s <+: gathered s) (hsolid : [] ∉ reads m.history)
  | within (q : QueueId) (size : Nat) (done todo : List Nat) (hsizes : sizes = done ++ size :: todo)
    (ss : List (List (MuxEvent Unit))) (before s : List (MuxEvent Unit))
    (hcalls : ss.length = done.length) (hstretches : stretches m.history = ss ++ [s])
    (hhistory : m.history = before ++ .subscribed () q :: s)
    (hcode : InCall q size (fun r => rawReads (pieces sizes ss ++ [r]) todo) (taken s).flatten
      (m.code ()))
    (hsubscribed : q ∈ m.subscribers) (htaken : obtained q m.history = taken s)
    (hopen : s.all (fun e => !e.leaves) = true)
    (hsettled : ∀ s ∈ ss, taken s <+: gathered s) (hsolid : [] ∉ reads m.history)

/-- Events that the client has no part in. -/
def MuxEvent.Aside : MuxEvent T → Prop
  | .read chunk => chunk ≠ []
  | .dropped _ _ => True
  | _ => False

section
variable {sizes : List Nat} {m m' : Mux Unit} {e : MuxEvent Unit} {s : List (MuxEvent Unit)}

theorem aside_read {c : Bytes} (h : c ≠ []) : (MuxEvent.read c : MuxEvent Unit).Aside := h

theorem aside_dropped (q : QueueId) (c : Bytes) :
    (MuxEvent.dropped q c : MuxEvent Unit).Aside := trivial

theorem MuxEvent.Aside.not_subscribed (he : e.Aside) : ∀ t q, e ≠ .subscribed t q := by
  rintro t q rfl
  exact he

theorem MuxEvent.Aside.taken_concat (he : e.Aside) (s : List (MuxEvent Unit)) :
    taken (s ++ [e]) = taken s := by
  rw [taken_append]
  cases e with
  | read c => exact List.append_nil _
  | dropped q c => exact List.append_nil _
  | _ => exact he.elim

theorem MuxEvent.Aside.obtained_concat (he : e.Aside) (q : QueueId) (h : List (MuxEvent Unit)) :
    obtained q (h ++ [e]) = obtained q h := by
  rw [obtained, List.filterMap_append]
  cases e with
  | read c => exact List.append_nil _
  | dropped q c => exact List.append_nil _
  | _ => exact he.elim

theorem solid_concat (he : ∀ c, e ≠ .read c) {h : List (MuxEvent Unit)} (hsolid : [] ∉ reads h) :
    [] ∉ reads (h ++ [e]) := by
  rwa [reads_concat he]

theorem MuxEvent.Aside.solid (he : e.Aside) {h : List (MuxEvent Unit)} (hsolid : [] ∉ reads h) :
    [] ∉ reads (h ++ [e]) := by
  cases e with
  | read c =>
    rw [reads_read, List.mem_append, List.mem_singleton, not_or]
    exact ⟨hsolid, Ne.symm he⟩
  | dropped q c => exact solid_concat (by rintro _ ⟨⟩) hsolid
  | _ => exact he.elim

theorem Reading.aside (h : Reading sizes m) (he : e.Aside) (hcode : m'.code = m.code)
    (hsubs : m'.subscribers = m.subscribers) (hh : m'.history = m.history ++ [e]) :
    Reading sizes m' := by
  have hnot := he.not_subscribed
  have hstretches : stretches m'.history = stretch (stretches m.history) e := by
    rw [hh, stretches_concat]
  cases h with
  | between done todo hsizes hcalls hcode' hsettled hsolid =>
    have hsame : (stretches m'.history).map taken = (stretches m.history).map taken ∧
        ∀ s ∈ stretches m'.history, taken s <+: gathered s := by
      rw [hstretches]
      rcases List.eq_nil_or_concat (stretches m.history) with hnil | ⟨ss, s, hss⟩
      · rw [hnil] at hsettled ⊢
        cases e with
        | subscribed t q => exact he.elim
        | _ => exact ⟨rfl, hsettled⟩
      · rw [List.concat_eq_append] at hss
        rw [hss, List.forall_mem_append, List.forall_mem_singleton] at hsettled
        rw [hss, stretch_concat hnot, List.map_append, List.map_append, List.map_singleton,
          List.map_singleton, he.taken_concat, List.forall_mem_append, List.forall_mem_singleton,
          he.taken_concat]
        exact ⟨rfl, hsettled.1, hsettled.2.trans (gathered_append s [e])⟩
    refine .between done todo hsizes ?_ ?_ hsame.2 ?_
    · rw [← hcalls, ← List.length_map (f := taken), hsame.1, List.length_map]
    · rw [hcode, hcode', pieces_congr hsame.1]
    · rw [hh]
      exact he.solid hsolid
  | within q size done todo hsizes ss before s hcalls hlast hhistory hcode' hsub htaken hopen
      hsettled hsolid =>
    refine .within q size done todo hsizes ss before (s ++ [e]) hcalls ?_ ?_ ?_ ?_ ?_ ?_ hsettled ?_
    · rw [hstretches, hlast, stretch_concat hnot]
    · rw [hh, hhistory, List.append_assoc, List.cons_append]
    · rw [he.taken_concat, hcode]
      exact hcode'
    · rw [hsubs]
      exact hsub
    · rw [hh, he.obtained_concat, he.taken_concat, htaken]
    · rw [List.all_append, hopen]
      cases e with
      | unsubscribed t q => exact he.elim
      | _ => rfl
    · rw [hh]
      exact he.solid hsolid

theorem Reading.same (h : Reading sizes m) (hcode : m'.code = m.code)
    (hsubs : m'.subscribers = m.subscribers) (hh : m'.history = m.history) : Reading sizes m' := by
  cases h with
  | between done todo hsizes hcalls hcode' hsettled hsolid =>
    rw [← hcode] at hcode'
    rw [← hh] at hcalls hcode' hsettled hsolid
    exact .between done todo hsizes hcalls hcode' hsettled hsolid
  | within q size done todo hsizes ss before s hcalls hlast hhistory hcode' hsub htaken hopen
      hsettled hsolid =>
    rw [← hcode] at hcode'
    rw [← hsubs] at hsub
    rw [← hh] at hlast hhistory htaken hsolid
    exact .within q size done todo hsizes ss before s hcalls hlast hhistory hcode' hsub htaken hopen
      hsettled hsolid

theorem Reading.readChunk {c : Bytes} (h : Reading sizes m) (hs : m.readChunk c = some m') :
    Reading sizes m' := by
  obtain ⟨-, hne, rfl⟩ := Mux.readChunk_some hs
  exact h.aside (aside_read hne) rfl rfl rfl

theorem Reading.publish (h : Reading sizes m) (hs : m.publish = some m') : Reading sizes m' := by
  obtain ⟨k, -, hcase⟩ := Mux.publish_some hs
  rcases hcase with rfl | ⟨q, c, rfl⟩ | ⟨q, items, rfl⟩ | ⟨q, c, items, rfl⟩
  · exact h.same rfl rfl rfl
  · exact h.aside (aside_dropped q c) rfl rfl rfl
  · exact h.same rfl rfl rfl
  · exact h.aside (aside_dropped q c) rfl rfl rfl

theorem Mux.Sound.obtained_unborn (h : m.Sound m.fresh) : obtained m.fresh m.history = [] := by
  have hne : m.fresh ≠ defaultQueue := Nat.ne_of_gt h.default_lt
  have hjoins := h.joined
  rw [if_neg fun hlt => Nat.lt_irrefl _ hlt.1] at hjoins
  have hwindow : window m.fresh m.history = [] := by
    rw [window, ear, Ear.hear_closed (decide_eq_false hne) hjoins]
  have hbalance := h.balance hne (by rw [h.unborn (Nat.le_refl _)])
  rw [hwindow, eq_comm, List.append_eq_nil_iff, List.append_eq_nil_iff,
    List.map_eq_nil_iff] at hbalance
  rw [obtained_eq, hbalance.1.1]
  rfl

theorem taken_prefix {q : QueueId} {before : List (MuxEvent Unit)} (hsound : m.Sound q)
    (hatt : m.Attentive) (hh : m.history = before ++ .subscribed () q :: s)
    (hsub : q ∈ m.subscribers) (htaken : obtained q m.history = taken s) : taken s <+: reads s := by
  obtain ⟨hne, hwindow⟩ := hsound.window_since hh hsub
  have hall := hsound.window_obtained hne (hatt.unbounded q hne) (hatt.undrained q hne)
  rw [← hwindow, hall, htaken, List.append_assoc]
  exact List.prefix_append ..

theorem Reading.leave {q : QueueId} {size : Nat} {done todo : List Nat}
    {ss : List (List (MuxEvent Unit))} {before : List (MuxEvent Unit)}
    (hsizes : sizes = done ++ size :: todo) (hcalls : ss.length = done.length)
    (hlast : stretches m.history = ss ++ [s])
    (hhistory : m.history = before ++ .subscribed () q :: s)
    (hsub : q ∈ m.subscribers) (htaken : obtained q m.history = taken s)
    (hopen : s.all (fun e => !e.leaves) = true) (hsettled : ∀ s ∈ ss, taken s <+: gathered s)
    (hsolid : [] ∉ reads m.history) (hsound : m.Sound q) (hatt : m.Attentive)
    (hs : m.unsubscribe () q (rawReads (pieces sizes ss ++ [(taken s).flatten.take size]) todo) =
      some m') : Reading sizes m' := by
  have hprefix := taken_prefix hsound hatt hhistory hsub htaken
  rw [← gathered_of_all hopen] at hprefix
  have hkept : taken (s ++ [.unsubscribed () q]) = taken s := by
    rw [taken_append]
    exact List.append_nil _
  rw [Mux.unsubscribe] at hs
  split at hs
  · rw [if_pos hsub] at hs
    cases hs
    have hstretches : stretches (m.history ++ [.unsubscribed () q]) =
        ss ++ [s ++ [.unsubscribed () q]] := by
      rw [stretches_concat, hlast, stretch_concat (by rintro _ _ ⟨⟩)]
    have hpieces : pieces sizes (ss ++ [s ++ [.unsubscribed () q]]) =
        pieces sizes ss ++ [(taken s).flatten.take size] := by
      rw [hsizes, pieces_concat hcalls, hkept]
    refine .between (done ++ [size]) todo ?_ ?_ ?_ ?_ ?_
    · rw [hsizes, List.append_assoc, List.singleton_append]
    · change (stretches (m.history ++ [.unsubscribed () q])).length = _
      rw [hstretches, List.length_append, List.length_append, hcalls]
      rfl
    · change _ = rawReads (pieces sizes (stretches (m.history ++ [.unsubscribed () q]))) todo
      rw [hstretches, hpieces]
      exact Function.update_self () _ m.code
    · change ∀ s' ∈ stretches (m.history ++ [.unsubscribed () q]), _
      rw [hstretches, List.forall_mem_append, List.forall_mem_singleton, hkept]
      exact ⟨hsettled, hprefix.trans (gathered_append ..)⟩
    · exact solid_concat (by rintro _ ⟨⟩) hsolid
  · cases hs

theorem Reading.client {n : Nat} (h : Reading sizes m) (hsound : ∀ q, m.Sound q)
    (hatt : m.Attentive) (hs : m.client () n = some m') : Reading sizes m' := by
  rw [Mux.client] at hs
  cases h with
  | between done todo hsizes hcalls hcode hsettled hsolid =>
    cases todo with
    | nil =>
      rw [hcode] at hs
      cases hs
    | cons size todo =>
      rw [hcode, rawReads, rawRead] at hs
      dsimp only [Mux.subscribe] at hs
      split at hs
      · cases hs
        refine .within m.fresh size done todo hsizes (stretches m.history) m.history [] hcalls
          (stretches_concat ..) rfl ?_ ?_ ?_ rfl hsettled (solid_concat (by rintro _ ⟨⟩) hsolid)
        · change InCall _ _ _ [] (Function.update m.code () _ ())
          rw [Function.update_self]
          exact .asking rfl
        · exact List.mem_append_right _ (List.mem_singleton_self _)
        · change obtained m.fresh (m.history ++ [.subscribed () m.fresh]) = []
          rw [obtained, List.filterMap_append, ← obtained, (hsound m.fresh).obtained_unborn]
          rfl
      · cases hs
  | within q size done todo hsizes ss before s hcalls hlast hhistory hcode hsub htaken
    hopen hsettled
      hsolid =>
    generalize hc : m.code () = code at hcode hs
    have hgoOn (code : Code) (hcode : InCall q size
        (fun r => rawReads (pieces sizes ss ++ [r]) todo)
        (taken s).flatten code) : Reading sizes (m.goOn () code) := by
      refine .within q size done todo hsizes ss before s hcalls hlast hhistory ?_ hsub htaken hopen
        hsettled hsolid
      change InCall _ _ _ _ (Function.update m.code () code ())
      rw [Function.update_self]
      exact hcode
    cases hcode with
    | asking hnil =>
      cases hs
      apply hgoOn
      rw [hnil]
      exact .waiting n (Nat.zero_le _)
    | waiting turns hle =>
      cases turns with
      | zero =>
        have hall : (taken s).flatten.take size = (taken s).flatten := List.take_of_length_le hle
        apply Reading.leave hsizes hcalls hlast hhistory hsub htaken hopen hsettled hsolid
          (hsound q) hatt
        rw [hall]
        exact hs
      | succ turns =>
        dsimp only [rawReadLoop, Mux.get] at hs
        split at hs
        · split at hs
          · cases hs
            exact hgoOn _ (.waiting turns hle)
          · rename_i chunk items hitems
            cases hs
            have htook : taken (s ++ [.took () q chunk]) = taken s ++ [chunk] := taken_append ..
            have hflat : (taken (s ++ [.took () q chunk])).flatten =
                (taken s).flatten ++ chunk := by
              rw [htook, List.flatten_append, List.flatten_singleton]
            refine .within q size done todo hsizes ss before
              (s ++ [.took () q chunk]) hcalls ?_ ?_ ?_
              hsub ?_ ?_ hsettled (solid_concat (by rintro _ ⟨⟩) hsolid)
            · change stretches (m.history ++ [.took () q chunk]) = _
              rw [stretches_concat, hlast, stretch_concat (by rintro _ _ ⟨⟩)]
            · change m.history ++ [.took () q chunk] = _
              rw [hhistory, List.append_assoc, List.cons_append]
            · change InCall _ _ _ _ (Function.update m.code () _ ())
              rw [Function.update_self, hflat]
              split
              · exact .leaving
              · exact .waiting turns (Nat.le_of_lt (Nat.not_le.1 ‹_›))
            · change obtained q (m.history ++ [.took () q chunk]) = _
              rw [obtained, List.filterMap_append, ← obtained, htaken, htook]
              simp
            · rw [List.all_append, hopen]
              rfl
        · cases hs
    | leaving =>
      exact Reading.leave hsizes hcalls hlast hhistory hsub htaken hopen hsettled hsolid
        (hsound q) hatt hs

theorem reading_run {acts : List (Act Unit)}
    (hr : (Mux.start fun _ => rawReads [] sizes).run acts = some m) :
    (∀ q, m.Sound q) ∧ m.Attentive ∧ Reading sizes m := by
  refine Mux.run_induct (T := Unit) (P := fun m =>
    (∀ q, m.Sound q) ∧ m.Attentive ∧ Reading sizes m) ?_ ?_ hr
  · rintro m a m' ⟨hsound, hatt, h⟩ hs
    refine ⟨fun q => (hsound q).step hs, ?_⟩
    cases a with
    | read c => exact ⟨hatt.readChunk hs, h.readChunk hs⟩
    | publish => exact ⟨hatt.publish hs, h.publish hs⟩
    | client t n =>
      exact ⟨hatt.client (hsound defaultQueue).nodup hs, h.client hsound hatt hs⟩
  · refine ⟨fun q => Mux.start_sound q _, Mux.start_attentive (rawReads_careful [] sizes), ?_⟩
    refine .between [] sizes rfl rfl ?_ (fun s hs => absurd hs List.not_mem_nil) List.not_mem_nil
    change rawReads [] sizes = rawReads (pieces sizes []) sizes
    rw [pieces, List.zipWith_nil_right]

end

section
variable {s : List (MuxEvent T)} {ss : List (List (MuxEvent T))} {size : Nat} {sizes : List Nat}

theorem gathered_of_leaves {before : List (MuxEvent T)} (h : before.all (fun e => !e.leaves) ≠ true)
    (after : List (MuxEvent T)) : gathered (before ++ after) = gathered before := by
  rw [gathered, List.takeWhile_append, if_neg, ← gathered]
  intro hlen
  have hall := (List.takeWhile_prefix fun e : MuxEvent T => !e.leaves).eq_of_length hlen
  exact h (List.all_eq_true.2 (List.takeWhile_eq_self_iff.1 hall))

theorem FitsCall.init {e : MuxEvent T} (h : FitsCall size (s ++ [e])) : FitsCall size s := by
  intro before chunk after hs
  apply h before chunk (after ++ [e])
  rw [hs, List.append_assoc, List.cons_append]

theorem FitsCall.length_le (h : FitsCall size s) : (reads s).flatten.length ≤ size := by
  induction s using List.reverseRecOn with
  | nil => exact Nat.zero_le _
  | append_singleton s e ih =>
    cases e with
    | read c =>
      rw [reads_read, List.flatten_append, List.length_append, List.flatten_singleton]
      exact (h s c [] rfl).2
    | _ =>
      rw [reads_concat (by rintro _ ⟨⟩)]
      exact ih h.init

theorem FitsCall.gathered_eq (h : FitsCall size s) : gathered s = reads s := by
  induction s using List.reverseRecOn with
  | nil => rfl
  | append_singleton s e ih =>
    cases e with
    | read c =>
      apply gathered_of_all
      rw [List.all_append, (h s c [] rfl).1]
      rfl
    | _ =>
      apply (gathered_reads _).eq_of_length_le
      rw [reads_concat (by rintro _ ⟨⟩), ← ih h.init]
      exact (gathered_append s _).length_le

/-- A call that gets its full size returns all that is read up to the next one exactly when every
chunk fits it. -/
theorem piece_eq_iff (hsettled : taken s <+: gathered s) (hsolid : [] ∉ reads s)
    (hfull : size ≤ (taken s).flatten.length) :
    (taken s).flatten.take size = (reads s).flatten ↔ FitsCall size s := by
  have htaken := hsettled.flatten.length_le
  constructor
  · intro h before chunk after hs
    have hlen := congrArg List.length h
    rw [List.length_take, Nat.min_eq_left hfull] at hlen
    have hsplit : reads s = reads before ++ chunk :: reads after := by
      rw [hs, reads_append]
      rfl
    rw [hsplit, List.flatten_append, List.flatten_cons, List.length_append,
      List.length_append] at hlen
    constructor
    · by_contra hleft
      have hgathered : gathered s <+: reads before := by
        rw [hs, gathered_of_leaves hleft]
        exact gathered_reads before
      have hle := hgathered.flatten.length_le
      have hnil : chunk = [] := List.length_eq_zero_iff.1 (by omega)
      rw [hsplit, hnil] at hsolid
      exact hsolid (List.mem_append_right _ (List.mem_cons_self ..))
    · omega
  · intro h
    have hle := h.length_le
    rw [h.gathered_eq] at hsettled htaken
    rw [List.take_of_length_le (htaken.trans hle)]
    exact hsettled.flatten.eq_of_length_le (hle.trans hfull)

theorem append_eq_iff {a b a' b' : List α} (h : a.length ≤ b.length) (h' : a'.length ≤ b'.length) :
    a ++ a' = b ++ b' ↔ a = b ∧ a' = b' := by
  constructor
  · intro heq
    have hlen := congrArg List.length heq
    rw [List.length_append, List.length_append] at hlen
    exact List.append_inj heq (by omega)
  · rintro ⟨rfl, rfl⟩
    rfl

theorem piece_length_le (hsettled : taken s <+: gathered s) (size : Nat) :
    ((taken s).flatten.take size).length ≤ (reads s).flatten.length :=
  ((List.take_prefix _ _).trans (hsettled.trans (gathered_reads s)).flatten).length_le

theorem pieces_eq_iff (hlen : ss.length ≤ sizes.length)
    (hsettled : ∀ s ∈ ss, taken s <+: gathered s) :
    (pieces sizes ss).flatten.length ≤ (reads ss.flatten).flatten.length ∧
      ((pieces sizes ss).flatten = (reads ss.flatten).flatten ↔
        ∀ c ∈ sizes.zip ss, (taken c.2).flatten.take c.1 = (reads c.2).flatten) := by
  induction ss generalizing sizes with
  | nil =>
    rw [pieces, List.zipWith_nil_right, List.zip_nil_right]
    exact ⟨Nat.le_refl _, iff_of_true rfl fun c hc => absurd hc List.not_mem_nil⟩
  | cons s ss ih =>
    rw [List.forall_mem_cons] at hsettled
    cases sizes with
    | nil => simp at hlen
    | cons size sizes =>
      obtain ⟨hle, hiff⟩ := ih (Nat.le_of_succ_le_succ hlen) hsettled.2
      have hone := piece_length_le hsettled.1 size
      have hcons : (pieces (size :: sizes) (s :: ss)).flatten =
          (taken s).flatten.take size ++ (pieces sizes ss).flatten := rfl
      rw [hcons, List.flatten_cons, reads_append, List.flatten_append, append_eq_iff hone hle, hiff,
        List.zip_cons_cons, List.forall_mem_cons, List.length_append, List.length_append]
      exact ⟨Nat.add_le_add hone hle, Iff.rfl⟩

theorem mem_stretches {h : List (MuxEvent T)} (hs : s ∈ stretches h) : ∀ e ∈ s, e ∈ h := by
  induction h using List.reverseRecOn generalizing s with
  | nil => cases hs
  | append_singleton h e ih =>
    have hold (hs : s ∈ stretches h) : ∀ x ∈ s, x ∈ h ++ [e] :=
      fun x hx => List.mem_append_left _ (ih hs x hx)
    rw [stretches_concat] at hs
    cases e with
    | subscribed t q =>
      rcases List.mem_append.1 hs with hs | hs
      · exact hold hs
      · rw [List.mem_singleton.1 hs]
        exact fun x hx => absurd hx List.not_mem_nil
    | _ =>
      rcases List.mem_append.1 hs with hs | hs
      · exact hold (List.mem_of_mem_dropLast hs)
      · rw [Option.mem_toList, Option.map_eq_some_iff] at hs
        obtain ⟨last, hlast, rfl⟩ := hs
        intro x hx
        rcases List.mem_append.1 hx with hx | hx
        · exact List.mem_append_left _ (ih (List.mem_of_getLast? hlast) x hx)
        · exact List.mem_append_right _ hx

end

theorem Reading.settled {sizes : List Nat} {m : Mux Unit} (h : Reading sizes m)
    (hsound : ∀ q, m.Sound q) (hatt : m.Attentive) :
    (stretches m.history).length ≤ sizes.length ∧ [] ∉ reads m.history ∧
      (∀ s ∈ (stretches m.history).dropLast, taken s <+: gathered s) ∧
      ∀ s ∈ stretches m.history, taken s <+: reads s := by
  cases h with
  | between done todo hsizes hcalls hcode hsettled hsolid =>
    rw [hcalls, hsizes, List.length_append]
    exact ⟨Nat.le_add_right .., hsolid, fun s hs => hsettled s (List.mem_of_mem_dropLast hs),
      fun s hs => (hsettled s hs).trans (gathered_reads s)⟩
  | within q size done todo hsizes ss before s hcalls hlast hhistory hcode hsub htaken
    hopen hsettled
      hsolid =>
    rw [hlast, List.dropLast_concat, List.length_append, hcalls, hsizes, List.length_append,
      List.forall_mem_append, List.forall_mem_singleton]
    refine ⟨?_, hsolid, hsettled, fun s hs => (hsettled s hs).trans (gathered_reads s),
      taken_prefix (hsound q) hatt hhistory hsub htaken⟩
    simp

/-- The pieces follow one another in what is read from the first call on, without a gap. -/
structure Contiguous (sizes : List Nat) (h : List (MuxEvent T)) : Prop where
  joined : (pieces sizes (stretches h).dropLast).flatten =
    (reads (stretches h).dropLast.flatten).flatten
  goesOn : (pieces sizes (stretches h)).flatten <+: (reads (stretches h).flatten).flatten

theorem contiguous_of_joined {sizes : List Nat} {h : List (MuxEvent T)}
    (hlen : (stretches h).length ≤ sizes.length) (htaken : ∀ s ∈ stretches h, taken s <+: reads s)
    (hjoined : (pieces sizes (stretches h).dropLast).flatten =
      (reads (stretches h).dropLast.flatten).flatten) : Contiguous sizes h := by
  refine ⟨hjoined, ?_⟩
  rcases List.eq_nil_or_concat (stretches h) with hnil | ⟨ss, s, hss⟩
  · rw [hnil, pieces, List.zipWith_nil_right]
    exact List.nil_prefix
  · rw [List.concat_eq_append] at hss
    rw [hss, List.dropLast_concat] at hjoined
    rw [hss, List.forall_mem_append, List.forall_mem_singleton] at htaken
    have hlast (rest : List Nat) : (pieces rest [s]).flatten <+: (reads s).flatten := by
      cases rest with
      | nil => exact List.nil_prefix
      | cons size rest =>
        rw [pieces, List.zipWith_cons_cons, List.zipWith_nil_right, List.flatten_singleton]
        exact (List.take_prefix _ _).trans htaken.2.flatten
    have hle : ss.length ≤ sizes.length := by
      rw [hss, List.length_append] at hlen
      omega
    rw [hss, pieces_append hle, List.flatten_append, hjoined, List.flatten_append, reads_append,
      List.flatten_append, List.flatten_singleton]
    exact (List.prefix_append_right_inj _).2 (hlast _)

/-- Successive calls that get their full sizes return, one behind the other, all that is read from
the first to the last of them exactly when every chunk fits the call that waits for it. -/
theorem rawReads_contiguous_iff {sizes : List Nat} {acts : List (Act Unit)} {m : Mux Unit}
    (hr : (Mux.start fun _ => rawReads [] sizes).run acts = some m)
    (hfull : FullSize sizes (stretches m.history).dropLast) :
    Contiguous sizes m.history ↔ OnTime sizes (stretches m.history).dropLast := by
  obtain ⟨hsound, hatt, h⟩ := reading_run hr
  obtain ⟨hlen, hsolid, hsettled, htaken⟩ := h.settled hsound hatt
  have hdrop : (stretches m.history).dropLast.length ≤ sizes.length := by
    rw [List.length_dropLast]
    omega
  have hjoined : Contiguous sizes m.history ↔
      (pieces sizes (stretches m.history).dropLast).flatten =
      (reads (stretches m.history).dropLast.flatten).flatten :=
    ⟨Contiguous.joined, contiguous_of_joined hlen htaken⟩
  rw [hjoined, (pieces_eq_iff hdrop hsettled).2]
  apply forall₂_congr
  intro c hc
  have hmem := (List.of_mem_zip hc).2
  have hsolid' : [] ∉ reads c.2 := by
    intro hnil
    obtain ⟨e, he, hread⟩ := List.mem_filterMap.1 hnil
    exact hsolid (List.mem_filterMap.2
      ⟨e, mem_stretches (List.mem_of_mem_dropLast hmem) e he, hread⟩)
  exact piece_eq_iff (hsettled c.2 hmem) hsolid' (hfull c hc)

/-- A call up to the end of its first turn, with this chunk at the port in time. -/
def servedCall (chunk : Bytes) : List (Act Unit) :=
  [.client () 0, .client () 9, .read chunk, .publish, .publish, .publish, .client () 0,
    .client () 0]

theorem fitsCall_read {c : Bytes} {size : Nat} {s : List (MuxEvent T)} (hc : c.length ≤ size)
    (hs : reads s = []) : FitsCall size (.read c :: s) := by
  intro before chunk after heq
  cases before with
  | nil =>
    cases heq
    exact ⟨rfl, (Nat.zero_add _).le.trans hc⟩
  | cons e before =>
    have htail : s = before ++ .read chunk :: after := (List.cons.inj heq).2
    rw [htail, reads_append, List.append_eq_nil_iff] at hs
    cases hs.2

theorem rawReads_inTime : ∃ m, (Mux.start fun _ => rawReads [] [2, 1, 4]).run
      (servedCall (ascii "OK") ++ servedCall (ascii "!") ++ [.client () 0]) = some m ∧
    pieces [2, 1, 4] (stretches m.history) = [ascii "OK", ascii "!", []] ∧
      Contiguous [2, 1, 4] m.history := by
  have hrun : ((Mux.start fun _ => rawReads [] [2, 1, 4]).run
      (servedCall (ascii "OK") ++ servedCall (ascii "!") ++ [.client () 0])).map
        (fun m => stretches m.history) = some [
      [.read (ascii "OK"), .took () 1 (ascii "OK"), .unsubscribed () 1],
      [.read (ascii "!"), .took () 2 (ascii "!"), .unsubscribed () 2], []] := by decide +kernel
  obtain ⟨m, hr, hss⟩ := Option.map_eq_some_iff.1 hrun
  have hfull : FullSize [2, 1, 4] (stretches m.history).dropLast := by
    rw [hss]
    unfold FullSize
    decide +kernel
  refine ⟨m, hr, ?_, (rawReads_contiguous_iff hr hfull).2 ?_⟩
  · rw [hss]
    decide +kernel
  · rw [hss]
    intro c hc
    rcases List.mem_cons.1 hc with rfl | hc
    · exact fitsCall_read (by decide +kernel) rfl
    · rw [List.mem_singleton.1 hc]
      exact fitsCall_read (by decide +kernel) rfl

/-- A chunk that is longer than the call: what is behind its size is gone. -/
theorem rawReads_skips : ∃ m, (Mux.start fun _ => rawReads [] [2, 2, 4]).run
      (servedCall (ascii "OK!\n") ++ servedCall (ascii "> ") ++ [.client () 0]) = some m ∧
    FullSize [2, 2, 4] (stretches m.history).dropLast ∧
      pieces [2, 2, 4] (stretches m.history) = [ascii "OK", ascii "> ", []] ∧
      reads m.history = [ascii "OK!\n", ascii "> "] ∧ ¬ Contiguous [2, 2, 4] m.history := by
  have hrun : ((Mux.start fun _ => rawReads [] [2, 2, 4]).run
      (servedCall (ascii "OK!\n") ++ servedCall (ascii "> ") ++ [.client () 0])).map
        (fun m => (stretches m.history, reads m.history)) = some ([
      [.read (ascii "OK!\n"), .took () 1 (ascii "OK!\n"), .unsubscribed () 1],
      [.read (ascii "> "), .took () 2 (ascii "> "), .unsubscribed () 2], []],
      [ascii "OK!\n", ascii "> "]) := by decide +kernel
  obtain ⟨m, hr, hm⟩ := Option.map_eq_some_iff.1 hrun
  obtain ⟨hss, hreads⟩ := Prod.mk.inj hm
  refine ⟨m, hr, ?_, ?_, hreads, fun h => ?_⟩
  · rw [hss]
    unfold FullSize
    decide +kernel
  · rw [hss]
    decide +kernel
  · have hjoined := h.joined
    rw [hss] at hjoined
    revert hjoined
    decide +kernel

end MesCore
