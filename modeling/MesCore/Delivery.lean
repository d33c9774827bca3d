import MesCore.Mux
import Mathlib.Data.List.Nodup

namespace MesCore
set_option autoImplicit true

theorem ear_append (q : QueueId) (h h' : List (MuxEvent T)) :
    ear q (h ++ h') = h'.foldl (Ear.hear q) (ear q h) := List.foldl_append

@[simp] theorem ear_concat (q : QueueId) (h : List (MuxEvent T)) (e : MuxEvent T) :
    ear q (h ++ [e]) = (ear q h).hear q e := ear_append q h [e]

theorem gone_append (q : QueueId) (h h' : List (MuxEvent T)) :
    gone q (h ++ h') = gone q h ++ gone q h' := List.filterMap_append

/-- Events that say nothing about a queue. -/
def MuxEvent.Other (q : QueueId) : MuxEvent T → Prop
  | .read _ => False
  | .subscribed _ q' | .unsubscribed _ q' | .took _ q' _ | .drained _ q' _ => q' ≠ q
  | .dropped _ _ | .wrote _ _ | .written _ => True

theorem MuxEvent.Other.hear {e : MuxEvent T} (h : e.Other q) (a : Ear) : a.hear q e = a := by
  cases e <;> first | exact h.elim | exact if_neg h | rfl

theorem MuxEvent.Other.outOf {e : MuxEvent T} (h : e.Other q) : e.outOf q = none := by
  cases e <;> first | exact if_neg h | rfl

theorem gone_concat {e : MuxEvent T} (h : e.outOf q = none) (hs : List (MuxEvent T)) :
    gone q (hs ++ [e]) = gone q hs := by
  rw [gone_append, gone, gone, List.filterMap_cons_none h, List.filterMap_nil, List.append_nil]

def MuxEvent.joins (q : QueueId) : MuxEvent T → Bool
  | .subscribed _ q' => q' = q
  | _ => false

def joins (q : QueueId) (h : List (MuxEvent T)) : Nat := h.countP (MuxEvent.joins q)

theorem MuxEvent.Other.joins {e : MuxEvent T} (h : e.Other q) : e.joins q = false := by
  cases e <;> first | exact decide_eq_false h | rfl

theorem joins_concat {e : MuxEvent T} (h : e.joins q = false) (hs : List (MuxEvent T)) :
    MesCore.joins q (hs ++ [e]) = MesCore.joins q hs := by
  rw [MesCore.joins, MesCore.joins, List.countP_append, List.countP_singleton, h]
  rfl

/-- What every run keeps: who is subscribed, and the account of an unbounded queue. -/
structure Mux.Sound (q : QueueId) (m : Mux T) : Prop where
  nodup : m.subscribers.Nodup
  bound : ∀ s ∈ m.subscribers, s < m.fresh
  default_lt : defaultQueue < m.fresh
  todo : m.holder.todo <:+ m.subscribers
  unborn : m.fresh ≤ q → m.queue q = {}
  joined : joins q m.history = if q < m.fresh ∧ q ≠ defaultQueue then 1 else 0
  listening : (ear q m.history).isOpen = true ↔ q ∈ m.subscribers
  balance : q ≠ defaultQueue → (m.queue q).maxsize = 0 → window q m.history =
    (gone q m.history).map Prod.fst ++ (m.queue q).items ++ m.holder.pending q

section
variable {q q' : QueueId} {m m' : Mux T} {c : Bytes} {items : List Bytes}

theorem Mux.start_sound (q : QueueId) (code : T → Code) : (Mux.start code).Sound q where
  nodup := List.nodup_singleton _
  bound s hs := by
    rw [List.mem_singleton.1 hs]
    exact Nat.lt_succ_self _
  default_lt := Nat.lt_succ_self _
  todo := List.nil_suffix
  unborn h := if_neg (Nat.ne_of_gt (Nat.lt_of_succ_le h))
  joined := by
    refine (if_neg ?_).symm
    rintro ⟨hlt, hq⟩
    exact hq (Nat.lt_one_iff.1 hlt)
  listening := by
    change decide (q = defaultQueue) = true ↔ q ∈ [defaultQueue]
    rw [decide_eq_true_iff, List.mem_singleton]
  balance hq _ := by
    change [] = [].map Prod.fst ++ (if q = defaultQueue then _ else _ : RxQueue T).items ++ []
    rw [if_neg hq]
    rfl

theorem Mux.Sound.log {e : MuxEvent T} (h : m.Sound q) (he : e.Other q) : (m.log e).Sound q where
  nodup := h.nodup
  bound := h.bound
  default_lt := h.default_lt
  todo := h.todo
  unborn := h.unborn
  joined := (joins_concat he.joins _).trans h.joined
  listening := by
    change (ear q (m.history ++ [e])).isOpen = true ↔ _
    rw [ear_concat, he.hear]
    exact h.listening
  balance hq hmax := by
    change (ear q (m.history ++ [e])).heard = (gone q (m.history ++ [e])).map _ ++ _ ++ _
    rw [ear_concat, he.hear, gone_concat he.outOf]
    exact h.balance hq hmax

theorem Mux.Sound.hold {k : Holder T} (h : m.Sound q) (ht : k.todo <:+ m.subscribers)
    (hp : q ≠ defaultQueue → (m.queue q).maxsize = 0 → k.pending q = m.holder.pending q) :
    (m.hold k).Sound q where
  nodup := h.nodup
  bound := h.bound
  default_lt := h.default_lt
  todo := ht
  unborn := h.unborn
  joined := h.joined
  listening := h.listening
  balance hq hmax := by
    change _ = _ ++ _ ++ k.pending q
    rw [hp hq hmax]
    exact h.balance hq hmax

theorem Mux.Sound.setItems (h : m.Sound q) (hq : q' ≠ q) : (m.setItems q' items).Sound q where
  nodup := h.nodup
  bound := h.bound
  default_lt := h.default_lt
  todo := h.todo
  unborn hf := (Function.update_of_ne hq.symm ..).trans (h.unborn hf)
  joined := h.joined
  listening := h.listening
  balance hd := by
    rw [show (m.setItems q' items).queue q = m.queue q from Function.update_of_ne hq.symm ..]
    exact h.balance hd

theorem Mux.Sound.setDefault (h : m.Sound q) : (m.setItems defaultQueue items).Sound q := by
  by_cases hq : defaultQueue = q
  · subst hq
    exact {
      nodup := h.nodup
      bound := h.bound
      default_lt := h.default_lt
      todo := h.todo
      unborn := fun hf => absurd h.default_lt (Nat.not_lt.2 hf)
      joined := h.joined
      listening := h.listening
      balance := fun hd => absurd rfl hd }
  · exact h.setItems hq

theorem Mux.Sound.put {k : Holder T} (h : m.Sound q) (hf : q < m.fresh)
    (ht : k.todo <:+ m.subscribers) (hk : k.pending q = []) (hm : m.holder.pending q = [c]) :
    ((m.put q c).hold k).Sound q where
  nodup := h.nodup
  bound := h.bound
  default_lt := h.default_lt
  todo := ht
  unborn hf' := absurd hf (Nat.not_lt.2 hf')
  joined := h.joined
  listening := h.listening
  balance hq := by
    change (Function.update m.queue q _ q).maxsize = 0 →
      _ = _ ++ (Function.update m.queue q _ q).items ++ k.pending q
    rw [Function.update_self, hk, List.append_nil, ← List.append_assoc]
    intro hmax
    have hb := h.balance hq hmax
    rw [hm] at hb
    exact hb

theorem Mux.Sound.leave {e : MuxEvent T} {b : Bool} (h : m.Sound q)
    (hi : (m.queue q).items = c :: items) (hear : ∀ a : Ear, a.hear q e = a)
    (hj : e.joins q = false) (he : e.outOf q = some (c, b)) :
    ((m.setItems q items).log e).Sound q where
  nodup := h.nodup
  bound := h.bound
  default_lt := h.default_lt
  todo := h.todo
  unborn hf := by
    rw [h.unborn hf] at hi
    cases hi
  joined := (joins_concat hj _).trans h.joined
  listening := by
    change (ear q (m.history ++ [e])).isOpen = true ↔ _
    rw [ear_concat, hear]
    exact h.listening
  balance hq := by
    change (Function.update m.queue q _ q).maxsize = 0 → (ear q (m.history ++ [e])).heard =
      (gone q (m.history ++ [e])).map Prod.fst ++ (Function.update m.queue q _ q).items ++
        m.holder.pending q
    rw [Function.update_self, ear_concat, hear, gone_append]
    intro hmax
    have hb := h.balance hq hmax
    rw [hi] at hb
    rw [show gone q [e] = [(c, b)] from List.filterMap_cons_some he, List.map_append, ← window, hb]
    simp

theorem Mux.readChunk_some (hs : m.readChunk c = some m') :
    m.holder = .free ∧ c ≠ [] ∧ m' = (m.log (.read c)).hold (.publishing c m.subscribers) := by
  rw [Mux.readChunk] at hs
  split at hs
  · rename_i hfree
    split at hs
    · cases hs
    · rename_i hne
      cases hs
      exact ⟨hfree, hne, rfl⟩
  · cases hs

/-- A step of the daemon's loop goes on, drops a chunk or puts one into a queue, in whose place it
may have dropped another. -/
theorem Mux.publish_some (hs : m.publish = some m') :
    ∃ k, (∀ t todo, k ≠ .flushing t todo) ∧ (m' = m.hold k ∨
      (∃ q c, m' = (m.log (.dropped q c)).hold k) ∨
      (∃ q items, m' = (m.setItems q items).hold k) ∨
      ∃ q c items, m' = ((m.setItems q items).log (.dropped q c)).hold k) := by
  rw [Mux.publish] at hs
  split at hs
  · cases hs
    exact ⟨.free, nofun, .inl rfl⟩
  · split at hs
    · split at hs
      · cases hs
        exact ⟨.evicting _ _, nofun, .inl rfl⟩
      · cases hs
        exact ⟨.publishing _ _, nofun, .inr (.inl ⟨_, _, rfl⟩)⟩
    · cases hs
      exact ⟨.publishing _ _, nofun, .inr (.inr (.inl ⟨_, _, rfl⟩))⟩
  · split at hs
    · cases hs
      exact ⟨.retrying _ _, nofun, .inl rfl⟩
    · cases hs
      exact ⟨.retrying _ _, nofun, .inr (.inr (.inr ⟨_, _, _, rfl⟩))⟩
  · split at hs
    · cases hs
      exact ⟨.publishing _ _, nofun, .inr (.inl ⟨_, _, rfl⟩)⟩
    · cases hs
      exact ⟨.publishing _ _, nofun, .inr (.inr (.inl ⟨_, _, rfl⟩))⟩
  · cases hs

theorem Mux.Sound.readChunk (h : m.Sound q) (hs : m.readChunk c = some m') : m'.Sound q := by
  obtain ⟨hfree, -, rfl⟩ := Mux.readChunk_some hs
  have hear : ear q (m.history ++ [.read c]) =
      if (ear q m.history).isOpen then { ear q m.history with
        heard := (ear q m.history).heard ++ [c] } else ear q m.history := ear_concat ..
  exact {
    nodup := h.nodup
    bound := h.bound
    default_lt := h.default_lt
    todo := List.suffix_refl _
    unborn := h.unborn
    joined := (joins_concat rfl _).trans h.joined
    listening := by
      change (ear q (m.history ++ [.read c])).isOpen = true ↔ q ∈ m.subscribers
      rw [hear, ← h.listening]
      split <;> rfl
    balance := by
      intro hq hmax
      have hb := h.balance hq hmax
      rw [hfree] at hb
      change (ear q (m.history ++ [.read c])).heard = (gone q (m.history ++ [.read c])).map _ ++
        (m.queue q).items ++ if q ∈ m.subscribers then [c] else []
      rw [hear, gone_concat rfl, if_congr h.listening.symm rfl rfl]
      split
      · change window q m.history ++ [c] = _
        rw [hb]
        simp [Holder.pending]
      · simpa [window, Holder.pending] using hb }

theorem Mux.Sound.publish (h : m.Sound q) (hs : m.publish = some m') : m'.Sound q := by
  have hlt (hk : q ∈ m.holder.todo) : q < m.fresh := h.bound q (h.todo.subset hk)
  have hnodup : m.holder.todo.Nodup := h.nodup.sublist h.todo.sublist
  have htodo := h.todo
  rw [Mux.publish] at hs
  split at hs
  · rename_i chunk hold
    cases hs
    exact h.hold List.nil_suffix fun _ _ => by rw [hold]; rfl
  · rename_i chunk q' todo hold
    rw [hold] at hnodup htodo
    have hsuf : todo <:+ m.subscribers := (List.suffix_cons q' todo).trans htodo
    have hpend (hq : q ≠ q') :
        (if q ∈ todo then [chunk] else []) = m.holder.pending q := by
      rw [hold, Holder.pending]
      simp only [List.mem_cons, hq, false_or]
    split at hs
    · rename_i hfull
      split at hs
      · rename_i hdef
        cases hs
        exact h.hold hsuf fun hq _ => hpend (by rwa [hdef])
      · cases hs
        refine (h.log (e := .dropped q' chunk) trivial).hold hsuf fun hq hmax => hpend ?_
        rintro rfl
        simp [RxQueue.full, show (m.queue q).maxsize = 0 from hmax] at hfull
    · cases hs
      by_cases hq : q = q'
      · subst hq
        refine h.put (hlt (by rw [hold]; exact List.mem_cons_self ..)) hsuf ?_ ?_
        · exact if_neg (List.nodup_cons.1 hnodup).1
        · rw [hold, Holder.pending, if_pos (List.mem_cons_self ..)]
      · exact (h.setItems (Ne.symm hq)).hold hsuf fun _ _ => hpend hq
  · rename_i chunk todo hold
    rw [hold] at htodo
    split at hs
    · cases hs
      exact h.hold htodo fun _ _ => by rw [hold]; rfl
    · rename_i old items hi
      cases hs
      refine (h.setDefault.log (e := .dropped defaultQueue old) trivial).hold htodo fun _ _ => ?_
      change _ = m.holder.pending q
      rw [hold]
      rfl
  · rename_i chunk todo hold
    rw [hold] at htodo
    split at hs
    · cases hs
      exact (h.log (e := .dropped defaultQueue chunk) trivial).hold htodo fun _ _ => by
        change _ = m.holder.pending q
        rw [hold]
        rfl
    · cases hs
      refine h.setDefault.hold htodo fun _ _ => ?_
      change _ = m.holder.pending q
      rw [hold]
      rfl
  · cases hs

end

section
variable [DecidableEq T] {q q' : QueueId} {m m' : Mux T} {t : T} {n : Nat}

theorem Mux.Sound.goOn {code : Code} (h : m.Sound q) : (m.goOn t code).Sound q := { h with }

theorem Mux.Sound.subscribe {next : QueueId → Code} (h : m.Sound q)
    (hs : m.subscribe t n next = some m') : m'.Sound q := by
  have hnew : m.fresh ∉ m.subscribers := fun hm => Nat.lt_irrefl _ (h.bound _ hm)
  rw [Mux.subscribe] at hs
  split at hs
  · rename_i hfree
    cases hs
    refine Mux.Sound.goOn (m := Mux.log _ _) ?_
    exact {
      nodup := List.nodup_append'.2 ⟨h.nodup, List.nodup_singleton _, by simpa using hnew⟩
      bound := by
        intro s hs
        rcases List.mem_append.1 hs with hs | hs
        · exact Nat.lt_succ_of_lt (h.bound s hs)
        · rw [List.mem_singleton.1 hs]
          exact Nat.lt_succ_self _
      default_lt := Nat.lt_succ_of_lt h.default_lt
      todo := by
        change m.holder.todo <:+ _
        rw [hfree]
        exact List.nil_suffix
      unborn := by
        intro hf
        exact (Function.update_of_ne (Nat.ne_of_gt hf) ..).trans (h.unborn (Nat.le_of_lt hf))
      joined := by
        have hj := h.joined
        have hd := h.default_lt
        change joins q (m.history ++ [.subscribed t m.fresh]) =
          if q < m.fresh + 1 ∧ q ≠ defaultQueue then 1 else 0
        rw [joins, List.countP_append, List.countP_singleton, ← joins, hj, MuxEvent.joins]
        by_cases hq : m.fresh = q
        · have hne : q ≠ defaultQueue := by
            rintro rfl
            exact Nat.ne_of_gt hd hq
          simp [hq, hne]
        · have hlt : q < m.fresh + 1 ↔ q < m.fresh :=
            Nat.lt_succ_iff_lt_or_eq.trans (or_iff_left (Ne.symm hq))
          simp [hq, hlt]
      listening := by
        change (ear q (m.history ++ [.subscribed t m.fresh])).isOpen = true ↔
          q ∈ m.subscribers ++ [m.fresh]
        rw [ear_concat, Ear.hear, List.mem_append, List.mem_singleton, ← h.listening]
        split
        · exact iff_of_true rfl (.inr (Eq.symm ‹_›))
        · exact (or_iff_left (Ne.symm ‹_›)).symm
      balance := by
        intro hq
        have hheard :
            (ear q (m.history ++ [.subscribed t m.fresh])).heard = window q m.history := by
          rw [ear_concat, Ear.hear]
          split <;> rfl
        change (Function.update m.queue m.fresh _ q).maxsize = 0 →
          (ear q (m.history ++ [.subscribed t m.fresh])).heard =
            (gone q (m.history ++ [.subscribed t m.fresh])).map _ ++
              (Function.update m.queue m.fresh _ q).items ++ m.holder.pending q
        rw [hheard, gone_concat rfl]
        by_cases hf : q = m.fresh
        · have hq' := h.unborn (Nat.le_of_eq hf.symm)
          have hb := h.balance hq (by rw [hq'])
          rw [hq'] at hb
          rw [← hf, Function.update_self]
          intro _
          exact hb
        · rw [Function.update_of_ne hf]
          exact h.balance hq }
  · cases hs

theorem Mux.Sound.unsubscribe {next : Code} (h : m.Sound q)
    (hs : m.unsubscribe t q' next = some m') : m'.Sound q := by
  rw [Mux.unsubscribe] at hs
  split at hs
  · rename_i hfree
    split at hs
    · cases hs
      refine Mux.Sound.goOn (m := Mux.log _ _) ?_
      exact {
        nodup := h.nodup.erase _
        bound := fun s hs => h.bound s (List.mem_of_mem_erase hs)
        default_lt := h.default_lt
        todo := by
          change m.holder.todo <:+ _
          rw [hfree]
          exact List.nil_suffix
        unborn := h.unborn
        joined := (joins_concat rfl _).trans h.joined
        listening := by
          change (ear q (m.history ++ [.unsubscribed t q'])).isOpen = true ↔
            q ∈ m.subscribers.erase q'
          rw [ear_concat, Ear.hear, h.nodup.mem_erase_iff, ← h.listening]
          split
          · rename_i hq
            exact iff_of_false Bool.false_ne_true fun ⟨hne, _⟩ => hne hq.symm
          · rename_i hq
            exact (and_iff_right (Ne.symm hq)).symm
        balance := by
          intro hq hmax
          have hheard : (ear q (m.history ++ [.unsubscribed t q'])).heard =
              window q m.history := by
            rw [ear_concat, Ear.hear]
            split <;> rfl
          change (ear q (m.history ++ [.unsubscribed t q'])).heard =
            (gone q (m.history ++ [.unsubscribed t q'])).map _ ++ (m.queue q).items ++
              m.holder.pending q
          rw [hheard, gone_concat rfl]
          exact h.balance hq hmax }
    · cases hs
      exact h.goOn
  · cases hs

theorem Mux.Sound.get {next : Option Bytes → Code} (h : m.Sound q)
    (hs : m.get t q' next = some m') : m'.Sound q := by
  rw [Mux.get] at hs
  split at hs
  · split at hs
    · cases hs
      exact h.goOn
    · rename_i chunk items hi
      cases hs
      by_cases hq : q' = q
      · subst hq
        exact (h.leave (e := .took t q' chunk) (b := true) hi (fun _ => rfl) rfl (if_pos rfl)).goOn
      · exact ((h.setItems hq).log (e := .took t q' chunk) hq).goOn
  · cases hs

theorem Mux.Sound.flush {next : Code} (h : m.Sound q) (hs : m.flush t next = some m') :
    m'.Sound q := by
  have hnone (hp : m.holder.pending q = []) (k : Holder T) (hk : k.pending q = [])
      (ht : k.todo = []) : (m.hold k).Sound q :=
    h.hold (by rw [ht]; exact List.nil_suffix) fun _ _ => hk.trans hp.symm
  rw [Mux.flush] at hs
  split at hs
  · rename_i hold
    cases hs
    exact hnone (by rw [hold]; rfl) _ rfl rfl
  · rename_i u hold
    split at hs
    · cases hs
      exact (hnone (by rw [hold]; rfl) _ rfl rfl).goOn
    · cases hs
  · rename_i u q' todo hold
    split at hs
    · split at hs
      · cases hs
        exact hnone (by rw [hold]; rfl) _ rfl rfl
      · rename_i chunk items hi
        cases hs
        by_cases hq : q' = q
        · subst hq
          exact h.leave (e := .drained t q' chunk) (b := false) hi (fun _ => rfl) rfl (if_pos rfl)
        · exact (h.setItems hq).log (e := .drained t q' chunk) hq
    · cases hs
  · cases hs

theorem Mux.Sound.client (h : m.Sound q) (hs : m.client t n = some m') : m'.Sound q := by
  rw [Mux.client] at hs
  split at hs
  · cases hs
  · exact h.subscribe hs
  · exact h.unsubscribe hs
  · exact h.get hs
  · exact h.flush hs
  · rename_i data next hc
    split at hs
    · cases hs
      exact h.goOn
    · cases hs
      exact (h.log (e := .wrote t data) trivial).goOn
  · cases hs
    exact h.goOn
  · cases hs
    exact (h.log (e := .written t) trivial).goOn

theorem Mux.Sound.step {a : Act T} (h : m.Sound q) (hs : m.step a = some m') : m'.Sound q := by
  cases a with
  | read c => exact h.readChunk hs
  | publish => exact h.publish hs
  | client t n => exact h.client hs

/-- What one step keeps, a whole run keeps. -/
theorem Mux.run_induct {P : Mux T → Prop} (hstep : ∀ m a m', P m → m.step a = some m' → P m')
    {acts : List (Act T)} (h : P m) (hr : m.run acts = some m') : P m' := by
  induction acts generalizing m with
  | nil =>
    cases hr
    exact h
  | cons a acts ih =>
    obtain ⟨m₁, h₁, hr⟩ := Option.bind_eq_some_iff.1 hr
    exact ih (hstep m a m₁ h h₁) hr

theorem Mux.run_sound {code : T → Code} {acts : List (Act T)} (q : QueueId)
    (hr : (Mux.start code).run acts = some m) : m.Sound q :=
  Mux.run_induct (fun _ _ _ h hs => h.step hs) (Mux.start_sound q code) hr

end

theorem obtained_eq (q : QueueId) (h : List (MuxEvent T)) :
    obtained q h = ((gone q h).filter Prod.snd).map Prod.fst := by
  rw [obtained, gone, List.filter_filterMap, List.map_filterMap]
  apply List.filterMap_congr
  intro e _
  cases e with
  | took t q' c => by_cases hq : q' = q <;> simp [MuxEvent.outOf, Option.filter, hq]
  | drained t q' c => by_cases hq : q' = q <;> simp [MuxEvent.outOf, Option.filter, hq]
  | _ => rfl

theorem flushed_eq (q : QueueId) (h : List (MuxEvent T)) :
    flushed q h = ((gone q h).filter fun x => !x.2).map Prod.fst := by
  rw [flushed, gone, List.filter_filterMap, List.map_filterMap]
  apply List.filterMap_congr
  intro e _
  cases e with
  | took t q' c => by_cases hq : q' = q <;> simp [MuxEvent.outOf, Option.filter, hq]
  | drained t q' c => by_cases hq : q' = q <;> simp [MuxEvent.outOf, Option.filter, hq]
  | _ => rfl

theorem Mux.Sound.window_obtained {q : QueueId} {m : Mux T} (h : m.Sound q)
    (hq : q ≠ defaultQueue) (hmax : (m.queue q).maxsize = 0) (hf : flushed q m.history = []) :
    window q m.history = obtained q m.history ++ (m.queue q).items ++ m.holder.pending q := by
  have hall : (gone q m.history).filter Prod.snd = gone q m.history := by
    rw [flushed_eq, List.map_eq_nil_iff, List.filter_eq_nil_iff] at hf
    rw [List.filter_eq_self]
    intro x hx
    simpa using hf x hx
  rw [obtained_eq, hall]
  exact h.balance hq hmax

def watchdogAndFlush : Bool → Code
  | true => monitor 1 []
  | false => .flush .done

/-- The daemon publishes a chunk to the default queue and the one of the watchdog. -/
def publishOne : List (Act Bool) :=
  [.client true 0, .client true 9, .read [0x41], .publish, .publish, .publish]

/-- A flush that starts before the watchdog gets to its queue drains the chunk. -/
theorem flush_robs_watchdog :
    ((Mux.start watchdogAndFlush).run (publishOne ++ (List.replicate 6 (.client false 0)))).map
      (fun m => (window 1 m.history, obtained 1 m.history, (m.queue 1).items,
        m.holder.pending 1)) = some ([[0x41]], [], [], []) := by
  decide

/-- An unbounded queue is given every chunk that is read while it is subscribed, once and in order;
they leave it in that order, to its client or to a flush. -/
theorem Mux.delivers [DecidableEq T] {code : T → Code} {acts : List (Act T)} {m : Mux T}
    (hr : (Mux.start code).run acts = some m) {q : QueueId} (hq : q ≠ defaultQueue)
    (hmax : (m.queue q).maxsize = 0) :
    (∃ left : List (Bytes × Bool),
      window q m.history = left.map Prod.fst ++ (m.queue q).items ++ m.holder.pending q ∧
      obtained q m.history = (left.filter fun x => x.2).map Prod.fst ∧
      flushed q m.history = (left.filter fun x => !x.2).map Prod.fst) ∧
      (flushed q m.history = [] →
        window q m.history = obtained q m.history ++ (m.queue q).items ++ m.holder.pending q) := by
  have h := Mux.run_sound q hr
  exact ⟨⟨gone q m.history, h.balance hq hmax, obtained_eq q _, flushed_eq q _⟩,
    h.window_obtained hq hmax⟩

theorem watchdog_delivered : ∃ m,
    (Mux.start watchdogAndFlush).run (publishOne ++ [.client true 0]) = some m ∧
      obtained 1 m.history = [[0x41]] ∧
      window 1 m.history = obtained 1 m.history ++ (m.queue 1).items ++ m.holder.pending 1 := by
  have hrun : ((Mux.start watchdogAndFlush).run (publishOne ++ [.client true 0])).map
      (fun m => ((m.queue 1).maxsize, flushed 1 m.history, obtained 1 m.history)) =
      some (0, [], [[0x41]]) := by decide
  obtain ⟨m, hr, hm⟩ := Option.map_eq_some_iff.1 hrun
  simp only [Prod.mk.injEq] at hm
  exact ⟨m, hr, hm.2.2, (Mux.delivers hr (by decide) hm.1).2 hm.2.1⟩

end MesCore
