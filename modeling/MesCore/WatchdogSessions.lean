import MesCore.Watchdog

namespace MesCore
set_option autoImplicit true

/-- The calls on the watchdog and the chunks delivered to its loop, each as one step. -/
inductive WatchdogAct
  | start
  | stop
  | mute
  | unmute
  | chunk (c : Bytes)
  deriving DecidableEq

/-- The watchdog, whether its loop runs, and every byte the loop was given: a byte counts if it
came unmuted and after the latest `start`, `unmute` and raised panic. -/
structure Session where
  dog : Watchdog := {}
  alive : Bool := false
  received : List (UInt8 × Bool) := []

def forget (l : List (UInt8 × Bool)) : List (UInt8 × Bool) := l.map fun b => (b.1, false)

def Session.receive (s : Session) (c : Bytes) : List (UInt8 × Bool) :=
  s.received ++ (stripAnsi c).map fun b => (b, !s.dog.muted)

def Session.step (s : Session) : WatchdogAct → Session
  | .start =>
    { dog := if s.alive then s.dog else s.dog.rearm, alive := true, received := forget s.received }
  | .stop => { s with alive := false }
  | .mute => { s with dog := s.dog.mute }
  | .unmute => { s with dog := s.dog.unmute, received := forget s.received }
  | .chunk c =>
    if s.alive then
      { s with
        dog := (s.dog.hear c).1
        received := if (s.dog.hear c).2 then forget (s.receive c) else s.receive c }
    else s

def Session.run (as : List WatchdogAct) : Session := as.foldl Session.step {}

def Session.raises (s : Session) (c : Bytes) : Bool := s.alive && (s.dog.hear c).2

def bytesOf (l : List (UInt8 × Bool)) : Bytes := l.map Prod.fst

/-- With this chunk in, some signature ends in a byte that counts. -/
def Session.Justified (s : Session) (c : Bytes) : Prop :=
  ∃ i n b, panicLexicon.Occurs (bytesOf (s.receive c)) i n ∧
    (s.receive c)[i + n - 1]? = some (b, true)

/-- A chunk that completes no signature, delivered unmuted while the window keeps one. -/
def Session.Stale (s : Session) (c : Bytes) : Prop :=
  s.alive = true ∧ s.dog.muted = false ∧ panicLexicon.Found (s.dog.grown c) ∧
    ∀ i n, panicLexicon.Occurs (bytesOf s.received ++ stripAnsi c) i n →
      i + n ≤ s.received.length

/-- The window holds bytes that were received, and a signature only where nothing counts. -/
structure Session.Sound (s : Session) : Prop where
  window : s.dog.rollingWindow <:+ bytesOf s.received
  settled : panicLexicon.Found s.dog.rollingWindow → ∀ b ∈ s.received, b.2 = false

theorem bytesOf_forget (l : List (UInt8 × Bool)) : bytesOf (forget l) = bytesOf l := by
  rw [bytesOf, forget, List.map_map]
  rfl

theorem forget_mark {l : List (UInt8 × Bool)} : ∀ b ∈ forget l, b.2 = false := by
  intro b hb
  obtain ⟨a, _, rfl⟩ := List.mem_map.1 hb
  rfl

theorem bytesOf_receive (s : Session) (c : Bytes) :
    bytesOf (s.receive c) = bytesOf s.received ++ stripAnsi c := by
  rw [bytesOf, Session.receive, List.map_append, List.map_map, bytesOf]
  congr 1
  exact List.map_id _

theorem Watchdog.grown_suffix {w : Watchdog} {s : Bytes} (h : w.rollingWindow <:+ s) (c : Bytes) :
    w.grown c <:+ s ++ stripAnsi c := by
  obtain ⟨r, rfl⟩ := h
  refine (lastBytes_suffix _ _).trans ?_
  rw [List.append_assoc]
  exact List.suffix_append _ _

theorem Session.Sound.step {s : Session} (h : s.Sound) (a : WatchdogAct) : (s.step a).Sound := by
  cases a with
  | start =>
    refine ⟨?_, fun _ => forget_mark⟩
    rw [Session.step]
    dsimp only
    rw [bytesOf_forget]
    split
    · exact h.window
    · exact h.window
  | stop => exact ⟨h.window, h.settled⟩
  | mute => exact ⟨List.nil_suffix, fun hf => (Lexicon.not_found_nil hf).elim⟩
  | unmute => exact ⟨List.nil_suffix, fun hf => (Lexicon.not_found_nil hf).elim⟩
  | chunk c =>
    rw [Session.step]
    split
    · have hgrown : s.dog.grown c <:+ bytesOf (s.receive c) := by
        rw [bytesOf_receive]
        exact Watchdog.grown_suffix h.window c
      cases hp : panicSearch (s.dog.grown c) with
      | false =>
        simp only [Watchdog.hear_quiet hp, Bool.false_eq_true, if_false]
        constructor
        · dsimp only
          exact hgrown
        · intro hf
          dsimp only at hf
          rw [← panicSearch_iff, hp] at hf
          cases hf
      | true =>
        cases hm : s.dog.muted with
        | true =>
          rw [Watchdog.hear_suppressed hp hm]
          exact ⟨List.nil_suffix, fun hf => (Lexicon.not_found_nil hf).elim⟩
        | false =>
          simp only [Watchdog.hear_panic hp hm, if_true]
          constructor
          · dsimp only
            rw [bytesOf_forget]
            exact hgrown
          · exact fun _ => forget_mark
    · exact h

theorem Session.sound_run (as : List WatchdogAct) : (Session.run as).Sound := by
  induction as using List.reverseRecOn with
  | nil => exact ⟨List.nil_suffix, fun hf => (Lexicon.not_found_nil hf).elim⟩
  | append_singleton as a ih =>
    rw [run, List.foldl_append]
    exact ih.step a

theorem Session.raises_iff {s : Session} {c : Bytes} : s.raises c = true ↔
    s.alive = true ∧ s.dog.muted = false ∧ panicLexicon.Found (s.dog.grown c) := by
  rw [raises, Bool.and_eq_true, ← panicSearch_iff]
  refine and_congr_right fun _ => ?_
  cases hp : panicSearch (s.dog.grown c) with
  | false =>
    rw [Watchdog.hear_quiet hp]
    simp
  | true =>
    cases hm : s.dog.muted with
    | true =>
      rw [Watchdog.hear_suppressed hp hm]
      simp
    | false =>
      rw [Watchdog.hear_panic hp hm]
      simp

/-- In a stale step nothing counts but the chunk itself, and no signature ends there. -/
theorem Session.Stale.unjustified {s : Session} {c : Bytes} (h : s.Sound) (hs : s.Stale c) :
    ¬ s.Justified c := by
  obtain ⟨_, _, hfound, hnone⟩ := hs
  rintro ⟨i, n, b, hocc, hb⟩
  rw [bytesOf_receive] at hocc
  have hle := hnone i n hocc
  have hpos := hocc.pos
  have hold : s.received[i + n - 1]? = some (b, true) := by
    rw [receive, List.getElem?_append_left (by omega)] at hb
    exact hb
  -- the signature in the window is an old one, so no old byte counts
  have hwindow : panicLexicon.Found s.dog.rollingWindow := by
    obtain ⟨j, m, hj⟩ := hfound.of_suffix (lastBytes_suffix _ _)
    have hlen : s.dog.rollingWindow.length ≤ s.received.length := by
      have hl := h.window.length_le
      rwa [bytesOf, List.length_map] at hl
    obtain ⟨r, hr⟩ := h.window
    have hstream : bytesOf s.received ++ stripAnsi c =
        r ++ (s.dog.rollingWindow ++ stripAnsi c) := by rw [← hr, List.append_assoc]
    have hrlen : r.length + s.dog.rollingWindow.length = s.received.length := by
      rw [← List.length_append, hr, bytesOf, List.length_map]
    have hend := hnone (r.length + j) m (hstream ▸ Lexicon.occurs_append_left.2 hj)
    exact ⟨j, m, hj.cut (by omega)⟩
  have hmark := h.settled hwindow _ (List.mem_of_getElem? hold)
  cases hmark

theorem Session.justified_iff {s : Session} {c : Bytes} (h : s.Sound) :
    (s.raises c = true → s.Justified c) ↔ ¬ s.Stale c := by
  constructor
  · intro hj hs
    exact hs.unjustified h (hj (raises_iff.2 ⟨hs.1, hs.2.1, hs.2.2.1⟩))
  · intro hns hr
    obtain ⟨halive, hm, hfound⟩ := raises_iff.1 hr
    by_contra hnj
    refine hns ⟨halive, hm, hfound, fun i n hocc => ?_⟩
    by_contra hgt
    -- a signature that ends in the chunk ends in a byte that counts
    rw [← bytesOf_receive] at hocc
    have hle := hocc.le
    have hpos := hocc.pos
    rw [bytesOf, List.length_map, receive, List.length_append, List.length_map] at hle
    refine hnj ⟨i, n, (stripAnsi c).get ⟨i + n - 1 - s.received.length, by omega⟩, hocc, ?_⟩
    rw [receive, List.getElem?_append_right (by omega), List.getElem?_map,
      List.getElem?_eq_getElem (by omega), hm]
    rfl

/-- In a run every panic is justified exactly when no chunk of it is stale. -/
theorem panics_justified_iff (as : List WatchdogAct) :
    (∀ past c, past ++ [.chunk c] <+: as → (Session.run past).raises c = true →
      (Session.run past).Justified c) ↔
        ∀ past c, past ++ [.chunk c] <+: as → ¬ (Session.run past).Stale c := by
  constructor
  · intro h past c hp
    exact (Session.justified_iff (Session.sound_run past)).1 (h past c hp)
  · intro h past c hp
    exact (Session.justified_iff (Session.sound_run past)).2 (h past c hp)

/-- A panic, and after it the line break that ends its line. -/
def brokenLine : List WatchdogAct := [.start, .chunk (ascii "Kernel panic - not syncing")]

theorem panic_raised_twice : ¬ ∀ past c, past ++ [.chunk c] <+: brokenLine ++ [.chunk [0x0A]] →
    (Session.run past).raises c = true → (Session.run past).Justified c := by
  intro h
  have hraises : (Session.run brokenLine).raises [0x0A] = true := by decide +kernel
  have hmarks : ∀ b ∈ (Session.run brokenLine).received, b.2 = false := by decide +kernel
  obtain ⟨i, n, b, ⟨w, f, hw, rfl, hp, _⟩, hb⟩ := h brokenLine [0x0A] (List.prefix_refl _) hraises
  have hlast : (Session.run brokenLine).received.length ≤ i + w.length - 1 := by
    by_contra hlt
    rw [Session.receive, List.getElem?_append_left (by omega)] at hb
    have hmark := hmarks _ (List.mem_of_getElem? hb)
    cases hmark
  -- the byte that counts is the line break, and no signature holds one
  have hlen := hp.length_le
  rw [List.length_drop, bytesOf_receive, List.length_append, bytesOf, List.length_map] at hlen
  have hstrip : (stripAnsi [0x0A]).length = 1 := by decide
  have hpos := List.length_pos_iff.2 (panicLexicon.nonempty hw)
  have hwhole : w = (bytesOf ((Session.run brokenLine).receive [0x0A])).drop i := by
    refine hp.eq_of_length_le ?_
    rw [List.length_drop, bytesOf_receive, List.length_append, bytesOf, List.length_map]
    omega
  refine hw.oneLine.1 ?_
  rw [hwhole, bytesOf_receive, List.drop_append_of_le_length]
  · exact List.mem_append_right _ (by decide)
  · rw [bytesOf, List.length_map]
    omega

end MesCore
