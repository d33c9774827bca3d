import MesCore.PanicSignatures

namespace MesCore
set_option autoImplicit true

/-- The attributes of `UartKernelWatchdog` that its loop reads or writes. -/
structure Watchdog where
  panicEventSet : Bool := false
  panicMsg : String := ""
  rollingWindow : Bytes := []
  muted : Bool := false
  deriving DecidableEq

def Watchdog.mute (w : Watchdog) : Watchdog := { w with muted := true, rollingWindow := [] }

def Watchdog.unmute (w : Watchdog) : Watchdog := { w with rollingWindow := [], muted := false }

/-- What `start` resets before it spawns the loop. The window is not among it. -/
def Watchdog.rearm (w : Watchdog) : Watchdog := { w with panicEventSet := false, panicMsg := "" }

def panicMessage : String := "Async Kernel Panic detected during idle/background monitoring."

/-- `bs[-n:]`, for a positive `n`. -/
def lastBytes (n : Nat) (bs : Bytes) : Bytes := bs.drop (bs.length - n)

def Watchdog.grown (w : Watchdog) (chunk : Bytes) : Bytes :=
  lastBytes 1024 (w.rollingWindow ++ stripAnsi chunk)

/-- The body of the inner loop for one chunk. The flag tells whether it raises a panic: it runs
the callbacks, publishes `PanicDetected` and leaves the loop, with the window as it is. -/
def Watchdog.hear (w : Watchdog) (chunk : Bytes) : Watchdog × Bool :=
  if panicSearch (w.grown chunk) then
    if w.muted then ({ w with rollingWindow := [] }, false)
    else
      ({ w with
          rollingWindow := w.grown chunk, panicMsg := panicMessage, panicEventSet := true }, true)
  else ({ w with rollingWindow := w.grown chunk }, false)

/-- The watchdog after these chunks. After a panic the outer loop subscribes anew. -/
def Watchdog.hearAll (w : Watchdog) (cs : List Bytes) : Watchdog :=
  cs.foldl (fun w c => (w.hear c).1) w

/-- Whether a panic is raised while it hears these chunks. -/
def Watchdog.alarmed (w : Watchdog) : List Bytes → Bool
  | [] => false
  | c :: cs => (w.hear c).2 || (w.hear c).1.alarmed cs

def stripped (cs : List Bytes) : Bytes := cs.flatMap stripAnsi

/-- Once the chunks so far complete a signature, the flag is set and the callbacks have run. -/
def Watchdog.MissesNothing (w : Watchdog) (cs : List Bytes) : Prop :=
  ∀ k i n, panicLexicon.Occurs (stripped cs) i n → i + n ≤ (stripped (cs.take k)).length →
    (w.hearAll (cs.take k)).panicEventSet = true ∧ w.alarmed (cs.take k) = true

/-- A signature starts within the last `m` bytes. -/
def Lexicon.FoundWithin (L : Lexicon α) (m : Nat) (s : List α) : Prop :=
  ∃ i n, L.Occurs s i n ∧ s.length ≤ i + m

theorem lastBytes_suffix (n : Nat) (bs : Bytes) : lastBytes n bs <:+ bs := List.drop_suffix _ _

theorem lastBytes_append (n : Nat) (a b : Bytes) :
    lastBytes n (lastBytes n a ++ b) = lastBytes n (a ++ b) := by
  have hlen : (lastBytes n a ++ b).length - n = (a ++ b).length - n - (a.length - n) := by
    rw [List.length_append, List.length_append, lastBytes, List.length_drop]
    omega
  have hsplit : lastBytes n a ++ b = (a ++ b).drop (a.length - n) :=
    (List.drop_append_of_le_length (Nat.sub_le _ _)).symm
  rw [lastBytes, hlen, hsplit, List.drop_drop, lastBytes]
  congr 1
  rw [List.length_append]
  omega

theorem found_lastBytes {m : Nat} {s : Bytes} :
    panicLexicon.Found (lastBytes m s) ↔ panicLexicon.FoundWithin m s := by
  constructor
  · rintro ⟨i, n, h⟩
    refine ⟨_, n, Lexicon.occurs_drop.1 h, ?_⟩
    omega
  · rintro ⟨i, n, h, hi⟩
    refine ⟨i - (s.length - m), n, Lexicon.occurs_drop.2 ?_⟩
    rw [Nat.add_sub_cancel' (by omega)]
    exact h

theorem Watchdog.hearAll_cons (w : Watchdog) (c : Bytes) (cs : List Bytes) :
    w.hearAll (c :: cs) = (w.hear c).1.hearAll cs := by
  rw [hearAll, List.foldl_cons, hearAll]

theorem Watchdog.hear_quiet {w : Watchdog} {c : Bytes} (h : panicSearch (w.grown c) = false) :
    w.hear c = ({ w with rollingWindow := w.grown c }, false) :=
  if_neg (Bool.eq_false_iff.1 h)

theorem Watchdog.hear_suppressed {w : Watchdog} {c : Bytes} (h : panicSearch (w.grown c) = true)
    (hm : w.muted = true) : w.hear c = ({ w with rollingWindow := [] }, false) := by
  rw [hear, if_pos h, if_pos hm]

theorem Watchdog.hear_panic {w : Watchdog} {c : Bytes} (h : panicSearch (w.grown c) = true)
    (hm : w.muted = false) : w.hear c =
      ({ w with
          rollingWindow := w.grown c, panicMsg := panicMessage, panicEventSet := true }, true) := by
  rw [hear, if_pos h, if_neg (Bool.eq_false_iff.1 hm)]

section
variable {w : Watchdog} (h : w.muted = false) (c : Bytes)
include h

theorem Watchdog.hear_muted : (w.hear c).1.muted = false := by
  cases hp : panicSearch (w.grown c) with
  | true =>
    rw [hear_panic hp h]
    exact h
  | false =>
    rw [hear_quiet hp]
    exact h

theorem Watchdog.hear_window : (w.hear c).1.rollingWindow = w.grown c := by
  cases hp : panicSearch (w.grown c) with
  | true => rw [hear_panic hp h]
  | false => rw [hear_quiet hp]

theorem Watchdog.hear_raises : (w.hear c).2 = panicSearch (w.grown c) := by
  cases hp : panicSearch (w.grown c) with
  | true => rw [hear_panic hp h]
  | false => rw [hear_quiet hp]

theorem Watchdog.hear_flag :
    (w.hear c).1.panicEventSet = (w.panicEventSet || (w.hear c).2) := by
  cases hp : panicSearch (w.grown c) with
  | true =>
    rw [hear_panic hp h, Bool.or_true]
  | false =>
    rw [hear_quiet hp, Bool.or_false]

end

theorem Watchdog.hearAll_flag {w : Watchdog} (h : w.muted = false) (cs : List Bytes) :
    (w.hearAll cs).panicEventSet = (w.panicEventSet || w.alarmed cs) := by
  induction cs generalizing w with
  | nil => exact (Bool.or_false _).symm
  | cons c cs ih =>
    have hrest := ih (hear_muted h c)
    rw [hearAll_cons, hrest, hear_flag h c, alarmed, Bool.or_assoc]

/-- A panic is raised when at the end of some chunk a signature is within the window. -/
theorem Watchdog.alarmed_iff {w : Watchdog} (h : w.muted = false) (cs : List Bytes) :
    w.alarmed cs = true ↔ ∃ j, j < cs.length ∧
      panicLexicon.FoundWithin 1024 (w.rollingWindow ++ stripped (cs.take (j + 1))) := by
  induction cs generalizing w with
  | nil =>
    refine ⟨fun hn => (Bool.false_ne_true hn).elim, ?_⟩
    rintro ⟨j, hj, _⟩
    cases hj
  | cons c cs ih =>
    have hreach (t : Bytes) : panicLexicon.FoundWithin 1024
        (lastBytes 1024 (w.rollingWindow ++ stripAnsi c) ++ t) ↔
          panicLexicon.FoundWithin 1024 (w.rollingWindow ++ (stripAnsi c ++ t)) := by
      rw [← found_lastBytes, lastBytes_append, found_lastBytes, List.append_assoc]
    have hfirst : (w.hear c).2 = true ↔
        panicLexicon.FoundWithin 1024 (w.rollingWindow ++ (stripAnsi c ++ [])) := by
      rw [hear_raises h, panicSearch_iff, grown, found_lastBytes, List.append_nil]
    rw [alarmed, Bool.or_eq_true, hfirst, ih (hear_muted h c), hear_window h, grown]
    constructor
    · rintro (hc | ⟨j, hj, hf⟩)
      · exact ⟨0, Nat.succ_pos _, hc⟩
      · exact ⟨j + 1, Nat.succ_lt_succ hj, (hreach _).1 hf⟩
    · rintro ⟨j, hj, hf⟩
      cases j with
      | zero => exact .inl hf
      | succ j => exact .inr ⟨j, Nat.lt_of_succ_lt_succ hj, (hreach _).2 hf⟩

/-- The watchdog misses nothing exactly when, by the end of the chunk that completes a signature,
some signature started within the last 1024 bytes at the end of a chunk. -/
theorem misses_nothing_iff {w : Watchdog} (hm : w.muted = false) (hp : w.panicEventSet = false)
    (cs : List Bytes) : w.MissesNothing cs ↔
      ∀ k i n, panicLexicon.Occurs (stripped cs) i n → i + n ≤ (stripped (cs.take k)).length →
        ∃ j, 0 < j ∧ j ≤ k ∧
          panicLexicon.FoundWithin 1024 (w.rollingWindow ++ stripped (cs.take j)) := by
  have hflag (k : Nat) : (w.hearAll (cs.take k)).panicEventSet = true ∧
      w.alarmed (cs.take k) = true ↔ w.alarmed (cs.take k) = true := by
    rw [Watchdog.hearAll_flag hm, hp, Bool.false_or, and_self_iff]
  constructor
  · intro h k i n hi hle
    obtain ⟨j, hj, hf⟩ := (Watchdog.alarmed_iff hm _).1 ((hflag k).1 (h k i n hi hle))
    rw [List.length_take] at hj
    rw [List.take_take, Nat.min_eq_left (by omega)] at hf
    exact ⟨j + 1, Nat.succ_pos _, by omega, hf⟩
  · intro h k i n hi hle
    obtain ⟨j, hj, hjk, hf⟩ := h k i n hi hle
    refine (hflag k).2 ((Watchdog.alarmed_iff hm _).2 ?_)
    -- the list may be shorter than `j`
    have hpos : 0 < cs.length := by
      by_contra h0
      rw [List.eq_nil_of_length_eq_zero (Nat.eq_zero_of_not_pos h0)] at hi
      exact Lexicon.not_found_nil ⟨i, n, hi⟩
    refine ⟨min j cs.length - 1, ?_, ?_⟩
    · rw [List.length_take]
      omega
    · rw [List.take_take]
      by_cases hlen : j ≤ cs.length
      · rw [show min (min j cs.length - 1 + 1) k = j by omega]
        exact hf
      · rw [List.take_of_length_le (by omega)] at hf
        rw [List.take_of_length_le (by omega)]
        exact hf

def burst : Bytes := ascii "Kernel panic - not syncing" ++ List.replicate 1024 0x2E

theorem burst_misses : ¬ Watchdog.MissesNothing {} [burst] := by
  intro h
  have hword : PanicWord (ascii "Kernel panic - not syncing") none :=
    .signature (by decide)
  have hocc : panicLexicon.Occurs (stripped [burst]) 0
      (ascii "Kernel panic - not syncing").length := by
    refine ⟨_, none, hword, rfl, ?_, by simp⟩
    rw [List.drop_zero]
    exact List.isPrefixOf_iff_prefix.1 (by decide +kernel)
  have hset := (h 1 0 _ hocc (by decide +kernel)).1
  exact absurd hset (by decide +kernel)

/-- The same signature in a chunk of its own. -/
theorem lone_signature_heard :
    Watchdog.MissesNothing {} [ascii "Kernel panic - not syncing"] := by
  refine (misses_nothing_iff rfl rfl _).2 fun k i n hi hle => ⟨1, Nat.one_pos, ?_, i, n, hi, ?_⟩
  · have hpos := hi.pos
    by_contra hk
    rw [Nat.lt_one_iff.1 (Nat.not_le.1 hk)] at hle
    change i + n ≤ 0 at hle
    omega
  · have hshort : (stripped [ascii "Kernel panic - not syncing"]).length ≤ 1024 := by
      decide +kernel
    exact hshort.trans (Nat.le_add_left _ _)

end MesCore
