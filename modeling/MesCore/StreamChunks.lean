import MesCore.BootTrace
import MesCore.Decoding
import MesCore.PanicSignatures

namespace MesCore
set_option autoImplicit true

def lastLine (s : List Char) : List Char := unfinished '\n' (normalizeNewlines s)

def isLineBreak (c : Char) : Bool := c = '\n' || c = '\r'

theorem normalizeNewlines_break {c : Char} (hc : isLineBreak c = true) (s : List Char) :
    ∃ t, normalizeNewlines (s ++ [c]) = t ++ ['\n'] := by
  rw [isLineBreak, Bool.or_eq_true, decide_eq_true_eq, decide_eq_true_eq] at hc
  rcases hc with rfl | rfl
  · by_cases hs : s.getLast? = some '\r'
    · obtain ⟨u, rfl⟩ := List.getLast?_eq_some_iff.1 hs
      have hcr : ['\r'].head? ≠ some '\n' := by decide
      refine ⟨normalizeNewlines u, ?_⟩
      rw [normalizeNewlines_seam hs, normalizeNewlines_append fun _ => hcr]
      exact List.append_nil _
    · refine ⟨normalizeNewlines s, ?_⟩
      rw [normalizeNewlines_append fun h => absurd h hs]
      rfl
  · have hcr : ['\r'].head? ≠ some '\n' := by decide
    refine ⟨normalizeNewlines s, ?_⟩
    rw [normalizeNewlines_append fun _ => hcr]
    rfl

theorem notMem_of_isLineBreak {s : List Char} (h : ∀ c ∈ s, isLineBreak c = false) :
    '\n' ∉ s ∧ '\r' ∉ s :=
  ⟨fun hmem => Bool.noConfusion (h _ hmem), fun hmem => Bool.noConfusion (h _ hmem)⟩

theorem lastLine_of_noBreak {s : List Char} (h : ∀ c ∈ s, isLineBreak c = false) :
    lastLine s = s := by
  obtain ⟨hlf, hcr⟩ := notMem_of_isLineBreak h
  rw [lastLine, normalizeNewlines_of_notMem hcr]
  exact unfinished_eq_self hlf

theorem lastLine_break {c : Char} {r : List Char} (hc : isLineBreak c = true)
    (hr : ∀ c ∈ r, isLineBreak c = false) (t : List Char) : lastLine (t ++ c :: r) = r := by
  obtain ⟨hlf, hcr⟩ := notMem_of_isLineBreak hr
  obtain ⟨u, hu⟩ := normalizeNewlines_break hc t
  have hhead : r.head? ≠ some '\n' := fun h => hlf (List.mem_of_mem_head? h)
  have hempty : unfinished '\n' (u ++ ['\n']) = [] :=
    unfinished_of_splitOn '\n' _ (List.splitOn_append_cons_self ..)
  rw [lastLine, ← List.singleton_append, ← List.append_assoc,
    normalizeNewlines_append fun _ => hhead, hu, normalizeNewlines_of_notMem hcr,
    unfinished_append, hempty, List.nil_append]
  exact unfinished_eq_self hlf

theorem lastLine_cases (s : List Char) :
    lastLine s = s ∨ ∃ t c, isLineBreak c = true ∧ s = t ++ c :: lastLine s := by
  have hsplit := List.rdropWhile_append_rtakeWhile (p := fun c => !isLineBreak c) (l := s)
  have hr : ∀ c ∈ s.rtakeWhile (fun c => !isLineBreak c), isLineBreak c = false := fun c hc =>
    (Bool.not_eq_true' _).mp (List.mem_rtakeWhile_imp (p := fun c => !isLineBreak c) hc)
  rcases List.eq_nil_or_concat (s.rdropWhile fun c => !isLineBreak c) with hnil | ⟨t, c, htc⟩
  · left
    rw [hnil, List.nil_append] at hsplit
    rw [hsplit] at hr
    exact lastLine_of_noBreak hr
  · right
    have hlast := List.rdropWhile_last_not (fun c => !isLineBreak c) s (by rw [htc]; simp)
    simp only [htc, List.concat_eq_append, List.getLast_append_singleton, Bool.not_eq_true,
      Bool.not_eq_false'] at hlast
    refine ⟨t, c, hlast, ?_⟩
    rw [htc, List.concat_eq_append, List.append_assoc, List.singleton_append] at hsplit
    rw [← hsplit, lastLine_break hlast hr]

/-- What `open` yields for these chunks when it reads them all. -/
def StreamState.feedAll (p : StreamParams) (st : StreamState) : List Bytes → List UartEvent
  | [] => []
  | c :: cs => (st.turn p (.chunk c)).1 ++
      if (st.turn p (.chunk c)).2.panicked then [] else feedAll p (st.turn p (.chunk c)).2 cs

def opened (p : StreamParams) (cs : List Bytes) : List UartEvent := p.start.feedAll p cs

def Panicked (evs : List UartEvent) : Prop := ∃ raw, .panicDetected raw ∈ evs

/-- What the cutting of a stream must not change. -/
structure SameBoot (evs evs' : List UartEvent) : Prop where
  panicked : Panicked evs ↔ Panicked evs'
  prompts : ¬ Panicked evs → ∀ t, t ∈ promptTypes evs ↔ t ∈ promptTypes evs'
  lines : ¬ Panicked evs → bootLines evs = bootLines evs'
  milestones : ¬ Panicked evs → milestoneNames evs = milestoneNames evs'

/-- The milestones that these lines reach, one after the other. -/
def milestoneScan : List String → List (String × String) → List String
  | [], _ => []
  | l :: ls, pending =>
    (pending.filter fun kv => decide (occursIn kv.2 l)).map Prod.fst ++
      milestoneScan ls (pending.filter fun kv => !decide (occursIn kv.2 l))

def milestonesLeft (ls : List String) (pending : List (String × String)) :
    List (String × String) :=
  ls.foldl (fun pending l => pending.filter fun kv => !decide (occursIn kv.2 l)) pending

def textOf (cs : List Bytes) : List Char := cs.flatMap sanitise

/-- The buffers in which these chunks are searched, after the text `s`. -/
def buffers (s : List Char) : List Bytes → List (List Char)
  | [] => []
  | c :: cs => (lastLine s ++ sanitise c) :: buffers (s ++ sanitise c) cs

section
variable {p : StreamParams} {st : StreamState} {s : List Char} {cs : List Bytes} {c : Bytes}

theorem milestoneScan_append (ls ls' : List String) (pending : List (String × String)) :
    milestoneScan (ls ++ ls') pending =
      milestoneScan ls pending ++ milestoneScan ls' (milestonesLeft ls pending) := by
  induction ls generalizing pending with
  | nil => rfl
  | cons l ls ih =>
    rw [List.cons_append, milestoneScan, ih, milestoneScan, List.append_assoc]
    rfl

/-- The lines of a chunk decide the milestones it reaches and those it leaves. -/
theorem lineScan_milestones (lines : List (List Char)) (pending : List (String × String)) :
    milestoneNames (lineScan lines pending).1 =
        milestoneScan (bootLines (lineScan lines pending).1) pending ∧
      (lineScan lines pending).2 =
        milestonesLeft (bootLines (lineScan lines pending).1) pending := by
  have hnames (kvs : List (String × String)) :
      milestoneNames (kvs.map fun kv => .milestoneReached kv.1) = kvs.map Prod.fst := by
    have h := milestoneNames_map (kvs.map Prod.fst)
    rwa [List.map_map] at h
  have hlines (kvs : List (String × String)) :
      bootLines (kvs.map fun kv => .milestoneReached kv.1) = [] := by
    have h := bootLines_map (kvs.map Prod.fst)
    rwa [List.map_map] at h
  induction lines generalizing pending with
  | nil => exact ⟨rfl, rfl⟩
  | cons line lines ih =>
    rw [lineScan]
    dsimp only
    split
    · exact ih pending
    · obtain ⟨hscan, hleft⟩ := ih (pending.filter fun kv =>
        !decide (occursIn kv.2 (String.ofList (pyStrip line))))
      have hboot (l : String) (kvs : List (String × String)) (evs : List UartEvent) :
          bootLines (.bootDataReceived l :: kvs.map (fun kv => .milestoneReached kv.1) ++ evs) =
            l :: bootLines evs := by
        rw [bootLines_append]
        exact congrArg (l :: · ++ bootLines evs) (hlines kvs)
      have hreach (l : String) (kvs : List (String × String)) (evs : List UartEvent) :
          milestoneNames
              (.bootDataReceived l :: kvs.map (fun kv => .milestoneReached kv.1) ++ evs) =
            kvs.map Prod.fst ++ milestoneNames evs := by
        rw [milestoneNames_append]
        exact congrArg (· ++ milestoneNames evs) (hnames kvs)
      rw [hboot, hreach, milestoneScan, ← hscan]
      exact ⟨rfl, hleft⟩

theorem mem_promptScan {clean : Bytes} {prompts : List (String × Bytes)} {detected : List String}
    {t : String} : t ∈ (promptScan clean prompts detected).2 ↔
      t ∈ detected ∨ ∃ b, (t, b) ∈ prompts ∧ b <:+: clean := by
  induction prompts generalizing detected with
  | nil =>
    refine ⟨.inl, ?_⟩
    rintro (h | ⟨_, h, _⟩)
    · exact h
    · cases h
  | cons kv prompts ih =>
    obtain ⟨ptype, pbytes⟩ := kv
    rw [promptScan]
    split
    · rename_i hnew
      dsimp only
      rw [ih, List.mem_append, List.mem_singleton]
      constructor
      · rintro ((h | rfl) | ⟨b, hb, hclean⟩)
        · exact .inl h
        · exact .inr ⟨pbytes, List.mem_cons_self .., hnew.2⟩
        · exact .inr ⟨b, List.mem_cons_of_mem _ hb, hclean⟩
      · rintro (h | ⟨b, hb, hclean⟩)
        · exact .inl (.inl h)
        · rcases List.mem_cons.1 hb with heq | hb
          · cases heq
            exact .inl (.inr rfl)
          · exact .inr ⟨b, hb, hclean⟩
    · rename_i hold
      rw [ih]
      constructor
      · rintro (h | ⟨b, hb, hclean⟩)
        · exact .inl h
        · exact .inr ⟨b, List.mem_cons_of_mem _ hb, hclean⟩
      · rintro (h | ⟨b, hb, hclean⟩)
        · exact .inl h
        · rcases List.mem_cons.1 hb with heq | hb
          · cases heq
            exact .inl (Classical.byContradiction fun hn => hold ⟨hn, hclean⟩)
          · exact .inr ⟨b, hb, hclean⟩

theorem buffers_append (s : List Char) (cs cs' : List Bytes) :
    buffers s (cs ++ cs') = buffers s cs ++ buffers (s ++ textOf cs) cs' := by
  induction cs generalizing s with
  | nil => rw [textOf, List.flatMap_nil, List.append_nil, List.nil_append]; rfl
  | cons c cs ih =>
    rw [List.cons_append, buffers, ih, buffers, textOf, textOf, List.flatMap_cons,
      List.append_assoc, List.cons_append]

theorem buffers_concat (cs : List Bytes) (c : Bytes) : buffers [] (cs ++ [c]) =
    buffers [] cs ++ [lastLine (textOf cs) ++ sanitise c] := by
  rw [buffers_append, List.nil_append]
  rfl

theorem textOf_append (cs cs' : List Bytes) : textOf (cs ++ cs') = textOf cs ++ textOf cs' :=
  List.flatMap_append ..

theorem textOf_singleton (c : Bytes) : textOf [c] = sanitise c := List.append_nil _

/-- What `open` knows after some chunks in none of whose buffers a panic shows. -/
structure Heard (p : StreamParams) (evs : List UartEvent) (cs : List Bytes) (st : StreamState) :
    Prop where
  told : Told p evs (textOf cs) st
  calm : st.panicked = false
  quiet : ∀ buf ∈ buffers [] cs, panicSearch (encodeUtf8 buf) = false
  prompts : ∀ t, t ∈ st.detectedPrompts ↔
    ∃ b, (t, b) ∈ p.prompts ∧ ∃ buf ∈ buffers [] cs, b <:+: encodeUtf8 buf
  milestones : milestoneNames evs = milestoneScan (bootLines evs) p.milestones
  left : st.pendingMilestones = milestonesLeft (bootLines evs) p.milestones

theorem Heard.start (hm : (p.milestones.map Prod.fst).Nodup) : Heard p [] [] p.start where
  told := .start hm
  calm := rfl
  quiet _ hbuf := nomatch hbuf
  prompts t := by
    refine ⟨fun h => (List.not_mem_nil h).elim, ?_⟩
    rintro ⟨_, _, _, hbuf, _⟩
    cases hbuf
  milestones := rfl
  left := rfl

theorem feed_tells {buf : List Char} (hbuf : st.localBuf ++ sanitise c = buf)
    (hquiet : panicSearch (encodeUtf8 buf) = false) :
    bootLines (st.feed p c).1 = bootLines (lineScan
        (splitNewline (normalizeNewlines buf)).dropLast st.pendingMilestones).1 ∧
      milestoneNames (st.feed p c).1 = milestoneNames (lineScan
        (splitNewline (normalizeNewlines buf)).dropLast st.pendingMilestones).1 := by
  rw [StreamState.feed_quiet hbuf hquiet]
  constructor
  · rw [bootLines_append, bootLines_append, bootLines_promptScan]
    split <;> rfl
  · rw [milestoneNames_append, milestoneNames_append, milestoneNames_promptScan]
    split <;> rfl

theorem milestonesLeft_append (ls ls' : List String) (pending : List (String × String)) :
    milestonesLeft (ls ++ ls') pending = milestonesLeft ls' (milestonesLeft ls pending) :=
  List.foldl_append ..

theorem Heard.localBuf (h : Heard p evs cs st) : st.localBuf = lastLine (textOf cs) :=
  (h.told.lines h.calm).2

theorem Heard.buffer (h : Heard p evs cs st) (c : Bytes) :
    st.localBuf ++ sanitise c = lastLine (textOf cs) ++ sanitise c :=
  congrArg (· ++ sanitise c) h.localBuf

theorem Heard.feed (h : Heard p evs cs st)
    (hc : panicSearch (encodeUtf8 (lastLine (textOf cs) ++ sanitise c)) = false) :
    Heard p (evs ++ (st.feed p c).1) (cs ++ [c]) (st.feed p c).2 := by
  have hbuf := h.buffer c
  have hfeed := StreamState.feed_quiet (p := p) hbuf hc
  obtain ⟨hlines, hnames⟩ := feed_tells (p := p) hbuf hc
  obtain ⟨hscan, hleft⟩ := lineScan_milestones (splitNewline (normalizeNewlines
    (lastLine (textOf cs) ++ sanitise c))).dropLast st.pendingMilestones
  refine ⟨?_, ?_, ?_, fun t => ?_, ?_, ?_⟩
  · rw [textOf_append, textOf_singleton]
    exact h.told.feed h.calm c
  · rw [hfeed]
  · rw [buffers_concat]
    intro buf hbuf
    rcases List.mem_append.1 hbuf with hbuf | hbuf
    · exact h.quiet buf hbuf
    · rw [List.mem_singleton.1 hbuf]
      exact hc
  · rw [hfeed, buffers_concat]
    dsimp only
    rw [mem_promptScan, h.prompts]
    constructor
    · rintro (⟨b, hb, buf, hbuf, hin⟩ | ⟨b, hb, hin⟩)
      · exact ⟨b, hb, buf, List.mem_append_left _ hbuf, hin⟩
      · exact ⟨b, hb, _, List.mem_append_right _ (List.mem_singleton_self _), hin⟩
    · rintro ⟨b, hb, buf, hbuf, hin⟩
      rcases List.mem_append.1 hbuf with hbuf | hbuf
      · exact .inl ⟨b, hb, buf, hbuf, hin⟩
      · rw [List.mem_singleton.1 hbuf] at hin
        exact .inr ⟨b, hb, hin⟩
  · rw [milestoneNames_append, bootLines_append, milestoneScan_append, ← h.left, ← h.milestones,
      hlines, hnames, hscan]
  · rw [bootLines_append, milestonesLeft_append, ← h.left, hlines, ← hleft, hfeed]

/-- The whole stream: either a buffer shows a panic and the generator says so, or no buffer does
and it tells everything. -/
theorem Heard.all {cs' : List Bytes} (h : Heard p evs cs st) (hne : ∀ c ∈ cs', c ≠ []) :
    (Panicked (st.feedAll p cs') ∧
        ∃ buf ∈ buffers [] (cs ++ cs'), panicSearch (encodeUtf8 buf) = true) ∨
      ∃ st', Heard p (evs ++ st.feedAll p cs') (cs ++ cs') st' := by
  induction cs' generalizing evs cs st with
  | nil =>
    right
    refine ⟨st, ?_⟩
    rw [StreamState.feedAll, List.append_nil, List.append_nil]
    exact h
  | cons c cs' ih =>
    rw [List.forall_mem_cons] at hne
    have hbuf := h.buffer c
    rw [StreamState.feedAll, StreamState.turn, if_neg hne.1]
    cases hc : panicSearch (encodeUtf8 (lastLine (textOf cs) ++ sanitise c)) with
    | true =>
      left
      rw [StreamState.feed_panic hbuf hc]
      refine ⟨⟨_, List.mem_append_left _ (List.mem_singleton_self _)⟩, _, ?_, hc⟩
      rw [buffers_append, List.nil_append]
      exact List.mem_append_right _ (List.mem_cons_self ..)
    | false =>
      have hfed := h.feed hc
      have hcalm : ¬ (st.feed p c).2.panicked = true := Bool.eq_false_iff.1 hfed.calm
      rw [if_neg hcalm, ← List.append_assoc, ← List.singleton_append (l := cs'),
        ← List.append_assoc]
      rcases ih hfed hne.2 with ⟨⟨raw, hmem⟩, hpanic⟩ | hheard
      · exact .inl ⟨⟨raw, List.mem_append_right _ hmem⟩, hpanic⟩
      · exact .inr hheard

theorem Heard.not_panicked (h : Heard p evs cs st) : ¬ Panicked evs := fun ⟨raw, hmem⟩ =>
  h.told.quiet h.calm raw hmem

theorem panicked_opened (hm : (p.milestones.map Prod.fst).Nodup) (hne : ∀ c ∈ cs, c ≠ []) :
    Panicked (opened p cs) ↔ ∃ buf ∈ buffers [] cs, panicSearch (encodeUtf8 buf) = true := by
  rcases (Heard.start hm).all hne with ⟨hpanicked, hbuf⟩ | ⟨st, h⟩
  · exact iff_of_true hpanicked hbuf
  · refine iff_of_false h.not_panicked ?_
    rintro ⟨buf, hbuf, hpanic⟩
    rw [h.quiet buf hbuf] at hpanic
    cases hpanic

/-- Without a panic it tells the lines of the text, and the prompts that stand in a buffer. -/
theorem heard_opened (hm : (p.milestones.map Prod.fst).Nodup) (hne : ∀ c ∈ cs, c ≠ [])
    (hquiet : ¬ Panicked (opened p cs)) : ∃ st, Heard p (opened p cs) cs st := by
  rcases (Heard.start hm).all hne with ⟨hpanicked, -⟩ | hheard
  · exact (hquiet hpanicked).elim
  · exact hheard

end

/-- A cut in the look-ahead of `mmcN: error`: before it stands a beginning of
` -1 whilst initialising`, and behind it the rest. -/
def LookAheadCut (s t : Bytes) : Prop :=
  ∃ pre ds x y, ds ≠ [] ∧ (∀ b ∈ ds, isDigitByte b = true) ∧
    s = pre ++ (ascii "mmc" ++ (ds ++ ascii ": error") ++ x) ∧
      x ++ y = ascii " -1 whilst initialising" ∧ y ≠ [] ∧ y <+: t

theorem panicSignatures_not_mmc : ∀ s ∈ panicSignatures, ¬ ascii "mmc" <+: ascii s := by
  decide +kernel

theorem takenBack_iff {s t : Bytes} : panicLexicon.TakenBack s t ↔ LookAheadCut s t := by
  constructor
  · rintro ⟨i, n, ⟨w, f, hw, rfl, ⟨r, hr⟩, hf⟩, hnot⟩
    have hi : i ≤ s.length := by
      by_contra hlt
      rw [List.drop_eq_nil_of_le (by omega)] at hr
      exact panicLexicon.nonempty hw (List.append_eq_nil_iff.1 hr).1
    have hdrop : (s ++ t).drop i = w ++ (r ++ t) := by
      rw [List.drop_append_of_le_length hi, ← hr, List.append_assoc]
    obtain ⟨x, hx, hback⟩ : ∃ x ∈ f, w ++ x <+: (s ++ t).drop i := by
      by_contra hnone
      refine hnot ⟨w, f, hw, rfl, ?_, fun x hx hback => hnone ⟨x, hx, hback⟩⟩
      rw [hdrop]
      exact List.prefix_append ..
    have hstays := hf x hx
    rw [hdrop, List.prefix_append_right_inj] at hback
    rw [← hr, List.prefix_append_right_inj] at hstays
    cases hw with
    | signature hs => cases hx
    | mmcError hne hds =>
      rename_i ds
      cases hx
      rcases List.prefix_or_prefix_of_prefix hback (List.prefix_append r t) with hle | ⟨y, hy⟩
      · exact (hstays hle).elim
      · refine ⟨s.take i, ds, r, y, hne, hds, ?_, hy, ?_, ?_⟩
        · rw [hr, List.take_append_drop]
        · rintro rfl
          rw [List.append_nil] at hy
          exact hstays (hy ▸ List.prefix_refl _)
        · rwa [← hy, List.prefix_append_right_inj] at hback
  · rintro ⟨pre, ds, x, y, hne, hds, rfl, hxy, hy, u, rfl⟩
    have hword : PanicWord (ascii "mmc" ++ (ds ++ ascii ": error"))
      (some (ascii " -1 whilst initialising")) := .mmcError hne hds
    refine ⟨pre.length, _, ⟨_, _, hword, rfl, ?_, ?_⟩, ?_⟩
    · rw [List.drop_left]
      exact List.prefix_append ..
    · rintro _ ⟨⟩ hback
      rw [List.drop_left, List.prefix_append_right_inj, ← hxy] at hback
      have hle := hback.length_le
      have hpos := List.length_pos_iff.2 hy
      rw [List.length_append] at hle
      omega
    · rintro ⟨w, f, hw, hlen, hp, hf⟩
      rw [List.append_assoc, List.drop_left, List.append_assoc] at hp hf
      have hsame : w = ascii "mmc" ++ (ds ++ ascii ": error") :=
        (List.prefix_of_prefix_length_le hp (List.prefix_append ..)
          (Nat.le_of_eq hlen)).eq_of_length
          hlen
      cases hw with
      | signature hs =>
        refine panicSignatures_not_mmc _ hs ?_
        rw [hsame]
        exact List.prefix_append ..
      | mmcError hne' hds' =>
        refine hf _ rfl ?_
        rw [hsame, ← List.append_assoc x y u, hxy]
        exact (List.prefix_append_right_inj _).2 (List.prefix_append ..)

theorem panicLexicon_inside : panicLexicon.Inside 0x0A ∧ panicLexicon.Inside 0x0D := by
  have hcont {w : Bytes} {f : Option Bytes} (h : PanicWord w f) :
      ∀ x ∈ f, 0x0A ∉ x ∧ 0x0D ∉ x := by
    rintro x hx
    cases h with
    | signature => cases hx
    | mmcError =>
      cases hx
      decide +kernel
  exact ⟨fun w f h => ⟨h.oneLine.1, fun x hx => (hcont h x hx).1⟩,
    fun w f h => ⟨h.oneLine.2, fun x hx => (hcont h x hx).2⟩⟩

/-- The bytes of a line break. -/
def IsBreak (b : UInt8) : Prop := b = 0x0A ∨ b = 0x0D

theorem inside_of_isBreak {b : UInt8} (h : IsBreak b) : panicLexicon.Inside b := by
  rcases h with rfl | rfl
  · exact panicLexicon_inside.1
  · exact panicLexicon_inside.2

/-- The bytes of a text are those of its last line, behind a line break if there is one. -/
theorem encode_lastLine (s : List Char) : encodeUtf8 s = encodeUtf8 (lastLine s) ∨
    ∃ a b, IsBreak b ∧ encodeUtf8 s = a ++ b :: encodeUtf8 (lastLine s) := by
  rcases lastLine_cases s with h | ⟨t, c, hc, h⟩
  · exact .inl (congrArg encodeUtf8 h.symm)
  · right
    have hbreak : ∃ b, IsBreak b ∧ encodeUtf8 [c] = [b] := by
      rw [isLineBreak, Bool.or_eq_true, decide_eq_true_eq, decide_eq_true_eq] at hc
      rcases hc with rfl | rfl
      · exact ⟨0x0A, .inl rfl, by decide +kernel⟩
      · exact ⟨0x0D, .inr rfl, by decide +kernel⟩
    obtain ⟨b, hb, hbytes⟩ := hbreak
    refine ⟨encodeUtf8 t, b, hb, ?_⟩
    conv_lhs => rw [h, ← List.singleton_append, encodeUtf8_append, encodeUtf8_append, hbytes]
    rfl

section
variable {s : List Char} {cs : List Bytes} {buf : List Char}

theorem mem_buffers : buf ∈ buffers s cs ↔
    ∃ a c b, cs = a ++ c :: b ∧ buf = lastLine (s ++ textOf a) ++ sanitise c := by
  induction cs generalizing s with
  | nil =>
    refine ⟨fun h => (List.not_mem_nil h).elim, ?_⟩
    rintro ⟨a, c, b, h, _⟩
    exact absurd h.symm (List.append_ne_nil_of_right_ne_nil a nofun)
  | cons c cs ih =>
    rw [buffers, List.mem_cons, ih]
    constructor
    · rintro (rfl | ⟨a, c', b, rfl, rfl⟩)
      · exact ⟨[], c, cs, rfl, by rw [textOf, List.flatMap_nil, List.append_nil]⟩
      · refine ⟨c :: a, c', b, rfl, ?_⟩
        rw [textOf, textOf, List.flatMap_cons, List.append_assoc]
    · rintro ⟨a, c', b, h, rfl⟩
      cases a with
      | nil =>
        cases h
        left
        rw [textOf, List.flatMap_nil, List.append_nil]
      | cons d a =>
        obtain ⟨rfl, rfl⟩ := List.cons.inj h
        refine .inr ⟨a, c', b, rfl, ?_⟩
        rw [textOf, textOf, List.flatMap_cons, List.append_assoc]

/-- A buffer is the end of the text up to its chunk: all of it, or what follows a line break. -/
theorem encode_buffer (s t : List Char) :
    encodeUtf8 (s ++ t) = encodeUtf8 (lastLine s ++ t) ∨ ∃ a b, IsBreak b ∧
      encodeUtf8 s = a ++ b :: encodeUtf8 (lastLine s) ∧
      encodeUtf8 (s ++ t) = a ++ b :: encodeUtf8 (lastLine s ++ t) := by
  rcases encode_lastLine s with h | ⟨a, b, hb, h⟩
  · left
    rw [encodeUtf8_append, encodeUtf8_append, h]
  · refine .inr ⟨a, b, hb, h, ?_⟩
    rw [encodeUtf8_append, encodeUtf8_append, h, List.append_assoc, List.cons_append]

theorem encode_buffer_suffix (s t : List Char) :
    encodeUtf8 (lastLine s ++ t) <:+ encodeUtf8 (s ++ t) := by
  rcases encode_buffer s t with h | ⟨a, b, -, -, h⟩
  · rw [h]
  · rw [h, ← List.singleton_append, ← List.append_assoc]
    exact List.suffix_append ..

/-- A panic of a buffer is a panic of the text, unless a cut within the look-ahead makes it up. -/
theorem panic_of_buffer (hbuf : buf ∈ buffers [] cs) (h : panicSearch (encodeUtf8 buf) = true) :
    panicSearch (encodeUtf8 (textOf cs)) = true ∨
      ∃ a b, cs = a ++ b ∧ LookAheadCut (encodeUtf8 (textOf a)) (encodeUtf8 (textOf b)) := by
  obtain ⟨a, c, b, rfl, rfl⟩ := mem_buffers.1 hbuf
  have hsplit : a ++ c :: b = (a ++ [c]) ++ b := by rw [List.append_assoc, List.singleton_append]
  have htext : textOf (a ++ [c]) = textOf a ++ sanitise c := by
    rw [textOf_append, textOf_singleton]
  rw [List.nil_append] at h
  rcases (panicSearch_iff.1 h).append (encode_buffer_suffix _ _) (encodeUtf8 (textOf b)) with h | h
  · left
    rw [hsplit, textOf_append, htext, encodeUtf8_append]
    exact panicSearch_iff.2 h
  · right
    refine ⟨a ++ [c], b, hsplit, ?_⟩
    rw [htext]
    exact takenBack_iff.1 h

theorem mem_buffers_concat {c : Bytes} : buf ∈ buffers [] (cs ++ [c]) ↔
    buf ∈ buffers [] cs ∨ buf = lastLine (textOf cs) ++ sanitise c := by
  rw [buffers_concat, List.mem_append, List.mem_singleton]

/-- A panic of the text is a panic of a buffer: its line is whole in the buffer that ends it. -/
theorem panic_in_buffer (h : panicSearch (encodeUtf8 (textOf cs)) = true) :
    ∃ buf ∈ buffers [] cs, panicSearch (encodeUtf8 buf) = true := by
  induction cs using List.reverseRecOn with
  | nil => exact (panicLexicon.not_found_nil (panicSearch_iff.1 h)).elim
  | append_singleton cs c ih =>
    have hlast : lastLine (textOf cs) ++ sanitise c ∈ buffers [] (cs ++ [c]) :=
      mem_buffers_concat.2 (.inr rfl)
    rw [textOf_append, textOf_singleton] at h
    rcases encode_buffer (textOf cs) (sanitise c) with hb | ⟨a, b, hb, hs, hst⟩
    · rw [hb] at h
      exact ⟨_, hlast, h⟩
    · rw [hst, panicSearch_iff] at h
      rcases (inside_of_isBreak hb).found h with h | h
      · exact ⟨_, hlast, panicSearch_iff.2 h⟩
      · obtain ⟨buf, hbuf, hp⟩ := ih (panicSearch_iff.2 (hs ▸ h _))
        exact ⟨buf, mem_buffers_concat.2 (.inl hbuf), hp⟩

theorem panic_of_cut {a b : List Bytes}
    (h : LookAheadCut (encodeUtf8 (textOf a)) (encodeUtf8 (textOf b))) :
    ∃ buf ∈ buffers [] (a ++ b), panicSearch (encodeUtf8 buf) = true := by
  rw [← takenBack_iff] at h
  induction a using List.reverseRecOn with
  | nil =>
    obtain ⟨i, n, h, -⟩ := h
    exact (panicLexicon.not_found_nil ⟨i, n, h⟩).elim
  | append_singleton a c _ =>
    refine ⟨lastLine (textOf a) ++ sanitise c, ?_, panicSearch_iff.2 ?_⟩
    · exact mem_buffers.2 ⟨a, c, b, by rw [List.append_assoc, List.singleton_append], rfl⟩
    · rw [textOf_append, textOf_singleton] at h
      rcases encode_buffer (textOf a) (sanitise c) with hb | ⟨x, y, hy, -, hst⟩
      · rw [hb] at h
        obtain ⟨i, n, h, -⟩ := h
        exact ⟨i, n, h⟩
      · rw [hst] at h
        exact (inside_of_isBreak hy).takenBack h

/-- A prompt without a line break that stands in the text stands in a buffer. -/
theorem prompt_in_buffer {b : Bytes} (hb : 0x0A ∉ b ∧ 0x0D ∉ b) (hne : cs ≠ [])
    (h : b <:+: encodeUtf8 (textOf cs)) : ∃ buf ∈ buffers [] cs, b <:+: encodeUtf8 buf := by
  induction cs using List.reverseRecOn with
  | nil => exact (hne rfl).elim
  | append_singleton cs c ih =>
    have hlast : lastLine (textOf cs) ++ sanitise c ∈ buffers [] (cs ++ [c]) :=
      mem_buffers_concat.2 (.inr rfl)
    rw [textOf_append, textOf_singleton] at h
    rcases encode_buffer (textOf cs) (sanitise c) with heq | ⟨x, y, hy, hs, hst⟩
    · rw [heq] at h
      exact ⟨_, hlast, h⟩
    · have hnot : y ∉ b := by
        rcases hy with rfl | rfl
        · exact hb.1
        · exact hb.2
      rw [hst] at h
      rcases infix_append_cons hnot h with h | h
      · have hcs : cs ≠ [] := by
          rintro rfl
          exact absurd hs.symm (List.append_ne_nil_of_right_ne_nil x nofun)
        have hin : b <:+: encodeUtf8 (textOf cs) := by
          rw [hs]
          exact h.trans (List.prefix_append ..).isInfix
        obtain ⟨buf, hbuf, hp⟩ := ih hcs hin
        exact ⟨buf, mem_buffers_concat.2 (.inl hbuf), hp⟩
      · exact ⟨_, hlast, h⟩

theorem prompt_of_buffer {b : Bytes} (hbuf : buf ∈ buffers [] cs) (h : b <:+: encodeUtf8 buf) :
    b <:+: encodeUtf8 (textOf cs) := by
  obtain ⟨a, c, rest, rfl, rfl⟩ := mem_buffers.1 hbuf
  rw [List.nil_append] at h
  have hcons : textOf (a ++ c :: rest) = textOf a ++ sanitise c ++ textOf rest := by
    rw [textOf_append, List.append_assoc]
    rfl
  rw [hcons, encodeUtf8_append]
  exact (h.trans (encode_buffer_suffix _ _).isInfix).trans (List.prefix_append ..).isInfix

end

/-- A stream cut so that nothing is lost: sanitising each chunk gives the sanitised text of the
whole; unless that shows a panic, no cut falls into the look-ahead of `mmcN: error`, and a prompt
with a line break in it that stands in the text stands in a chunk, with what was left of the line
before it. -/
structure Unbroken (p : StreamParams) (cs : List Bytes) : Prop where
  text : textOf cs = sanitise cs.flatten
  lookAhead : panicSearch (encodeUtf8 (textOf cs)) = false → ∀ a b, cs = a ++ b →
    ¬ LookAheadCut (encodeUtf8 (textOf a)) (encodeUtf8 (textOf b))
  prompts : panicSearch (encodeUtf8 (textOf cs)) = false → ∀ t b, (t, b) ∈ p.prompts →
    0x0A ∈ b ∨ 0x0D ∈ b → b <:+: encodeUtf8 (textOf cs) → ∃ b', (t, b') ∈ p.prompts ∧
      ∃ a c rest, cs = a ++ c :: rest ∧ b' <:+: encodeUtf8 (lastLine (textOf a) ++ sanitise c)

section
variable {p : StreamParams} {cs cs' : List Bytes}

theorem Unbroken.panicked (h : Unbroken p cs) (hm : (p.milestones.map Prod.fst).Nodup)
    (hne : ∀ c ∈ cs, c ≠ []) :
    Panicked (opened p cs) ↔ panicSearch (encodeUtf8 (sanitise cs.flatten)) = true := by
  rw [panicked_opened hm hne, ← h.text]
  refine ⟨fun ⟨buf, hbuf, hp⟩ => ?_, panic_in_buffer⟩
  rcases panic_of_buffer hbuf hp with hp | ⟨a, b, hab, hcut⟩
  · exact hp
  · by_contra hquiet
    exact h.lookAhead (Bool.eq_false_iff.2 hquiet) a b hab hcut

theorem Unbroken.prompt (h : Unbroken p cs) (hcs : cs ≠ [])
    (hquiet : panicSearch (encodeUtf8 (textOf cs)) = false) (t : String) :
    (∃ b, (t, b) ∈ p.prompts ∧ ∃ buf ∈ buffers [] cs, b <:+: encodeUtf8 buf) ↔
      ∃ b, (t, b) ∈ p.prompts ∧ b <:+: encodeUtf8 (textOf cs) := by
  constructor
  · rintro ⟨b, hb, buf, hbuf, hin⟩
    exact ⟨b, hb, prompt_of_buffer hbuf hin⟩
  · rintro ⟨b, hb, hin⟩
    by_cases hbreak : 0x0A ∈ b ∨ 0x0D ∈ b
    · obtain ⟨b', hb', a, c, rest, hcut, hin'⟩ := h.prompts hquiet t b hb hbreak hin
      exact ⟨b', hb', _, mem_buffers.2 ⟨a, c, rest, hcut, rfl⟩, hin'⟩
    · exact ⟨b, hb, prompt_in_buffer (not_or.1 hbreak) hcs hin⟩

theorem Unbroken.tells (h : Unbroken p cs) (hm : (p.milestones.map Prod.fst).Nodup)
    (hne : ∀ c ∈ cs, c ≠ []) (hcs : cs ≠ []) (hquiet : ¬ Panicked (opened p cs)) :
    bootLines (opened p cs) = completeLines (normalizeNewlines (sanitise cs.flatten)) ∧
      milestoneNames (opened p cs) = milestoneScan (bootLines (opened p cs)) p.milestones ∧
        ∀ t, t ∈ promptTypes (opened p cs) ↔
          ∃ b, (t, b) ∈ p.prompts ∧ b <:+: encodeUtf8 (sanitise cs.flatten) := by
  obtain ⟨st, hheard⟩ := heard_opened hm hne hquiet
  rw [h.panicked hm hne, ← h.text, Bool.not_eq_true] at hquiet
  rw [← h.text]
  refine ⟨(hheard.told.lines hheard.calm).1, hheard.milestones, fun t => ?_⟩
  rw [hheard.told.prompts, hheard.prompts, h.prompt hcs hquiet]

theorem Unbroken.sameBoot (h : Unbroken p cs) (h' : Unbroken p cs')
    (hm : (p.milestones.map Prod.fst).Nodup) (hne : ∀ c ∈ cs, c ≠ []) (hne' : ∀ c ∈ cs', c ≠ [])
    (hflatten : cs.flatten = cs'.flatten) : SameBoot (opened p cs) (opened p cs') := by
  have hempty {l : List Bytes} (hl : ∀ c ∈ l, c ≠ []) (h : l.flatten = []) : l = [] := by
    cases l with
    | nil => rfl
    | cons c l => exact (hl c (List.mem_cons_self ..) (List.flatten_eq_nil_iff.1 h c
        (List.mem_cons_self ..))).elim
  by_cases hcs : cs = []
  · have hcs' : cs' = [] := hempty hne' (by rw [← hflatten, hcs]; rfl)
    rw [hcs, hcs']
    exact ⟨.rfl, fun _ _ => .rfl, fun _ => rfl, fun _ => rfl⟩
  · have hcs' : cs' ≠ [] := fun hnil => hcs (hempty hne (by rw [hflatten, hnil]; rfl))
    have hpanic : Panicked (opened p cs) ↔ Panicked (opened p cs') := by
      rw [h.panicked hm hne, h'.panicked hm hne', hflatten]
    have hlines (hquiet : ¬ Panicked (opened p cs)) :
        bootLines (opened p cs) = bootLines (opened p cs') := by
      rw [(h.tells hm hne hcs hquiet).1, (h'.tells hm hne' hcs' fun hp => hquiet (hpanic.2 hp)).1,
        hflatten]
    refine ⟨hpanic, fun hquiet t => ?_, hlines, fun hquiet => ?_⟩
    · rw [(h.tells hm hne hcs hquiet).2.2,
        (h'.tells hm hne' hcs' fun hp => hquiet (hpanic.2 hp)).2.2, hflatten]
    · rw [(h.tells hm hne hcs hquiet).2.1,
        (h'.tells hm hne' hcs' fun hp => hquiet (hpanic.2 hp)).2.1, hlines hquiet]

theorem unbroken_singleton (p : StreamParams) (c : Bytes) : Unbroken p [c] := by
  refine ⟨?_, fun _ a b hab hcut => ?_, fun _ t b hb _ hin => ?_⟩
  · rw [textOf_singleton, List.flatten_singleton]
  · obtain ⟨pre, ds, x, y, hds, -, hs, -, hy, hyt⟩ := hcut
    cases a with
    | nil =>
      have hnil : encodeUtf8 (textOf []) = [] := rfl
      rw [hnil] at hs
      have hlen := congrArg List.length hs
      have hpos := List.length_pos_iff.2 hds
      simp only [List.length_append, List.length_nil] at hlen
      omega
    | cons d a =>
      obtain ⟨-, hnil⟩ := List.cons.inj hab
      obtain ⟨-, rfl⟩ := List.append_eq_nil_iff.1 hnil.symm
      exact hy (List.prefix_nil.1 hyt)
  · refine ⟨b, hb, [], c, [], rfl, ?_⟩
    rwa [textOf_singleton] at hin

/-- What an unbroken cutting tells does not depend on the cuts; and where sanitising by chunks
gives the sanitised text, only an unbroken cutting tells what the stream tells in one piece. -/
theorem cutting_told (hm : (p.milestones.map Prod.fst).Nodup) :
    (∀ cs cs', (∀ c ∈ cs, c ≠ []) → (∀ c ∈ cs', c ≠ []) → cs.flatten = cs'.flatten →
      Unbroken p cs → Unbroken p cs' → SameBoot (opened p cs) (opened p cs')) ∧
    ∀ cs, (∀ c ∈ cs, c ≠ []) → cs ≠ [] → textOf cs = sanitise cs.flatten →
      SameBoot (opened p cs) (opened p [cs.flatten]) → Unbroken p cs := by
  refine ⟨fun cs cs' hne hne' hflatten h h' => h.sameBoot h' hm hne hne' hflatten,
    fun cs hne hcs htext hsame => ?_⟩
  have hwhole := unbroken_singleton p cs.flatten
  have hne' : ∀ c ∈ [cs.flatten], c ≠ [] := by
    intro c hc hnil
    rw [List.mem_singleton.1 hc, List.flatten_eq_nil_iff] at hnil
    obtain ⟨d, l, rfl⟩ := List.exists_cons_of_ne_nil hcs
    exact hne d (List.mem_cons_self ..) (hnil d (List.mem_cons_self ..))
  have hpanic : Panicked (opened p cs) ↔ panicSearch (encodeUtf8 (textOf cs)) = true := by
    rw [hsame.panicked, hwhole.panicked hm hne', List.flatten_singleton, htext]
  refine ⟨htext, fun hquiet a b hab hcut => ?_, fun hquiet t b hb _ hin => ?_⟩
  · have hp : Panicked (opened p cs) := by
      rw [panicked_opened hm hne, hab]
      exact panic_of_cut hcut
    rw [hpanic, hquiet] at hp
    cases hp
  · have hcalm : ¬ Panicked (opened p cs) := by
      rw [hpanic, hquiet]
      exact Bool.false_ne_true
    obtain ⟨st, hheard⟩ := heard_opened hm hne hcalm
    have htold : t ∈ promptTypes (opened p cs) := by
      rw [hsame.prompts hcalm, (hwhole.tells hm hne' nofun fun hp =>
        hcalm (hsame.panicked.2 hp)).2.2, List.flatten_singleton, ← htext]
      exact ⟨b, hb, hin⟩
    rw [hheard.told.prompts, hheard.prompts] at htold
    obtain ⟨b', hb', buf, hbuf, hin'⟩ := htold
    obtain ⟨a, c, rest, hcut, rfl⟩ := mem_buffers.1 hbuf
    exact ⟨b', hb', a, c, rest, hcut, hin'⟩

end

def colouredPrompt : Bytes := ascii "ro" ++ escByte :: ascii "[0mot@"

def shellParams : StreamParams where
  prompts := [("shell", ascii "root@")]

/-- Cut inside its escape sequence, the prompt is not found. -/
theorem escape_cut : (∀ c ∈ [colouredPrompt.take 4, colouredPrompt.drop 4], c ≠ []) ∧
    [colouredPrompt.take 4, colouredPrompt.drop 4].flatten = [colouredPrompt].flatten ∧
      ¬ SameBoot (opened shellParams [colouredPrompt.take 4, colouredPrompt.drop 4])
        (opened shellParams [colouredPrompt]) := by
  refine ⟨by decide +kernel, by decide +kernel, fun h => ?_⟩
  have hquiet : opened shellParams [colouredPrompt.take 4, colouredPrompt.drop 4] = [] := by
    decide +kernel
  have hcalm : ¬ Panicked (opened shellParams [colouredPrompt.take 4, colouredPrompt.drop 4]) := by
    rintro ⟨raw, hmem⟩
    rw [hquiet] at hmem
    cases hmem
  have hmem := (h.prompts hcalm "shell").2 (by decide +kernel)
  rw [hquiet] at hmem
  cases hmem

/-- A prompt cut in two is one prompt. -/
theorem prompt_cut : SameBoot (opened shellParams [ascii "ro", ascii "ot@"])
    (opened shellParams [ascii "root@"]) := by
  refine (cutting_told (p := shellParams) (by decide)).1 [ascii "ro", ascii "ot@"] [ascii "root@"]
    (by decide +kernel) (by decide +kernel) (by decide +kernel) ?_ (unbroken_singleton _ _)
  refine ⟨by decide +kernel, fun _ a b hab hcut => ?_, fun _ t b hb hbreak => ?_⟩
  · obtain ⟨pre, ds, x, y, -, -, hs, -⟩ := hcut
    have hmem : 0x6D ∈ encodeUtf8 (textOf (a ++ b)) := by
      rw [textOf_append, encodeUtf8_append, hs, show ascii "mmc" = 0x6D :: ascii "mc" by
        decide +kernel]
      simp
    rw [← hab] at hmem
    exact absurd hmem (by decide +kernel)
  · have hprompt : b = ascii "root@" := congrArg Prod.snd (List.mem_singleton.1 hb)
    rw [hprompt] at hbreak
    exact absurd hbreak (by decide +kernel)

end MesCore
