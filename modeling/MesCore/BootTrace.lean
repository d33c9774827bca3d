import MesCore.EventStream
import MesCore.Hardware
import MesCore.Lines
import MesCore.Mux
import MesCore.Runs
import Mathlib.Data.List.Nodup

namespace MesCore
set_option autoImplicit true

section
variable {s t : List Char} {c : Char}

theorem normalizeNewlines_cons (h : c ≠ '\r') (s : List Char) :
    normalizeNewlines (c :: s) = c :: normalizeNewlines s := by
  rw [normalizeNewlines]
  · rintro s rfl
    exact absurd rfl h
  · exact h

theorem normalizeNewlines_crlf (s : List Char) :
    normalizeNewlines ('\r' :: '\n' :: s) = '\n' :: normalizeNewlines s := by
  rw [normalizeNewlines]

theorem normalizeNewlines_cr (h : s.head? ≠ some '\n') :
    normalizeNewlines ('\r' :: s) = '\n' :: normalizeNewlines s := by
  rw [normalizeNewlines]
  rintro s rfl
  exact h rfl

theorem cr_notMem_normalizeNewlines (s : List Char) : '\r' ∉ normalizeNewlines s := by
  induction s using normalizeNewlines.induct with
  | case1 s ih =>
    rw [normalizeNewlines_crlf, List.mem_cons, not_or]
    exact ⟨by decide, ih⟩
  | case2 s hne ih =>
    rw [normalizeNewlines, List.mem_cons, not_or]
    · exact ⟨by decide, ih⟩
    · exact hne
  | case3 c s _ hcr ih =>
    rw [normalizeNewlines_cons hcr, List.mem_cons, not_or]
    exact ⟨Ne.symm hcr, ih⟩
  | case4 => exact List.not_mem_nil

theorem normalizeNewlines_of_notMem (h : '\r' ∉ s) : normalizeNewlines s = s := by
  induction s with
  | nil => rfl
  | cons c s ih =>
    rw [List.mem_cons, not_or] at h
    rw [normalizeNewlines_cons (Ne.symm h.1), ih h.2]

theorem normalizeNewlines_append (h : s.getLast? = some '\r' → t.head? ≠ some '\n') :
    normalizeNewlines (s ++ t) = normalizeNewlines s ++ normalizeNewlines t := by
  induction s using normalizeNewlines.induct with
  | case1 s ih =>
    rw [List.cons_append, List.cons_append, normalizeNewlines_crlf, normalizeNewlines_crlf, ih,
      List.cons_append]
    cases s with
    | nil => nofun
    | cons c s => exact h
  | case2 s hne ih =>
    have hhead : s.head? ≠ some '\n' := fun hs => by
      obtain ⟨u, rfl⟩ := List.head?_eq_some_iff.1 hs
      exact hne u rfl
    rw [List.cons_append, normalizeNewlines_cr hhead, normalizeNewlines_cr, ih, List.cons_append]
    · cases s with
      | nil => nofun
      | cons c s => exact h
    · cases s with
      | nil => exact h rfl
      | cons c s => exact hhead
  | case3 c s _ hcr ih =>
    rw [List.cons_append, normalizeNewlines_cons hcr, normalizeNewlines_cons hcr, ih,
      List.cons_append]
    cases s with
    | nil => nofun
    | cons c s => exact h
  | case4 => rfl

theorem normalizeNewlines_seam (h : s.getLast? = some '\r') (t : List Char) :
    normalizeNewlines (s ++ '\n' :: t) = normalizeNewlines s ++ normalizeNewlines t := by
  obtain ⟨u, rfl⟩ := List.getLast?_eq_some_iff.1 h
  have hcr (v : List Char) : normalizeNewlines (u ++ '\r' :: v) =
      normalizeNewlines u ++ normalizeNewlines ('\r' :: v) :=
    normalizeNewlines_append fun _ h => absurd (Option.some.inj h) (by decide)
  rw [List.append_assoc, List.singleton_append, hcr, hcr, normalizeNewlines_crlf, List.append_assoc]
  rfl

end

/-- The non-blank stripped lines that are complete in a text. -/
def completeLines (t : List Char) : List String :=
  ((splitNewline t).dropLast.map fun l => String.ofList (pyStrip l)).filter fun l => !l.isEmpty

theorem completeLines_eq (t : List Char) : completeLines t =
    ((finished '\n' t).map fun l => String.ofList (pyStrip l)).filter fun l => !l.isEmpty := by
  rw [completeLines, splitNewline_eq, finished]

section
variable {s t : List Char}

theorem completeLines_append : completeLines (s ++ t) =
    completeLines s ++ completeLines (unfinished '\n' s ++ t) := by
  rw [completeLines_eq, finished_append, List.map_append, List.filter_append, completeLines_eq,
    completeLines_eq]

theorem completeLines_newline (t : List Char) : completeLines ('\n' :: t) = completeLines t := by
  have h := completeLines_append (s := ['\n']) (t := t)
  rwa [List.singleton_append, show completeLines ['\n'] = [] from rfl, List.nil_append] at h

theorem unfinished_newline (t : List Char) : unfinished '\n' ('\n' :: t) = unfinished '\n' t :=
  unfinished_append (s := ['\n']) (t := t)

/-- A buffer that keeps what is unfinished reads on as the whole text would. -/
theorem normalizeNewlines_goOn (s t : List Char) :
    completeLines (normalizeNewlines (s ++ t)) = completeLines (normalizeNewlines s) ++
        completeLines (normalizeNewlines (unfinished '\n' (normalizeNewlines s) ++ t)) ∧
      unfinished '\n' (normalizeNewlines (s ++ t)) =
        unfinished '\n' (normalizeNewlines (unfinished '\n' (normalizeNewlines s) ++ t)) := by
  have hcr : '\r' ∉ unfinished '\n' (normalizeNewlines s) := fun h =>
    cr_notMem_normalizeNewlines s (unsplit '\n' (normalizeNewlines s) ▸ List.mem_append_right _ h)
  have hrest (t : List Char) :
      normalizeNewlines (unfinished '\n' (normalizeNewlines s) ++ t) =
        unfinished '\n' (normalizeNewlines s) ++ normalizeNewlines t := by
    rw [normalizeNewlines_append fun h => absurd (List.mem_of_getLast? h) hcr,
      normalizeNewlines_of_notMem hcr]
  rw [hrest]
  by_cases hseam : s.getLast? = some '\r' ∧ t.head? = some '\n'
  · -- the carriage return has ended its line already, the line feed ends a blank one
    obtain ⟨hs, ht⟩ := hseam
    obtain ⟨u, rfl⟩ := List.head?_eq_some_iff.1 ht
    obtain ⟨v, rfl⟩ := List.getLast?_eq_some_iff.1 hs
    have hv : unfinished '\n' (normalizeNewlines (v ++ ['\r'])) = [] := by
      have hcr : ['\r'].head? ≠ some '\n' := by decide
      rw [normalizeNewlines_append fun _ => hcr,
        show normalizeNewlines ['\r'] = ['\n'] from rfl]
      exact unfinished_of_splitOn '\n' _ (List.splitOn_append_cons_self ..)
    rw [normalizeNewlines_seam hs, completeLines_append, unfinished_append, hv,
      List.nil_append, List.nil_append, normalizeNewlines_cons (by decide), completeLines_newline,
      unfinished_newline]
    exact ⟨rfl, rfl⟩
  · rw [normalizeNewlines_append fun hs ht => hseam ⟨hs, ht⟩, completeLines_append,
      unfinished_append]
    exact ⟨rfl, rfl⟩

end

def promptTypes (evs : List UartEvent) : List String :=
  evs.filterMap fun
    | .promptDetected promptType => some promptType
    | _ => none

def milestoneNames (evs : List UartEvent) : List String :=
  evs.filterMap fun
    | .milestoneReached name => some name
    | _ => none

def bootLines (evs : List UartEvent) : List String :=
  evs.filterMap fun
    | .bootDataReceived line => some line
    | _ => none

/-- These events end in the first line with the text of a milestone, and other milestones of that
line. -/
def Announced (p : StreamParams) (evs : List UartEvent) (name : String) : Prop :=
  ∃ text line before, ∃ names : List String, (name, text) ∈ p.milestones ∧
    evs = before ++ .bootDataReceived line :: names.map .milestoneReached ∧
      occursIn text line ∧ ∀ l ∈ bootLines before, ¬ occursIn text l

/-- The order and the number of the events of a boot. -/
structure TraceLaw (p : StreamParams) (evs : List UartEvent) : Prop where
  prompts : (promptTypes evs).Nodup
  milestones : (milestoneNames evs).Nodup
  placed : ∀ pre name post, evs = pre ++ .milestoneReached name :: post → Announced p pre name
  autoboot : evs.count .autobootWindowDetected ≤ 1
  panic : ∀ pre raw post, evs = pre ++ .panicDetected raw :: post → post = []

theorem TraceLaw.mono {evs evs' : List UartEvent} (h : TraceLaw p evs') (hle : evs <+: evs') :
    TraceLaw p evs := by
  refine ⟨h.prompts.sublist (hle.sublist.filterMap _),
    h.milestones.sublist (hle.sublist.filterMap _),
    fun pre name post heq => ?_, (hle.sublist.count_le _).trans h.autoboot,
    fun pre raw post heq => ?_⟩
  · obtain ⟨rest, rfl⟩ := hle
    refine h.placed pre name (post ++ rest) ?_
    rw [heq, List.append_assoc, List.cons_append]
  · obtain ⟨rest, rfl⟩ := hle
    have hnil := h.panic pre raw (post ++ rest) (by rw [heq, List.append_assoc, List.cons_append])
    exact (List.append_eq_nil_iff.1 hnil).1

/-- What the events so far say about the milestones that are still pending. -/
structure MilestonesTold (p : StreamParams) (evs : List UartEvent)
    (pending : List (String × String)) : Prop where
  unseen : ∀ kv ∈ pending, kv ∈ p.milestones ∧ kv.1 ∉ milestoneNames evs ∧
    ∀ l ∈ bootLines evs, ¬ occursIn kv.2 l
  keys : (pending.map Prod.fst).Nodup
  once : (milestoneNames evs).Nodup
  placed : ∀ pre name post, evs = pre ++ .milestoneReached name :: post → Announced p pre name

section
variable {p : StreamParams} {evs new : List UartEvent} {pending : List (String × String)}

theorem mem_milestoneNames {name : String} :
    name ∈ milestoneNames evs ↔ .milestoneReached name ∈ evs := by
  rw [milestoneNames, List.mem_filterMap]
  constructor
  · rintro ⟨ev, hev, heq⟩
    cases ev with
    | milestoneReached n =>
      cases heq
      exact hev
    | promptDetected | autobootWindowDetected | panicDetected | bootDataReceived | idleTick =>
      cases heq
  · exact fun h => ⟨_, h, rfl⟩

theorem mem_bootLines {line : String} : line ∈ bootLines evs ↔ .bootDataReceived line ∈ evs := by
  rw [bootLines, List.mem_filterMap]
  constructor
  · rintro ⟨ev, hev, heq⟩
    cases ev with
    | bootDataReceived l =>
      cases heq
      exact hev
    | promptDetected | autobootWindowDetected | panicDetected | milestoneReached | idleTick =>
      cases heq
  · exact fun h => ⟨_, h, rfl⟩

theorem bootLines_append : bootLines (evs ++ new) = bootLines evs ++ bootLines new :=
  List.filterMap_append ..

theorem milestoneNames_append :
    milestoneNames (evs ++ new) = milestoneNames evs ++ milestoneNames new :=
  List.filterMap_append ..

theorem promptTypes_append : promptTypes (evs ++ new) = promptTypes evs ++ promptTypes new :=
  List.filterMap_append ..

theorem milestoneNames_map (names : List String) :
    milestoneNames (names.map .milestoneReached) = names := by
  induction names with
  | nil => rfl
  | cons name names ih => exact congrArg (List.cons name) ih

theorem bootLines_map (names : List String) :
    bootLines (names.map .milestoneReached) = [] := by
  induction names with
  | nil => rfl
  | cons name names ih => exact ih

theorem placed_append
    (h : ∀ pre name post, evs = pre ++ .milestoneReached name :: post → Announced p pre name)
    (hnew : ∀ pre name post, new = pre ++ .milestoneReached name :: post →
      Announced p (evs ++ pre) name) (pre : List UartEvent) (name : String)
    (post : List UartEvent) (heq : evs ++ new = pre ++ .milestoneReached name :: post) :
    Announced p pre name := by
  rcases List.append_eq_append_iff.1 heq with ⟨mid, rfl, hmid⟩ | ⟨mid, rfl, hmid⟩
  · exact hnew mid name post hmid
  · cases mid with
    | nil =>
      have hplaced := hnew [] name post hmid.symm
      rwa [List.append_nil, List.append_nil] at hplaced
    | cons ev mid =>
      obtain ⟨rfl, -⟩ := List.cons.inj hmid
      exact h pre name mid rfl

theorem MilestonesTold.other (h : MilestonesTold p evs pending) (hlines : bootLines new = [])
    (hnames : milestoneNames new = []) : MilestonesTold p (evs ++ new) pending := by
  refine ⟨?_, h.keys, ?_, placed_append h.placed fun pre name post heq => ?_⟩
  · rw [bootLines_append, milestoneNames_append, hlines, hnames, List.append_nil, List.append_nil]
    exact h.unseen
  · rw [milestoneNames_append, hnames, List.append_nil]
    exact h.once
  · have hmem : name ∈ milestoneNames new := by
      rw [mem_milestoneNames, heq]
      exact List.mem_append_right _ (List.mem_cons_self ..)
    rw [hnames] at hmem
    cases hmem

theorem MilestonesTold.line (h : MilestonesTold p evs pending) (line : String) :
    MilestonesTold p (evs ++ .bootDataReceived line ::
        (pending.filter fun kv => decide (occursIn kv.2 line)).map fun kv =>
          .milestoneReached kv.1)
      (pending.filter fun kv => !decide (occursIn kv.2 line)) := by
  obtain ⟨names, hnames⟩ : ∃ names, names =
    (pending.filter fun kv => decide (occursIn kv.2 line)).map Prod.fst := ⟨_, rfl⟩
  have hevs : ((pending.filter fun kv => decide (occursIn kv.2 line)).map fun kv =>
      UartEvent.milestoneReached kv.1) = names.map .milestoneReached := by
    rw [hnames, List.map_map]
    rfl
  have hname {name : String} (hmem : name ∈ names) : ∃ text, (name, text) ∈ pending ∧
      occursIn text line := by
    rw [hnames] at hmem
    obtain ⟨⟨_, text⟩, hkv, rfl⟩ := List.mem_map.1 hmem
    obtain ⟨hkv, hoccurs⟩ := List.mem_filter.1 hkv
    exact ⟨text, hkv, of_decide_eq_true hoccurs⟩
  have hnew : milestoneNames (.bootDataReceived line :: names.map .milestoneReached) = names :=
    milestoneNames_map names
  have hline : bootLines (.bootDataReceived line :: names.map .milestoneReached) = [line] :=
    congrArg (List.cons line) (bootLines_map names)
  rw [hevs]
  refine ⟨?_, h.keys.sublist (List.filter_sublist.map _), ?_,
    placed_append h.placed fun pre name post heq => ?_⟩
  · rintro ⟨name, text⟩ hkv
    obtain ⟨hkv, hnot⟩ := List.mem_filter.1 hkv
    rw [Bool.not_eq_true', decide_eq_false_iff_not] at hnot
    obtain ⟨hm, hn, hl⟩ := h.unseen _ hkv
    rw [milestoneNames_append, bootLines_append, hnew, hline, List.mem_append, not_or]
    refine ⟨hm, ⟨hn, fun hmem => ?_⟩, fun l hmem => ?_⟩
    · obtain ⟨text', hkv', hoccurs⟩ := hname hmem
      have heq := List.inj_on_of_nodup_map h.keys hkv hkv' rfl
      cases heq
      exact hnot hoccurs
    · rcases List.mem_append.1 hmem with hmem | hmem
      · exact hl l hmem
      · rw [List.mem_singleton.1 hmem]
        exact hnot
  · rw [milestoneNames_append, hnew]
    refine h.once.append (hnames ▸ h.keys.sublist (List.filter_sublist.map _)) ?_
    intro name hmem hmem'
    obtain ⟨text, hkv, -⟩ := hname hmem'
    exact (h.unseen _ hkv).2.1 hmem
  · cases pre with
    | nil => cases heq
    | cons ev pre =>
      obtain ⟨rfl, hrest⟩ := List.cons.inj heq
      obtain ⟨before, after, rfl, rfl, hafter⟩ := List.map_eq_append_iff.1 hrest
      obtain ⟨_, rest, rfl, hcons, -⟩ := List.map_eq_cons_iff.1 hafter
      cases hcons
      obtain ⟨text, hkv, hoccurs⟩ := hname (List.mem_append_right _ (List.mem_cons_self ..))
      exact ⟨text, line, evs, before, (h.unseen _ hkv).1, rfl, hoccurs, (h.unseen _ hkv).2.2⟩

theorem MilestonesTold.lineScan (h : MilestonesTold p evs pending) (lines : List (List Char)) :
    MilestonesTold p (evs ++ (lineScan lines pending).1) (lineScan lines pending).2 := by
  induction lines generalizing evs pending with
  | nil =>
    rw [MesCore.lineScan, List.append_nil]
    exact h
  | cons line lines ih =>
    rw [MesCore.lineScan]
    dsimp only
    split
    · exact ih h
    · rw [← List.append_assoc]
      exact ih (h.line _)

end

theorem lineScan_mem {lines : List (List Char)} {pending : List (String × String)}
    {ev : UartEvent} (h : ev ∈ (lineScan lines pending).1) :
    (∃ line, ev = .bootDataReceived line) ∨ ∃ name, ev = .milestoneReached name := by
  induction lines generalizing pending with
  | nil => cases h
  | cons line lines ih =>
    rw [lineScan] at h
    dsimp only at h
    split at h
    · exact ih h
    · rcases List.mem_append.1 h with h | h
      · rcases List.mem_cons.1 h with rfl | h
        · exact .inl ⟨_, rfl⟩
        · obtain ⟨kv, _, rfl⟩ := List.mem_map.1 h
          exact .inr ⟨_, rfl⟩
      · exact ih h

theorem bootLines_lineScan (lines : List (List Char)) (pending : List (String × String)) :
    bootLines (lineScan lines pending).1 =
      (lines.map fun l => String.ofList (pyStrip l)).filter fun l => !l.isEmpty := by
  induction lines generalizing pending with
  | nil => rfl
  | cons line lines ih =>
    rw [lineScan, List.map_cons]
    dsimp only
    split
    · rename_i hempty
      rw [List.filter_cons_of_neg (by rw [hempty]; exact Bool.false_ne_true), ih]
    · rename_i hempty
      rw [List.filter_cons_of_pos (by rw [Bool.eq_false_iff.2 hempty]; rfl), bootLines_append, ih]
      have hmap : bootLines ((pending.filter fun kv => decide (occursIn kv.2
          (String.ofList (pyStrip line)))).map fun kv => .milestoneReached kv.1) = [] := by
        have h := bootLines_map ((pending.filter fun kv => decide (occursIn kv.2
          (String.ofList (pyStrip line)))).map Prod.fst)
        rwa [List.map_map] at h
      exact congrArg (List.cons _ · ++ _) hmap

theorem promptTypes_promptScan (clean : Bytes) (prompts : List (String × Bytes))
    (detected : List String) : (promptScan clean prompts detected).2 =
      detected ++ promptTypes (promptScan clean prompts detected).1 := by
  induction prompts generalizing detected with
  | nil => exact (List.append_nil _).symm
  | cons kv prompts ih =>
    obtain ⟨ptype, pbytes⟩ := kv
    rw [promptScan]
    split
    · dsimp only
      rw [ih, List.append_assoc]
      rfl
    · exact ih detected

theorem nodup_promptScan {clean : Bytes} {prompts : List (String × Bytes)}
    {detected : List String} (h : detected.Nodup) :
    (promptScan clean prompts detected).2.Nodup := by
  induction prompts generalizing detected with
  | nil => exact h
  | cons kv prompts ih =>
    obtain ⟨ptype, pbytes⟩ := kv
    rw [promptScan]
    split
    · rename_i hnew
      exact ih (List.Nodup.append h (List.nodup_singleton _) (List.disjoint_singleton.2 hnew.1))
    · exact ih h

section
variable {new : List UartEvent}

theorem bootLines_eq_nil (h : ∀ line, .bootDataReceived line ∉ new) : bootLines new = [] :=
  List.eq_nil_iff_forall_not_mem.2 fun line hmem => h line (mem_bootLines.1 hmem)

theorem milestoneNames_eq_nil (h : ∀ name, .milestoneReached name ∉ new) :
    milestoneNames new = [] :=
  List.eq_nil_iff_forall_not_mem.2 fun name hmem => h name (mem_milestoneNames.1 hmem)

theorem promptTypes_eq_nil (h : ∀ t, .promptDetected t ∉ new) : promptTypes new = [] := by
  refine List.filterMap_eq_nil_iff.2 fun ev hev => ?_
  cases ev with
  | promptDetected t => exact (h t hev).elim
  | autobootWindowDetected | panicDetected | milestoneReached | bootDataReceived | idleTick => rfl

end

theorem bootLines_promptScan (clean : Bytes) (prompts : List (String × Bytes))
    (detected : List String) : bootLines (promptScan clean prompts detected).1 = [] := by
  refine bootLines_eq_nil fun line hmem => ?_
  obtain ⟨t, _, heq, -⟩ := promptScan_mem hmem
  cases heq

theorem milestoneNames_promptScan (clean : Bytes) (prompts : List (String × Bytes))
    (detected : List String) : milestoneNames (promptScan clean prompts detected).1 = [] := by
  refine milestoneNames_eq_nil fun name hmem => ?_
  obtain ⟨t, _, heq, -⟩ := promptScan_mem hmem
  cases heq

theorem promptTypes_lineScan (lines : List (List Char)) (pending : List (String × String)) :
    promptTypes (lineScan lines pending).1 = [] := by
  refine promptTypes_eq_nil fun t hmem => ?_
  rcases lineScan_mem hmem with ⟨line, heq⟩ | ⟨name, heq⟩ <;> cases heq

theorem count_lineScan (lines : List (List Char)) (pending : List (String × String)) :
    (lineScan lines pending).1.count .autobootWindowDetected = 0 := by
  refine List.count_eq_zero.2 fun hmem => ?_
  rcases lineScan_mem hmem with ⟨line, heq⟩ | ⟨name, heq⟩ <;> cases heq

theorem count_promptScan (clean : Bytes) (prompts : List (String × Bytes))
    (detected : List String) :
    (promptScan clean prompts detected).1.count .autobootWindowDetected = 0 := by
  refine List.count_eq_zero.2 fun hmem => ?_
  obtain ⟨t, _, heq, -⟩ := promptScan_mem hmem
  cases heq

/-- What the events so far say about the text so far and the state of the stream. -/
structure Told (p : StreamParams) (evs : List UartEvent) (text : List Char) (st : StreamState) :
    Prop where
  milestones : MilestonesTold p evs st.pendingMilestones
  prompts : promptTypes evs = st.detectedPrompts
  promptsOnce : st.detectedPrompts.Nodup
  autoboot : evs.count .autobootWindowDetected = st.autobootFired.toNat
  panic : ∀ pre raw post, evs = pre ++ .panicDetected raw :: post → post = []
  quiet : st.panicked = false → ∀ raw, .panicDetected raw ∉ evs
  shown : st.panicked = true → ∃ raw, .panicDetected raw ∈ evs
  lines : st.panicked = false → bootLines evs = completeLines (normalizeNewlines text) ∧
    st.localBuf = unfinished '\n' (normalizeNewlines text)

theorem Told.law (h : Told p evs text st) : TraceLaw p evs := by
  refine ⟨h.prompts ▸ h.promptsOnce, h.milestones.once, h.milestones.placed, ?_, h.panic⟩
  rw [h.autoboot]
  exact Bool.toNat_le _

theorem Told.start {p : StreamParams} (hm : (p.milestones.map Prod.fst).Nodup) :
    Told p [] [] p.start where
  milestones := {
    unseen := fun _ hkv => ⟨hkv, List.not_mem_nil, fun _ hl => (List.not_mem_nil hl).elim⟩
    keys := hm
    once := List.nodup_nil
    placed := fun pre _ _ heq => absurd heq.symm (List.append_ne_nil_of_right_ne_nil pre nofun) }
  prompts := rfl
  promptsOnce := List.nodup_nil
  autoboot := rfl
  panic pre _ _ heq := absurd heq.symm (List.append_ne_nil_of_right_ne_nil pre nofun)
  quiet _ _ := List.not_mem_nil
  shown hpanic := nomatch hpanic
  lines _ := ⟨rfl, rfl⟩

section
variable {p : StreamParams} {evs : List UartEvent} {text : List Char} {st : StreamState}

theorem Told.panicked (h : Told p evs text st) (hst : st.panicked = false) (buf : List Char)
    (raw : String) (text' : List Char) :
    Told p (evs ++ [.panicDetected raw]) text' { st with localBuf := buf, panicked := true } where
  milestones := h.milestones.other rfl rfl
  prompts := by
    rw [promptTypes_append, h.prompts]
    exact List.append_nil _
  promptsOnce := h.promptsOnce
  autoboot := by
    rw [List.count_append, h.autoboot]
    rfl
  panic pre raw' post heq := by
    rcases List.append_eq_append_iff.1 heq with ⟨mid, -, hmid⟩ | ⟨mid, hevs, hmid⟩
    · cases mid with
      | nil => exact (List.cons.inj hmid).2.symm
      | cons ev mid =>
        have hnil := (List.cons.inj hmid).2
        exact absurd hnil.symm (List.append_ne_nil_of_right_ne_nil mid nofun)
    · cases mid with
      | nil => exact (List.cons.inj hmid).2
      | cons ev mid =>
        obtain ⟨rfl, -⟩ := List.cons.inj hmid
        refine (h.quiet hst raw' ?_).elim
        rw [hevs]
        exact List.mem_append_right _ (List.mem_cons_self ..)
  quiet hfalse := nomatch hfalse
  shown _ := ⟨raw, List.mem_append_right _ (List.mem_singleton_self _)⟩
  lines hfalse := nomatch hfalse

theorem autobootSeen_fired {trigger : Option Bytes} {fired : Bool} {clean : Bytes}
    (h : autobootSeen trigger fired clean = true) : fired = false := by
  unfold autobootSeen at h
  split at h
  · cases h
  · rw [Bool.and_eq_true, Bool.and_eq_true] at h
    exact (Bool.not_eq_true' fired).mp h.1.2

theorem StreamState.feed_quiet {chunk : Bytes} {buf : List Char}
    (hbuf : st.localBuf ++ sanitise chunk = buf) (h : panicSearch (encodeUtf8 buf) = false) :
    st.feed p chunk =
      ((if autobootSeen p.autobootTrigger st.autobootFired (encodeUtf8 buf) then
          [.autobootWindowDetected] else []) ++
        (promptScan (encodeUtf8 buf) p.prompts st.detectedPrompts).1 ++
        (lineScan (splitNewline (normalizeNewlines buf)).dropLast st.pendingMilestones).1,
      { localBuf := (splitNewline (normalizeNewlines buf)).getLast?.getD []
        pendingMilestones :=
          (lineScan (splitNewline (normalizeNewlines buf)).dropLast st.pendingMilestones).2
        autobootFired := st.autobootFired ||
          autobootSeen p.autobootTrigger st.autobootFired (encodeUtf8 buf)
        detectedPrompts := (promptScan (encodeUtf8 buf) p.prompts st.detectedPrompts).2
        panicked := false }) := by
  rw [StreamState.feed, ← sanitise, hbuf]
  exact if_neg (Bool.eq_false_iff.1 h)

theorem StreamState.feed_panic {chunk : Bytes} {buf : List Char}
    (hbuf : st.localBuf ++ sanitise chunk = buf) (h : panicSearch (encodeUtf8 buf) = true) :
    st.feed p chunk = ([.panicDetected (String.ofList (buf.drop (buf.length - 500)))],
      { st with localBuf := buf, panicked := true }) := by
  rw [StreamState.feed, ← sanitise, hbuf]
  exact if_pos h

theorem Told.heard (h : Told p evs text st) (hst : st.panicked = false) {chunk : Bytes}
    (hquiet : panicSearch (encodeUtf8 (st.localBuf ++ sanitise chunk)) = false) :
    Told p (evs ++ (st.feed p chunk).1) (text ++ sanitise chunk) (st.feed p chunk).2 := by
  obtain ⟨hlines, hbuf⟩ := h.lines hst
  obtain ⟨hmore, hrest⟩ := normalizeNewlines_goOn text (sanitise chunk)
  rw [← hbuf] at hmore hrest
  rw [StreamState.feed_quiet rfl hquiet]
  generalize st.localBuf ++ sanitise chunk = buf at hquiet hmore hrest ⊢
  generalize hfires : autobootSeen p.autobootTrigger st.autobootFired (encodeUtf8 buf) = fires
  have hauto : ∀ ev ∈ (if fires then [UartEvent.autobootWindowDetected] else []),
      ev = .autobootWindowDetected := by
    intro ev hev
    split at hev
    · exact List.mem_singleton.1 hev
    · cases hev
  have hquiet' : ∀ raw, .panicDetected raw ∉ evs ++
      ((if fires then [UartEvent.autobootWindowDetected] else []) ++
        (promptScan (encodeUtf8 buf) p.prompts st.detectedPrompts).1 ++
          (lineScan (splitNewline (normalizeNewlines buf)).dropLast st.pendingMilestones).1) := by
    intro raw hmem
    rcases List.mem_append.1 hmem with hmem | hmem
    · exact h.quiet hst raw hmem
    · rcases List.mem_append.1 hmem with hmem | hmem
      · rcases List.mem_append.1 hmem with hmem | hmem
        · exact nomatch hauto _ hmem
        · obtain ⟨t, _, heq, -⟩ := promptScan_mem hmem
          cases heq
      · rcases lineScan_mem hmem with ⟨line, heq⟩ | ⟨name, heq⟩ <;> cases heq
  have hautoLines := bootLines_eq_nil fun line hmem => nomatch hauto _ hmem
  refine ⟨?_, ?_, nodup_promptScan h.promptsOnce, ?_, fun pre raw post heq => ?_,
    fun _ => hquiet', nofun, fun _ => ⟨?_, ?_⟩⟩
  · rw [← List.append_assoc, ← List.append_assoc]
    exact ((h.milestones.other hautoLines
      (milestoneNames_eq_nil fun name hmem => nomatch hauto _ hmem)).other
        (bootLines_promptScan ..) (milestoneNames_promptScan ..)).lineScan _
  · have hauto' : promptTypes (if fires then [UartEvent.autobootWindowDetected] else []) = [] :=
      promptTypes_eq_nil fun t hmem => nomatch hauto _ hmem
    dsimp only
    rw [promptTypes_append, promptTypes_append, promptTypes_append, h.prompts, hauto',
      promptTypes_lineScan, promptTypes_promptScan, List.nil_append, List.append_nil]
  · have hcount : (if fires then [UartEvent.autobootWindowDetected] else []).count
        .autobootWindowDetected = fires.toNat := by cases fires <;> rfl
    dsimp only
    rw [List.count_append, List.count_append, List.count_append, h.autoboot, hcount,
      count_promptScan, count_lineScan, Nat.add_zero]
    cases fires with
    | false =>
      rw [Bool.or_false]
      rfl
    | true =>
      rw [autobootSeen_fired hfires]
      rfl
  · refine (hquiet' raw ?_).elim
    rw [heq]
    exact List.mem_append_right _ (List.mem_cons_self ..)
  · rw [bootLines_append, bootLines_append, bootLines_append, hlines, hautoLines,
      bootLines_promptScan, bootLines_lineScan, hmore, completeLines]
    rfl
  · rw [splitNewline_eq, ← unfinished, hrest]

theorem Told.feed (h : Told p evs text st) (hst : st.panicked = false) (chunk : Bytes) :
    Told p (evs ++ (st.feed p chunk).1) (text ++ sanitise chunk) (st.feed p chunk).2 := by
  cases hp : panicSearch (encodeUtf8 (st.localBuf ++ sanitise chunk)) with
  | false => exact h.heard hst hp
  | true =>
    rw [StreamState.feed_panic rfl hp]
    exact h.panicked hst _ _ _

theorem Told.idle (h : Told p evs text st) (hst : st.panicked = false) :
    Told p (evs ++ [.idleTick]) text st := by
  have hquiet (raw : String) : .panicDetected raw ∉ evs ++ [.idleTick] := by
    intro hmem
    rcases List.mem_append.1 hmem with hmem | hmem
    · exact h.quiet hst raw hmem
    · cases List.mem_singleton.1 hmem
  refine ⟨h.milestones.other rfl rfl, ?_, h.promptsOnce, ?_, fun pre raw post heq => ?_,
    fun _ => hquiet, fun hpanic => ?_, fun _ => ?_⟩
  · rw [promptTypes_append, h.prompts]
    exact List.append_nil _
  · rw [List.count_append, h.autoboot]
    rfl
  · refine (hquiet raw ?_).elim
    rw [heq]
    exact List.mem_append_right _ (List.mem_cons_self ..)
  · rw [hst] at hpanic
    cases hpanic
  · rw [bootLines_append]
    exact ⟨(List.append_nil _).trans (h.lines hst).1, (h.lines hst).2⟩

end

/-- One turn of the loop of `open`: the events it yields and the local variables after it. -/
def StreamState.turn (p : StreamParams) (st : StreamState) :
    RxPoll → List UartEvent × StreamState
  | .empty _ tickDue => (if tickDue then [.idleTick] else [], st)
  | .chunk c => if c = [] then ([], st) else st.feed p c

def RxPoll.text : RxPoll → List Char
  | .empty _ _ => []
  | .chunk c => sanitise c

theorem Told.turn {p : StreamParams} (h : Told p evs text st) (hst : st.panicked = false)
    (poll : RxPoll) :
    Told p (evs ++ (st.turn p poll).1) (text ++ poll.text) (st.turn p poll).2 := by
  cases poll with
  | empty pingDue tickDue =>
    rw [RxPoll.text, List.append_nil, StreamState.turn]
    cases tickDue with
    | true => exact h.idle hst
    | false =>
      rw [if_neg Bool.false_ne_true, List.append_nil]
      exact h
  | chunk c =>
    rw [RxPoll.text, StreamState.turn]
    split
    · rename_i hc
      rw [hc, List.append_nil, show sanitise [] = [] from rfl, List.append_nil]
      exact h
    · exact h.feed hst c

inductive StreamPhase
  | created
  | running
  | suspended
  | closed
  deriving DecidableEq

/-- The generator of `open`: the events of the current turn it has yet to yield, its queue, and
the subscribers of the serial client. The last two fields are no variables of it: the events it
has yielded and the sanitised text of the chunks it has read. -/
structure OpenStream where
  phase : StreamPhase := .created
  st : StreamState
  due : List UartEvent := []
  rxQueue : Option QueueId := none
  subscribers : List QueueId := [defaultQueue]
  fresh : QueueId := defaultQueue + 1
  yielded : List UartEvent := []
  text : List Char := []

/-- One step: the consumer asks for the next event, the loop makes a turn or meets its timeout,
something raises inside, the consumer closes the generator, or another client subscribes or
gives its queue up. -/
inductive StreamAct
  | next
  | poll (poll : RxPoll)
  | timeout
  | raised
  | close
  | subscribe
  | unsubscribe (q : QueueId)

section
variable (p : StreamParams) (g : OpenStream)

def OpenStream.subscribe : OpenStream :=
  { g with subscribers := g.subscribers ++ [g.fresh], fresh := g.fresh + 1 }

/-- The `finally` of `open`. -/
def OpenStream.finish : OpenStream :=
  { g with
    phase := .closed
    subscribers :=
      match g.rxQueue with
      | some q => g.subscribers.erase q
      | none => g.subscribers }

/-- Up to the next `yield`, or back to the head of the loop. -/
def OpenStream.goOn (due : List UartEvent) : OpenStream :=
  match due with
  | ev :: rest => { g with phase := .suspended, due := rest, yielded := g.yielded ++ [ev] }
  | [] => if g.st.panicked then { g with due := [] }.finish
    else { g with phase := .running, due := [] }

def OpenStream.step : StreamAct → Option OpenStream
  | .next =>
    match g.phase with
    | .created => some { g.subscribe with phase := .running, rxQueue := some g.fresh }
    | .suspended => some (g.goOn g.due)
    | _ => none
  | .poll poll =>
    match g.phase with
    | .running =>
      some ({ g with st := (g.st.turn p poll).2, text := g.text ++ poll.text }.goOn
        (g.st.turn p poll).1)
    | _ => none
  | .timeout => if g.phase = .running then some g.finish else none
  | .raised => if g.phase = .running ∨ g.phase = .suspended then some g.finish else none
  | .close =>
    match g.phase with
    | .created => some { g with phase := .closed }
    | .suspended => some g.finish
    | _ => none
  | .subscribe => some g.subscribe
  | .unsubscribe q =>
    if g.rxQueue = some q then none else some { g with subscribers := g.subscribers.erase q }

end

/-- What holds of the generator at every moment: the events it has yielded obey the trace law,
those and the ones it still holds show the complete lines of its text, and when it is closed its
queue is no subscriber. -/
structure OpenStream.Lawful (p : StreamParams) (g : OpenStream) : Prop where
  law : TraceLaw p g.yielded
  lines : (∀ raw, .panicDetected raw ∉ g.yielded ++ g.due) →
    bootLines (g.yielded ++ g.due) = completeLines (normalizeNewlines g.text)
  released : g.phase = .closed → ∀ q, g.rxQueue = some q → q ∉ g.subscribers

/-- The invariant behind the law. -/
structure OpenStream.Kept (p : StreamParams) (g : OpenStream) : Prop where
  told : Told p (g.yielded ++ g.due) g.text g.st
  running : g.phase = .running → g.due = [] ∧ g.st.panicked = false
  created : g.phase = .created → g.due = [] ∧ g.st.panicked = false ∧ g.rxQueue = none
  once : g.subscribers.Nodup
  known : ∀ q, q ∈ g.subscribers ∨ g.rxQueue = some q → q < g.fresh
  released : g.phase = .closed → ∀ q, g.rxQueue = some q → q ∉ g.subscribers

section
variable {p : StreamParams} {g g' : OpenStream}

theorem OpenStream.Kept.lawful (h : g.Kept p) : g.Lawful p := by
  refine ⟨h.told.law.mono (List.prefix_append ..), fun hquiet => (h.told.lines ?_).1, h.released⟩
  by_contra hpanic
  obtain ⟨raw, hmem⟩ := h.told.shown ((Bool.not_eq_false _).mp hpanic)
  exact hquiet raw hmem

theorem OpenStream.Kept.finish (htold : Told p (g.yielded ++ g.due) g.text g.st)
    (honce : g.subscribers.Nodup)
    (hknown : ∀ q, q ∈ g.subscribers ∨ g.rxQueue = some q → q < g.fresh) : g.finish.Kept p := by
  refine ⟨htold, nofun, nofun, ?_, fun q hq => hknown q ?_, fun _ q hq => ?_⟩
  · change (match g.rxQueue with
      | some q => g.subscribers.erase q
      | none => g.subscribers).Nodup
    split
    · exact honce.erase _
    · exact honce
  · refine hq.imp (fun hmem => ?_) id
    change q ∈ (match g.rxQueue with
      | some q => g.subscribers.erase q
      | none => g.subscribers) at hmem
    split at hmem
    · exact List.mem_of_mem_erase hmem
    · exact hmem
  · change q ∉ (match g.rxQueue with
      | some q => g.subscribers.erase q
      | none => g.subscribers)
    have hqueue : g.rxQueue = some q := hq
    rw [hqueue]
    exact honce.not_mem_erase

theorem OpenStream.Kept.goOn {due : List UartEvent}
    (htold : Told p (g.yielded ++ due) g.text g.st) (honce : g.subscribers.Nodup)
    (hknown : ∀ q, q ∈ g.subscribers ∨ g.rxQueue = some q → q < g.fresh) :
    (g.goOn due).Kept p := by
  cases due with
  | cons ev rest =>
    refine ⟨?_, nofun, nofun, honce, hknown, nofun⟩
    change Told p (g.yielded ++ [ev] ++ rest) g.text g.st
    rwa [List.append_assoc, List.singleton_append]
  | nil =>
    rw [OpenStream.goOn]
    split
    · exact .finish htold honce hknown
    · exact ⟨htold, fun _ => ⟨rfl, Bool.eq_false_iff.2 ‹_›⟩, nofun, honce, hknown, nofun⟩

theorem OpenStream.Kept.subscribe (h : g.Kept p) : g.subscribe.Kept p := by
  refine ⟨h.told, h.running, h.created, ?_, fun q hq => ?_, fun hclosed q hq hmem => ?_⟩
  · refine h.once.append (List.nodup_singleton _) (List.disjoint_singleton.2 fun hmem => ?_)
    exact absurd (h.known _ (.inl hmem)) (Nat.lt_irrefl _)
  · rcases hq with hq | hq
    · rcases List.mem_append.1 hq with hq | hq
      · exact Nat.lt_succ_of_lt (h.known q (.inl hq))
      · rw [List.mem_singleton.1 hq]
        exact Nat.lt_succ_self _
    · exact Nat.lt_succ_of_lt (h.known q (.inr hq))
  · rcases List.mem_append.1 hmem with hmem | hmem
    · exact h.released hclosed q hq hmem
    · rw [List.mem_singleton.1 hmem] at hq
      exact absurd (h.known _ (.inr hq)) (Nat.lt_irrefl _)

theorem OpenStream.Kept.step {a : StreamAct} (h : g.Kept p) (hs : g.step p a = some g') :
    g'.Kept p := by
  cases a with
  | next =>
    rw [OpenStream.step] at hs
    split at hs
    · rename_i hphase
      cases hs
      obtain ⟨hdue, hst, -⟩ := h.created hphase
      have hsub := h.subscribe
      refine ⟨h.told, fun _ => ⟨hdue, hst⟩, nofun, hsub.once, fun q hq => ?_, nofun⟩
      rcases hq with hq | hq
      · exact hsub.known q (.inl hq)
      · cases hq
        exact Nat.lt_succ_self _
    · cases hs
      exact .goOn h.told h.once h.known
    · cases hs
  | poll poll =>
    rw [OpenStream.step] at hs
    split at hs
    · rename_i hphase
      cases hs
      obtain ⟨hdue, hst⟩ := h.running hphase
      have htold := h.told
      rw [hdue, List.append_nil] at htold
      exact .goOn (htold.turn hst poll) h.once h.known
    · cases hs
  | timeout =>
    rw [OpenStream.step] at hs
    split at hs
    · cases hs
      exact .finish h.told h.once h.known
    · cases hs
  | raised =>
    rw [OpenStream.step] at hs
    split at hs
    · cases hs
      exact .finish h.told h.once h.known
    · cases hs
  | close =>
    rw [OpenStream.step] at hs
    split at hs
    · rename_i hphase
      cases hs
      obtain ⟨-, -, hqueue⟩ := h.created hphase
      refine ⟨h.told, nofun, nofun, h.once, h.known, fun _ q hq => ?_⟩
      rw [show g.rxQueue = some q from hq] at hqueue
      cases hqueue
    · cases hs
      exact .finish h.told h.once h.known
    · cases hs
  | subscribe =>
    cases hs
    exact h.subscribe
  | unsubscribe q =>
    rw [OpenStream.step] at hs
    split at hs
    · cases hs
    · cases hs
      exact ⟨h.told, h.running, h.created, h.once.erase q,
        fun u hu => h.known u (hu.imp List.mem_of_mem_erase id),
        fun hclosed u hu hmem => h.released hclosed u hu (List.mem_of_mem_erase hmem)⟩

theorem OpenStream.kept_init (hm : (p.milestones.map Prod.fst).Nodup) :
    ({ st := p.start } : OpenStream).Kept p where
  told := .start hm
  running := nofun
  created _ := ⟨rfl, rfl, rfl⟩
  once := List.nodup_singleton _
  known q hq := by
    rcases hq with hq | hq
    · rw [List.mem_singleton.1 hq]
      exact Nat.lt_succ_self _
    · cases hq
  released := nofun

/-- The trace law of the boot event stream, for a milestone table without a key twice: it holds
at every moment of every run of the generator. -/
theorem boot_trace_lawful {l : List StreamAct} (hm : (p.milestones.map Prod.fst).Nodup)
    (h : Run (OpenStream.step p) (fun _ _ => True) { st := p.start } l g) : g.Lawful p :=
  (h.invariant _ (fun hs _ hstep => hs.step hstep) (OpenStream.kept_init hm)).lawful

end

def bootParams : StreamParams where
  prompts := [("login", ascii "login:")]
  milestones := [("kernel", "Starting kernel")]

/-- A line that is cut between its carriage return and its line feed, and reaches a milestone. -/
def cutLine : List StreamAct :=
  [.next, .poll (.chunk (ascii "Starting kernel\r")), .next, .next,
    .poll (.chunk (ascii "\nlogin:")), .close]

theorem cutLine_lawful : ∃ g : OpenStream, g.yielded =
    [.bootDataReceived "Starting kernel", .milestoneReached "kernel", .promptDetected "login"] ∧
      g.Lawful bootParams := by
  have hrun : runFrom (OpenStream.step bootParams) { st := bootParams.start } cutLine =
      some ((runFrom (OpenStream.step bootParams) { st := bootParams.start } cutLine).getD
        { st := bootParams.start }) := runFrom_getD (by decide +kernel)
  exact ⟨_, by decide +kernel,
    boot_trace_lawful (by decide) (.of_runFrom hrun fun _ _ _ => trivial)⟩

end MesCore
