import MesCore.CommandFraming

namespace MesCore
set_option autoImplicit true

/-- `s.replace('\r\n', '\n')`. -/
def mapCrlf : List Char → List Char
  | '\r' :: '\n' :: cs => '\n' :: mapCrlf cs
  | c :: cs => c :: mapCrlf cs
  | [] => []

/-- What `extract_lines` yields of the lines it has split off. -/
def yieldedLines (lines : List (List Char)) : List (List Char) :=
  (lines.map pyStrip).filter fun l => !l.isEmpty

structure UartStreamParser where
  buffer : List Char := []
  deriving DecidableEq

namespace UartStreamParser
variable (p : UartStreamParser)

def ingest (rawBytes : Bytes) : UartStreamParser :=
  if rawBytes = [] then p else { buffer := p.buffer ++ MesCore.ingest rawBytes }

/-- `extract_lines`, consumed to its end: the lines it yields, and the parser it leaves. What a call
yields is settled while it holds the lock. -/
def extractLines : List (List Char) × UartStreamParser :=
  let buffer := mapCrlf p.buffer
  match splitLast ['\n'] buffer with
  | some (complete, rest) => (yieldedLines (splitNewline complete), ⟨rest⟩)
  | none => ([], ⟨buffer⟩)

end UartStreamParser

/-- What the threads that share a parser do under its lock: the RX daemon ingests, and consumers
extract. -/
inductive ParserAct (C : Type)
  | ingest (rawBytes : Bytes)
  | extractLines (consumer : C)

/-- A shared parser, and all lines that were yielded, each with the consumer that got it. -/
structure SharedParser (C : Type) where
  parser : UartStreamParser := {}
  yielded : List (C × List Char) := []

def SharedParser.step (s : SharedParser C) : ParserAct C → SharedParser C
  | .ingest rawBytes => { s with parser := s.parser.ingest rawBytes }
  | .extractLines consumer =>
    { parser := s.parser.extractLines.2
      yielded := s.yielded ++ s.parser.extractLines.1.map (consumer, ·) }

def SharedParser.run (s : SharedParser C) (acts : List (ParserAct C)) : SharedParser C :=
  acts.foldl SharedParser.step s

def ingestions (acts : List (ParserAct C)) : List Bytes :=
  acts.filterMap fun
    | .ingest rawBytes => some rawBytes
    | .extractLines _ => none

def ingestAll (chunks : List Bytes) : UartStreamParser := chunks.foldl UartStreamParser.ingest {}

def dropCr (l : List Char) : List Char := if l.getLast? = some '\r' then l.dropLast else l

section
variable {l s t : List Char} {c : Char}

theorem mapCrlf_cons (h : c ≠ '\r') (s : List Char) : mapCrlf (c :: s) = c :: mapCrlf s := by
  rw [mapCrlf]
  rintro _ rfl
  exact (h rfl).elim

theorem mapCrlf_cr (h : s.head? ≠ some '\n') : mapCrlf ('\r' :: s) = '\r' :: mapCrlf s := by
  rw [mapCrlf]
  rintro t - rfl
  exact (h rfl).elim

theorem dropCr_cons (c d : Char) (l : List Char) : dropCr (c :: d :: l) = c :: dropCr (d :: l) := by
  rw [dropCr, dropCr, List.getLast?_cons_cons]
  split
  · rfl
  · rfl

theorem mapCrlf_line (hl : '\n' ∉ l) (s : List Char) :
    mapCrlf (l ++ '\n' :: s) = dropCr l ++ '\n' :: mapCrlf s := by
  induction l with
  | nil => exact mapCrlf_cons (by decide) s
  | cons c l ih =>
    rw [List.mem_cons, not_or] at hl
    have ih := ih hl.2
    by_cases hc : c = '\r'
    · subst c
      cases l with
      | nil => exact mapCrlf.eq_1 s
      | cons d l =>
        have hd : (d :: l ++ '\n' :: s).head? ≠ some '\n' := by
          rintro ⟨⟩
          exact hl.2 (List.mem_cons_self ..)
        rw [List.cons_append, mapCrlf_cr hd, ih, dropCr_cons]
        rfl
    · rw [List.cons_append, mapCrlf_cons hc, ih]
      cases l with
      | nil =>
        have hdrop : dropCr [c] = [c] := if_neg fun h => hc (Option.some.inj h)
        rw [hdrop]
        rfl
      | cons d l =>
        rw [dropCr_cons]
        rfl

theorem mapCrlf_of_notMem (h : '\n' ∉ s) : mapCrlf s = s := by
  induction s with
  | nil => rfl
  | cons c s ih =>
    rw [List.mem_cons, not_or] at h
    by_cases hc : c = '\r'
    · subst c
      have hs : s.head? ≠ some '\n' := fun hs => h.2 (List.mem_of_mem_head? hs)
      rw [mapCrlf_cr hs, ih h.2]
    · rw [mapCrlf_cons hc, ih h.2]

theorem mapCrlf_lines {ls : List (List Char)} (hls : ∀ l ∈ ls, '\n' ∉ l) (t : List Char) :
    mapCrlf (ls.flatMap (· ++ ['\n']) ++ t) =
      (ls.map dropCr).flatMap (· ++ ['\n']) ++ mapCrlf t := by
  induction ls with
  | nil => rfl
  | cons l ls ih =>
    rw [List.forall_mem_cons] at hls
    rw [List.flatMap_cons, List.append_assoc, List.append_assoc, List.singleton_append,
      mapCrlf_line hls.1, ih hls.2, List.map_cons, List.flatMap_cons]
    simp only [List.append_assoc, List.cons_append, List.nil_append]

theorem newline_notMem_finished (h : l ∈ finished '\n' t) : '\n' ∉ l := by
  apply sep_notMem_of_splitOn (t := t)
  rw [splitOn_eq]
  exact List.mem_append_left _ h

theorem newline_notMem_dropCr (h : '\n' ∉ l) : '\n' ∉ dropCr l := by
  rw [dropCr]
  split
  · exact fun hmem => h (List.mem_of_mem_dropLast hmem)
  · exact h

/-- Mapping the line ends works line by line, and leaves what is not finished alone. -/
theorem splitOn_mapCrlf (t : List Char) :
    (mapCrlf t).splitOn '\n' = (finished '\n' t).map dropCr ++ [unfinished '\n' t] := by
  conv_lhs => rw [← unsplit '\n' t, mapCrlf_lines fun l hl => newline_notMem_finished hl]
  rw [mapCrlf_of_notMem sep_notMem_unfinished, splitOn_lines,
    List.splitOn_eq_singleton sep_notMem_unfinished]
  intro l hl
  obtain ⟨k, hk, rfl⟩ := List.mem_map.1 hl
  exact newline_notMem_dropCr (newline_notMem_finished hk)

/-- `rsplit('\n', 1)`. -/
theorem splitLast_newline (t : List Char) : splitLast ['\n'] t =
    if finished '\n' t = [] then none
    else some (['\n'].intercalate (finished '\n' t), unfinished '\n' t) := by
  have hrest : ¬ ['\n'] <:+: unfinished '\n' t := by
    intro h
    exact sep_notMem_unfinished ((List.singleton_infix_iff ..).1 h)
  have ht := unsplit '\n' t
  split
  · rename_i hnone
    rw [hnone] at ht
    rw [← ht]
    exact splitLast_eq_none (by simp) hrest
  · rename_i hne
    rw [← intercalate_sep hne, List.append_assoc] at ht
    conv_lhs => rw [← ht]
    exact splitLast_last (by simp) hrest

theorem UartStreamParser.extractLines_eq (p : UartStreamParser) : p.extractLines =
    (yieldedLines ((finished '\n' p.buffer).map dropCr), ⟨unfinished '\n' p.buffer⟩) := by
  have hsplit := splitOn_mapCrlf p.buffer
  rw [extractLines, splitLast_newline, finished_of_splitOn _ _ hsplit,
    unfinished_of_splitOn _ _ hsplit]
  cases hfinished : finished '\n' p.buffer with
  | nil =>
    have hbuffer := unsplit '\n' p.buffer
    rw [hfinished] at hbuffer
    have hnone : '\n' ∉ p.buffer := by
      rw [← hbuffer]
      exact sep_notMem_unfinished
    rw [List.map_nil, if_pos rfl, mapCrlf_of_notMem hnone, unfinished_eq_self hnone]
    rfl
  | cons l ls =>
    have hlines : ∀ k ∈ (l :: ls).map dropCr, '\n' ∉ k := by
      intro k hk
      obtain ⟨m, hm, rfl⟩ := List.mem_map.1 hk
      exact newline_notMem_dropCr (newline_notMem_finished (hfinished ▸ hm))
    rw [if_neg (by simp)]
    dsimp only
    rw [splitNewline_eq, List.splitOn_intercalate _ hlines (by simp)]

end

section
variable {p : UartStreamParser}

theorem yieldedLines_append (ls ms : List (List Char)) :
    yieldedLines (ls ++ ms) = yieldedLines ls ++ yieldedLines ms := by
  rw [yieldedLines, List.map_append, List.filter_append]
  rfl

@[simp] theorem UartStreamParser.buffer_ingest (p : UartStreamParser) (rawBytes : Bytes) :
    (p.ingest rawBytes).buffer = p.buffer ++ MesCore.ingest rawBytes := by
  rw [ingest]
  split
  · rename_i hnil
    rw [hnil]
    exact (List.append_nil _).symm
  · rfl

theorem buffer_ingestAll (p : UartStreamParser) (chunks : List Bytes) :
    (chunks.foldl UartStreamParser.ingest p).buffer = p.buffer ++ liveBuffer chunks := by
  induction chunks generalizing p with
  | nil => exact (List.append_nil _).symm
  | cons chunk chunks ih =>
    rw [List.foldl_cons, ih, UartStreamParser.buffer_ingest, List.append_assoc]
    rfl

end

/-- What has been yielded and what one more extraction yields once `t` has come in, and what that
extraction leaves. -/
def SharedParser.drain (s : SharedParser C) (t : List Char) : List (List Char) × UartStreamParser :=
  let last := UartStreamParser.extractLines ⟨s.parser.buffer ++ t⟩
  (s.yielded.map Prod.snd ++ last.1, last.2)

theorem map_snd_consumer (consumer : C) (ls : List (List Char)) :
    (ls.map (consumer, ·)).map Prod.snd = ls := by
  rw [List.map_map]
  exact List.map_id _

theorem SharedParser.drain_ingest (s : SharedParser C) (rawBytes : Bytes) (t : List Char) :
    (s.step (.ingest rawBytes)).drain t = s.drain (MesCore.ingest rawBytes ++ t) := by
  rw [drain, step, UartStreamParser.buffer_ingest, List.append_assoc]
  rfl

theorem SharedParser.drain_extractLines (s : SharedParser C) (consumer : C) (t : List Char) :
    (s.step (.extractLines consumer)).drain t = s.drain t := by
  rw [drain, drain, step, UartStreamParser.extractLines_eq, UartStreamParser.extractLines_eq,
    UartStreamParser.extractLines_eq]
  dsimp only
  rw [List.map_append, map_snd_consumer, finished_append (s := s.parser.buffer),
    unfinished_append (s := s.parser.buffer), List.map_append, yieldedLines_append,
    List.append_assoc]

theorem SharedParser.drain_run (s : SharedParser C) (acts : List (ParserAct C)) (t : List Char) :
    (s.run acts).drain t = s.drain (liveBuffer (ingestions acts) ++ t) := by
  induction acts generalizing s with
  | nil => rfl
  | cons act acts ih =>
    rw [run, List.foldl_cons, ← run, ih]
    cases act with
    | ingest rawBytes =>
      rw [drain_ingest, ← List.append_assoc]
      rfl
    | extractLines consumer => exact drain_extractLines ..

/-- In whatever order the daemon ingests and consumers extract, the lines that are yielded and the
buffer that is left are those of one extraction after all the ingests: so it is after any
extraction, and before it what is yielded is only short of the lines that one would split off. -/
theorem extractions_lossless (acts : List (ParserAct C)) (consumer : C) :
    let whole := (ingestAll (ingestions acts)).extractLines
    let s : SharedParser C := SharedParser.run {} acts
    let s' : SharedParser C := SharedParser.run {} (acts ++ [.extractLines consumer])
    (s'.yielded.map Prod.snd, s'.parser) = whole ∧
      (s.yielded.map Prod.snd ++ s.parser.extractLines.1, s.parser.extractLines.2) = whole := by
  have hdrain : (SharedParser.run ({} : SharedParser C) acts).drain [] =
      (ingestAll (ingestions acts)).extractLines := by
    have hbuffer : ingestAll (ingestions acts) = ⟨liveBuffer (ingestions acts)⟩ :=
      congrArg UartStreamParser.mk (buffer_ingestAll {} _)
    rw [SharedParser.drain_run, List.append_nil, hbuffer]
    rfl
  rw [SharedParser.drain, List.append_nil] at hdrain
  refine ⟨?_, hdrain⟩
  rw [← hdrain, SharedParser.run, List.foldl_append]
  change (List.map Prod.snd (_ ++ _), _) = _
  rw [List.map_append, map_snd_consumer]
  rfl

end MesCore
