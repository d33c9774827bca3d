import MesCore.Lines
import MesCore.Text

namespace MesCore
set_option autoImplicit true

/-- What a turn of `_poll_loop` meets: a failed-over transport whose fallback parser yields these
lines, an answer of `safe_run`, or an exception. -/
inductive PollTurn
  | harvested (lines : List (List Char))
  | answered (ok : Bool) (stdout : List Char)
  | raised

structure HostSideBuffer where
  buffer : List (List Char) := []
  linesRead : Nat := 0
  deriving DecidableEq

/-- The lines `_poll_loop` makes of what `tail` printed. -/
def freshLines (stdout : List Char) : List (List Char) :=
  (splitNewline (pyStrip stdout)).filter fun l => !(pyStrip l).isEmpty

section
variable (b : HostSideBuffer)

def HostSideBuffer.extend (newLines : List (List Char)) : HostSideBuffer :=
  if newLines.isEmpty then b
  else { buffer := b.buffer ++ newLines, linesRead := b.linesRead + newLines.length }

/-- The line `tail -n +K` is asked to start from. -/
def HostSideBuffer.startLine : Nat := b.linesRead + 1

/-- A turn of `_poll_loop`, and whether the loop goes on after it. -/
def HostSideBuffer.turn : PollTurn → HostSideBuffer × Bool
  | .harvested lines => (b.extend lines, true)
  | .answered ok stdout => (if ok && !stdout.isEmpty then b.extend (freshLines stdout) else b, true)
  | .raised => (b, false)

end

/-- The text without its first `n` lines. -/
def dropLines : Nat → List Char → List Char
  | 0, t => t
  | _ + 1, [] => []
  | n + 1, c :: t => if c = '\n' then dropLines n t else dropLines (n + 1) t

/-- What `tail -n +K` prints of this text. -/
def tailFrom (k : Nat) (t : List Char) : List Char := dropLines (k - 1) t

/-- What happens between `start` and `stop`: text is appended to the remote file, or the loop
polls it. -/
inductive LogAct
  | append (piece : List Char)
  | poll

/-- The remote file, the file as the last poll found it, and the buffer. -/
structure TailedLog where
  file : List Char := []
  polled : List Char := []
  host : HostSideBuffer := {}

section
variable (s : TailedLog)

def TailedLog.append (piece : List Char) : TailedLog := { s with file := s.file ++ piece }

def TailedLog.poll : TailedLog :=
  { s with
    polled := s.file
    host := (s.host.turn (.answered true (tailFrom s.host.startLine s.file))).1 }

/-- Something holds before every poll. -/
def TailedLog.AtPolls (P : TailedLog → Prop) (s : TailedLog) : List LogAct → Prop
  | [] => True
  | .append piece :: acts => AtPolls P (s.append piece) acts
  | .poll :: acts => P s ∧ AtPolls P s.poll acts

end

def solidLines (file : List Char) : List (List Char) :=
  (splitNewline file).dropLast.filter fun l => !(pyStrip l).isEmpty

/-- The buffer holds exactly the non-blank complete lines of the file. -/
def TailedLog.Faithful (s : TailedLog) : Prop := s.host.buffer = solidLines s.file

/-- A poll that finds `file` where the last one found `polled` loses and repeats nothing: the
complete lines already read have their blank ones last, what is not complete is blank, and the
non-blank lines to come have no white space at their two outer ends. -/
structure Tidy (polled file : List Char) : Prop where
  blanks : ∀ l ∈ (splitNewline polled).dropLast.dropWhile (fun l => !(pyStrip l).isEmpty),
    pyStrip l = []
  rest : pyStrip ((splitNewline file).getLast?.getD []) = []
  first : ∀ l, ((solidLines file).drop (solidLines polled).length).head? = some l →
    l.dropWhile isPySpace = l
  last : ∀ l, ((solidLines file).drop (solidLines polled).length).getLast? = some l →
    l.rdropWhile isPySpace = l

section
variable {p : α → Bool} {ls : List α}

/-- Behind as many elements as pass a test none passes it, exactly if those that pass come
first. -/
theorem filter_drop_iff : (ls.drop (ls.filter p).length).filter p = [] ↔
    ∀ l ∈ ls.dropWhile p, p l = false := by
  induction ls with
  | nil => exact ⟨fun _ => nofun, fun _ => rfl⟩
  | cons a ls ih =>
    cases ha : p a with
    | true =>
      rw [List.dropWhile_cons_of_pos ha, List.filter_cons_of_pos ha, List.length_cons,
        List.drop_succ_cons, ih]
    | false =>
      have hneg : ¬ p a = true := by
        rw [ha]
        exact Bool.false_ne_true
      rw [List.dropWhile_cons_of_neg hneg, List.filter_cons_of_neg hneg]
      constructor
      · intro h
        cases hlen : (ls.filter p).length with
        | zero =>
          have hnone := List.filter_eq_nil_iff.1 (List.length_eq_zero_iff.1 hlen)
          exact List.forall_mem_cons.2 ⟨ha, fun l hl => Bool.eq_false_iff.2 (hnone l hl)⟩
        | succ m =>
          -- the first `m` elements cannot hold `m + 1` that pass
          rw [hlen, List.drop_succ_cons] at h
          have hsplit := congrArg List.length (List.filter_append (p := p) (ls.take m) (ls.drop m))
          rw [List.take_append_drop, h, List.append_nil, hlen] at hsplit
          have hle := List.length_filter_le p (ls.take m)
          rw [List.length_take] at hle
          omega
      · intro h
        refine List.filter_eq_nil_iff.2 fun l hl => ?_
        rw [h l (List.mem_of_mem_drop hl)]
        exact Bool.false_ne_true

end

theorem solidLines_eq (file : List Char) :
    solidLines file = (finished '\n' file).filter (solid isPySpace) := by
  rw [solidLines, splitNewline_eq, finished]
  exact List.filter_congr fun l _ => pyStrip_solid l

theorem freshLines_eq (t : List Char) :
    freshLines t = trimEnds isPySpace ((t.splitOn '\n').filter (solid isPySpace)) := by
  rw [freshLines, splitNewline_eq, pyStrip_eq, ← splitOn_strip (by decide)]
  exact List.filter_congr fun l _ => pyStrip_solid l

theorem dropLines_line {n : Nat} {l t : List Char} (hl : '\n' ∉ l) :
    dropLines (n + 1) (l ++ '\n' :: t) = dropLines n t := by
  induction l with
  | nil => rfl
  | cons c l ih =>
    rw [List.mem_cons, not_or] at hl
    rw [List.cons_append, dropLines, if_neg (Ne.symm hl.1), ih hl.2]

theorem dropLines_lines {n : Nat} {ls : List (List Char)} (hls : ∀ l ∈ ls, '\n' ∉ l)
    (hn : n ≤ ls.length) (t : List Char) :
    dropLines n (ls.flatMap (· ++ ['\n']) ++ t) = (ls.drop n).flatMap (· ++ ['\n']) ++ t := by
  induction ls generalizing n with
  | nil =>
    cases Nat.le_zero.1 hn
    rw [dropLines]
    rfl
  | cons l ls ih =>
    cases n with
    | zero => rw [dropLines, List.drop_zero]
    | succ n =>
      rw [List.forall_mem_cons] at hls
      rw [List.flatMap_cons, List.append_assoc, List.append_assoc, List.singleton_append,
        dropLines_line hls.1, ih hls.2 (Nat.le_of_succ_le_succ hn), List.drop_succ_cons]

theorem splitOn_dropLines {n : Nat} {t : List Char} (hn : n ≤ (finished '\n' t).length) :
    (dropLines n t).splitOn '\n' = (finished '\n' t).drop n ++ [unfinished '\n' t] := by
  have hls : ∀ l ∈ finished '\n' t, '\n' ∉ l := fun l hl =>
    sep_notMem_of_splitOn (t := t) (by rw [splitOn_eq]; exact List.mem_append_left _ hl)
  conv_lhs => rw [← unsplit '\n' t, dropLines_lines hls hn]
  rw [splitOn_lines fun l hl => hls l (List.mem_of_mem_drop hl),
    List.splitOn_eq_singleton sep_notMem_unfinished]

theorem solid_eq_false_iff {l : List Char} : solid isPySpace l = false ↔ pyStrip l = [] := by
  rw [← pyStrip_solid, Bool.not_eq_false', List.isEmpty_iff]

theorem solidLines_append {polled file : List Char} {new : List (List Char)}
    (hnew : finished '\n' polled ++ new = finished '\n' file) :
    solidLines file = solidLines polled ++ new.filter (solid isPySpace) := by
  rw [solidLines_eq file, ← hnew, List.filter_append, solidLines_eq]

theorem tidy_iff {polled file : List Char} {new : List (List Char)}
    (hnew : finished '\n' polled ++ new = finished '\n' file) : Tidy polled file ↔
      ((finished '\n' polled).drop (solidLines polled).length).filter (solid isPySpace) = [] ∧
        [unfinished '\n' file].filter (solid isPySpace) = [] ∧
          trimEnds isPySpace (new.filter (solid isPySpace)) = new.filter (solid isPySpace) := by
  have hblanks : (∀ l ∈ (splitNewline polled).dropLast.dropWhile
      (fun l => !(pyStrip l).isEmpty), pyStrip l = []) ↔ ((finished '\n' polled).drop
        (solidLines polled).length).filter (solid isPySpace) = [] := by
    rw [solidLines_eq, filter_drop_iff, splitNewline_eq, funext pyStrip_solid, finished]
    exact forall₂_congr fun l _ => solid_eq_false_iff.symm
  have hrest : pyStrip ((splitNewline file).getLast?.getD []) = [] ↔
      [unfinished '\n' file].filter (solid isPySpace) = [] := by
    rw [splitNewline_eq, ← solid_eq_false_iff, List.filter_eq_nil_iff, unfinished]
    simp only [List.forall_mem_singleton, Bool.not_eq_true]
  have hdue : (solidLines file).drop (solidLines polled).length =
      new.filter (solid isPySpace) := by rw [solidLines_append hnew, List.drop_left]
  rw [trimEnds_eq_self_iff, ← hblanks, ← hrest, ← hdue]
  exact ⟨fun h => ⟨h.blanks, h.rest, h.first, h.last⟩, fun h => ⟨h.1, h.2.1, h.2.2.1, h.2.2.2⟩⟩

/-- The lines a poll adds are the ones that are due if and only if the file is tidy. -/
theorem freshLines_iff {polled file : List Char} (hgrows : polled <+: file) :
    solidLines polled ++ freshLines (dropLines (solidLines polled).length file) =
      solidLines file ↔ Tidy polled file := by
  obtain ⟨new, hnew⟩ := finished_prefix '\n' hgrows
  have hle : (solidLines polled).length ≤ (finished '\n' polled).length := by
    rw [solidLines_eq]
    exact List.length_filter_le ..
  have hsplit : (dropLines (solidLines polled).length file).splitOn '\n' =
      (finished '\n' polled).drop (solidLines polled).length ++ new ++
        [unfinished '\n' file] := by
    rw [splitOn_dropLines, ← hnew, List.drop_append_of_le_length hle]
    rw [← hnew, List.length_append]
    omega
  rw [solidLines_append hnew, List.append_cancel_left_eq, freshLines_eq, hsplit,
    List.filter_append, List.filter_append, trimEnds_eq_iff, tidy_iff hnew]

section
variable {s : TailedLog}

/-- What every schedule of polls keeps. -/
structure TailedLog.Kept (s : TailedLog) : Prop where
  grows : s.polled <+: s.file
  counted : s.host.linesRead = s.host.buffer.length

theorem HostSideBuffer.buffer_extend (b : HostSideBuffer) (newLines : List (List Char)) :
    (b.extend newLines).buffer = b.buffer ++ newLines := by
  rw [extend]
  split
  · rename_i hempty
    rw [List.isEmpty_iff.1 hempty, List.append_nil]
  · rfl

theorem HostSideBuffer.linesRead_extend (b : HostSideBuffer) (newLines : List (List Char)) :
    (b.extend newLines).linesRead = b.linesRead + newLines.length := by
  rw [extend]
  split
  · rename_i hempty
    rw [List.isEmpty_iff.1 hempty]
    rfl
  · rfl

theorem TailedLog.poll_host (s : TailedLog) :
    s.poll.host = s.host.extend (freshLines (dropLines s.host.linesRead s.file)) := by
  rw [poll, HostSideBuffer.turn]
  dsimp only
  split
  · rfl
  · rename_i hempty
    rw [Bool.true_and, Bool.not_eq_true, Bool.not_eq_false', List.isEmpty_iff, tailFrom,
      HostSideBuffer.startLine, Nat.add_sub_cancel] at hempty
    rw [hempty]
    rfl

theorem TailedLog.Kept.poll (h : s.Kept) : s.poll.Kept where
  grows := List.prefix_refl _
  counted := by
    rw [poll_host, HostSideBuffer.buffer_extend, HostSideBuffer.linesRead_extend, h.counted,
      List.length_append]

theorem TailedLog.Kept.append (h : s.Kept) (piece : List Char) : (s.append piece).Kept where
  grows := h.grows.trans (List.prefix_append ..)
  counted := h.counted

/-- A poll of a buffer that was right is right if and only if the file is tidy. -/
theorem TailedLog.Kept.faithful_iff (h : s.Kept) (hs : s.host.buffer = solidLines s.polled) :
    s.poll.Faithful ↔ Tidy s.polled s.file := by
  rw [Faithful, poll_host, HostSideBuffer.buffer_extend, h.counted, hs]
  exact freshLines_iff h.grows

theorem TailedLog.atPolls_iff {acts : List LogAct} (h : s.Kept)
    (hs : s.host.buffer = solidLines s.polled) :
    AtPolls (fun s => s.poll.Faithful) s acts ↔ AtPolls (fun s => Tidy s.polled s.file) s acts := by
  induction acts generalizing s with
  | nil => rfl
  | cons act acts ih =>
    cases act with
    | append piece => exact ih (h.append piece) hs
    | poll =>
      rw [AtPolls, AtPolls, h.faithful_iff hs]
      refine and_congr_right fun htidy => ?_
      exact ih h.poll ((h.faithful_iff hs).2 htidy)

end

/-- After every poll of a schedule the buffer holds exactly the non-blank complete lines of the
file, if and only if every poll finds the file tidy. -/
theorem polls_faithful_iff (acts : List LogAct) :
    TailedLog.AtPolls (fun s => s.poll.Faithful) {} acts ↔
      TailedLog.AtPolls (fun s => Tidy s.polled s.file) {} acts :=
  TailedLog.atPolls_iff ⟨List.prefix_refl _, rfl⟩ rfl

/-- A blank line shifts the read position: the last line comes again. -/
theorem blank_line_repeats : ¬ TailedLog.AtPolls (fun s => s.poll.Faithful) {}
    [.append "a\n\nb\n".toList, .poll, .poll] := by
  rintro ⟨_, h, _⟩
  have hrepeat : (({} : TailedLog).append "a\n\nb\n".toList).poll.poll.host.buffer =
      ["a".toList, "b".toList, "b".toList] := by decide
  rw [TailedLog.Faithful, hrepeat] at h
  exact absurd h (by decide)

end MesCore
