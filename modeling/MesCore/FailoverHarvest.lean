import MesCore.HostSideBuffer
import Mathlib.Algebra.GroupWithZero.Nat
import Mathlib.Data.List.Perm.Subperm

namespace MesCore
set_option autoImplicit true

/-- A complete line of a remote log that is not blank. -/
abbrev FileLine := { l : List Char // '\n' ∉ l ∧ pyStrip l ≠ [] }

def fileText (ls : List FileLine) : List Char := (ls.map (·.1)).flatMap (· ++ ['\n'])

/-- `s.replace('\r\n', '\n')`. -/
def replaceCrlf : List Char → List Char
  | '\r' :: '\n' :: cs => '\n' :: replaceCrlf cs
  | c :: cs => c :: replaceCrlf cs
  | [] => []

/-- `UartStreamParser.extract_lines`: the lines it yields and the buffer it leaves. -/
def extractLines (buffer : List Char) : List (List Char) × List Char :=
  let t := replaceCrlf buffer
  (((finished '\n' t).map pyStrip).filter fun l => !l.isEmpty, unfinished '\n' t)

/-- What happens to a buffer that polls through a `FailoverTransport`. Between two polls the
remote file grows, other clients fill or clear the fallback parser, and the transport fails over
and back. -/
inductive VacuumAct
  | append (lines : List FileLine)
  | console (buffer : List Char)
  | failOver
  | failBack
  | poll

/-- The remote file, how much of it the last poll through the primary could see, the fallback
parser's buffer, the console lines harvested from it, and the host's side. -/
structure FailoverVacuum where
  file : List FileLine := []
  polled : Nat := 0
  parser : List Char := []
  isFailedOver : Bool := false
  uart : List (List Char) := []
  host : HostSideBuffer := {}

namespace FailoverVacuum
section
variable (s : FailoverVacuum)

def lines : List (List Char) := s.file.map (·.1)

/-- The lines written since the last poll through the primary. -/
def unseen : List (List Char) := s.lines.drop s.polled

def harvest : FailoverVacuum :=
  { s with
    parser := (extractLines s.parser).2
    uart := s.uart ++ (extractLines s.parser).1
    host := (s.host.turn (.harvested (extractLines s.parser).1)).1 }

def tail : FailoverVacuum :=
  { s with
    polled := s.file.length
    host := (s.host.turn (.answered true (tailFrom s.host.startLine (fileText s.file)))).1 }

/-- A turn of `_poll_loop`. -/
def poll : FailoverVacuum := if s.isFailedOver then s.harvest else s.tail

def step : VacuumAct → FailoverVacuum
  | .append lines => { s with file := s.file ++ lines }
  | .console buffer => { s with parser := buffer }
  | .failOver => { s with isFailedOver := true }
  | .failBack => { s with isFailedOver := false }
  | .poll => s.poll

def run (s : FailoverVacuum) (acts : List VacuumAct) : FailoverVacuum := acts.foldl step s

/-- Something holds before every poll through the primary. -/
def AtTails (P : FailoverVacuum → Prop) (s : FailoverVacuum) : List VacuumAct → Prop
  | [] => True
  | act :: acts =>
    (act = .poll → s.isFailedOver = false → P s) ∧ AtTails P (s.step act) acts

/-- Every line of the file is in the buffer, as often as it stands in the file. -/
def Complete : Prop := s.lines.Subperm s.host.buffer

/-- No console line has been harvested yet, or nothing new is in the file; and what is new has
no white space at its two outer ends. -/
structure Sound : Prop where
  counter : s.uart = [] ∨ s.unseen = []
  first : ∀ l, s.unseen.head? = some l → l.dropWhile isPySpace = l
  last : ∀ l, s.unseen.getLast? = some l → l.rdropWhile isPySpace = l

end

end FailoverVacuum

theorem dropLines_text {n : Nat} {ls : List (List Char)} (hls : ∀ l ∈ ls, '\n' ∉ l) :
    dropLines n (ls.flatMap (· ++ ['\n'])) = (ls.drop n).flatMap (· ++ ['\n']) := by
  induction ls generalizing n with
  | nil => cases n <;> rfl
  | cons l ls ih =>
    rw [List.forall_mem_cons] at hls
    cases n with
    | zero => rw [dropLines, List.drop_zero]
    | succ n =>
      rw [List.flatMap_cons, List.append_assoc, List.singleton_append, dropLines_line hls.1,
        ih hls.2, List.drop_succ_cons]

theorem freshLines_text {n : Nat} {ls : List (List Char)} (hls : ∀ l ∈ ls, '\n' ∉ l)
    (hsolid : ∀ l ∈ ls, pyStrip l ≠ []) :
    freshLines (dropLines n (ls.flatMap (· ++ ['\n']))) = trimEnds isPySpace (ls.drop n) := by
  have hsplit : ((ls.drop n).flatMap (· ++ ['\n'])).splitOn '\n' = ls.drop n ++ [[]] := by
    have h := splitOn_lines (fun l hl => hls l (List.mem_of_mem_drop (i := n) hl)) []
    rwa [List.append_nil, List.splitOn_nil] at h
  have hkept : (ls.drop n).filter (solid isPySpace) = ls.drop n := by
    rw [List.filter_eq_self]
    intro l hl
    rw [← Bool.not_eq_false, solid_eq_false_iff]
    exact hsolid l (List.mem_of_mem_drop hl)
  rw [freshLines_eq, dropLines_text hls, hsplit, List.filter_append, hkept]
  rw [List.filter_eq_nil_iff.2 (by decide), List.append_nil]

namespace FailoverVacuum
variable {s : FailoverVacuum}

/-- Characters and line ends: what a list of lines takes up in a file. -/
def weight (ls : List (List Char)) : Nat := (ls.map fun l => l.length + 1).sum

theorem weight_append (ks ls : List (List Char)) : weight (ks ++ ls) = weight ks + weight ls := by
  rw [weight, List.map_append, List.sum_append, weight, weight]

theorem weight_eq (ls : List (List Char)) : weight ls = ls.flatten.length + ls.length := by
  induction ls with
  | nil => rfl
  | cons l ls ih =>
    rw [List.flatten_cons, List.length_append, List.length_cons, ← List.singleton_append,
      weight_append, ih, weight, List.map_singleton, List.sum_singleton]
    omega

theorem weight_subperm {ks ls : List (List Char)} (h : ks.Subperm ls) :
    weight ks ≤ weight ls := by
  obtain ⟨ms, hperm, hsub⟩ := h
  obtain ⟨rest, hrest⟩ := hsub.exists_perm_append
  have hls := (hrest.trans (hperm.append_right rest)).map fun l : List Char => l.length + 1
  have hsum := weight_append ks rest
  rw [weight, ← hls.sum_nat] at hsum
  rw [weight, weight]
  rw [weight] at hsum
  omega

theorem weight_drop_lt {n : Nat} {ls : List (List Char)} (hn : 0 < n) (hls : ls ≠ []) :
    weight (ls.drop n) < weight ls := by
  have hsplit := weight_append (ls.take n) (ls.drop n)
  rw [List.take_append_drop] at hsplit
  cases ls with
  | nil => exact absurd rfl hls
  | cons l ls =>
    cases n with
    | zero => cases hn
    | succ n =>
      have hhead : 0 < weight (l :: ls.take n) := by
        rw [weight, List.map_cons, List.sum_cons]
        omega
      rw [List.take_succ_cons] at hsplit
      omega

theorem weight_trimEnds (ls : List (List Char)) : weight (trimEnds isPySpace ls) ≤ weight ls ∧
    (weight (trimEnds isPySpace ls) = weight ls → trimEnds isPySpace ls = ls) := by
  have h := flatten_trimEnds (p := isPySpace) ls
  rw [weight_eq, weight_eq, length_trimEnds]
  constructor
  · omega
  · intro heq
    exact h.2 (by omega)

theorem harvest_host (s : FailoverVacuum) :
    s.harvest.host = s.host.extend (extractLines s.parser).1 := rfl

theorem tail_host (s : FailoverVacuum) :
    s.tail.host = s.host.extend (trimEnds isPySpace (s.lines.drop s.host.linesRead)) := by
  have hlines : ∀ l ∈ s.lines, '\n' ∉ l ∧ pyStrip l ≠ [] := by
    intro l hl
    obtain ⟨f, -, rfl⟩ := List.mem_map.1 hl
    exact f.2
  have h := TailedLog.poll_host { file := fileText s.file, host := s.host }
  dsimp only at h
  rw [fileText] at h
  rw [tail, fileText, ← freshLines_text (fun l hl => (hlines l hl).1) fun l hl => (hlines l hl).2]
  exact h

theorem weight_drop_le {m n : Nat} (h : m ≤ n) (ls : List (List Char)) :
    weight (ls.drop n) ≤ weight (ls.drop m) :=
  weight_subperm (List.drop_sublist_drop_left ls h).subperm

theorem length_lines (s : FailoverVacuum) : s.lines.length = s.file.length := List.length_map _

/-- What every history keeps, and what tells the histories without a loss from the others. -/
structure Ledger (s : FailoverVacuum) (sound : Prop) : Prop where
  counted : s.host.linesRead = s.host.buffer.length
  within : s.polled ≤ s.lines.length
  ahead : s.polled ≤ s.host.linesRead
  console : s.uart.Sublist s.host.buffer
  bounded : weight s.host.buffer ≤ weight s.uart + weight (s.lines.take s.polled)
  tight : sound ↔ weight s.host.buffer = weight s.uart + weight (s.lines.take s.polled)
  kept : sound → (s.lines.take s.polled).Subperm s.host.buffer
  position : sound → s.host.linesRead = s.polled + s.uart.length

theorem Ledger.append (h : s.Ledger sound) (new : List FileLine) :
    Ledger { s with file := s.file ++ new } sound := by
  have hlines : lines { s with file := s.file ++ new } = s.lines ++ new.map (·.1) :=
    List.map_append
  have htake : (lines { s with file := s.file ++ new }).take s.polled = s.lines.take s.polled := by
    rw [hlines, List.take_append_of_le_length h.within]
  have hwithin : s.polled ≤ (lines { s with file := s.file ++ new }).length := by
    rw [hlines, List.length_append]
    exact Nat.le_add_right_of_le h.within
  exact ⟨h.counted, hwithin, h.ahead, h.console, htake ▸ h.bounded, htake ▸ h.tight,
    htake ▸ h.kept, h.position⟩

theorem Ledger.harvest (h : s.Ledger sound) : s.harvest.Ledger sound := by
  have hbuffer := HostSideBuffer.buffer_extend s.host (extractLines s.parser).1
  have hread := HostSideBuffer.linesRead_extend s.host (extractLines s.parser).1
  rw [← harvest_host] at hbuffer hread
  have huart : s.harvest.uart = s.uart ++ (extractLines s.parser).1 := rfl
  have hlines : s.harvest.lines.take s.harvest.polled = s.lines.take s.polled := rfl
  have hbounded := h.bounded
  have htight := h.tight
  refine ⟨?_, h.within, ?_, ?_, ?_, ?_, ?_, ?_⟩
  · rw [hbuffer, hread, List.length_append, h.counted]
  · rw [hread]
    exact Nat.le_add_right_of_le h.ahead
  · rw [hbuffer, huart]
    exact h.console.append (.refl _)
  · rw [hbuffer, huart, hlines, weight_append, weight_append]
    omega
  · rw [hbuffer, huart, hlines, weight_append, weight_append, htight]
    omega
  · intro hsound
    rw [hbuffer, hlines]
    exact (h.kept hsound).trans (List.sublist_append_left ..).subperm
  · intro hsound
    have hposition := h.position hsound
    rw [hread, huart, List.length_append, hposition, Nat.add_assoc]
    rfl

theorem Ledger.due (h : s.Ledger sound) (hsound : sound) (hcounter : s.uart = [] ∨ s.unseen = []) :
    s.lines.drop s.host.linesRead = s.unseen := by
  rw [h.position hsound, ← List.drop_drop]
  rcases hcounter with huart | hunseen
  · rw [huart]
    rfl
  · rw [← unseen, hunseen, List.drop_nil]

theorem Ledger.tail (h : s.Ledger sound) : s.tail.Ledger (sound ∧ s.Sound) := by
  have hbuffer := HostSideBuffer.buffer_extend s.host
    (trimEnds isPySpace (s.lines.drop s.host.linesRead))
  have hread := HostSideBuffer.linesRead_extend s.host
    (trimEnds isPySpace (s.lines.drop s.host.linesRead))
  rw [← tail_host] at hbuffer hread
  rw [length_trimEnds, List.length_drop] at hread
  have hpolled : s.tail.polled = s.lines.length := (length_lines s).symm
  have hlines : s.tail.lines.take s.tail.polled = s.lines := by
    rw [hpolled]
    exact List.take_length
  have hsplit := weight_append (s.lines.take s.polled) s.unseen
  rw [unseen, List.take_append_drop] at hsplit
  have htrim := weight_trimEnds (s.lines.drop s.host.linesRead)
  have hskip := weight_drop_le h.ahead s.lines
  have hahead := h.ahead
  have hbounded := h.bounded
  have htight := h.tight
  have hwithin := h.within
  have hdue (hs : sound ∧ s.Sound) :
      trimEnds isPySpace (s.lines.drop s.host.linesRead) = s.unseen := by
    rw [h.due hs.1 hs.2.counter]
    exact trimEnds_eq_self_iff.2 ⟨hs.2.first, hs.2.last⟩
  refine ⟨?_, ?_, ?_, ?_, ?_, ⟨?_, ?_⟩, ?_, ?_⟩
  · rw [hbuffer, hread, List.length_append, length_trimEnds, List.length_drop, h.counted]
  · rw [hpolled]
    exact Nat.le_refl _
  · rw [hread, hpolled]
    omega
  · rw [hbuffer]
    exact h.console.trans (List.sublist_append_left ..)
  · rw [hbuffer, hlines, weight_append]
    change _ ≤ weight s.uart + _
    omega
  · intro hs
    rw [hbuffer, hlines, weight_append, hdue hs, htight.1 hs.1, hsplit, unseen, Nat.add_assoc]
    rfl
  · intro heq
    rw [hbuffer, hlines, weight_append] at heq
    change _ = weight s.uart + _ at heq
    have hsound := htight.2 (by omega)
    have hcounter : s.uart = [] ∨ s.unseen = [] := by
      by_contra hne
      rw [not_or] at hne
      -- the console lines harvested push the position over the first new lines
      have hlt := weight_drop_lt (List.length_pos_iff.2 hne.1) hne.2
      rw [unseen, List.drop_drop, ← h.position hsound] at hlt
      omega
    have hfixed := htrim.2 (by omega)
    rw [h.due hsound hcounter] at hfixed
    have hends := trimEnds_eq_self_iff.1 hfixed
    exact ⟨hsound, hcounter, hends.1, hends.2⟩
  · intro hs
    rw [hbuffer, hlines, hdue hs]
    have hall := (h.kept hs.1).append (List.Subperm.refl s.unseen)
    rwa [unseen, List.take_append_drop] at hall
  · intro hs
    have hlen := congrArg List.length (hdue hs)
    rw [length_trimEnds, unseen, List.length_drop, List.length_drop] at hlen
    have hposition := h.position hs.1
    rw [hread, hpolled]
    change _ = _ + s.uart.length
    omega

theorem Ledger.step (h : s.Ledger sound) (act : VacuumAct) :
    (s.step act).Ledger (sound ∧ (act = .poll → s.isFailedOver = false → s.Sound)) := by
  have hother (hact : act ≠ .poll) :
      (sound ∧ (act = .poll → s.isFailedOver = false → s.Sound)) ↔ sound :=
    and_iff_left fun h => absurd h hact
  cases act with
  | append new =>
    rw [hother (by intro h; cases h)]
    exact h.append new
  | console buffer =>
    rw [hother (by intro h; cases h)]
    exact ⟨h.1, h.2, h.3, h.4, h.5, h.6, h.7, h.8⟩
  | failOver =>
    rw [hother (by intro h; cases h)]
    exact ⟨h.1, h.2, h.3, h.4, h.5, h.6, h.7, h.8⟩
  | failBack =>
    rw [hother (by intro h; cases h)]
    exact ⟨h.1, h.2, h.3, h.4, h.5, h.6, h.7, h.8⟩
  | poll =>
    rw [FailoverVacuum.step, poll]
    cases hover : s.isFailedOver with
    | true =>
      rw [if_pos rfl]
      simpa only [Bool.true_eq_false, false_imp_iff, imp_true_iff, and_true] using h.harvest
    | false =>
      rw [if_neg Bool.false_ne_true]
      simpa only [true_imp_iff] using h.tail

theorem Ledger.run (h : s.Ledger sound) (acts : List VacuumAct) :
    (s.run acts).Ledger (sound ∧ AtTails Sound s acts) := by
  induction acts generalizing s sound with
  | nil =>
    rw [AtTails, and_true]
    exact h
  | cons act acts ih =>
    rw [AtTails, ← and_assoc]
    exact ih (h.step act)

theorem ledger_start : Ledger {} True :=
  ⟨rfl, Nat.le_refl _, Nat.le_refl _, .slnil, Nat.le_refl _, ⟨fun _ => rfl, fun _ => trivial⟩,
    fun _ => .refl _, fun _ => rfl⟩

theorem run_poll (s : FailoverVacuum) (acts : List VacuumAct) :
    s.run (acts ++ [.poll]) = (s.run acts).poll := by
  rw [run, List.foldl_append]
  rfl

theorem subperm_append_of_disjoint [DecidableEq α] {ks ms ls : List α} (hk : ks.Subperm ls)
    (hm : ms.Subperm ls) (hdisj : ∀ k ∈ ks, k ∉ ms) : (ks ++ ms).Subperm ls := by
  rw [List.subperm_ext_iff]
  intro a _
  rw [List.count_append]
  by_cases ha : a ∈ ks
  · rw [List.count_eq_zero_of_not_mem (hdisj a ha)]
    exact hk.count_le a
  · rw [List.count_eq_zero_of_not_mem ha, Nat.zero_add]
    exact hm.count_le a

theorem Ledger.complete_iff (h : s.Ledger sound) (hpolled : s.lines.take s.polled = s.lines)
    (huart : ∀ l ∈ s.lines, l ∉ s.uart) : s.Complete ↔ sound := by
  have hbounded := h.bounded
  have htight := h.tight
  rw [hpolled] at hbounded htight
  constructor
  · intro hcomplete
    have hle := weight_subperm (subperm_append_of_disjoint hcomplete h.console.subperm huart)
    rw [weight_append] at hle
    exact htight.2 (by omega)
  · intro hsound
    have hkept := h.kept hsound
    rwa [hpolled] at hkept

end FailoverVacuum

/-- After a poll through the primary every line of the file is in the buffer if and only if no
poll through the primary ever found new lines with console lines already harvested, or trimmed
one. -/
theorem harvested_complete_iff (acts : List VacuumAct)
    (hprimary : (FailoverVacuum.run {} acts).isFailedOver = false)
    (huart : ∀ l ∈ (FailoverVacuum.run {} acts).lines, l ∉ (FailoverVacuum.run {} acts).uart) :
    (FailoverVacuum.run {} (acts ++ [.poll])).Complete ↔
      FailoverVacuum.AtTails FailoverVacuum.Sound {} (acts ++ [.poll]) := by
  have hrun := FailoverVacuum.run_poll {} acts
  rw [FailoverVacuum.poll, if_neg (Bool.eq_false_iff.1 hprimary)] at hrun
  have h := FailoverVacuum.ledger_start.run (acts ++ [.poll])
  rw [true_and] at h
  apply h.complete_iff
  · rw [hrun, FailoverVacuum.tail]
    exact List.take_of_length_le (Nat.le_of_eq (List.length_map _))
  · rw [hrun]
    exact huart

def fileLine (l : List Char) (h : '\n' ∉ l ∧ pyStrip l ≠ []) : FileLine := ⟨l, h⟩

/-- A file line read, a console line harvested, and a fail-back. -/
def sampleHistory : List VacuumAct :=
  [.append [fileLine "boot".toList (by decide)], .poll, .failOver, .console "login:\n".toList,
    .poll, .failBack]

theorem sampleHistory_complete : (FailoverVacuum.run {} (sampleHistory ++ [.poll])).Complete := by
  apply (harvested_complete_iff sampleHistory rfl (by decide)).2
  have hother {act : VacuumAct} {P : Prop} (h : act ≠ .poll) : act = .poll → P :=
    fun heq => absurd heq h
  refine ⟨hother (by intro h; cases h), fun _ _ => ⟨.inl rfl, by decide, by decide⟩,
    hother (by intro h; cases h), hother (by intro h; cases h), ?_,
    hother (by intro h; cases h), fun _ _ => ⟨.inr rfl, by decide, by decide⟩, trivial⟩
  intro _ hover
  exact absurd hover (by decide)

/-- The file line written while the transport was failed over is never read. -/
theorem harvest_skips_line :
    let s := FailoverVacuum.run {} (sampleHistory ++
      [.append [fileLine "panic".toList (by decide)], .poll])
    "panic".toList ∈ s.lines ∧ "panic".toList ∉ s.host.buffer ∧
      (∀ l ∈ s.lines, l ∉ s.uart) ∧ s.isFailedOver = false := by
  decide

end MesCore
