import Mathlib.Data.List.Basic
import Mathlib.Logic.Function.Basic
import Mathlib.Tactic.Common

namespace MesCore
set_option autoImplicit true

namespace McuLog

structure LogPattern where
  name : String
  regex : String
  trigger : Option String
  capture : Option String
  once : Bool
  deriving DecidableEq

/-- A match object. A group that took no part in the match has no text. -/
structure Match where
  whole : String
  groups : List (Option String)
  groupdict : List (String × Option String)
  lastindex : Option Nat
  lastindex_le : ∀ i ∈ lastindex, 1 ≤ i ∧ i ≤ groups.length
  lastindex_none : lastindex = none → ∀ g ∈ groups, g = none

/-- The regular expressions of the language: what `search` finds for an expression in a line. -/
structure Regex where
  search : (regex line : String) → Option Match

structure MatchedEvent where
  pattern : LogPattern
  trigger : Option String
  groups : List (String × Option String)
  rawLine : String
  deriving DecidableEq

/-- `_fired_once`, `captures` and `match_count`. A capture may hold `None`. -/
structure Parser where
  firedOnce : List String
  captures : String → Option (Option String)
  matchCount : String → Nat

/-- `m.group(1)`. -/
def Match.group1 (m : Match) : Option String := m.groups.head?.join

/-- `m.group(1) if m.lastindex else m.group(0)`. -/
def Match.value (m : Match) : Option String :=
  if m.lastindex.any (· ≠ 0) then m.group1 else some m.whole

/-- The key that a pattern captures under. An empty one counts as none. -/
def LogPattern.captureKey (pat : LogPattern) : Option String := pat.capture.filter (· ≠ "")

namespace Parser

def fresh : Parser := ⟨[], fun _ => none, fun _ => 0⟩

def reset (_st : Parser) : Parser := fresh

def store (key : Option String) (value : Option String)
    (captures : String → Option (Option String)) : String → Option (Option String) :=
  match key with
  | some key => Function.update captures key (some value)
  | none => captures

end Parser

section
variable (re : Regex)

/-- The body of the loop in `feed_line`. -/
def feedPattern (line : String) (st : Parser) (pat : LogPattern) :
    Parser × Option MatchedEvent :=
  if pat.once = true ∧ pat.name ∈ st.firedOnce then (st, none)
  else
    match re.search pat.regex line with
    | none => (st, none)
    | some m =>
      ({ firedOnce := if pat.once then pat.name :: st.firedOnce else st.firedOnce
         captures := Parser.store pat.captureKey m.value st.captures
         matchCount := Function.update st.matchCount pat.name (st.matchCount pat.name + 1) },
        some ⟨pat, pat.trigger, m.groupdict, line⟩)

def feedPatterns (line : String) (st : Parser) : List LogPattern → Parser × List MatchedEvent
  | [] => (st, [])
  | pat :: pats =>
    let r := feedPattern re line st pat
    let rest := feedPatterns line r.1 pats
    (rest.1, r.2.toList ++ rest.2)

variable (patterns : List LogPattern)

def feedLine (st : Parser) (line : String) : Parser × List MatchedEvent :=
  feedPatterns re line st patterns

def feedLines (st : Parser) : List String → Parser × List (List MatchedEvent)
  | [] => (st, [])
  | line :: lines =>
    let r := feedLine re patterns st line
    let rest := feedLines r.1 lines
    (rest.1, r.2 :: rest.2)

/-- The expression of a pattern matches a line. -/
def Hits (pat : LogPattern) (line : String) : Prop := (re.search pat.regex line).isSome = true

instance (pat : LogPattern) (line : String) : Decidable (Hits re pat line) :=
  inferInstanceAs (Decidable (_ = true))

/-- A pattern on its own: its event on a line, behind the earlier lines. -/
def ownEvent (earlier : List String) (line : String) (pat : LogPattern) : Option MatchedEvent :=
  if pat.once = true ∧ ∃ l ∈ earlier, Hits re pat l then none
  else (re.search pat.regex line).map fun m => ⟨pat, pat.trigger, m.groupdict, line⟩

/-- The events of each line where the patterns are independent of each other. -/
def ownEvents (earlier : List String) : List String → List (List MatchedEvent)
  | [] => []
  | line :: lines =>
    patterns.filterMap (ownEvent re earlier line) :: ownEvents (earlier ++ [line]) lines

/-- The events that count for a capture key, the latest at the end. -/
def keyed (key : String) (evs : List MatchedEvent) : List MatchedEvent :=
  evs.filter fun ev => ev.pattern.captureKey = some key

def named (name : String) (evs : List MatchedEvent) : List MatchedEvent :=
  evs.filter fun ev => ev.pattern.name = name

def matchOf (ev : MatchedEvent) : Option Match := re.search ev.pattern.regex ev.rawLine

/-- Each pattern is matched independently of the others. -/
structure Independent (st : Parser) (lines : List String) : Prop where
  events : (feedLines re patterns st lines).2 = ownEvents re patterns [] lines
  counts : ∀ name, (feedLines re patterns st lines).1.matchCount name =
    (named name (feedLines re patterns st lines).2.flatten).length
  captures : ∀ key, (feedLines re patterns st lines).1.captures key =
    ((keyed key (feedLines re patterns st lines).2.flatten).getLast?.bind (matchOf re)).map
      fun m => some (m.group1.getD m.whole)

/-- On some line the first match of a `once` pattern comes behind a match of another `once` pattern
of its name: on an earlier line, or on the same line from further up in the list. -/
structure Shadowed (earlier : List String) (before : List LogPattern) (pat : LogPattern)
    (line : String) : Prop where
  once : pat.once = true
  first : ∀ l ∈ earlier, ¬ Hits re pat l
  hits : Hits re pat line
  rival : ∃ pat' ∈ patterns, pat'.once = true ∧ pat'.name = pat.name ∧
    ((∃ l ∈ earlier, Hits re pat' l) ∨ pat' ∈ before ∧ Hits re pat' line)

def NoneShadowed (lines : List String) : Prop :=
  ∀ earlier line later before pat behind, lines = earlier ++ line :: later →
    patterns = before ++ pat :: behind → ¬ Shadowed re patterns earlier before pat line

/-- The first group takes part in the match, or no group does. -/
def Match.Textual (m : Match) : Prop := m.group1 = none → m.lastindex = none

/-- The latest event of each key has a text to capture. -/
def CapturesText (lines : List String) : Prop :=
  ∀ key, ∀ ev ∈ (keyed key (ownEvents re patterns [] lines).flatten).getLast?,
    ∀ m ∈ matchOf re ev, m.Textual

end

section
variable {re : Regex} {patterns : List LogPattern} {st st' st'' : Parser} {line : String}
  {earlier lines : List String} {before pats : List LogPattern} {pat : LogPattern}
  {evs evs' : List MatchedEvent}

/-- What is counted and captured along with some events. -/
structure Tracks (re : Regex) (st : Parser) (evs : List MatchedEvent) (st' : Parser) : Prop where
  matched : ∀ ev ∈ evs, (matchOf re ev).isSome = true
  counts : ∀ name, st'.matchCount name = st.matchCount name + (named name evs).length
  captures : ∀ key, st'.captures key =
    (((keyed key evs).getLast?.bind (matchOf re)).map Match.value).or (st.captures key)

theorem Tracks.refl (st : Parser) : Tracks re st [] st where
  matched ev hev := by cases hev
  counts _ := rfl
  captures _ := rfl

theorem keyed_append (key : String) (evs evs' : List MatchedEvent) :
    keyed key (evs ++ evs') = keyed key evs ++ keyed key evs' := List.filter_append ..

theorem named_append (name : String) (evs evs' : List MatchedEvent) :
    named name (evs ++ evs') = named name evs ++ named name evs' := List.filter_append ..

theorem Tracks.trans (h : Tracks re st evs st') (h' : Tracks re st' evs' st'') :
    Tracks re st (evs ++ evs') st'' where
  matched ev hev := (List.mem_append.1 hev).elim (h.matched ev) (h'.matched ev)
  counts name := by
    rw [h'.counts, h.counts, named_append, List.length_append, Nat.add_assoc]
  captures key := by
    rw [h'.captures, h.captures, keyed_append, List.getLast?_append]
    cases hlast : (keyed key evs').getLast? with
    | none => rfl
    | some ev =>
      have hev : ev ∈ evs' := List.mem_of_mem_filter (List.mem_of_getLast? hlast)
      obtain ⟨m, hm⟩ := Option.isSome_iff_exists.1 (h'.matched ev hev)
      rw [Option.some_or, Option.bind_some, hm]
      rfl

theorem tracks_feedPattern (re : Regex) (line : String) (st : Parser) (pat : LogPattern) :
    Tracks re st (feedPattern re line st pat).2.toList (feedPattern re line st pat).1 := by
  rw [feedPattern]
  split
  · exact .refl st
  · cases hm : re.search pat.regex line with
    | none => exact .refl st
    | some m =>
      let ev : MatchedEvent := ⟨pat, pat.trigger, m.groupdict, line⟩
      have hmatch : matchOf re ev = some m := hm
      constructor
      · intro ev' hev
        obtain rfl : ev' = ev := List.mem_singleton.1 hev
        rw [hmatch]
        rfl
      · intro name
        by_cases hname : pat.name = name
        · subst hname
          simp [named]
        · simp [named, hname, Function.update_of_ne (Ne.symm hname)]
      · intro key
        change Parser.store pat.captureKey m.value st.captures key =
          (((keyed key [ev]).getLast?.bind (matchOf re)).map Match.value).or (st.captures key)
        cases hkey : pat.captureKey with
        | none =>
          have hkeyed : keyed key [ev] = [] := List.filter_cons_of_neg (by simp [ev, hkey])
          rw [hkeyed]
          rfl
        | some k =>
          by_cases hk : k = key
          · subst hk
            have hkeyed : keyed k [ev] = [ev] := List.filter_cons_of_pos (by simp [ev, hkey])
            rw [hkeyed, List.getLast?_singleton, Option.bind_some, hmatch]
            exact Function.update_self ..
          · have hkeyed : keyed key [ev] = [] :=
              List.filter_cons_of_neg (by simpa [ev, hkey] using hk)
            rw [hkeyed]
            exact Function.update_of_ne (Ne.symm hk) ..

theorem tracks_feedPatterns (re : Regex) (line : String) (st : Parser) (pats : List LogPattern) :
    Tracks re st (feedPatterns re line st pats).2 (feedPatterns re line st pats).1 := by
  induction pats generalizing st with
  | nil => exact .refl st
  | cons pat pats ih => exact (tracks_feedPattern re line st pat).trans (ih _)

theorem tracks_feedLines (re : Regex) (patterns : List LogPattern) (st : Parser)
    (lines : List String) : Tracks re st (feedLines re patterns st lines).2.flatten
      (feedLines re patterns st lines).1 := by
  induction lines generalizing st with
  | nil => exact .refl st
  | cons line lines ih => exact (tracks_feedPatterns re line st patterns).trans (ih _)

/-- The names that have fired are those of the `once` patterns that have matched: on an earlier
line, or among the first patterns on this one. -/
structure Knows (re : Regex) (patterns : List LogPattern) (earlier : List String)
    (before : List LogPattern) (line : String) (st : Parser) : Prop where
  fired : ∀ name, name ∈ st.firedOnce ↔ ∃ pat' ∈ patterns, pat'.once = true ∧ pat'.name = name ∧
    ((∃ l ∈ earlier, Hits re pat' l) ∨ pat' ∈ before ∧ Hits re pat' line)

theorem firedOnce_feedPattern (re : Regex) (line : String) (st : Parser) (pat : LogPattern)
    (name : String) : name ∈ (feedPattern re line st pat).1.firedOnce ↔
      name ∈ st.firedOnce ∨ pat.once = true ∧ pat.name = name ∧ Hits re pat line := by
  rw [feedPattern, Hits]
  split
  · constructor
    · exact .inl
    · intro h
      obtain h | ⟨-, rfl, -⟩ := h
      · exact h
      · exact ‹_ ∧ _›.2
  · cases re.search pat.regex line with
    | none => simp
    | some m =>
      cases pat.once with
      | false => simp
      | true => simp [or_comm, eq_comm]

theorem Knows.step (h : Knows re patterns earlier before line st) (hpat : pat ∈ patterns) :
    Knows re patterns earlier (before ++ [pat]) line (feedPattern re line st pat).1 := by
  constructor
  intro name
  rw [firedOnce_feedPattern, h.fired]
  constructor
  · intro h
    obtain ⟨pat', hmem, honce, hname, hhits⟩ | ⟨honce, hname, hhits⟩ := h
    · refine ⟨pat', hmem, honce, hname, hhits.imp_right fun hbefore => ?_⟩
      exact ⟨List.mem_append_left _ hbefore.1, hbefore.2⟩
    · have hmem : pat ∈ before ++ [pat] := List.mem_append_right _ (List.mem_singleton_self _)
      exact ⟨pat, hpat, honce, hname, .inr ⟨hmem, hhits⟩⟩
  · intro h
    obtain ⟨pat', hmem, honce, hname, hhits | ⟨hbefore, hhits⟩⟩ := h
    · exact .inl ⟨pat', hmem, honce, hname, .inl hhits⟩
    · rcases List.mem_append.1 hbefore with hbefore | hbefore
      · exact .inl ⟨pat', hmem, honce, hname, .inr ⟨hbefore, hhits⟩⟩
      · obtain rfl := List.mem_singleton.1 hbefore
        exact .inr ⟨honce, hname, hhits⟩

theorem Knows.next (h : Knows re patterns earlier patterns line st) (line' : String) :
    Knows re patterns (earlier ++ [line]) [] line' st := by
  constructor
  intro name
  rw [h.fired]
  constructor
  · intro h
    obtain ⟨pat', hmem, honce, hname, ⟨l, hl, hhits⟩ | ⟨-, hhits⟩⟩ := h
    · exact ⟨pat', hmem, honce, hname, .inl ⟨l, List.mem_append_left _ hl, hhits⟩⟩
    · have hl : line ∈ earlier ++ [line] := List.mem_append_right _ (List.mem_singleton_self _)
      exact ⟨pat', hmem, honce, hname, .inl ⟨line, hl, hhits⟩⟩
  · intro h
    obtain ⟨pat', hmem, honce, hname, ⟨l, hl, hhits⟩ | ⟨hbefore, -⟩⟩ := h
    · rcases List.mem_append.1 hl with hl | hl
      · exact ⟨pat', hmem, honce, hname, .inl ⟨l, hl, hhits⟩⟩
      · obtain rfl := List.mem_singleton.1 hl
        exact ⟨pat', hmem, honce, hname, .inr ⟨hmem, hhits⟩⟩
    · cases hbefore

/-- A pattern that is not shadowed gives its own event; one that is gives none. -/
theorem feedPattern_event (h : Knows re patterns earlier before line st) (hpat : pat ∈ patterns) :
    (Shadowed re patterns earlier before pat line ∧ (feedPattern re line st pat).2 = none ∧
      (ownEvent re earlier line pat).isSome = true) ∨
      (¬ Shadowed re patterns earlier before pat line ∧
        (feedPattern re line st pat).2 = ownEvent re earlier line pat) := by
  rw [feedPattern, ownEvent]
  by_cases hskip : pat.once = true ∧ pat.name ∈ st.firedOnce
  · rw [if_pos hskip]
    by_cases hfirst : ∃ l ∈ earlier, Hits re pat l
    · rw [if_pos ⟨hskip.1, hfirst⟩]
      refine .inr ⟨fun hs => ?_, rfl⟩
      obtain ⟨l, hl, hhits⟩ := hfirst
      exact hs.first l hl hhits
    · rw [if_neg fun h => hfirst h.2]
      by_cases hhits : Hits re pat line
      · refine .inl ⟨⟨hskip.1, fun l hl hh => hfirst ⟨l, hl, hh⟩, hhits, ?_⟩, rfl, ?_⟩
        · exact (h.fired pat.name).1 hskip.2
        · rw [Option.isSome_map]
          exact hhits
      · refine .inr ⟨fun hs => hhits hs.hits, ?_⟩
        rw [Hits, Option.not_isSome_iff_eq_none] at hhits
        rw [hhits]
        rfl
  · have hown : ¬ (pat.once = true ∧ ∃ l ∈ earlier, Hits re pat l) := by
      intro h'
      obtain ⟨honce, l, hl, hhits⟩ := h'
      exact hskip ⟨honce, (h.fired pat.name).2 ⟨pat, hpat, honce, rfl, .inl ⟨l, hl, hhits⟩⟩⟩
    rw [if_neg hskip, if_neg hown]
    refine .inr ⟨fun hs => hskip ⟨hs.once, (h.fired pat.name).2 hs.rival⟩, ?_⟩
    cases re.search pat.regex line with
    | none => rfl
    | some m => rfl

theorem forall_places {x : α} {l : List α} {P : List α → α → List α → Prop} :
    (∀ a y b, x :: l = a ++ y :: b → P a y b) ↔
      P [] x l ∧ ∀ a y b, l = a ++ y :: b → P (x :: a) y b := by
  constructor
  · intro h
    refine ⟨h [] x l rfl, ?_⟩
    intro a y b hl
    exact h (x :: a) y b (congrArg (x :: ·) hl)
  · intro h a y b hl
    cases a with
    | nil =>
      obtain ⟨rfl, rfl⟩ := List.cons.inj hl
      exact h.1
    | cons z a =>
      obtain ⟨rfl, hrest⟩ := List.cons.inj hl
      exact h.2 a y b hrest

theorem filterMap_cons_eq (f : α → Option β) (x : α) (l : List α) :
    (x :: l).filterMap f = (f x).toList ++ l.filterMap f := by
  rw [List.filterMap_cons]
  cases f x with
  | none => rfl
  | some y => rfl

theorem Knows.feedPatterns (h : Knows re patterns earlier before line st)
    (hpats : ∀ pat ∈ pats, pat ∈ patterns) :
    Knows re patterns earlier (before ++ pats) line (feedPatterns re line st pats).1 := by
  induction pats generalizing before st with
  | nil =>
    rw [List.append_nil]
    exact h
  | cons pat pats ih =>
    rw [List.append_cons]
    apply ih (h.step (hpats pat (List.mem_cons_self ..)))
    exact fun pat' hpat' => hpats pat' (List.mem_cons_of_mem _ hpat')

theorem sublist_feedPatterns (h : Knows re patterns earlier before line st)
    (hpats : ∀ pat ∈ pats, pat ∈ patterns) :
    (McuLog.feedPatterns re line st pats).2.Sublist
      (pats.filterMap (ownEvent re earlier line)) := by
  induction pats generalizing before st with
  | nil => exact .refl []
  | cons pat pats ih =>
    have hpat := hpats pat (List.mem_cons_self ..)
    have hrest := ih (h.step hpat) fun pat' hpat' => hpats pat' (List.mem_cons_of_mem _ hpat')
    rw [filterMap_cons_eq]
    apply List.Sublist.append _ hrest
    obtain ⟨-, hnone, -⟩ | ⟨-, hown⟩ := feedPattern_event h hpat
    · rw [hnone]
      exact List.nil_sublist _
    · rw [hown]

/-- Each pattern of a line gives its own event exactly when none is shadowed. -/
theorem feedPatterns_own_iff (h : Knows re patterns earlier before line st)
    (hpats : ∀ pat ∈ pats, pat ∈ patterns) :
    (McuLog.feedPatterns re line st pats).2 = pats.filterMap (ownEvent re earlier line) ↔
      ∀ a pat b, pats = a ++ pat :: b → ¬ Shadowed re patterns earlier (before ++ a) pat line := by
  induction pats generalizing before st with
  | nil => exact iff_of_true rfl fun a pat b h => by simp at h
  | cons pat pats ih =>
    have hpat := hpats pat (List.mem_cons_self ..)
    have htail : ∀ pat' ∈ pats, pat' ∈ patterns :=
      fun pat' hpat' => hpats pat' (List.mem_cons_of_mem _ hpat')
    have hsub := sublist_feedPatterns (h.step hpat) htail
    have hrest := ih (h.step hpat) htail
    simp only [List.append_assoc, List.singleton_append] at hrest
    rw [forall_places, filterMap_cons_eq, List.append_nil, ← hrest]
    change (feedPattern re line st pat).2.toList ++ _ = _ ↔ _
    obtain ⟨hs, hnone, hsome⟩ | ⟨hs, hown⟩ := feedPattern_event h hpat
    · refine iff_of_false (fun heq => ?_) fun h => h.1 hs
      obtain ⟨ev, hev⟩ := Option.isSome_iff_exists.1 hsome
      have hlen := congrArg List.length heq
      rw [hnone, hev, Option.toList, Option.toList, List.nil_append, List.length_append,
        List.length_singleton] at hlen
      have hle := hsub.length_le
      omega
    · rw [hown, List.append_cancel_left_eq, and_iff_right hs]

theorem feedLines_own_iff (lines : List String)
    (h : ∀ line, Knows re patterns earlier [] line st) :
    (feedLines re patterns st lines).2 = ownEvents re patterns earlier lines ↔
      ∀ a line b, lines = a ++ line :: b → ∀ before pat behind, patterns = before ++ pat :: behind →
        ¬ Shadowed re patterns (earlier ++ a) before pat line := by
  induction lines generalizing earlier st with
  | nil => exact iff_of_true rfl fun a line b h => by simp at h
  | cons line lines ih =>
    have hline := feedPatterns_own_iff (h line) fun pat (hpat : pat ∈ patterns) => hpat
    have hnext := ((h line).feedPatterns fun pat (hpat : pat ∈ patterns) => hpat).next
    have hrest := ih hnext
    simp only [List.append_assoc, List.singleton_append] at hrest
    simp only [List.nil_append] at hline
    rw [forall_places, List.append_nil, ← hrest, ← hline, feedLines, ownEvents, List.cons.injEq]
    rfl

theorem value_iff (m : Match) : m.value = some (m.group1.getD m.whole) ↔ m.Textual := by
  rw [Match.value, Match.Textual]
  cases hlast : m.lastindex with
  | none =>
    have hgroup : m.group1 = none := by
      have hnone := m.lastindex_none hlast
      rw [Match.group1]
      cases hgroups : m.groups with
      | nil => rfl
      | cons g gs => exact hnone g (hgroups ▸ List.mem_cons_self ..)
    rw [hgroup]
    simp
  | some i =>
    have hpos : i ≠ 0 := Nat.pos_iff_ne_zero.1 (m.lastindex_le i hlast).1
    rw [Option.any_some, if_pos (decide_eq_true hpos)]
    cases m.group1 with
    | none => simp
    | some text => simp

/-- Behind a reset, the patterns are matched independently of each other exactly when no `once`
pattern is shadowed by one of the same name, and the latest match of each capture key has a text
for its first group, or no group at all. -/
theorem independent_iff (re : Regex) (patterns : List LogPattern) (st : Parser)
    (lines : List String) : Independent re patterns st.reset lines ↔
      NoneShadowed re patterns lines ∧ CapturesText re patterns lines := by
  have hknows (line : String) : Knows re patterns [] [] line st.reset := by
    constructor
    intro name
    simp [Parser.reset, Parser.fresh]
  have htracks := tracks_feedLines re patterns st.reset lines
  have hevents := feedLines_own_iff lines hknows
  have hshadowed : NoneShadowed re patterns lines ↔ _ :=
    ⟨fun h a line b hlines before pat behind => h a line b before pat behind hlines,
      fun h a line b before pat behind hlines => h a line b hlines before pat behind⟩
  rw [hshadowed]
  simp only [List.nil_append] at hevents
  rw [← hevents]
  constructor
  · intro h
    refine ⟨h.events, ?_⟩
    intro key ev hev m hm
    have hcaptured := (htracks.captures key).symm.trans (h.captures key)
    rw [h.events, Option.mem_def.1 hev, Option.bind_some, Option.mem_def.1 hm] at hcaptured
    exact (value_iff m).1 (Option.some.inj hcaptured)
  · intro h
    obtain ⟨hown, htext⟩ := h
    refine ⟨hown, fun name => (htracks.counts name).trans (Nat.zero_add _), fun key => ?_⟩
    rw [htracks.captures]
    cases hlast : (keyed key (feedLines re patterns st.reset lines).2.flatten).getLast? with
    | none => rfl
    | some ev =>
      have hev := List.mem_of_mem_filter (List.mem_of_getLast? hlast)
      obtain ⟨m, hm⟩ := Option.isSome_iff_exists.1 (htracks.matched ev hev)
      rw [hown] at hlast
      rw [Option.bind_some, hm, Option.map_some, Option.map_some, Option.some_or,
        (value_iff m).2 (htext key ev hlast m hm)]

end

def bare (whole : String) : Match where
  whole := whole
  groups := []
  groupdict := []
  lastindex := none
  lastindex_le := by simp
  lastindex_none := by simp

/-- A match of `(?:a=(\d+)|b=(\d+))` in which the second group has taken part. -/
def secondGroup (whole text : String) : Match where
  whole := whole
  groups := [none, some text]
  groupdict := []
  lastindex := some 2
  lastindex_le := by simp
  lastindex_none := by simp

def twoLines : Regex where
  search
    | "UP", "link UP" => some (bare "UP")
    | "SYNC", "clock SYNC" => some (bare "SYNC")
    | "(?:a=(\\d+)|b=(\\d+))", "b=7" => some (secondGroup "b=7" "7")
    | _, _ => none

def onceReady (regex : String) : LogPattern := ⟨"ready", regex, some "go", none, true⟩

def counter : LogPattern := ⟨"counter", "(?:a=(\\d+)|b=(\\d+))", none, some "count", false⟩

/-- The second pattern is silent on its only match, and a capture holds `None`. -/
theorem parser_dependent :
    ¬ Independent twoLines [onceReady "UP", onceReady "SYNC"] .fresh ["link UP", "clock SYNC"] ∧
      ¬ Independent twoLines [counter] .fresh ["b=7"] := by
  constructor
  · intro h
    have hlen := congrArg (List.map List.length) h.events
    exact absurd hlen (by decide)
  · intro h
    exact absurd (h.captures "count") (by decide)

end McuLog
end MesCore
