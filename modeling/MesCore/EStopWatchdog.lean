import Mathlib.Data.List.Infix

namespace MesCore
set_option autoImplicit true

namespace EStop

/-- What `get_value` comes to: `Value.INACTIVE`, `Value.ACTIVE` or an exception. -/
inductive GpioRead
  | inactive
  | active
  | exception
  deriving DecidableEq

def GpioRead.state : GpioRead → Option Nat
  | .inactive => some 0
  | .active => some 1
  | .exception => none

/-- What the monitor does, its log aside. -/
inductive Effect
  | getValue (read : GpioRead)
  | sigint
  | grace
  | hardExit
  | poll
  deriving DecidableEq

/-- `trigger_state`. -/
def triggerState (activeLow : Bool) : Nat := if activeLow then 0 else 1

/-- `MAX_CONSECUTIVE_ERRORS`. -/
def maxConsecutiveErrors : Nat := 3

/-- The loop of `_monitor`, over the reads it makes until the stop event is set. -/
def monitorLoop (activeLow : Bool) : Nat → List GpioRead → List Effect
  | _, [] => []
  | consecutiveErrors, read :: reads =>
    .getValue read :: match read.state with
      | some state =>
        -- `os._exit` does not come back
        if state = triggerState activeLow then [.sigint, .grace, .hardExit]
        else .poll :: monitorLoop activeLow 0 reads
      | none =>
        if maxConsecutiveErrors ≤ consecutiveErrors + 1 then [.sigint]
        else .poll :: monitorLoop activeLow (consecutiveErrors + 1) reads

/-- `EStopWatchdog._monitor`. Without a line request there is nothing to read. -/
def monitor (request activeLow : Bool) (reads : List GpioRead) : List Effect :=
  if request then monitorLoop activeLow 0 reads else []

def Effect.outcome : Effect → Option GpioRead
  | .getValue read => some read
  | _ => none

def readsOf (effects : List Effect) : List GpioRead := effects.filterMap Effect.outcome

/-- The last read seen shows the trigger level or is the third exception in a row. -/
def MustFire (activeLow : Bool) (seen : List GpioRead) : Prop :=
  (∃ read, [read] <:+ seen ∧ read.state = some (triggerState activeLow)) ∨
    [.exception, .exception, .exception] <:+ seen

/-- SIGINT right after the first read that calls for it, and no read from then on. -/
structure FiresInTime (activeLow : Bool) (reads : List GpioRead) (effects : List Effect) :
    Prop where
  fires : .sigint ∈ effects ↔ ∃ seen, seen <+: reads ∧ MustFire activeLow seen
  sent : ∀ before after, effects = before ++ .sigint :: after →
    (∃ read, [.getValue read] <:+ before) ∧ MustFire activeLow (readsOf before) ∧
      (∀ seen, seen <+: readsOf before → MustFire activeLow seen → seen = readsOf before) ∧
      readsOf after = [] ∧ .sigint ∉ after
  taken : readsOf effects <+: reads
  quiet : .sigint ∉ effects → readsOf effects = reads

section
variable {activeLow : Bool} {seen before reads : List GpioRead} {read : GpioRead} {errors : Nat}

/-- The counter, as the exceptions the reads end with. -/
def Trailing (errors : Nat) (seen : List GpioRead) : Prop :=
  ∀ k, List.replicate k .exception <:+ seen ↔ k ≤ errors

theorem suffix_snoc {s t : List α} {a b : α} : s ++ [a] <:+ t ++ [b] ↔ a = b ∧ s <:+ t := by
  rw [List.suffix_concat_iff]
  constructor
  · rintro (h | ⟨u, h, hu⟩)
    · exact (List.append_ne_nil_of_right_ne_nil s (List.cons_ne_nil a []) h).elim
    · obtain ⟨rfl, hlast⟩ := List.append_inj' h rfl
      exact ⟨List.singleton_inj.mp hlast, hu⟩
  · rintro ⟨rfl, h⟩
    exact .inr ⟨s, rfl, h⟩

theorem trailing_nil : Trailing 0 [] := by
  intro k
  rw [List.suffix_nil, List.replicate_eq_nil_iff, Nat.le_zero]

theorem trailing_level (h : read ≠ .exception) : Trailing 0 (seen ++ [read]) := by
  intro k
  cases k with
  | zero => exact ⟨fun _ => Nat.le_refl 0, fun _ => List.nil_suffix⟩
  | succ k =>
    rw [List.replicate_succ', suffix_snoc]
    exact ⟨fun hk => (h hk.1.symm).elim, fun hk => (Nat.not_succ_le_zero k hk).elim⟩

theorem trailing_exception (h : Trailing errors seen) :
    Trailing (errors + 1) (seen ++ [.exception]) := by
  intro k
  cases k with
  | zero => exact ⟨fun _ => Nat.zero_le _, fun _ => List.nil_suffix⟩
  | succ k =>
    rw [List.replicate_succ', suffix_snoc, Nat.succ_le_succ_iff]
    exact ⟨fun hk => (h k).mp hk.2, fun hk => ⟨rfl, (h k).mpr hk⟩⟩

theorem mustFire_level (h : read ≠ .exception) :
    MustFire activeLow (seen ++ [read]) ↔ read.state = some (triggerState activeLow) := by
  constructor
  · rintro (⟨r, hr, hlevel⟩ | hthree)
    · have hlast : r = read := (suffix_snoc (s := []).mp hr).1
      exact hlast ▸ hlevel
    · have hlast : GpioRead.exception = read := (suffix_snoc (s := [_, _]).mp hthree).1
      exact (h hlast.symm).elim
  · exact fun hlevel => .inl ⟨read, List.suffix_append seen [read], hlevel⟩

/-- An exception calls for SIGINT exactly when the counter reaches its limit with it. -/
theorem mustFire_exception (h : Trailing errors seen) :
    MustFire activeLow (seen ++ [.exception]) ↔ maxConsecutiveErrors ≤ errors + 1 := by
  have hthree : [.exception, .exception, .exception] <:+ seen ++ [.exception] ↔
      maxConsecutiveErrors ≤ errors + 1 := trailing_exception h 3
  constructor
  · rintro (⟨r, hr, hlevel⟩ | h)
    · obtain ⟨rfl, -⟩ := (suffix_snoc (s := [])).mp hr
      cases hlevel
    · exact hthree.mp h
  · exact fun h => .inr (hthree.mpr h)

theorem GpioRead.state_eq_none : read.state = none ↔ read = .exception := by
  cases read with
  | exception => exact ⟨fun _ => rfl, fun _ => rfl⟩
  | inactive => exact ⟨fun h => (Option.some_ne_none 0 h).elim, fun h => GpioRead.noConfusion h⟩
  | active => exact ⟨fun h => (Option.some_ne_none 1 h).elim, fun h => GpioRead.noConfusion h⟩

def polled (reads : List GpioRead) : List Effect :=
  reads.flatMap fun read => [.getValue read, .poll]

/-- A read that calls for SIGINT is answered at once, and is the last one. -/
theorem monitorLoop_fire (reads : List GpioRead) (h : Trailing errors seen)
    (hfire : MustFire activeLow (seen ++ [read])) :
    ∃ ending, readsOf ending = [] ∧ .sigint ∉ ending ∧
      monitorLoop activeLow errors (read :: reads) = .getValue read :: .sigint :: ending := by
  cases hstate : read.state with
  | none =>
    obtain rfl := GpioRead.state_eq_none.mp hstate
    have hlimit := (mustFire_exception h).mp hfire
    refine ⟨[], rfl, List.not_mem_nil, ?_⟩
    simp only [monitorLoop, hstate, if_pos hlimit]
  | some state =>
    have hread : read ≠ .exception := by
      rw [Ne, ← GpioRead.state_eq_none, hstate]
      exact Option.some_ne_none state
    have hlevel := (mustFire_level hread).mp hfire
    rw [hstate, Option.some.injEq] at hlevel
    refine ⟨[.grace, .hardExit], rfl, by decide, ?_⟩
    simp only [monitorLoop, hstate, if_pos hlevel]

theorem monitorLoop_quiet (reads : List GpioRead) (h : Trailing errors seen)
    (hquiet : ¬ MustFire activeLow (seen ++ [read])) :
    ∃ errors', Trailing errors' (seen ++ [read]) ∧
      monitorLoop activeLow errors (read :: reads) =
        .getValue read :: .poll :: monitorLoop activeLow errors' reads := by
  cases hstate : read.state with
  | none =>
    obtain rfl := GpioRead.state_eq_none.mp hstate
    have hlimit := mt (mustFire_exception h).mpr hquiet
    refine ⟨errors + 1, trailing_exception h, ?_⟩
    simp only [monitorLoop, hstate, if_neg hlimit]
  | some state =>
    have hread : read ≠ .exception := by
      rw [Ne, ← GpioRead.state_eq_none, hstate]
      exact Option.some_ne_none state
    have hlevel := mt (mustFire_level hread).mpr hquiet
    rw [hstate, Option.some.injEq] at hlevel
    refine ⟨0, trailing_level hread, ?_⟩
    simp only [monitorLoop, hstate, if_neg hlevel]

theorem readsOf_append (effects effects' : List Effect) :
    readsOf (effects ++ effects') = readsOf effects ++ readsOf effects' :=
  List.filterMap_append

theorem readsOf_polled (reads : List GpioRead) : readsOf (polled reads) = reads := by
  induction reads with
  | nil => rfl
  | cons read reads ih => exact congrArg (read :: ·) ih

theorem sigint_not_mem_polled (reads : List GpioRead) : .sigint ∉ polled reads := by
  intro h
  obtain ⟨read, -, hread⟩ := List.mem_flatMap.mp h
  cases hread with
  | tail _ hread => cases hread with
    | tail _ hread => cases hread

/-- No read among these calls for SIGINT, after those seen. -/
def Quiet (activeLow : Bool) (seen reads : List GpioRead) : Prop :=
  ∀ p, p <+: reads → p ≠ [] → ¬ MustFire activeLow (seen ++ p)

theorem Quiet.cons (hread : ¬ MustFire activeLow (seen ++ [read]))
    (h : Quiet activeLow (seen ++ [read]) reads) : Quiet activeLow seen (read :: reads) := by
  intro p hp hne
  cases p with
  | nil => exact (hne rfl).elim
  | cons r p =>
    obtain ⟨rfl, htail⟩ := List.cons_prefix_cons.mp hp
    cases p with
    | nil => exact hread
    | cons r' p =>
      have hrest := h (r' :: p) htail (List.cons_ne_nil r' p)
      rwa [List.append_assoc] at hrest

/-- The monitor polls on, or polls up to the first read that calls for SIGINT. -/
theorem monitorLoop_cases (activeLow : Bool) (reads : List GpioRead)
    (h : Trailing errors seen) :
    (Quiet activeLow seen reads ∧ monitorLoop activeLow errors reads = polled reads) ∨
    ∃ before read after ending, reads = before ++ read :: after ∧
      Quiet activeLow seen before ∧ MustFire activeLow (seen ++ before ++ [read]) ∧
      readsOf ending = [] ∧ .sigint ∉ ending ∧
      monitorLoop activeLow errors reads =
        polled before ++ .getValue read :: .sigint :: ending := by
  induction reads generalizing seen errors with
  | nil =>
    refine .inl ⟨fun p hp hne => ?_, rfl⟩
    exact (hne (List.prefix_nil.mp hp)).elim
  | cons read reads ih =>
    by_cases hread : MustFire activeLow (seen ++ [read])
    · obtain ⟨ending, hreads, hsigint, heq⟩ := monitorLoop_fire reads h hread
      refine .inr ⟨[], read, reads, ending, rfl, ?_, ?_, hreads, hsigint, heq⟩
      · exact fun p hp hne => (hne (List.prefix_nil.mp hp)).elim
      · rwa [List.append_nil]
    · obtain ⟨errors', herrors, heq⟩ := monitorLoop_quiet reads h hread
      obtain ⟨hquiet, hpolled⟩ | hfire := ih herrors
      · exact .inl ⟨hquiet.cons hread, by rw [heq, hpolled]; rfl⟩
      · obtain ⟨before, r, after, ending, rfl, hquiet, hr, hreads, hsigint, hpolled⟩ := hfire
        refine .inr ⟨read :: before, r, after, ending, rfl, hquiet.cons hread, ?_, hreads,
          hsigint, ?_⟩
        · rwa [List.append_assoc seen] at hr
        · rw [heq, hpolled]
          rfl

theorem not_mustFire_nil : ¬ MustFire activeLow [] := by
  rintro (⟨read, hread, -⟩ | hthree)
  · exact List.cons_ne_nil read [] (List.suffix_nil.mp hread)
  · exact List.cons_ne_nil _ _ (List.suffix_nil.mp hthree)

theorem firesInTime_quiet (h : Quiet activeLow [] reads) :
    FiresInTime activeLow reads (polled reads) := by
  have hsilent : .sigint ∉ polled reads := sigint_not_mem_polled reads
  constructor
  · refine ⟨fun hsigint => (hsilent hsigint).elim, fun ⟨seen, hseen, hfire⟩ => ?_⟩
    refine (h seen hseen ?_ hfire).elim
    rintro rfl
    exact not_mustFire_nil hfire
  · intro before after heq
    rw [heq] at hsilent
    exact (hsilent (List.mem_append_right before List.mem_cons_self)).elim
  · rw [readsOf_polled]
  · exact fun _ => readsOf_polled reads

theorem firesInTime_fire {after : List GpioRead} {ending : List Effect}
    (hquiet : Quiet activeLow [] before) (hfire : MustFire activeLow (before ++ [read]))
    (hreads : readsOf ending = []) (hsigint : .sigint ∉ ending) :
    FiresInTime activeLow (before ++ read :: after)
      (polled before ++ .getValue read :: .sigint :: ending) := by
  have hsplit : before ++ read :: after = before ++ [read] ++ after := by
    rw [List.append_assoc, List.singleton_append]
  have hseen : readsOf (polled before ++ [.getValue read]) = before ++ [read] := by
    rw [readsOf_append, readsOf_polled]
    rfl
  have heffects : polled before ++ .getValue read :: .sigint :: ending =
      polled before ++ [.getValue read] ++ .sigint :: ending := by
    rw [List.append_assoc, List.singleton_append]
  have hfirst (seen : List GpioRead) (hp : seen <+: before ++ [read])
      (hseenFire : MustFire activeLow seen) : seen = before ++ [read] := by
    obtain hall | hp := List.prefix_concat_iff.mp hp
    · exact hall
    · refine (hquiet seen hp ?_ hseenFire).elim
      rintro rfl
      exact not_mustFire_nil hseenFire
  have hsilent : Effect.sigint ∉ polled before ++ [.getValue read] := by
    intro h
    obtain h | h := List.mem_append.mp h
    · exact sigint_not_mem_polled before h
    · cases List.mem_singleton.mp h
  have hmem : Effect.sigint ∈ polled before ++ [.getValue read] ++ .sigint :: ending :=
    List.mem_append_right _ List.mem_cons_self
  rw [heffects, hsplit]
  constructor
  · exact ⟨fun _ => ⟨before ++ [read], List.prefix_append _ after, hfire⟩, fun _ => hmem⟩
  · intro b a heq
    obtain ⟨rfl, -, rfl⟩ := (List.append_cons_inj_of_notMem hsilent hsigint).mp heq
    refine ⟨⟨read, List.suffix_append _ _⟩, ?_, ?_, hreads, hsigint⟩
    · rwa [hseen]
    · rw [hseen]
      exact hfirst
  · have hnone : readsOf (.sigint :: ending) = [] := hreads
    rw [readsOf_append, hseen, hnone, List.append_nil]
    exact List.prefix_append _ after
  · exact fun h => (h hmem).elim

/-- The monitor sends SIGINT exactly when it must. -/
theorem monitor_fires (activeLow : Bool) (reads : List GpioRead) :
    FiresInTime activeLow reads (monitor true activeLow reads) ∧
      monitor false activeLow reads = [] := by
  have hmonitor : monitor true activeLow reads = monitorLoop activeLow 0 reads := rfl
  refine ⟨?_, rfl⟩
  rw [hmonitor]
  obtain ⟨hquiet, heq⟩ | ⟨before, read, after, ending, rfl, hquiet, hfire, hreads, hsigint, heq⟩ :=
    monitorLoop_cases activeLow reads trailing_nil
  · rw [heq]
    exact firesInTime_quiet hquiet
  · rw [heq]
    exact firesInTime_fire hquiet hfire hreads hsigint

/-- A level in between starts the count again. -/
example : monitor true true [.exception, .exception, .active, .exception, .inactive, .active] =
    polled [.exception, .exception, .active, .exception] ++
      [.getValue .inactive, .sigint, .grace, .hardExit] := by decide

end

end EStop
end MesCore
