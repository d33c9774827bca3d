import Mathlib.Logic.Function.Basic
import MesCore.Runs

namespace MesCore
set_option autoImplicit true

/-- Where a thread stands in `dut_manifest`, or (the last three) in `_clear_manifest_cache`. -/
inductive ManifestPlace (M : Type)
  | idle
  | reading
  | wanting
  | checking
  | asking
  | harvesting
  | publishing
  | returning
  | leaving (r : Option M)
  | failing
  | clearWanting
  | clearing
  | clearLeaving
  deriving DecidableEq

/-- Under the `with _manifest_lock`. -/
def ManifestPlace.holds : ManifestPlace M → Bool
  | .idle | .reading | .wanting | .clearWanting => false
  | _ => true

/-- The module's variables and the manifest of the telemetry context. The last three are no
variables of the program: what the harvests returned, how often the cache was cleared, what the
calls returned. -/
structure ManifestVars (T M : Type) where
  lock : Option T := none
  cache : Option M := none
  context : Option M := none
  harvests : List M := []
  clears : Nat := 0
  returned : List (Option M) := []

/-- `up` is what `is_connected` says, `result` what `harvest` returns. One that raises (`none`)
leaves the cache empty, so that the next call scrapes the board again. -/
inductive ManifestMove (M : Type)
  | call
  | clear
  | advance
  | connected (up : Bool)
  | harvested (result : Option M)

/-- The fixture on a station: the manifest of a board that is off, and whether there is a
telemetry sink with a context. -/
structure ManifestFixture (M : Type) where
  blank : M
  sink : Bool

structure ManifestThreads (T M : Type) where
  vars : ManifestVars T M := {}
  place : T → ManifestPlace M := fun _ => .idle

section
variable [DecidableEq T] (f : ManifestFixture M)

def manifestMove (t : T) (x : ManifestVars T M) :
    ManifestPlace M → ManifestMove M → Option (ManifestVars T M × ManifestPlace M)
  | .idle, .call => some (x, if x.cache.isSome then .reading else .wanting)
  | .reading, .advance => some ({ x with returned := x.returned ++ [x.cache] }, .idle)
  | .wanting, .advance =>
    if x.lock = none then some ({ x with lock := some t }, .checking) else none
  | .checking, .advance => some (x, if x.cache.isSome then .returning else .asking)
  | .asking, .connected up => some (x, if up then .harvesting else .leaving (some f.blank))
  | .harvesting, .harvested (some m) =>
    some ({ x with cache := some m, harvests := x.harvests ++ [m] },
      if f.sink then .publishing else .returning)
  | .harvesting, .harvested none => some (x, .failing)
  | .publishing, .advance => some ({ x with context := x.cache }, .returning)
  | .returning, .advance => some (x, .leaving x.cache)
  | .leaving r, .advance =>
    some ({ x with lock := none, returned := x.returned ++ [r] }, .idle)
  | .failing, .advance => some ({ x with lock := none }, .idle)
  | .idle, .clear => some (x, .clearWanting)
  | .clearWanting, .advance =>
    if x.lock = none then some ({ x with lock := some t }, .clearing) else none
  | .clearing, .advance => some ({ x with cache := none, clears := x.clears + 1 }, .clearLeaving)
  | .clearLeaving, .advance => some ({ x with lock := none }, .idle)
  | _, _ => none

def manifestStep (s : ManifestThreads T M) (a : T × ManifestMove M) :
    Option (ManifestThreads T M) :=
  (manifestMove f a.1 s.vars (s.place a.1) a.2).map fun r =>
    ⟨r.1, Function.update s.place a.1 r.2⟩

end

/-- The steps of a thread, one constructor for each way on. -/
inductive ManifestMoved (f : ManifestFixture M) (t : T) (x : ManifestVars T M) :
    ManifestPlace M → ManifestVars T M → ManifestPlace M → Prop
  | hits : x.cache ≠ none → ManifestMoved f t x .idle x .reading
  | misses : ManifestMoved f t x .idle x .wanting
  | rereads : ManifestMoved f t x .reading { x with returned := x.returned ++ [x.cache] } .idle
  | acquires : x.lock = none → ManifestMoved f t x .wanting { x with lock := some t } .checking
  | finds : x.cache ≠ none → ManifestMoved f t x .checking x .returning
  | lacks : x.cache = none → ManifestMoved f t x .checking x .asking
  | up : ManifestMoved f t x .asking x .harvesting
  | down : ManifestMoved f t x .asking x (.leaving (some f.blank))
  | harvests (m : M) : ManifestMoved f t x .harvesting
      { x with cache := some m, harvests := x.harvests ++ [m] }
      (if f.sink then .publishing else .returning)
  | raises : ManifestMoved f t x .harvesting x .failing
  | publishes : ManifestMoved f t x .publishing { x with context := x.cache } .returning
  | returns : ManifestMoved f t x .returning x (.leaving x.cache)
  | leaves : ManifestMoved f t x (.leaving r)
      { x with lock := none, returned := x.returned ++ [r] } .idle
  | fails : ManifestMoved f t x .failing { x with lock := none } .idle
  | wantsClear : ManifestMoved f t x .idle x .clearWanting
  | acquiresClear : x.lock = none →
      ManifestMoved f t x .clearWanting { x with lock := some t } .clearing
  | clears : ManifestMoved f t x .clearing { x with cache := none, clears := x.clears + 1 }
      .clearLeaving
  | clearLeaves : ManifestMoved f t x .clearLeaving { x with lock := none } .idle

theorem manifestMove_moved {f : ManifestFixture M} {t : T} {x x' : ManifestVars T M}
    {p p' : ManifestPlace M} {m : ManifestMove M} (h : manifestMove f t x p m = some (x', p')) :
    ManifestMoved f t x p x' p' := by
  unfold manifestMove at h
  split at h
  · cases hc : x.cache <;> rw [hc] at h <;> cases h
    · exact .misses
    · exact .hits (by rw [hc]; exact Option.some_ne_none _)
  · cases h
    exact .rereads
  · split at h <;> cases h
    exact .acquires ‹_›
  · cases hc : x.cache <;> rw [hc] at h <;> cases h
    · exact .lacks hc
    · exact .finds (by rw [hc]; exact Option.some_ne_none _)
  · rename_i up
    cases up <;> cases h
    · exact .down
    · exact .up
  · cases h
    exact .harvests _
  · cases h
    exact .raises
  · cases h
    exact .publishes
  · cases h
    exact .returns
  · cases h
    exact .leaves
  · cases h
    exact .fails
  · cases h
    exact .wantsClear
  · split at h <;> cases h
    exact .acquiresClear ‹_›
  · cases h
    exact .clears
  · cases h
    exact .clearLeaves
  · cases h

section
variable (f : ManifestFixture M) (x : ManifestVars T M)

/-- What a call may return: a manifest from the board, the blank one, or (after the cache was
cleared between its two looks at it) nothing. -/
def ManifestVars.MayReturn (r : Option M) : Prop :=
  r = some f.blank ∨ (∃ m ∈ x.harvests, r = some m) ∨ r = none ∧ 0 < x.clears

def ManifestVars.Published : Prop := f.sink = true → x.cache ≠ none → x.context = x.cache

/-- What a thread knows of the cache at its place. -/
def ManifestVars.Known : ManifestPlace M → Prop
  | .reading => x.cache ≠ none ∨ 0 < x.clears
  | .asking | .harvesting => x.cache = none
  | .publishing | .returning => x.cache ≠ none
  | .leaving r => x.MayReturn f r
  | _ => True

structure ManifestVars.Fits (t : T) (p : ManifestPlace M) : Prop where
  owner : p.holds = true ↔ x.lock = some t
  known : x.Known f p
  published : p.holds = true → p ≠ .publishing → x.Published f

/-- One harvest at most returns for every time the cache was empty. -/
structure ManifestVars.Orderly : Prop where
  cached : ∀ m, x.cache = some m → m ∈ x.harvests
  count : x.harvests.length ≤ x.clears + if x.cache = none then 0 else 1
  returns : ∀ r ∈ x.returned, x.MayReturn f r
  published : x.lock = none → x.Published f

end

section
variable {f : ManifestFixture M} {x x' : ManifestVars T M} {t u : T} {p p' : ManifestPlace M}

theorem ManifestVars.MayReturn.mono {r : Option M} (h : x.MayReturn f r)
    (hharvests : x.harvests ⊆ x'.harvests) (hclears : x.clears ≤ x'.clears) : x'.MayReturn f r := by
  rcases h with h | ⟨m, hm, h⟩ | ⟨h, hpos⟩
  · exact .inl h
  · exact .inr (.inl ⟨m, hharvests hm, h⟩)
  · exact .inr (.inr ⟨h, Nat.lt_of_lt_of_le hpos hclears⟩)

theorem ManifestVars.Orderly.mayReturn (h : x.Orderly f) (hcache : x.cache ≠ none ∨ 0 < x.clears) :
    x.MayReturn f x.cache := by
  cases hc : x.cache with
  | some m => exact .inr (.inl ⟨m, h.cached m hc, rfl⟩)
  | none => exact .inr (.inr ⟨rfl, hcache.resolve_left fun hne => hne hc⟩)

/-- A thread without the lock is not touched by what the owner of the lock does. -/
theorem ManifestVars.Fits.frame (h : x.Fits f u p) (hp : p.holds = false)
    (hlock : x'.lock ≠ some u) (hclears : x.clears ≤ x'.clears)
    (hcache : x.cache ≠ none → x'.cache ≠ none ∨ 0 < x'.clears) : x'.Fits f u p := by
  refine ⟨?_, ?_, fun hholds => ?_⟩
  · rw [hp]
    exact iff_of_false Bool.noConfusion hlock
  · have hknown := h.known
    cases p <;> first | trivial | cases hp
    rcases hknown with hknown | hpos
    · exact hcache hknown
    · exact .inr (Nat.lt_of_lt_of_le hpos hclears)
  · rw [hp] at hholds
    cases hholds

theorem ManifestVars.Fits.idle_of_owner (h : x.Fits f u p) (ht : x.lock = some t) (hu : u ≠ t) :
    p.holds = false := by
  rw [Bool.eq_false_iff]
  intro hholds
  rw [h.owner.1 hholds] at ht
  exact hu (Option.some.inj ht)

theorem ManifestVars.Fits.idle_of_free (h : x.Fits f u p) (hfree : x.lock = none) :
    p.holds = false := by
  rw [Bool.eq_false_iff]
  intro hholds
  rw [h.owner.1 hholds] at hfree
  cases hfree

theorem ManifestMoved.others (h : ManifestMoved f t x p x' p') (ht : x.Fits f t p) (hu : u ≠ t)
    {q : ManifestPlace M} (hfit : x.Fits f u q) : x'.Fits f u q := by
  have hne : (some t : Option T) ≠ some u := fun h => hu (Option.some.inj h).symm
  have hown (hp : p.holds = true) : x.lock = some t ∧ q.holds = false :=
    ⟨ht.owner.1 hp, hfit.idle_of_owner (ht.owner.1 hp) hu⟩
  cases h with
  | hits | misses | finds | lacks | up | down | raises | returns | wantsClear => exact hfit
  | rereads => exact ⟨hfit.owner, hfit.known, hfit.published⟩
  | acquires hfree | acquiresClear hfree =>
    exact hfit.frame (hfit.idle_of_free hfree) hne (Nat.le_refl _) fun hc => .inl hc
  | harvests m =>
    obtain ⟨hlock, hq⟩ := hown rfl
    refine hfit.frame hq ?_ (Nat.le_refl _) fun _ => .inl (Option.some_ne_none m)
    rw [hlock]
    exact hne
  | publishes =>
    obtain ⟨hlock, hq⟩ := hown rfl
    refine hfit.frame hq ?_ (Nat.le_refl _) fun hc => .inl hc
    rw [hlock]
    exact hne
  | leaves | fails | clearLeaves =>
    exact hfit.frame (hown rfl).2 (Option.some_ne_none u).symm (Nat.le_refl _) fun hc => .inl hc
  | clears =>
    obtain ⟨hlock, hq⟩ := hown rfl
    refine hfit.frame hq ?_ (Nat.le_succ _) fun _ => .inr (Nat.succ_pos _)
    rw [hlock]
    exact hne

theorem ManifestMoved.own (h : ManifestMoved f t x p x' p') (ht : x.Fits f t p)
    (hx : x.Orderly f) : x'.Fits f t p' := by
  have howns (hp : p.holds = true) : x.lock = some t := ht.owner.1 hp
  have hfree (hp : p.holds = false) : x.lock ≠ some t := by
    intro hlock
    rw [ht.owner.2 hlock] at hp
    cases hp
  cases h with
  | hits hc => exact ⟨iff_of_false Bool.noConfusion (hfree rfl), .inl hc, fun h => by cases h⟩
  | misses | rereads | wantsClear =>
    exact ⟨iff_of_false Bool.noConfusion (hfree rfl), trivial, fun h => by cases h⟩
  | acquires hlock | acquiresClear hlock =>
    exact ⟨iff_of_true rfl rfl, trivial, fun _ _ => hx.published hlock⟩
  | finds hc | lacks hc =>
    exact ⟨iff_of_true rfl (howns rfl), hc, fun _ _ => ht.published rfl (by simp)⟩
  | up => exact ⟨iff_of_true rfl (howns rfl), ht.known, fun _ _ => ht.published rfl (by simp)⟩
  | down =>
    exact ⟨iff_of_true rfl (howns rfl), .inl rfl, fun _ _ => ht.published rfl (by simp)⟩
  | raises => exact ⟨iff_of_true rfl (howns rfl), trivial, fun _ _ => ht.published rfl (by simp)⟩
  | harvests m =>
    cases hs : f.sink with
    | true => exact ⟨iff_of_true rfl (howns rfl), Option.some_ne_none m, fun _ h => absurd rfl h⟩
    | false =>
      refine ⟨iff_of_true rfl (howns rfl), Option.some_ne_none m, fun _ _ hsink => ?_⟩
      rw [hs] at hsink
      cases hsink
  | publishes => exact ⟨iff_of_true rfl (howns rfl), ht.known, fun _ _ _ _ => rfl⟩
  | returns =>
    exact ⟨iff_of_true rfl (howns rfl), hx.mayReturn (.inl ht.known),
      fun _ _ => ht.published rfl (by simp)⟩
  | leaves | fails | clearLeaves =>
    exact ⟨iff_of_false Bool.noConfusion (Option.some_ne_none t).symm, trivial,
      fun h => by cases h⟩
  | clears => exact ⟨iff_of_true rfl (howns rfl), trivial, fun _ _ _ hc => absurd rfl hc⟩

theorem ManifestVars.Orderly.concat (h : x.Orderly f) {r : Option M} (hr : x.MayReturn f r) :
    ∀ r' ∈ x.returned ++ [r], x.MayReturn f r' := by
  intro r' hmem
  rcases List.mem_append.1 hmem with hmem | hmem
  · exact h.returns r' hmem
  · rw [List.mem_singleton.1 hmem]
    exact hr

theorem ManifestMoved.orderly (h : ManifestMoved f t x p x' p') (ht : x.Fits f t p)
    (hx : x.Orderly f) : x'.Orderly f := by
  cases h with
  | hits | misses | finds | lacks | up | down | raises | returns | wantsClear => exact hx
  | rereads => exact ⟨hx.cached, hx.count, hx.concat (hx.mayReturn ht.known), hx.published⟩
  | acquires | acquiresClear =>
    exact ⟨hx.cached, hx.count, hx.returns, fun h => absurd h (Option.some_ne_none t)⟩
  | harvests m =>
    have hempty : x.cache = none := ht.known
    have hcount := hx.count
    rw [if_pos hempty] at hcount
    refine ⟨?_, ?_, ?_, ?_⟩
    · rintro m' ⟨⟩
      exact List.mem_append_right _ (List.mem_singleton.2 rfl)
    · rw [List.length_append, if_neg (Option.some_ne_none m)]
      exact Nat.succ_le_succ hcount
    · exact fun r hr => (hx.returns r hr).mono (List.subset_append_left _ _) (Nat.le_refl _)
    · intro hlock
      rw [ht.owner.1 rfl] at hlock
      cases hlock
  | publishes => exact ⟨hx.cached, hx.count, hx.returns, fun _ _ _ => rfl⟩
  | leaves =>
    exact ⟨hx.cached, hx.count, hx.concat ht.known, fun _ => ht.published rfl (by simp)⟩
  | fails | clearLeaves =>
    exact ⟨hx.cached, hx.count, hx.returns, fun _ => ht.published rfl (by simp)⟩
  | clears =>
    refine ⟨fun m hm => (Option.some_ne_none m hm.symm).elim, ?_, ?_, fun _ _ hc => absurd rfl hc⟩
    · have hcount := hx.count
      rw [if_pos rfl]
      split at hcount
      · exact Nat.le_succ_of_le hcount
      · exact hcount
    · exact fun r hr => (hx.returns r hr).mono (fun _ h => h) (Nat.le_succ _)

end

/-- The invariant of the fixture's threads. -/
structure ManifestThreads.Orderly (f : ManifestFixture M) (s : ManifestThreads T M) : Prop where
  vars : s.vars.Orderly f
  fits : ∀ t, s.vars.Fits f t (s.place t)

section
variable [DecidableEq T] {f : ManifestFixture M} {s s' : ManifestThreads T M}

omit [DecidableEq T] in
theorem manifestThreads_start : ({} : ManifestThreads T M).Orderly f := by
  refine ⟨⟨fun m hm => (Option.some_ne_none m hm.symm).elim, Nat.zero_le _,
    fun r hr => (List.not_mem_nil hr).elim, fun _ _ hc => absurd rfl hc⟩,
    fun t => ⟨?_, trivial, fun h => Bool.noConfusion h⟩⟩
  exact iff_of_false Bool.noConfusion (Option.some_ne_none t).symm

theorem ManifestThreads.Orderly.step (h : s.Orderly f) {a : T × ManifestMove M}
    (hstep : manifestStep f s a = some s') : s'.Orderly f := by
  obtain ⟨⟨x', p'⟩, hmove, rfl⟩ := Option.map_eq_some_iff.1 hstep
  have hmoved := manifestMove_moved hmove
  refine ⟨hmoved.orderly (h.fits a.1) h.vars, fun u => ?_⟩
  dsimp only
  by_cases hu : u = a.1
  · rw [hu, Function.update_self]
    exact hmoved.own (h.fits a.1) h.vars
  · rw [Function.update_of_ne hu]
    exact hmoved.others (h.fits a.1) hu (h.fits u)

/-- In every interleaving of the fixture's threads one harvest at most returns for every time the
cache was empty, a call returns a scraped manifest (the blank one from a board that is off,
nothing only if the cache was cleared meanwhile), and outside the lock the telemetry shows the
manifest that is cached. -/
theorem dutManifest_run {as : List (T × ManifestMove M)}
    (hrun : Run (manifestStep f) (fun _ _ => True) {} as s) :
    s.vars.harvests.length ≤ s.vars.clears + 1 ∧
      (∀ r ∈ s.vars.returned, s.vars.MayReturn f r) ∧
      (f.sink = true → s.vars.lock = none → ∀ m, s.vars.cache = some m →
        s.vars.context = some m) := by
  have horderly := hrun.invariant (fun s => s.Orderly f) (fun hi _ hstep => hi.step hstep)
    manifestThreads_start
  refine ⟨?_, horderly.vars.returns, fun hsink hlock m hm => ?_⟩
  · have hcount := horderly.vars.count
    split at hcount
    · exact Nat.le_succ_of_le hcount
    · exact hcount
  · rw [← hm]
    refine horderly.vars.published hlock hsink ?_
    rw [hm]
    exact Option.some_ne_none m

/-- Two threads ask for the manifest at a time, and both get the one of one harvest. -/
def twoManifestCalls : List (Bool × ManifestMove Nat) :=
  [(true, .call), (false, .call), (true, .advance), (true, .advance), (true, .connected true),
    (true, .harvested (some 7)), (true, .advance), (true, .advance), (true, .advance),
    (false, .advance), (false, .advance), (false, .advance), (false, .advance)]

def afterTwoManifestCalls : ManifestThreads Bool Nat :=
  (runFrom (manifestStep ⟨0, true⟩) {} twoManifestCalls).getD {}

theorem dutManifest_run_two_calls :
    afterTwoManifestCalls.vars.harvests.length ≤ afterTwoManifestCalls.vars.clears + 1 ∧
      (∀ r ∈ afterTwoManifestCalls.vars.returned,
        afterTwoManifestCalls.vars.MayReturn ⟨0, true⟩ r) ∧
      (true = true → afterTwoManifestCalls.vars.lock = none →
        ∀ m, afterTwoManifestCalls.vars.cache = some m →
          afterTwoManifestCalls.vars.context = some m) :=
  dutManifest_run (f := ⟨0, true⟩) (Run.of_runFrom (runFrom_getD (by decide +kernel :
    (runFrom (manifestStep ⟨0, true⟩) ({} : ManifestThreads Bool Nat) twoManifestCalls).isSome =
      true)) fun _ _ _ => trivial)

end

end MesCore
