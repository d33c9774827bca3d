import MesCore.FileLocks
import MesCore.Runs

namespace MesCore
set_option autoImplicit true

/-- What is done under a `with` statement: a step of it, on the resource it works with, goes on
or (`none`) is the last one. -/
structure Body (B S A : Type) where
  start : B
  step : A → B → S → Option (Option B × S)

/-- The workers of one host, the resource each of them needs and the name it locks it under. -/
structure MutexUsers (W R : Type) where
  resource : W → R
  resourceName : W → String
  timeoutMs : W → Nat
  hasFcntl : Bool
  /-- Whether the lock file can be opened for appending. -/
  canOpen : String → Bool

def lockFile (resourceName : String) : String := s!"/tmp/mes_hw_{resourceName}.lock"

def MutexUsers.file (users : MutexUsers W R) (w : W) : String := lockFile (users.resourceName w)

/-- Where a worker stands in `hardware_mutex`. -/
inductive MutexPlace (B : Type)
  | outside
  | waiting (t0 : Nat)
  | asleep (t0 wake : Nat)
  | inside (b : B)
  | leaving
  | closing (timedOut : Bool)

def MutexPlace.holds : MutexPlace B → Bool
  | .inside _ | .leaving => true
  | _ => false

/-- Under the `with open(lock_file)`. -/
def MutexPlace.opened : MutexPlace B → Bool
  | .outside => false
  | _ => true

/-- In the `while True`. -/
def MutexPlace.queued : MutexPlace B → Bool
  | .waiting _ | .asleep _ _ => true
  | _ => false

inductive MutexMove (A : Type)
  | enter
  | attempt
  | wakeUp
  | work (a : A)
  | unlock
  | close
  | interrupt
  /-- A death, or an interrupt between the grant and the body or before the `LOCK_UN`: either way
  the file is closed. -/
  | kill

/-- A worker's part of the host: the lock table, its place and its resource. -/
structure MutexView (W B S : Type) where
  locks : FileLocks W String
  place : MutexPlace B
  shared : S

structure MutexHost (W R B S : Type) where
  locks : FileLocks W String := {}
  place : W → MutexPlace B := fun _ => .outside
  shared : R → S
  nowMs : Nat := 0

inductive MutexAct (W A : Type)
  | tick (ms : Nat)
  | move (w : W) (m : MutexMove A)

section
variable [DecidableEq W] (users : MutexUsers W R) (body : W → Body B S A)

/-- One step of `hardware_mutex` and of what is done under it. -/
def mutexMove (w : W) (now : Nat) (v : MutexView W B S) :
    MutexMove A → Option (MutexView W B S)
  | .enter =>
    match v.place with
    | .outside =>
      if users.hasFcntl then
        if users.canOpen (users.file w) then
          some { v with locks := v.locks.openFile w (users.file w), place := .waiting now }
        else some v
      else some { v with place := .inside (body w).start }
    | _ => none
  | .attempt =>
    match v.place with
    | .waiting t0 =>
      match v.locks.tryLock w with
      | some locks => some { v with locks := locks, place := .inside (body w).start }
      | none =>
        if users.timeoutMs w < now - t0 then some { v with place := .closing true }
        else some { v with place := .asleep t0 (now + 200) }
    | _ => none
  | .wakeUp =>
    match v.place with
    | .asleep t0 wake => if wake ≤ now then some { v with place := .waiting t0 } else none
    | _ => none
  | .work a =>
    match v.place with
    | .inside b =>
      match (body w).step a b v.shared with
      | some (some b', x) => some { v with place := .inside b', shared := x }
      | some (none, x) =>
        some { v with place := if users.hasFcntl then .leaving else .outside, shared := x }
      | none => none
    | _ => none
  | .unlock =>
    match v.place with
    | .leaving => some { v with locks := v.locks.unlock w, place := .closing false }
    | _ => none
  | .close =>
    match v.place with
    | .closing _ => some { v with locks := v.locks.close w, place := .outside }
    | _ => none
  | .interrupt =>
    match v.place with
    | .waiting _ | .asleep _ _ => some { v with place := .closing false }
    | _ => none
  | .kill => some { v with locks := v.locks.close w, place := .outside }

def MutexHost.view (s : MutexHost W R B S) (w : W) : MutexView W B S where
  locks := s.locks
  place := s.place w
  shared := s.shared (users.resource w)

variable [DecidableEq R]

def MutexHost.put (s : MutexHost W R B S) (w : W) (v : MutexView W B S) : MutexHost W R B S :=
  { s with
    locks := v.locks
    place := Function.update s.place w v.place
    shared := Function.update s.shared (users.resource w) v.shared }

def mutexStep (s : MutexHost W R B S) : MutexAct W A → Option (MutexHost W R B S)
  | .tick ms => some { s with nowMs := s.nowMs + ms }
  | .move w m => (mutexMove users body w s.nowMs (s.view users w) m).map (s.put users w)

/-- A run of any number of workers, in any order of their steps. -/
abbrev MutexRun (allowed : MutexHost W R B S → MutexAct W A → Prop) :
    MutexHost W R B S → List (MutexAct W A) → MutexHost W R B S → Prop :=
  Run (mutexStep users body) allowed

end

/-- The moves of a worker, one constructor for each outcome. -/
inductive MutexMoved [DecidableEq W] (users : MutexUsers W R) (body : W → Body B S A) (w : W)
    (now : Nat) (k : FileLocks W String) : MutexMove A → MutexPlace B → S →
    FileLocks W String → MutexPlace B → S → Prop
  | opens : users.hasFcntl = true → users.canOpen (users.file w) = true →
      MutexMoved users body w now k .enter .outside x
        (k.openFile w (users.file w)) (.waiting now) x
  | refused : users.hasFcntl = true → users.canOpen (users.file w) = false →
      MutexMoved users body w now k .enter .outside x k .outside x
  | bypasses : users.hasFcntl = false →
      MutexMoved users body w now k .enter .outside x k (.inside (body w).start) x
  | granted : k.tryLock w = some k' →
      MutexMoved users body w now k .attempt (.waiting t0) x k' (.inside (body w).start) x
  | expires : k.tryLock w = none → users.timeoutMs w < now - t0 →
      MutexMoved users body w now k .attempt (.waiting t0) x k (.closing true) x
  | dozes : k.tryLock w = none → now - t0 ≤ users.timeoutMs w →
      MutexMoved users body w now k .attempt (.waiting t0) x k (.asleep t0 (now + 200)) x
  | wakes : wake ≤ now →
      MutexMoved users body w now k .wakeUp (.asleep t0 wake) x k (.waiting t0) x
  | works : (body w).step a b x = some (some b', x') →
      MutexMoved users body w now k (.work a) (.inside b) x k (.inside b') x'
  | ends : (body w).step a b x = some (none, x') → users.hasFcntl = true →
      MutexMoved users body w now k (.work a) (.inside b) x k .leaving x'
  | endsBypassed : (body w).step a b x = some (none, x') → users.hasFcntl = false →
      MutexMoved users body w now k (.work a) (.inside b) x k .outside x'
  | unlocks : MutexMoved users body w now k .unlock .leaving x (k.unlock w) (.closing false) x
  | closes : MutexMoved users body w now k .close (.closing t) x (k.close w) .outside x
  | gives : p.queued = true → MutexMoved users body w now k .interrupt p x k (.closing false) x
  | dies : MutexMoved users body w now k .kill p x (k.close w) .outside x

section
variable [DecidableEq W] {users : MutexUsers W R} {body : W → Body B S A} {w : W} {now : Nat}
  {k : FileLocks W String} {m : MutexMove A} {p : MutexPlace B} {x : S} {v' : MutexView W B S}

theorem mutexMove_moved (h : mutexMove users body w now ⟨k, p, x⟩ m = some v') :
    MutexMoved users body w now k m p x v'.locks v'.place v'.shared := by
  cases m with
  | enter =>
    cases p <;> simp only [mutexMove, reduceCtorEq] at h
    split at h
    · split at h
      · cases h
        exact .opens ‹_› ‹_›
      · cases h
        exact .refused ‹_› (Bool.eq_false_iff.2 ‹_›)
    · cases h
      exact .bypasses (Bool.eq_false_iff.2 ‹_›)
  | attempt =>
    cases p <;> simp only [mutexMove, reduceCtorEq] at h
    split at h
    · cases h
      exact .granted ‹_›
    · split at h
      · cases h
        exact .expires ‹_› ‹_›
      · cases h
        exact .dozes ‹_› (Nat.le_of_not_lt ‹_›)
  | wakeUp =>
    cases p <;> simp only [mutexMove, reduceCtorEq] at h
    split at h
    · cases h
      exact .wakes ‹_›
    · cases h
  | work a =>
    cases p <;> simp only [mutexMove, reduceCtorEq] at h
    split at h
    · cases h
      exact .works ‹_›
    · cases h
      cases hf : users.hasFcntl with
      | true => exact .ends ‹_› hf
      | false => exact .endsBypassed ‹_› hf
    · cases h
  | unlock =>
    cases p <;> simp only [mutexMove, reduceCtorEq] at h
    cases h
    exact .unlocks
  | close =>
    cases p <;> simp only [mutexMove, reduceCtorEq] at h
    cases h
    exact .closes
  | interrupt =>
    cases p <;> simp only [mutexMove, reduceCtorEq] at h
    all_goals
      cases h
      exact .gives rfl
  | kill =>
    cases h
    exact .dies

end

/-- What the lock table says of one worker. -/
structure MutexUsers.Fits (users : MutexUsers W R) (k : FileLocks W String) (w : W)
    (p : MutexPlace B) : Prop where
  opened : k.opened w = if users.hasFcntl && p.opened then some (users.file w) else none
  holder : users.hasFcntl = true → (k.holder (users.file w) = some w ↔ p.holds = true)

structure MutexHost.Orderly (users : MutexUsers W R) (s : MutexHost W R B S) : Prop where
  sound : s.locks.Sound
  fits : ∀ w, users.Fits s.locks w (s.place w)

section
variable {users : MutexUsers W R} {w : W} {k k' : FileLocks W String} {p p' : MutexPlace B}

theorem MutexUsers.Fits.held_file (h : users.Fits k w p) (hk : k.Sound) (hw : k.holder n = some w) :
    n = users.file w ∧ users.hasFcntl = true ∧ p.opened = true := by
  have hopened := h.opened
  rw [hk n w hw] at hopened
  split at hopened
  · rename_i hc
    rw [Bool.and_eq_true] at hc
    cases hopened
    exact ⟨rfl, hc⟩
  · cases hopened

theorem MutexUsers.Fits.congr (h : users.Fits k w p) (hopened : k'.opened w = k.opened w)
    (hholder : k'.holder (users.file w) = some w ↔ k.holder (users.file w) = some w) :
    users.Fits k' w p := by
  refine ⟨?_, fun hf => ?_⟩
  · rw [hopened]
    exact h.opened
  · rw [hholder]
    exact h.holder hf

theorem MutexUsers.Fits.goto (h : users.Fits k w p) (hopened : p'.opened = p.opened)
    (hholds : p'.holds = p.holds) : users.Fits k w p' := by
  refine ⟨?_, fun hf => ?_⟩
  · rw [hopened]
    exact h.opened
  · rw [hholds]
    exact h.holder hf

/-- A worker that tries the lock has its file open, or there is nothing to grant. -/
theorem MutexUsers.Fits.file_or_none (h : users.Fits k w p) (hp : p.opened = true) :
    k.opened w = some (users.file w) ∨ k.opened w = none := by
  rw [h.opened, hp, Bool.and_true]
  cases users.hasFcntl with
  | true => exact .inl rfl
  | false => exact .inr rfl

variable [DecidableEq W]

theorem MutexUsers.Fits.file_of_granted (h : users.Fits k w p) (hp : p.opened = true)
    (hgrant : k.tryLock w = some k') : k.opened w = some (users.file w) := by
  refine (h.file_or_none hp).resolve_right fun hnone => ?_
  rw [FileLocks.tryLock, hnone] at hgrant
  cases hgrant

theorem MutexUsers.fits_closed (k : FileLocks W String) (w : W) :
    users.Fits (k.close w) w (.outside : MutexPlace B) := by
  refine ⟨?_, fun _ => ?_⟩
  · rw [FileLocks.opened_close, if_pos rfl]
    simp [MutexPlace.opened]
  · rw [FileLocks.holder_close]
    simp [MutexPlace.holds]

end

section
variable [DecidableEq W] {users : MutexUsers W R} {body : W → Body B S A} {w u : W} {now : Nat}
  {k k' : FileLocks W String} {m : MutexMove A} {p p' : MutexPlace B} {x x' : S}

theorem MutexMoved.others (h : MutexMoved users body w now k m p x k' p' x')
    (hfit : users.Fits k w p) (hu : u ≠ w) (n : String) :
    k'.opened u = k.opened u ∧ (k'.holder n = some u ↔ k.holder n = some u) := by
  cases h with
  | opens => exact ⟨by rw [FileLocks.opened_openFile, if_neg hu], Iff.rfl⟩
  | granted hgrant =>
    obtain ⟨hfree, rfl⟩ := (FileLocks.tryLock_eq_some (hfit.file_of_granted rfl hgrant)).1 hgrant
    refine ⟨rfl, ?_⟩
    dsimp only
    rw [Function.update_apply]
    split
    · rename_i hn
      rw [hn]
      constructor
      · intro hw
        exact absurd (Option.some.inj hw).symm hu
      · exact fun hw => absurd (hfree u hw) hu
    · rfl
  | unlocks => exact ⟨rfl, by rw [FileLocks.holder_unlock]; exact and_iff_left hu.symm.symm⟩
  | closes | dies =>
    refine ⟨by rw [FileLocks.opened_close, if_neg hu], ?_⟩
    rw [FileLocks.holder_close]
    exact and_iff_left hu
  | refused | bypasses | expires | dozes | wakes | works | ends | endsBypassed | gives =>
    exact ⟨rfl, Iff.rfl⟩

theorem MutexMoved.sound (h : MutexMoved users body w now k m p x k' p' x')
    (hfit : users.Fits k w p) (hk : k.Sound) : k'.Sound := by
  cases h with
  | opens =>
    have hclosed : k.opened w = none := by
      rw [hfit.opened]
      simp [MutexPlace.opened]
    exact hk.openFile hclosed _
  | granted hgrant =>
    have hfile := hfit.file_of_granted rfl hgrant
    obtain ⟨-, rfl⟩ := (FileLocks.tryLock_eq_some hfile).1 hgrant
    exact hk.grant hfile
  | unlocks => exact hk.unlock w
  | closes | dies => exact hk.close w
  | refused | bypasses | expires | dozes | wakes | works | ends | endsBypassed | gives => exact hk

theorem MutexMoved.fits (h : MutexMoved users body w now k m p x k' p' x')
    (hfit : users.Fits k w p) : users.Fits k' w p' := by
  cases h with
  | opens hf =>
    refine ⟨?_, fun _ => ?_⟩
    · rw [FileLocks.opened_openFile, if_pos rfl, hf]
      rfl
    · exact hfit.holder hf
  | bypasses hf =>
    have hclosed := hfit.opened
    rw [hf] at hclosed
    refine ⟨?_, fun hf' => ?_⟩
    · rw [hclosed, hf]
      rfl
    · rw [hf] at hf'
      cases hf'
  | granted hgrant =>
    have hfile := hfit.file_of_granted rfl hgrant
    obtain ⟨-, rfl⟩ := (FileLocks.tryLock_eq_some hfile).1 hgrant
    refine ⟨hfit.opened, fun _ => ?_⟩
    dsimp only
    rw [Function.update_apply, if_pos rfl]
    exact iff_of_true rfl rfl
  | endsBypassed hstep hf =>
    have hopened := hfit.opened
    rw [hf] at hopened
    refine ⟨?_, fun hf' => ?_⟩
    · rw [hopened, hf]
      rfl
    · rw [hf] at hf'
      cases hf'
  | unlocks =>
    refine ⟨hfit.opened, fun _ => ?_⟩
    rw [FileLocks.holder_unlock]
    simp [MutexPlace.holds]
  | closes | dies => exact users.fits_closed k w
  | gives hq =>
    cases p <;> cases hq <;> exact hfit.goto rfl rfl
  | refused | expires | dozes | wakes | works | ends => exact hfit.goto rfl rfl

variable [DecidableEq R] {s s' : MutexHost W R B S}

/-- What a step does: time passes, or one worker moves and its own resource with it. -/
theorem mutexStep_cases {act : MutexAct W A} (h : mutexStep users body s act = some s') :
    (∃ ms, act = .tick ms ∧ s' = { s with nowMs := s.nowMs + ms }) ∨
      ∃ w m v, act = .move w m ∧ s' = s.put users w v ∧ MutexMoved users body w s.nowMs s.locks m
        (s.place w) (s.shared (users.resource w)) v.locks v.place v.shared := by
  cases act with
  | tick ms =>
    cases h
    exact .inl ⟨ms, rfl, rfl⟩
  | move w m =>
    obtain ⟨v, hv, rfl⟩ := Option.map_eq_some_iff.1 h
    exact .inr ⟨w, m, v, rfl, rfl, mutexMove_moved hv⟩

theorem MutexHost.Orderly.step (h : s.Orderly users) {act : MutexAct W A}
    (hstep : mutexStep users body s act = some s') : s'.Orderly users := by
  obtain ⟨ms, -, rfl⟩ | ⟨w, m, v, -, rfl, hmoved⟩ := mutexStep_cases hstep
  · exact ⟨h.sound, h.fits⟩
  · refine ⟨hmoved.sound (h.fits w) h.sound, fun u => ?_⟩
    rw [MutexHost.put]
    dsimp only
    by_cases hu : u = w
    · subst hu
      rw [Function.update_self]
      exact hmoved.fits (h.fits u)
    · rw [Function.update_of_ne hu]
      obtain ⟨hopened, hholder⟩ := hmoved.others (h.fits w) hu (users.file u)
      exact (h.fits u).congr hopened hholder

def MutexUsers.canEnter (users : MutexUsers W R) (w : W) : Bool :=
  !users.hasFcntl || users.canOpen (users.file w)

def MutexHost.Admitted (users : MutexUsers W R) (s : MutexHost W R B S) : Prop :=
  ∀ w, (s.place w).opened = true → users.canEnter w = true

omit [DecidableEq R] in
theorem MutexMoved.admitted (h : MutexMoved users body w now k m p x k' p' x')
    (hp : p.opened = true → users.canEnter w = true) (hp' : p'.opened = true) :
    users.canEnter w = true := by
  cases h with
  | opens hf hopen =>
    rw [MutexUsers.canEnter, hopen, Bool.or_true]
  | bypasses hf =>
    rw [MutexUsers.canEnter, hf]
    rfl
  | refused | closes | dies | endsBypassed => cases hp'
  | gives hq => cases p <;> cases hq <;> exact hp rfl
  | granted | expires | dozes | wakes | works | ends | unlocks => exact hp rfl

theorem MutexHost.Admitted.step (h : s.Admitted users) {act : MutexAct W A}
    (hstep : mutexStep users body s act = some s') : s'.Admitted users := by
  obtain ⟨ms, -, rfl⟩ | ⟨w, m, v, -, rfl, hmoved⟩ := mutexStep_cases hstep
  · exact h
  · intro u
    rw [MutexHost.put]
    dsimp only
    by_cases hu : u = w
    · subst hu
      rw [Function.update_self]
      exact hmoved.admitted (h u)
    · rw [Function.update_of_ne hu]
      exact h u

/-- Workers of one resource lock one file. -/
def MutexUsers.AgreeOnNames (users : MutexUsers W R) : Prop :=
  ∀ w u, w ≠ u → users.resource w = users.resource u → users.canEnter w = true →
    users.canEnter u = true → users.hasFcntl = true ∧ users.file w = users.file u

theorem MutexPlace.opened_of_holds {p : MutexPlace B} (h : p.holds = true) : p.opened = true := by
  cases p <;> first | rfl | cases h

omit [DecidableEq W] [DecidableEq R] in
theorem MutexHost.Orderly.alone_on_file (h : s.Orderly users) (hf : users.hasFcntl = true)
    (hfile : users.file w = users.file u) (hw : (s.place w).holds = true)
    (hu : (s.place u).holds = true) : w = u := by
  have hholder := ((h.fits w).holder hf).2 hw
  rw [hfile, ((h.fits u).holder hf).2 hu] at hholder
  exact (Option.some.inj hholder).symm

omit [DecidableEq W] [DecidableEq R] in
theorem MutexHost.Orderly.alone (h : s.Orderly users) (hadm : s.Admitted users)
    (hnames : users.AgreeOnNames) (hres : users.resource w = users.resource u)
    (hw : (s.place w).holds = true) (hu : (s.place u).holds = true) : w = u := by
  by_contra hne
  obtain ⟨hf, hfile⟩ := hnames w u hne hres (hadm w (MutexPlace.opened_of_holds hw))
    (hadm u (MutexPlace.opened_of_holds hu))
  exact hne (h.alone_on_file hf hfile hw hu)

/-- Nobody is in `hardware_mutex` yet. -/
def mutexStart (x₀ : R → S) : MutexHost W R B S := { shared := x₀ }

omit [DecidableEq W] [DecidableEq R] in
theorem orderly_start (x₀ : R → S) :
    (mutexStart x₀ : MutexHost W R B S).Orderly users ∧
      (mutexStart x₀ : MutexHost W R B S).Admitted users := by
  refine ⟨⟨FileLocks.sound_init, fun w => ⟨?_, fun _ => iff_of_false ?_ ?_⟩⟩, ?_⟩
  · simp [mutexStart, MutexPlace.opened]
  · simp [mutexStart]
  · simp [mutexStart, MutexPlace.holds]
  · intro w hw
    cases hw

theorem MutexRun.orderly {allowed : MutexHost W R B S → MutexAct W A → Prop}
    {as : List (MutexAct W A)} (h : MutexRun users body allowed s as s')
    (hs : s.Orderly users ∧ s.Admitted users) : s'.Orderly users ∧ s'.Admitted users :=
  h.invariant (fun s => s.Orderly users ∧ s.Admitted users)
    (fun hi _ hstep => ⟨hi.1.step hstep, hi.2.step hstep⟩) hs

/-- In every run two workers that work with one resource at a time are the same. -/
def MutexUsers.KeptApart (users : MutexUsers W R) (body : W → Body B S A) (x₀ : R → S) : Prop :=
  ∀ as s, MutexRun users body (fun _ _ => True) (mutexStart x₀) as s → ∀ w u b c,
    s.place w = .inside b → s.place u = .inside c → users.resource w = users.resource u → w = u

variable (users body) in
theorem exists_arrival (hw : s.place w = .outside) (hcan : users.canEnter w = true)
    (hfree : users.hasFcntl = true → s.locks.holder (users.file w) = none) :
    ∃ as s', MutexRun users body (fun _ _ => True) s as s' ∧ s'.place w = .inside (body w).start ∧
      (∀ u, u ≠ w → s'.place u = s.place u) ∧
      ∀ n, n ≠ users.file w → s'.locks.holder n = s.locks.holder n := by
  cases hf : users.hasFcntl with
  | false =>
    have hstep : mutexStep users body s (.move w .enter) =
        some (s.put users w { s.view users w with place := .inside (body w).start }) := by
      rw [mutexStep, mutexMove]
      simp only [MutexHost.view, hw, hf]
      rfl
    refine ⟨_, _, .cons trivial hstep (.nil _), Function.update_self .., fun u hu => ?_,
      fun n _ => rfl⟩
    exact Function.update_of_ne hu ..
  | true =>
    have hopen : users.canOpen (users.file w) = true := by
      rw [MutexUsers.canEnter, hf] at hcan
      exact hcan
    let k := s.locks.openFile w (users.file w)
    let s₁ := s.put users w { s.view users w with locks := k, place := .waiting s.nowMs }
    have hstep₁ : mutexStep users body s (.move w .enter) = some s₁ := by
      rw [mutexStep, mutexMove]
      simp only [MutexHost.view, hw, hf, hopen]
      rfl
    have hopened : k.opened w = some (users.file w) := by
      rw [FileLocks.opened_openFile, if_pos rfl]
    have hgrant := (FileLocks.tryLock_eq_some hopened).2 ⟨fun e he => ?_, rfl⟩
    · let v : MutexView W B S :=
        { s₁.view users w with
          locks := { k with holder := Function.update k.holder (users.file w) (some w) }
          place := .inside (body w).start }
      have hplace : s₁.place w = .waiting s.nowMs := Function.update_self ..
      have hstep₂ : mutexStep users body s₁ (.move w .attempt) = some (s₁.put users w v) := by
        have hgrant' : s₁.locks.tryLock w = _ := hgrant
        rw [mutexStep, mutexMove]
        simp only [MutexHost.view, hplace, hgrant']
        rfl
      refine ⟨_, _, .cons trivial hstep₁ (.cons trivial hstep₂ (.nil _)), Function.update_self ..,
        fun u hu => ?_, fun n hn => Function.update_of_ne hn ..⟩
      exact (Function.update_of_ne hu ..).trans (Function.update_of_ne hu ..)
    · have hnone : k.holder (users.file w) = none := hfree hf
      rw [hnone] at he
      cases he

variable (users body) in
theorem exists_work {a : A} {b b' : B} {x : S} (hw : s.place w = .inside b)
    (hstep : (body w).step a b (s.shared (users.resource w)) = some (some b', x)) :
    ∃ s', mutexStep users body s (.move w (.work a)) = some s' ∧ s'.place w = .inside b' ∧
      (∀ u, u ≠ w → s'.place u = s.place u) ∧ s'.locks = s.locks ∧
      s'.shared (users.resource w) = x := by
  refine ⟨s.put users w ⟨s.locks, .inside b', x⟩, ?_, Function.update_self ..,
    fun u hu => Function.update_of_ne hu .., rfl, Function.update_self ..⟩
  rw [mutexStep, mutexMove]
  simp only [MutexHost.view, hw, hstep]
  rfl

theorem keptApart_of_agreeOnNames (x₀ : R → S) (h : users.AgreeOnNames) :
    users.KeptApart body x₀ := by
  intro as s hrun w u b c hw hu hres
  obtain ⟨horderly, hadm⟩ := hrun.orderly (orderly_start x₀)
  refine horderly.alone hadm h hres ?_ ?_
  · rw [hw]
    rfl
  · rw [hu]
    rfl

/-- Where two workers lock different files, or none, they get to the resource together. -/
theorem agreeOnNames_of_keptApart (x₀ : R → S) (h : users.KeptApart body x₀) :
    users.AgreeOnNames := by
  intro w u hne hres hw hu
  by_contra hnames
  let s₀ : MutexHost W R B S := mutexStart x₀
  obtain ⟨as, s₁, hrun₁, hin₁, hothers₁, hlocks₁⟩ :=
    exists_arrival (s := s₀) users body rfl hw fun _ => rfl
  have hout : s₁.place u = .outside := hothers₁ u hne.symm
  obtain ⟨bs, s₂, hrun₂, hin₂, hothers₂, -⟩ :=
    exists_arrival users body hout hu fun hf => by
      have hfile : users.file u ≠ users.file w := fun h => hnames ⟨hf, h.symm⟩
      rw [hlocks₁ _ hfile]
      rfl
  have hin : s₂.place w = .inside (body w).start := (hothers₂ w hne).trans hin₁
  exact hne (h _ s₂ (hrun₁.append hrun₂) w u _ _ hin hin₂ hres)

theorem lockFile_injective : Function.Injective lockFile := by
  intro n n' h
  have hlist := congrArg String.toList h
  simp only [lockFile, toString, String.toList_append, List.append_assoc,
    List.append_cancel_left_eq, List.append_cancel_right_eq] at hlist
  exact String.toList_injective hlist

/-- Workers stay out of each other's resource exactly if `fcntl` is there and all that share one
lock it under one name. -/
theorem keptApart_iff (x₀ : R → S) :
    users.KeptApart body x₀ ↔
      ∀ w u, w ≠ u → users.resource w = users.resource u → users.canEnter w = true →
        users.canEnter u = true →
        users.hasFcntl = true ∧ users.resourceName w = users.resourceName u := by
  constructor
  · intro h w u hne hres hw hu
    obtain ⟨hf, hfile⟩ := agreeOnNames_of_keptApart x₀ h w u hne hres hw hu
    exact ⟨hf, lockFile_injective hfile⟩
  · intro h
    apply keptApart_of_agreeOnNames
    intro w u hne hres hw hu
    obtain ⟨hf, hname⟩ := h w u hne hres hw hu
    exact ⟨hf, congrArg lockFile hname⟩

/-- Another worker has the lock of that name and has not released it. -/
def MutexHost.Rival (users : MutexUsers W R) (s : MutexHost W R B S) (w : W) : Prop :=
  ∃ u, u ≠ w ∧ users.resourceName u = users.resourceName w ∧ (s.place u).holds = true

omit [DecidableEq R] in
theorem tryLock_none_iff_rival (h : s.Orderly users) (hf : users.hasFcntl = true)
    (hw : s.place w = .waiting t0) : s.locks.tryLock w = none ↔ s.Rival users w := by
  have hopened : s.locks.opened w = some (users.file w) := by
    rw [(h.fits w).opened, hf, hw]
    rfl
  rw [FileLocks.tryLock_eq_none hopened]
  refine exists_congr fun u => ?_
  constructor
  · rintro ⟨hholder, hne⟩
    obtain ⟨hfile, -, -⟩ := (h.fits u).held_file h.sound hholder
    refine ⟨hne, lockFile_injective hfile.symm, ?_⟩
    rw [hfile] at hholder
    exact ((h.fits u).holder hf).1 hholder
  · rintro ⟨hne, hname, hholds⟩
    have hfile : users.file u = users.file w := congrArg lockFile hname
    rw [← hfile]
    exact ⟨((h.fits u).holder hf).2 hholds, hne⟩

/-- However the workers before it went, an attempt is granted unless another worker has the lock;
and only then, once more than its timeout is over, does it raise. -/
theorem attempt_outcome {as : List (MutexAct W A)} {x₀ : R → S}
    (hrun : MutexRun users body (fun _ _ => True) (mutexStart x₀) as s)
    (hf : users.hasFcntl = true) (hw : s.place w = .waiting t0) :
    ∃ s', mutexStep users body s (.move w .attempt) = some s' ∧
      (¬ s.Rival users w ∧ s'.place w = .inside (body w).start ∨
        s.Rival users w ∧ s.nowMs - t0 ≤ users.timeoutMs w ∧
          s'.place w = .asleep t0 (s.nowMs + 200) ∨
        s.Rival users w ∧ users.timeoutMs w < s.nowMs - t0 ∧ s'.place w = .closing true) := by
  have hrival := tryLock_none_iff_rival (hrun.orderly (orderly_start x₀)).1 hf hw
  rw [mutexStep, mutexMove]
  simp only [MutexHost.view, hw]
  cases hlock : s.locks.tryLock w with
  | some k =>
    refine ⟨_, rfl, .inl ⟨fun h => ?_, Function.update_self ..⟩⟩
    rw [hrival.2 h] at hlock
    cases hlock
  | none =>
    dsimp only
    by_cases hlate : users.timeoutMs w < s.nowMs - t0
    · rw [if_pos hlate]
      exact ⟨_, rfl, .inr (.inr ⟨hrival.1 hlock, hlate, Function.update_self ..⟩)⟩
    · rw [if_neg hlate]
      exact ⟨_, rfl, .inr (.inl ⟨hrival.1 hlock, Nat.le_of_not_lt hlate, Function.update_self ..⟩)⟩

end

def probeUsers : MutexUsers Bool Unit where
  resource _ := ()
  resourceName _ := "pickit_BUR1234"
  timeoutMs _ := 60000
  hasFcntl := true
  canOpen _ := true

def shortBody (_ : Bool) : Body Unit Unit Unit where
  start := ()
  step _ _ _ := some (none, ())

/-- One of them has the lock, the other has asked for it a minute ago. -/
def lateWorker : MutexHost Bool Unit Unit Unit :=
  (runFrom (mutexStep probeUsers shortBody) (mutexStart fun _ => ())
    [.move true .enter, .move true .attempt, .move false .enter, .tick 60001]).getD
    (mutexStart fun _ => ())

theorem attempt_outcome_late_worker :
    ∃ s', mutexStep probeUsers shortBody lateWorker (.move false .attempt) = some s' ∧
      (¬ lateWorker.Rival probeUsers false ∧ s'.place false = .inside () ∨
        lateWorker.Rival probeUsers false ∧ lateWorker.nowMs - 0 ≤ 60000 ∧
          s'.place false = .asleep 0 (lateWorker.nowMs + 200) ∨
        lateWorker.Rival probeUsers false ∧ 60000 < lateWorker.nowMs - 0 ∧
          s'.place false = .closing true) := by
  have hrun : MutexRun probeUsers shortBody (fun _ _ => True) (mutexStart fun _ => ())
      [.move true .enter, .move true .attempt, .move false .enter, .tick 60001] lateWorker :=
    Run.of_runFrom (runFrom_getD (d := mutexStart fun _ => ()) (by decide +kernel))
      fun _ _ _ => trivial
  exact attempt_outcome hrun rfl rfl

end MesCore
