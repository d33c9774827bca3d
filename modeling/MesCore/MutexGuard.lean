import MesCore.HardwareMutex

namespace MesCore
set_option autoImplicit true

/-- What a body keeps true of its resource from its first step to its last, if left alone. -/
structure Guard (body : W → Body B S A) where
  Held : W → B → S → Prop
  start : Held w (body w).start x
  works : Held w b x → (body w).step a b x = some (some b', x') → Held w b' x'

def Guard.At {body : W → Body B S A} (g : Guard body) (w : W) : MutexPlace B → S → Prop
  | .inside b, x => g.Held w b x
  | _, _ => True

def Guard.Keeps {body : W → Body B S A} (g : Guard body) (users : MutexUsers W R)
    (s : MutexHost W R B S) : Prop :=
  ∀ w, g.At w (s.place w) (s.shared (users.resource w))

/-- No worker is between the grant and the release of its lock on `r`. -/
def MutexHost.Unused (users : MutexUsers W R) (s : MutexHost W R B S) (r : R) : Prop :=
  ∀ w, users.resource w = r → (s.place w).holds = false

section
variable {body : W → Body B S A} {users : MutexUsers W R} {g : Guard body} {w : W}
  {p p' : MutexPlace B} {x x' : S}

theorem Guard.at_of_idle (hp : p.holds = false) : g.At w p x := by
  cases p with
  | inside b => cases hp
  | leaving | outside | waiting | asleep | closing => trivial

variable [DecidableEq W] {k k' : FileLocks W String} {m : MutexMove A} {now : Nat}

theorem MutexMoved.keeps (h : MutexMoved users body w now k m p x k' p' x')
    (hat : g.At w p x) : g.At w p' x' := by
  cases h with
  | granted | bypasses => exact g.start
  | works hstep => exact g.works hat hstep
  | ends | endsBypassed | unlocks | dies | gives | opens | refused | expires | dozes | wakes
  | closes => trivial

theorem MutexMoved.shared_eq (h : MutexMoved users body w now k m p x k' p' x')
    (hp : p.holds = false) : x' = x := by
  cases h with
  | works | ends | endsBypassed => cases hp
  | opens | refused | bypasses | granted | expires | dozes | wakes | unlocks | closes | gives
  | dies => rfl

variable [DecidableEq R] {s s' : MutexHost W R B S}

theorem Guard.Keeps.step (hkeeps : g.Keeps users s) (hs : s.Orderly users ∧ s.Admitted users)
    (hnames : users.AgreeOnNames) {act : MutexAct W A}
    (hstep : mutexStep users body s act = some s') : g.Keeps users s' := by
  obtain ⟨ms, -, rfl⟩ | ⟨w, m, v, -, rfl, hmoved⟩ := mutexStep_cases hstep
  · exact hkeeps
  have hshared : (s.put users w v).shared (users.resource w) = v.shared :=
    Function.update_self ..
  intro u
  by_cases hu : u = w
  · rw [hu, hshared, show (s.put users w v).place w = v.place from Function.update_self ..]
    exact hmoved.keeps (hkeeps w)
  rw [show (s.put users w v).place u = s.place u from Function.update_of_ne hu ..]
  by_cases hres : users.resource u = users.resource w
  · rw [hres, hshared]
    cases hw : (s.place w).holds with
    | false =>
      rw [hmoved.shared_eq hw, ← hres]
      exact hkeeps u
    | true =>
      -- the mover holds the lock, so this worker has no part in the resource
      apply Guard.at_of_idle
      rw [Bool.eq_false_iff]
      exact fun hholds => hu (hs.1.alone hs.2 hnames hres hholds hw)
  · rw [show (s.put users w v).shared (users.resource u) = s.shared (users.resource u) from
      Function.update_of_ne hres ..]
    exact hkeeps u

/-- The rule of the lock: what every body keeps of its own resource holds in every run of all
workers. -/
theorem Guard.keeps_of_run {allowed : MutexHost W R B S → MutexAct W A → Prop}
    {as : List (MutexAct W A)} {x₀ : R → S} (hnames : users.AgreeOnNames)
    (hrun : MutexRun users body allowed (mutexStart x₀) as s) : g.Keeps users s := by
  have hinv := hrun.invariant
    (fun s => (s.Orderly users ∧ s.Admitted users) ∧ g.Keeps users s)
    (fun hi _ hstep => ⟨⟨hi.1.1.step hstep, hi.1.2.step hstep⟩, hi.2.step hi.1 hnames hstep⟩)
    ⟨orderly_start x₀, fun _ => trivial⟩
  exact hinv.2

end

end MesCore
