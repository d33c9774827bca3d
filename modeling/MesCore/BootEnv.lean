import MesCore.Routing

namespace MesCore
set_option autoImplicit true

/-- The two variables of the U-Boot environment that the trap uses. -/
structure Env where
  bootcmd : Option String
  prevBootcmd : Option String := none
  deriving DecidableEq

/-- What runs on the board. U-Boot works on a copy of the environment. -/
inductive Mode
  | off
  | starting (env : Env)
  | uboot (env : Env)
  | linux
  deriving DecidableEq

structure Board where
  flash : Env
  mode : Mode
  deriving DecidableEq

def trapString : String := "echo MES Framework Trap"

/-- `fw_setenv`, for the two commands that set the trap. -/
def Env.fwSetenv (e : Env) (cmd : String) : Env :=
  if cmd = trapBackupCmd then { e with prevBootcmd := e.bootcmd }
  else if cmd = trapCmd then { e with bootcmd := some trapString }
  else e

/-- U-Boot's `setenv`. An unset variable expands to nothing, and setting nothing deletes. -/
def Env.setenv (e : Env) (cmd : String) : Env :=
  if cmd = restoreBootcmdCmd then { e with bootcmd := e.prevBootcmd }
  else if cmd = deleteBackupCmd then { e with prevBootcmd := none }
  else e

def Board.carryOut (b : Board) (cmd : String) : Board :=
  match b.mode with
  | .linux => { b with flash := b.flash.fwSetenv cmd }
  | .uboot env =>
    if cmd = "saveenv" then { b with flash := env } else { b with mode := .uboot (env.setenv cmd) }
  | .off | .starting _ => b

/-- What the board may do between two commands: lose its power, start anew, reach the prompt of
U-Boot or Linux, and boot from that prompt. -/
inductive Board.Moves : Board → Board → Prop
  | powerCut (b : Board) : Moves b { b with mode := .off }
  | reset (b : Board) : Moves b { b with mode := .starting b.flash }
  | prompt (flash env : Env) : Moves ⟨flash, .starting env⟩ ⟨flash, .uboot env⟩
  | userland (flash env : Env) : Moves ⟨flash, .starting env⟩ ⟨flash, .linux⟩
  | boot (flash env : Env) : Moves ⟨flash, .uboot env⟩ ⟨flash, .starting env⟩

def Call.command : Call → Option String
  | .sshSafeRun cmd _ _ | .serialSafeRun cmd _ _ _ => some cmd
  | _ => none

/-- A command with `check_exit_code` whose call returned. -/
def confirmed : Entry fsmInterface → Bool
  | .call (.sshSafeRun _ _ true) (.ok _) | .call (.serialSafeRun _ _ _ true) (.ok _) => true
  | _ => false

/-- The board beside a history of the machine: any moves, and any command may take effect or not,
whatever was answered. Only a confirmed command is known to have run, and on Linux. Commands that
take effect meet the condition `meets`. -/
inductive Path (meets : Board → String → Prop) : List (Entry fsmInterface) → Board → Board → Prop
  | done (b : Board) : Path meets [] b b
  | move : b.Moves b' → Path meets tr b' b'' → Path meets tr b b''
  | ignored : confirmed e = false → Path meets tr b b' → Path meets (e :: tr) b b'
  | carried : Call.command c = some cmd →
      (confirmed (.call c r) = true → b.mode = .linux) → meets b cmd →
      Path meets tr (b.carryOut cmd) b' → Path meets (.call c r :: tr) b b'

/-- The environment still knows the boot command `orig`. -/
def Env.Holds (orig : String) (e : Env) : Prop := e.bootcmd = some orig ∨ e.prevBootcmd = some orig

instance (orig : String) (e : Env) : Decidable (e.Holds orig) :=
  inferInstanceAs (Decidable (_ ∨ _))

def Mode.Holds (orig : String) : Mode → Prop
  | .starting env | .uboot env => env.Holds orig
  | .off | .linux => True

def Board.Holds (orig : String) (b : Board) : Prop := b.flash.Holds orig ∧ b.mode.Holds orig

/-- The trap's backup is made of `orig` itself, the restore finds that backup, and the backup is
only deleted once `orig` is back. -/
def Board.Careful (orig : String) (b : Board) (cmd : String) : Prop :=
  match b.mode with
  | .linux => cmd = trapBackupCmd → b.flash.bootcmd = some orig
  | .uboot env => (cmd = restoreBootcmdCmd → env.prevBootcmd = some orig) ∧
      (cmd = deleteBackupCmd → env.bootcmd = some orig)
  | .off | .starting _ => True

instance (orig : String) (b : Board) (cmd : String) : Decidable (b.Careful orig cmd) := by
  unfold Board.Careful
  split <;> infer_instance

theorem Board.Moves.flash {b b' : Board} (h : b.Moves b') : b'.flash = b.flash := by
  cases h <;> rfl

theorem Board.Moves.holds {orig : String} {b b' : Board} (h : b.Moves b')
    (hb : b.Holds orig) : b'.Holds orig := by
  obtain ⟨hflash, hmode⟩ := hb
  cases h with
  | powerCut => exact ⟨hflash, trivial⟩
  | reset => exact ⟨hflash, hflash⟩
  | prompt flash env => exact ⟨hflash, hmode⟩
  | userland flash env => exact ⟨hflash, trivial⟩
  | boot flash env => exact ⟨hflash, hmode⟩

/-- A careful command loses nothing, if the trap is only set over a backup. -/
theorem Board.Holds.carryOut {orig cmd : String} {b : Board} (hb : b.Holds orig)
    (hc : b.Careful orig cmd) (ht : cmd = trapCmd → b.flash.prevBootcmd = some orig) :
    (b.carryOut cmd).Holds orig := by
  obtain ⟨flash, mode⟩ := b
  obtain ⟨hflash, hmode⟩ := hb
  cases mode with
  | off => exact ⟨hflash, hmode⟩
  | starting env => exact ⟨hflash, hmode⟩
  | linux =>
    refine ⟨?_, trivial⟩
    change (flash.fwSetenv cmd).Holds orig
    rw [Env.fwSetenv]
    split
    · exact .inr (hc ‹_›)
    · split
      · exact .inr (ht ‹_›)
      · exact hflash
  | uboot env =>
    rw [Board.carryOut]
    dsimp only
    split
    · exact ⟨hmode, hmode⟩
    · refine ⟨hflash, ?_⟩
      change (env.setenv cmd).Holds orig
      rw [Env.setenv]
      split
      · exact .inl (hc.1 ‹_›)
      · split
        · exact .inl (hc.2 ‹_›)
        · exact hmode

/-- Whether the backup of the trap is known to be in flash: since a confirmed backup, until an
environment is saved over it. -/
def armed (a : Bool) : Entry fsmInterface → Bool
  | .call c r =>
    if c.command = some trapBackupCmd ∧ confirmed (.call c r) then true
    else if c.command = some "saveenv" then false
    else a
  | .note _ => a

/-- The trap command only occurs over a backup. -/
def TrapGuarded : Bool → List (Entry fsmInterface) → Prop
  | _, [] => True
  | a, e :: tr => (∀ c r, e = .call c r → c.command = some trapCmd → a = true) ∧
      TrapGuarded (armed a e) tr

theorem armed_call {a : Bool} {c : Call} {r : Except Err c.Ans}
    (h : armed a (.call c r) = true) :
    (c.command = some trapBackupCmd ∧ confirmed (.call c r) = true) ∨
      (c.command ≠ some "saveenv" ∧ a = true) := by
  rw [armed] at h
  split at h
  · exact .inl ‹_›
  · split at h
    · cases h
    · exact .inr ⟨‹_›, h⟩

theorem armed_of_unconfirmed {a : Bool} {e : Entry fsmInterface} (hc : confirmed e = false)
    (h : armed a e = true) : a = true := by
  cases e with
  | note n => exact h
  | call c r =>
    rcases armed_call h with ⟨_, hok⟩ | ⟨_, ha⟩
    · rw [hc] at hok
      cases hok
    · exact ha

theorem Board.carryOut_backup {orig cmd : String} {b : Board} {a : Bool} {c : Call}
    {r : Except Err c.Ans} (hcmd : c.command = some cmd)
    (hlinux : confirmed (.call c r) = true → b.mode = .linux) (hc : b.Careful orig cmd)
    (ha : a = true → b.flash.prevBootcmd = some orig) (harm : armed a (.call c r) = true) :
    (b.carryOut cmd).flash.prevBootcmd = some orig := by
  obtain ⟨flash, mode⟩ := b
  have harm := armed_call harm
  rw [hcmd, Option.some_inj, Ne, Option.some_inj] at harm
  cases mode with
  | off =>
    rcases harm with ⟨_, hok⟩ | ⟨_, hon⟩
    · cases hlinux hok
    · exact ha hon
  | starting env =>
    rcases harm with ⟨_, hok⟩ | ⟨_, hon⟩
    · cases hlinux hok
    · exact ha hon
  | uboot env =>
    rcases harm with ⟨_, hok⟩ | ⟨hne, hon⟩
    · cases hlinux hok
    · rw [Board.carryOut]
      dsimp only
      rw [if_neg hne]
      exact ha hon
  | linux =>
    change (flash.fwSetenv cmd).prevBootcmd = some orig
    rw [Env.fwSetenv]
    split
    · exact hc ‹_›
    · rename_i hne
      have hprev := ha (harm.resolve_left fun hb => hne hb.1).2
      split
      · exact hprev
      · exact hprev

theorem Path.holds {orig : String} {tr : List (Entry fsmInterface)} {b b' : Board} {a : Bool}
    (h : Path (Board.Careful orig) tr b b') (hg : TrapGuarded a tr)
    (ha : a = true → b.flash.prevBootcmd = some orig) (hb : b.Holds orig) : b'.Holds orig := by
  induction h generalizing a with
  | done b => exact hb
  | move hm hp ih =>
    refine ih hg ?_ (hm.holds hb)
    rw [hm.flash]
    exact ha
  | ignored hc hp ih => exact ih hg.2 (fun harm => ha (armed_of_unconfirmed hc harm)) hb
  | carried hcmd hlinux hc hp ih =>
    refine ih hg.2 (Board.carryOut_backup hcmd hlinux hc ha) (hb.carryOut hc ?_)
    rintro rfl
    exact ha (hg.1 _ _ rfl hcmd)

section
variable {s t : List (Entry fsmInterface)} {a : Bool}

theorem TrapGuarded.mono {a a' : Bool} (h : TrapGuarded a s) (ha : a = true → a' = true) :
    TrapGuarded a' s := by
  induction s generalizing a a' with
  | nil => trivial
  | cons e s ih =>
    refine ⟨fun c r he hcmd => ha (h.1 c r he hcmd), ih h.2 fun harm => ?_⟩
    cases e with
    | note n => exact ha harm
    | call c r =>
      rcases armed_call harm with hb | ⟨hne, hon⟩
      · exact if_pos hb
      · rw [armed, if_neg hne, ha hon]
        split <;> rfl

theorem TrapGuarded.append (hs : TrapGuarded a s) (ht : TrapGuarded (s.foldl armed a) t) :
    TrapGuarded a (s ++ t) := by
  induction s generalizing a with
  | nil => exact ht
  | cons e s ih => exact ⟨hs.1, ih hs.2 ht⟩

theorem TrapGuarded.append_false (hs : TrapGuarded a s) (ht : TrapGuarded false t) :
    TrapGuarded a (s ++ t) :=
  hs.append (ht.mono fun h => (Bool.false_ne_true h).elim)

theorem TrapGuarded.initial (h : TrapGuarded a t) (hp : s <+: t) : TrapGuarded a s := by
  obtain ⟨u, rfl⟩ := hp
  induction s generalizing a with
  | nil => trivial
  | cons e s ih => exact ⟨h.1, ih h.2⟩

theorem TrapGuarded.of_untrapped (h : ∀ e ∈ s, untrapped e) : TrapGuarded a s := by
  induction s generalizing a with
  | nil => trivial
  | cons e s ih =>
    refine ⟨?_, ih fun e he => h e (List.mem_cons_of_mem _ he)⟩
    rintro c r rfl hcmd
    have hc : c.traps = false := h _ (List.mem_cons_self ..)
    cases c <;> simp_all [Call.command, Call.traps]

end

def Board.obey (b : Board) : Entry fsmInterface → Board
  | .call c _ =>
    match c.command with
    | some cmd => b.carryOut cmd
    | none => b
  | .note _ => b

def Board.allows (meets : Board → String → Bool) (b : Board) (e : Entry fsmInterface) : Bool :=
  match e with
  | .call c r =>
    match c.command with
    | some cmd => (!confirmed (.call c r) || b.mode = .linux) && meets b cmd
    | none => true
  | .note _ => true

def Board.allowsAll (meets : Board → String → Bool) : Board → List (Entry fsmInterface) → Bool
  | _, [] => true
  | b, e :: tr => b.allows meets e && (b.obey e).allowsAll meets tr

theorem Path.obeyed {P : Board → String → Prop} {meets : Board → String → Bool}
    (hP : ∀ b cmd, meets b cmd = true → P b cmd) {tr : List (Entry fsmInterface)} {b : Board}
    (h : b.allowsAll meets tr = true) : Path P tr b (tr.foldl Board.obey b) := by
  induction tr generalizing b with
  | nil => exact .done b
  | cons e tr ih =>
    obtain ⟨he, htr⟩ := (Bool.and_eq_true _ _).mp h
    have hp := ih htr
    cases e with
    | note n => exact .ignored rfl hp
    | call c r =>
      rw [Board.allows] at he
      change Path _ _ b (tr.foldl Board.obey (b.obey (.call c r)))
      rw [Board.obey] at hp ⊢
      cases hc : c.command with
      | none =>
        rw [hc] at hp
        refine .ignored ?_ hp
        cases c <;> first | rfl | cases hc
      | some cmd =>
        rw [hc] at hp he
        obtain ⟨hl, hm⟩ := (Bool.and_eq_true _ _).mp he
        refine .carried hc (fun hok => ?_) (hP _ _ hm) hp
        simpa [hok] using hl

end MesCore
