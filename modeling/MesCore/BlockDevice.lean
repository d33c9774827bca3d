import MesCore.Interaction
import MesCore.Text

namespace MesCore
set_option autoImplicit true

namespace BlockDevice

abbrev Path := List Char

inductive FlashErr
  | provisioning (msg : String)
  | fileNotFound
  | keyboardInterrupt
  | processTimeout
  | processExecution (msg : String)
  | other (msg : String)
  deriving DecidableEq

def FlashErr.isFileNotFound : FlashErr → Bool
  | .fileNotFound => true
  | _ => false

def FlashErr.isKeyboardInterrupt : FlashErr → Bool
  | .keyboardInterrupt => true
  | _ => false

def FlashErr.isProcessTimeout : FlashErr → Bool
  | .processTimeout => true
  | _ => false

def FlashErr.isProcessExecution : FlashErr → Bool
  | .processExecution _ => true
  | _ => false

/-- The calls of the provisioner on its host. -/
inductive FlashCall
  | imageExists
  | pathExists
  | statIsBlk
  | readMounts
  | runUmount (cmd : List Char)
  | bmaptool (args : List String)
  | exportLog
  | sync
  | partprobe
  deriving DecidableEq

/-- What is left of a process that has ended. -/
structure FlashRun where
  returncode : Int
  stdout : List Char

@[reducible] def FlashCall.Ans : FlashCall → Type
  | .imageExists | .pathExists | .statIsBlk => Bool
  | .readMounts => List Char
  | .bmaptool _ => FlashRun
  | .runUmount _ | .exportLog | .sync | .partprobe => Unit

@[reducible] def flashInterface : Interface where
  Call := FlashCall
  Ans := FlashCall.Ans
  Err := FlashErr
  Note := Empty
  Vars := Unit

abbrev FlashHost := Device flashInterface

abbrev Flash (d : FlashHost) (α : Type) := Prog d α

abbrev done (c : FlashCall) (r : Except FlashErr c.Ans) : Entry flashInterface := .call c r

section
variable {d : FlashHost} (device : Path)

def request (c : FlashCall) : Flash d c.Ans := call (I := flashInterface) c

def umountCmd : List Char := "umount ".toList ++ (device ++ ['*'])

def busyError : FlashErr :=
  .provisioning
    s!"Failed to unmount {String.ofList device}. Device is busy (Check 'lsof')."

/-- The part of the check that reads `/proc/mounts`. -/
def checkMounts : Flash d Unit := do
  let mounts : List Char ← request .readMounts
  if device <:+: mounts then do
    attempt (request (.runUmount (umountCmd device))) FlashErr.isKeyboardInterrupt fun _ =>
      fail (.provisioning "Unmount operation interrupted by operator (Ctrl+C).")
    let mounts : List Char ← request .readMounts
    if device <:+: mounts then
      fail (busyError device)
    else pure ()
  else pure ()

/-- `_pre_flight_safety_check`. -/
def preFlightSafetyCheck : Flash d Unit := do
  let there : Bool ← request .pathExists
  if there then do
    let isBlk : Bool ← request .statIsBlk
    if isBlk then attempt (checkMounts device) FlashErr.isFileNotFound fun _ => pure ()
    else fail (.provisioning (s!"SECURITY TRIP: '{String.ofList device}' is NOT a block device! " ++
      "Aborting flash to prevent catastrophic Host OS destruction."))
  else fail (.provisioning (s!"Block device {String.ofList device} does not exist. " ++
    "Is the SD Mux toggled to Host mode? Is the USB unplugged?"))

def bmapFailure (res : FlashRun) : String :=
  let out := res.stdout.map Char.toLower
  if "no such file".toList <:+: out ∧ ".bmap".toList <:+: out then
    "bmaptool requires a .bmap file next to the image, but it is missing."
  else if "permission denied".toList <:+: out then
    "Permission denied. Pytest must be run with sudo/root for block level access."
  else s!"bmaptool execution failed with code {res.returncode}."

def runBmaptool (image : String) : Flash d Bool := do
  let res : FlashRun ← request (.bmaptool ["bmaptool", "copy", image, String.ofList device])
  if res.returncode ≠ 0 then do
    request .exportLog
    fail (.provisioning (bmapFailure res))
  else do
    attempt (do
      request .sync
      request .partprobe)
      FlashErr.isKeyboardInterrupt fun _ =>
        fail (.provisioning "Post-flash sync/partprobe interrupted by operator (Ctrl+C).")
    pure true

def flash (image : String) : Flash d Bool :=
  attempt
    (attempt (runBmaptool device image) FlashErr.isProcessTimeout fun _ =>
      fail (.provisioning "Block device flash timed out. Is the SD card physically defective?"))
    FlashErr.isProcessExecution fun e => match e with
      | .processExecution msg =>
        fail (.provisioning s!"Failed to execute OS command. Is bmaptool installed? Error: {msg}")
      | _ => fail e

/-- `BmapBlockDeviceProvisioner.provision`. -/
def provision (image : String) : Flash d Bool := do
  let there : Bool ← request .imageExists
  if there then do
    preFlightSafetyCheck device
    flash device image
  else fail (.provisioning s!"Firmware image missing at {image}")

end

def isDigit (c : Char) : Bool := '0' ≤ c && c ≤ '9'

/-- The kernel puts a `p` between a name that ends with a digit and the partition's number. -/
def partitionStem (disk : Path) : Path :=
  if (disk.getLast?.any isDigit) = true then disk ++ ['p'] else disk

/-- The name of a disk or of one of its partitions. -/
def Own (disk name : Path) : Prop :=
  name = disk ∨ ∃ number, number ≠ [] ∧ (∀ c ∈ number, isDigit c = true) ∧
    name = partitionStem disk ++ number

/-- The first field of a line of `/proc/mounts`. -/
def deviceOf (line : List Char) : Path := line.takeWhile (· ≠ ' ')

/-- An entry of the mount table names the disk or one of its partitions. -/
def Mounted (disk : Path) (mounts : List Char) : Prop :=
  ∃ line ∈ mounts.splitOn '\n', Own disk (deviceOf line)

/-- The mount table as it was last read; none if there is no such file. -/
def lastTable (seg : List (Entry flashInterface)) : Option (List Char) :=
  seg.foldl (fun t e => match e with
    | .call .readMounts (.ok mounts) => some mounts
    | .call .readMounts (.error _) => none
    | _ => t) none

/-- A character that stands for itself in a shell command. -/
def plainChar (c : Char) : Bool := c.isAlphanum || "/-_.:+@,%=".toList.contains c

/-- A path that the shell takes as one word, and no command as an option. -/
def Plain (device : Path) : Prop :=
  device ≠ [] ∧ (∀ c ∈ device, plainChar c = true) ∧ device.head? ≠ some '-'

/-- The files that `device*` stands for: `*` matches no slash, and after a slash no dot. -/
def globbed (files : List Path) (device : Path) : List Path :=
  files.filter fun f => decide (device <+: f) && !(f.drop device.length).contains '/' &&
    !(decide (device.getLast? = some '/') && decide ((f.drop device.length).head? = some '.'))

/-- The shell is there: an unmount command may fail or be interrupted, but not for want of
`/bin/sh`. -/
def HasShell (d : FlashHost) : Prop :=
  ∀ cmd s, (d.respond (.runUmount cmd) s).1 ≠ .error .fileNotFound

section
variable (sh : List Char → List Path) (resolve : Path → Path)

/-- bmaptool only runs where the last mount table does not name the disk or a partition of it,
and every file that an unmount command covers is the disk or a partition of it. `sh` says which
files a command line names as its arguments. -/
def SafeFlash (device : Path) : Prop :=
  ∀ (d : FlashHost), HasShell d → ∀ (image : String) (w : World d),
    let seg := w.since (World.after (provision device image w))
    ((∃ args r, done (.bmaptool args) r ∈ seg) →
        ∀ t, lastTable seg = some t → ¬ Mounted (resolve device) t) ∧
      ∀ cmd r, done (.runUmount cmd) r ∈ seg → ∀ f ∈ sh cmd, Own (resolve device) (resolve f)

end

section
variable {d : FlashHost} {device : Path}

/-- Entries of the check: the only command is the one that unmounts the device. -/
def checking (device : Path) (e : Entry flashInterface) : Prop :=
  (∀ args r, e ≠ done (.bmaptool args) r) ∧
    ∀ cmd r, e = done (.runUmount cmd) r → cmd = umountCmd device

/-- Entries that neither read the mount table nor change it. -/
def flashing : Entry flashInterface → Prop
  | .call .readMounts _ | .call (.runUmount _) _ => False
  | _ => True

theorem lastTable_flashing {seg seg' : List (Entry flashInterface)} (h : ∀ e ∈ seg', flashing e) :
    lastTable (seg ++ seg') = lastTable seg := by
  rw [lastTable, List.foldl_append, ← lastTable]
  generalize lastTable seg = t
  induction seg' generalizing t with
  | nil => rfl
  | cons e seg' ih =>
    rw [List.forall_mem_cons] at h
    rw [List.foldl_cons, ih h.2]
    cases e with
    | note n => cases n
    | call c r =>
      cases c with
      | readMounts => exact h.1.elim
      | _ => rfl

/-- How the check of a host may end: what it did, and the table it read last. -/
def Checked (device : Path) (w w' : World d) (safe : Prop) : Prop :=
  ∃ seg, w'.trace = w.trace ++ seg ∧ (∀ e ∈ seg, checking device e) ∧
    (safe → ∀ t, lastTable seg = some t → ¬ device <:+: t)

theorem checking_done {c : FlashCall} (hb : ∀ args, c ≠ .bmaptool args)
    (hu : ∀ cmd, c ≠ .runUmount cmd) (r : Except FlashErr c.Ans) :
    checking device (done c r) := by
  constructor
  · intro args r' h
    cases h
    exact hb args rfl
  · intro cmd r' h
    cases h
    exact (hu cmd rfl).elim

theorem checking_umount (r : Except FlashErr Unit) :
    checking device (done (.runUmount (umountCmd device)) r) := by
  constructor
  · intro args r' h
    cases h
  · intro cmd r' h
    cases h
    rfl

/-- The check returns, or runs into a missing `/proc/mounts`, only where the table it read last
does not show the device. -/
theorem checkMounts_spec (hd : HasShell d) (w : World d) :
    wp (checkMounts device) (fun _ w' => Checked device w w' True)
      (fun e w' => Checked device w w' (e.isFileNotFound = true)) w := by
  have hread (r : Except FlashErr (List Char)) : checking device (done .readMounts r) :=
    checking_done (c := .readMounts) (by intro args h; cases h) (by intro cmd h; cases h) r
  unfold checkMounts
  rw [wp_bind]
  apply wp_call
  · intro mounts s
    by_cases hin : device <:+: mounts
    · rw [if_pos hin, wp_bind, wp_attempt]
      apply wp_respond
      · intro a s' _
        rw [wp_bind]
        apply wp_call
        · intro mounts' s''
          have hseg : ∀ e ∈ [done .readMounts (.ok mounts),
              done (.runUmount (umountCmd device)) (.ok a), done .readMounts (.ok mounts')],
              checking device e := by
            simp only [List.forall_mem_cons]
            exact ⟨hread _, checking_umount _, hread _, List.forall_mem_nil _⟩
          by_cases hin' : device <:+: mounts'
          · rw [if_pos hin', wp_fail]
            refine ⟨_, by simp only [List.append_assoc]; rfl, hseg, ?_⟩
            intro h
            cases h
          · rw [if_neg hin', wp_pure]
            refine ⟨_, by simp only [List.append_assoc]; rfl, hseg, ?_⟩
            intro _ t ht
            cases ht
            exact hin'
        · intro e s''
          refine ⟨[done .readMounts (.ok mounts), done (.runUmount (umountCmd device)) (.ok a),
            done .readMounts (.error e)], by simp only [List.append_assoc]; rfl, ?_, ?_⟩
          · simp only [List.forall_mem_cons]
            exact ⟨hread _, checking_umount _, hread _, List.forall_mem_nil _⟩
          · intro _ t ht
            cases ht
      · intro e s' hresp
        have hseg : ∀ x ∈ [done .readMounts (.ok mounts),
            done (.runUmount (umountCmd device)) (.error e)], checking device x := by
          simp only [List.forall_mem_cons]
          exact ⟨hread _, checking_umount _, List.forall_mem_nil _⟩
        split
        · rw [wp_fail]
          refine ⟨_, by simp only [List.append_assoc]; rfl, hseg, ?_⟩
          intro h
          cases h
        · refine ⟨_, by simp only [List.append_assoc]; rfl, hseg, ?_⟩
          intro h
          have hno := hd (umountCmd device) s
          rw [hresp] at hno
          cases e <;> first | exact absurd rfl hno | cases h
    · rw [if_neg hin, wp_pure]
      refine ⟨_, rfl, ?_, ?_⟩
      · simp only [List.forall_mem_cons]
        exact ⟨hread _, List.forall_mem_nil _⟩
      · intro _ t ht
        cases ht
        exact hin
  · intro e s
    refine ⟨_, rfl, ?_, ?_⟩
    · simp only [List.forall_mem_cons]
      exact ⟨hread _, List.forall_mem_nil _⟩
    · intro _ t ht
      cases ht

theorem Checked.after {c : FlashCall} {r : Except FlashErr c.Ans} {w w₁ w' : World d} {safe : Prop}
    (h : Checked device w₁ w' safe) (hb : ∀ args, c ≠ .bmaptool args)
    (hu : ∀ cmd, c ≠ .runUmount cmd) (hr : c ≠ .readMounts)
    (htrace : w₁.trace = w.trace ++ [done c r]) : Checked device w w' safe := by
  obtain ⟨seg, hseg, hchecking, hsafe⟩ := h
  refine ⟨done c r :: seg, by rw [hseg, htrace, List.append_assoc]; rfl, ?_, ?_⟩
  · rw [List.forall_mem_cons]
    exact ⟨checking_done hb hu r, hchecking⟩
  · have hlast : lastTable (done c r :: seg) = lastTable seg := by
      cases c with
      | readMounts => exact absurd rfl hr
      | _ => rfl
    rw [hlast]
    exact hsafe

theorem Checked.refl (w : World d) {safe : Prop} : Checked device w w safe := by
  refine ⟨[], (List.append_nil _).symm, List.forall_mem_nil _, ?_⟩
  intro _ t ht
  cases ht

theorem preFlight_spec (device : Path) (hd : HasShell d) (w : World d) :
    wp (preFlightSafetyCheck device) (fun _ w' => Checked device w w' True)
      (fun _ w' => Checked device w w' False) w := by
  unfold preFlightSafetyCheck
  rw [wp_bind]
  apply wp_call
  · intro there s
    let w₁ : World d := { w with dev := s, trace := w.trace ++ [done .pathExists (.ok there)] }
    have hthere {w' : World d} {safe : Prop} (h : Checked device w₁ w' safe) :
        Checked device w w' safe :=
      h.after (c := .pathExists) (r := .ok there) (by simp) (by simp) (by simp) rfl
    cases there with
    | false => exact hthere (.refl _)
    | true =>
      rw [if_pos rfl, wp_bind]
      apply wp_call
      · intro isBlk s'
        let w₂ : World d :=
          { w₁ with dev := s', trace := w₁.trace ++ [done .statIsBlk (.ok isBlk)] }
        have hblk {w' : World d} {safe : Prop} (h : Checked device w₂ w' safe) :
            Checked device w w' safe :=
          hthere (h.after (c := .statIsBlk) (r := .ok isBlk) (by simp) (by simp) (by simp) rfl)
        cases isBlk with
        | false => exact hblk (.refl _)
        | true =>
          rw [if_pos rfl, wp_attempt]
          apply (checkMounts_spec hd _).mono
          · intro _ w' h
            exact hblk h
          · intro e w' h
            split
            · rename_i hmissing
              obtain ⟨seg, hseg, hchecking, hsafe⟩ := h
              exact hblk ⟨seg, hseg, hchecking, fun _ => hsafe hmissing⟩
            · obtain ⟨seg, hseg, hchecking, _⟩ := h
              exact hblk ⟨seg, hseg, hchecking, False.elim⟩
      · intro e s'
        exact hthere (Checked.after (c := .statIsBlk) (r := .error e) (.refl _) (by simp) (by simp)
          (by simp) rfl)
  · intro e s
    exact Checked.after (c := .pathExists) (r := .error e) (.refl _) (by simp) (by simp) (by simp)
      rfl

def flashFrame : Frame flashInterface where
  entry := flashing
  vars _ _ := True
  refl _ := trivial
  trans _ _ := trivial

theorem within_flash (device : Path) (image : String) :
    Within flashFrame (flash device image : Flash d Bool) := by
  have hrun : Within flashFrame (runBmaptool device image : Flash d Bool) := by
    apply Within.bind (.call (I := flashInterface) _ fun _ => trivial)
    intro res
    apply Within.ite
    · exact Within.bind (.call (I := flashInterface) _ fun _ => trivial) fun _ => .fail _
    · apply Within.bind (Within.attempt _ _ fun _ => .fail _) fun _ => .pure _
      exact Within.bind (.call (I := flashInterface) _ fun _ => trivial) fun _ =>
        .call (I := flashInterface) _ fun _ => trivial
  apply (hrun.attempt _ fun _ => .fail _).attempt
  intro e
  cases e <;> exact .fail _

/-- bmaptool runs only after a check that was safe, and only the one unmount command is issued. -/
structure Careful (device : Path) (seg : List (Entry flashInterface)) : Prop where
  clear : (∃ args r, done (.bmaptool args) r ∈ seg) →
    ∀ t, lastTable seg = some t → ¬ device <:+: t
  own : ∀ cmd r, done (.runUmount cmd) r ∈ seg → cmd = umountCmd device

theorem Careful.of_checking {seg : List (Entry flashInterface)}
    (h : ∀ e ∈ seg, checking device e) : Careful device seg where
  clear hmem := by
    obtain ⟨args, r, hmem⟩ := hmem
    exact absurd rfl ((h _ hmem).1 args r)
  own cmd r hmem := (h _ hmem).2 cmd r rfl

theorem Careful.of_flashing {seg seg' : List (Entry flashInterface)}
    (h : ∀ e ∈ seg, checking device e)
    (hsafe : ∀ t, lastTable seg = some t → ¬ device <:+: t) (h' : ∀ e ∈ seg', flashing e) :
    Careful device (seg ++ seg') where
  clear _ := by
    rw [lastTable_flashing h']
    exact hsafe
  own cmd r hmem := by
    rcases List.mem_append.1 hmem with hmem | hmem
    · exact (h _ hmem).2 cmd r rfl
    · exact (h' _ hmem).elim

theorem provision_spec (device : Path) (hd : HasShell d) (image : String) (w : World d) :
    Careful device (w.since (World.after (provision device image w))) := by
  have himage (r : Except FlashErr Bool) : checking device (done .imageExists r) :=
    checking_done (c := .imageExists) (by simp) (by simp) r
  unfold provision
  cases hq : (request .imageExists : Flash d Bool) w with
  | error e w₁ =>
    rw [bind_of_error hq, World.after_error, World.since_eq (call_error hq).2]
    apply Careful.of_checking
    rw [List.forall_mem_singleton]
    exact himage _
  | ok there w₁ =>
    rw [bind_of_ok hq]
    have htrace := (call_ok hq).2
    cases there with
    | false =>
      rw [if_neg Bool.false_ne_true, fail, World.after_error, World.since_eq htrace]
      apply Careful.of_checking
      rw [List.forall_mem_singleton]
      exact himage _
    | true =>
      rw [if_pos rfl]
      have hcheck := preFlight_spec device hd w₁
      cases hp : preFlightSafetyCheck device w₁ with
      | error e w₂ =>
        obtain ⟨seg, hseg, hchecking, _⟩ := hcheck.error hp
        rw [bind_of_error hp, World.after_error]
        have hsince : w.since w₂ = [done .imageExists (.ok true)] ++ seg := by
          apply World.since_eq
          rw [hseg, htrace, List.append_assoc]
        rw [hsince]
        apply Careful.of_checking
        rw [List.forall_mem_append, List.forall_mem_singleton]
        exact ⟨himage _, hchecking⟩
      | ok u w₂ =>
        obtain ⟨seg, hseg, hchecking, hsafe⟩ := hcheck.ok hp
        rw [bind_of_ok hp]
        obtain ⟨⟨rest, hrest, hflashing⟩, _⟩ := within_flash device image w₂
        have hsince : w.since (World.after (flash device image w₂)) =
            ([done .imageExists (.ok true)] ++ seg) ++ rest := by
          apply World.since_eq
          rw [hrest, hseg, htrace]
          simp only [List.append_assoc]
        rw [hsince]
        apply Careful.of_flashing
        · rw [List.forall_mem_append, List.forall_mem_singleton]
          exact ⟨himage _, hchecking⟩
        · exact hsafe trivial
        · exact hflashing

end

section
variable {sh : List Char → List Path} {resolve : Path → Path} {files : List Path} {device : Path}

theorem Own.starts {disk name : Path} (h : Own disk name) : disk <+: name := by
  rcases h with rfl | ⟨number, _, _, rfl⟩
  · exact List.prefix_refl _
  · unfold partitionStem
    split
    · rw [List.append_assoc]
      exact List.prefix_append _ _
    · exact List.prefix_append _ _

/-- A table that names the disk or a partition of it shows the disk's name. -/
theorem Mounted.inTable {disk : Path} {mounts : List Char} (h : Mounted disk mounts) :
    disk <:+: mounts := by
  obtain ⟨line, hline, hown⟩ := h
  have hname : deviceOf line <+: line := List.takeWhile_prefix _
  exact (hown.starts.trans hname).isInfix.trans (infix_of_mem_splitOn hline)

theorem safeFlash_of_infix (hin : device <:+: resolve device)
    (hown : ∀ f ∈ sh (umountCmd device), Own (resolve device) (resolve f)) :
    SafeFlash sh resolve device := by
  intro d hd image w
  have hcareful := provision_spec device hd image w
  constructor
  · intro hmem t ht hmounted
    exact hcareful.clear hmem t ht (hin.trans hmounted.inTable)
  · intro cmd r hmem f hf
    rw [hcareful.own cmd r hmem] at hf
    exact hown f hf

end

def tableAnswer (mounts : List Char) : (c : FlashCall) → c.Ans
  | .imageExists | .pathExists | .statIsBlk => true
  | .readMounts => mounts
  | .bmaptool _ => { returncode := 0, stdout := [] }
  | .runUmount _ | .exportLog | .sync | .partprobe => ()

/-- A host with one mount table, which no command changes. -/
def tableHost (mounts : List Char) : FlashHost where
  State := Unit
  respond c s := (.ok (tableAnswer mounts c), s)

section
variable {sh : List Char → List Path} {resolve : Path → Path} {files : List Path} {device : Path}

theorem tableHost_hasShell (mounts : List Char) : HasShell (tableHost mounts) := by
  intro cmd s h
  cases h

theorem tableHost_checks {mounts : List Char} (w : World (tableHost mounts)) :
    preFlightSafetyCheck device w =
      attempt (checkMounts device) FlashErr.isFileNotFound (fun _ => pure ())
        { w with trace := w.trace ++ [done .pathExists (.ok true)] ++
          [done .statIsBlk (.ok true)] } := by
  rw [preFlightSafetyCheck, bind_of_ok (show request .pathExists w = .ok true _ from rfl),
    if_pos rfl, bind_of_ok (show request .statIsBlk _ = .ok true _ from rfl), if_pos rfl]
  rfl

def image : String := "image.wic"

theorem tableHost_flashes {mounts : List Char} (hno : ¬ device <:+: mounts)
    (w : World (tableHost mounts)) :
    (World.after (provision device image w)).trace = w.trace ++ [done .imageExists (.ok true)] ++
      [done .pathExists (.ok true)] ++ [done .statIsBlk (.ok true)] ++
      [done .readMounts (.ok mounts)] ++
      [done (.bmaptool ["bmaptool", "copy", image, String.ofList device])
        (.ok { returncode := 0, stdout := [] })] ++ [done .sync (.ok ())] ++
      [done .partprobe (.ok ())] := by
  have hcheck (v : World (tableHost mounts)) : checkMounts device v =
      .ok () { v with trace := v.trace ++ [done .readMounts (.ok mounts)] } := by
    rw [checkMounts, bind_of_ok (show request .readMounts v = .ok mounts _ from rfl), if_neg hno]
    rfl
  have hpre (v : World (tableHost mounts)) : preFlightSafetyCheck device v = .ok ()
      { v with trace := v.trace ++ [done .pathExists (.ok true)] ++ [done .statIsBlk (.ok true)] ++
        [done .readMounts (.ok mounts)] } := by
    rw [tableHost_checks]
    unfold attempt
    rw [hcheck]
  rw [provision, bind_of_ok (show request .imageExists w = .ok true _ from rfl), if_pos rfl,
    bind_of_ok (hpre _)]
  rfl

/-- A table that goes on showing the path has the command issued, and then stops the flash. -/
theorem tableHost_unmounts {mounts : List Char} (hin : device <:+: mounts)
    (w : World (tableHost mounts)) :
    (World.after (provision device image w)).trace = w.trace ++ [done .imageExists (.ok true)] ++
      [done .pathExists (.ok true)] ++ [done .statIsBlk (.ok true)] ++
      [done .readMounts (.ok mounts)] ++ [done (.runUmount (umountCmd device)) (.ok ())] ++
      [done .readMounts (.ok mounts)] := by
  have hcheck (v : World (tableHost mounts)) : checkMounts device v =
      .error (busyError device)
        { v with trace := v.trace ++ [done .readMounts (.ok mounts)] ++
          [done (.runUmount (umountCmd device)) (.ok ())] ++ [done .readMounts (.ok mounts)] } := by
    rw [checkMounts, bind_of_ok (show request .readMounts v = .ok mounts _ from rfl), if_pos hin,
      bind_of_ok (show attempt (request (.runUmount (umountCmd device)))
        FlashErr.isKeyboardInterrupt _ _ = .ok () _ from rfl),
      bind_of_ok (show request .readMounts _ = .ok mounts _ from rfl), if_pos hin]
    rfl
  have hpre (v : World (tableHost mounts)) : preFlightSafetyCheck device v =
      .error (busyError device)
        { v with trace := v.trace ++ [done .pathExists (.ok true)] ++
          [done .statIsBlk (.ok true)] ++ [done .readMounts (.ok mounts)] ++
          [done (.runUmount (umountCmd device)) (.ok ())] ++ [done .readMounts (.ok mounts)] } := by
    rw [tableHost_checks]
    unfold attempt
    rw [hcheck]
    rfl
  rw [provision, bind_of_ok (show request .imageExists w = .ok true _ from rfl), if_pos rfl,
    bind_of_error (hpre _)]
  rfl

/-- A mount table can name the disk or a partition of it without showing the path. -/
theorem not_safe_of_hidden {mounts : List Char} (hno : ¬ device <:+: mounts)
    (hm : Mounted (resolve device) mounts) : ¬ SafeFlash sh resolve device := by
  intro h
  have htrace := tableHost_flashes hno ⟨(), (), []⟩
  have hsafe := (h (tableHost mounts) (tableHost_hasShell mounts) image ⟨(), (), []⟩).1
  simp only [List.append_assoc] at htrace
  rw [World.since_eq htrace] at hsafe
  have hran : done (.bmaptool ["bmaptool", "copy", image, String.ofList device])
      (.ok { returncode := 0, stdout := [] }) ∈ [done .imageExists (.ok true)] ++
      ([done .pathExists (.ok true)] ++ ([done .statIsBlk (.ok true)] ++
        ([done .readMounts (.ok mounts)] ++
          ([done (.bmaptool ["bmaptool", "copy", image, String.ofList device])
            (.ok { returncode := 0, stdout := [] })] ++ ([done .sync (.ok ())] ++
              [done .partprobe (.ok ())]))))) := by simp
  exact hsafe ⟨_, _, hran⟩ mounts rfl hm

/-- The command covers a file that is neither the disk nor a partition of it. -/
theorem not_safe_of_neighbour {f : Path} (hf : f ∈ sh (umountCmd device))
    (hother : ¬ Own (resolve device) (resolve f)) :
    ¬ SafeFlash sh resolve device := by
  intro h
  have htrace := tableHost_unmounts (List.infix_refl device) ⟨(), (), []⟩
  have hsafe := (h (tableHost device) (tableHost_hasShell device) image ⟨(), (), []⟩).2
  simp only [List.append_assoc] at htrace
  rw [World.since_eq htrace] at hsafe
  exact hother (hsafe (umountCmd device) (.ok ()) (by simp) f hf)

theorem mounted_self {disk : Path} (h : ∀ c ∈ disk, c ≠ ' ' ∧ c ≠ '\n') : Mounted disk disk := by
  have hline : disk.splitOn '\n' = [disk] := by
    apply List.splitOn_eq_singleton
    intro hmem
    exact (h _ hmem).2 rfl
  refine ⟨disk, by rw [hline]; exact List.mem_singleton_self _, .inl ?_⟩
  rw [deviceOf, List.takeWhile_eq_self_iff]
  intro c hc
  exact decide_eq_true (h c hc).1

theorem safe_iff (hnames : ∀ c ∈ resolve device, c ≠ ' ' ∧ c ≠ '\n') :
    SafeFlash sh resolve device ↔ device <:+: resolve device ∧
      ∀ f ∈ sh (umountCmd device), Own (resolve device) (resolve f) := by
  constructor
  · intro h
    constructor
    · by_contra hno
      exact not_safe_of_hidden hno (mounted_self hnames) h
    · intro f hf
      by_contra hother
      exact not_safe_of_neighbour hf hother h
  · intro h
    exact safeFlash_of_infix h.1 h.2

/-- Flashing is safe exactly if the path is a part of its disk's name and the unmount command
covers nothing but the disk and its partitions. For a path that the shell leaves alone, these are
the files that `path*` stands for. -/
theorem flash_safe_iff (hsh : ∀ p, Plain p → sh (umountCmd p) = globbed files p)
    (hnames : ∀ c ∈ resolve device, c ≠ ' ' ∧ c ≠ '\n') :
    (SafeFlash sh resolve device ↔ device <:+: resolve device ∧
        ∀ f ∈ sh (umountCmd device), Own (resolve device) (resolve f)) ∧
      (Plain device → (SafeFlash sh resolve device ↔ device <:+: resolve device ∧
        ∀ f ∈ globbed files device, Own (resolve device) (resolve f))) := by
  refine ⟨safe_iff hnames, ?_⟩
  intro hplain
  rw [← hsh device hplain]
  exact safe_iff hnames

end

/-- The files that the argument of an unmount command matches. -/
def shellOf (files : List Path) (cmd : List Char) : List Path :=
  globbed files ((cmd.drop "umount ".toList.length).dropLast)

theorem drop_dropLast (command : List Char) (c : Char) :
    ((command ++ (device ++ [c])).drop command.length).dropLast = device := by
  rw [List.drop_left, List.dropLast_concat]

theorem shellOf_umountCmd (files : List Path) (device : Path) :
    shellOf files (umountCmd device) = globbed files device :=
  congrArg (globbed files) (drop_dropLast _ _)

/-- An alias of a card, and a disk beside one with a longer name. -/
def cardAlias : Path := "/dev/disk/by-id/usb-Card".toList

def resolveAlias (p : Path) : Path := if p = cardAlias then "/dev/sdb".toList else p

def hostFiles : List Path :=
  ["/dev/sda".toList, "/dev/sda1".toList, "/dev/sdb".toList, "/dev/sdb1".toList,
    "/dev/sdaa".toList, "/dev/sdaa1".toList, cardAlias]

theorem not_own_sdaa1 : ¬ Own "/dev/sda".toList "/dev/sdaa1".toList := by
  rintro (h | ⟨number, _, hdigits, heq⟩)
  · exact absurd h (by decide)
  · have hstem : partitionStem "/dev/sda".toList = "/dev/sda".toList := by decide
    have hsplit : "/dev/sdaa1".toList = "/dev/sda".toList ++ "a1".toList := by decide
    rw [hstem, hsplit] at heq
    rw [← List.append_cancel_left heq] at hdigits
    exact absurd (hdigits 'a' (by decide)) (by decide)

theorem own_first {disk : Path} (h : partitionStem disk = disk) : Own disk (disk ++ ['1']) := by
  refine .inr ⟨['1'], by simp, List.forall_mem_singleton.2 rfl, ?_⟩
  rw [h]

/-- The devices that fail: an alias, where the table lists a partition under the disk's name, and
`/dev/sda`, whose unmount command takes `/dev/sdaa1` along. -/
theorem flash_unsafe :
    ¬ SafeFlash (shellOf hostFiles) resolveAlias cardAlias ∧
      ¬ SafeFlash (shellOf hostFiles) resolveAlias "/dev/sda".toList := by
  constructor
  · have hhidden : ¬ cardAlias <:+: "/dev/sdb1 /media/card vfat rw 0 0".toList := by decide
    apply not_safe_of_hidden hhidden
    refine ⟨_, by rw [List.splitOn_eq_singleton (by decide)]; exact List.mem_singleton_self _, ?_⟩
    have hown : Own "/dev/sdb".toList ("/dev/sdb".toList ++ ['1']) := own_first (by decide)
    exact hown
  · apply not_safe_of_neighbour (f := "/dev/sdaa1".toList)
    · rw [shellOf_umountCmd]
      decide
    · exact not_own_sdaa1

theorem cardDisk_plain : Plain "/dev/sdb".toList := by
  have hall : "/dev/sdb".toList.all plainChar = true := by decide
  exact ⟨by decide, List.all_eq_true.1 hall, by decide⟩

theorem cardDisk_name : ∀ c ∈ resolveAlias "/dev/sdb".toList, c ≠ ' ' ∧ c ≠ '\n' := by
  intro c hc
  have hplain := cardDisk_plain.2.1 c hc
  constructor
  · rintro rfl
    exact absurd hplain (by decide)
  · rintro rfl
    exact absurd hplain (by decide)

/-- The card by its own name, with nothing else that begins like it. -/
theorem flash_safe_card : SafeFlash (shellOf hostFiles) resolveAlias "/dev/sdb".toList := by
  have hiff := (flash_safe_iff (fun p _ => shellOf_umountCmd hostFiles p) cardDisk_name).2
    cardDisk_plain
  apply hiff.2
  constructor
  · decide
  · intro f hf
    have hfiles :
        globbed hostFiles "/dev/sdb".toList = ["/dev/sdb".toList, "/dev/sdb1".toList] := by
      decide
    rw [hfiles, List.mem_pair] at hf
    rcases hf with rfl | rfl
    · exact .inl rfl
    · exact own_first (by decide)

end BlockDevice

end MesCore
