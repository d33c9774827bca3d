import MesCore.Base64
import MesCore.CallHistory
import MesCore.Validators

namespace MesCore
set_option autoImplicit true

structure EfuseConfig where
  nvmemPath : String
  dmesgGrepPattern : String := "ocotp|nvmem|fuse"
  require32bitAlignment : Bool := true

namespace NvmemEfuseValidator

/-- `str.upper`, `int(text, 16)` and `round(x, 3)`. -/
structure Builtins where
  upper : String → String
  int16 : String → Option Int
  round3 : ℚ → ℚ

/-- On ASCII text `str.upper` changes nothing but the small letters. -/
def Builtins.AsciiUpper (lib : Builtins) : Prop :=
  ∀ s : String, (∀ c ∈ s.toList, c.toNat < 128) → lib.upper s = pyUpper s

inductive EfuseCall
  | safeRun (cmd : String) (timeoutMs : Nat)
  | perfCounter
  | sleep (ms : Nat)

@[reducible] def EfuseCall.Ans : EfuseCall → Type
  | .safeRun _ _ => CommandResult
  | .perfCounter => ℚ
  | .sleep _ => Unit

@[reducible] def efuseInterface : Interface where
  Call := EfuseCall
  Ans := EfuseCall.Ans
  Err := Err
  Note := Empty
  Vars := Unit

abbrev EfuseHost := Device efuseInterface

abbrev Efuse (d : EfuseHost) (α : Type) := Prog d α

abbrev EfuseEntry := Entry efuseInterface

abbrev Context := List (String × ContextValue)

/-- `s.replace('0x', '')`. -/
def removeMarks : List Char → List Char
  | '0' :: 'x' :: cs => removeMarks cs
  | c :: cs => c :: removeMarks cs
  | [] => []

/-- The white space that `bytes.fromhex` skips. -/
def isAsciiSpace (c : Char) : Bool := c = ' ' || (9 ≤ c.toNat && c.toNat ≤ 13)

def hexDigit (c : Char) : Option Nat :=
  if '0' ≤ c ∧ c ≤ '9' then some (c.toNat - 48)
  else if 'A' ≤ c ∧ c ≤ 'F' then some (c.toNat - 55)
  else if 'a' ≤ c ∧ c ≤ 'f' then some (c.toNat - 87)
  else none

/-- `bytes.fromhex`. -/
def fromHex : List Char → Option Bytes
  | [] => some []
  | [c] => if isAsciiSpace c then some [] else none
  | c :: d :: cs =>
    if isAsciiSpace c then fromHex (d :: cs)
    else do
      let high ← hexDigit c
      let low ← hexDigit d
      let bs ← fromHex cs
      return UInt8.ofNat (16 * high + low) :: bs

/-- `'00' * num_bytes`. -/
def zeros (numBytes : Nat) : String := String.ofList (List.replicate (2 * numBytes) '0')

section
variable (lib : Builtins) (cfg : EfuseConfig) {d : EfuseHost}

def normalize (hexPayload : String) : String :=
  lib.upper (String.ofList (removeMarks (hexPayload.toList.filter (· ≠ ' '))))

def readCmd (offsetHex : String) (numBytes : Nat) : String :=
  "hexdump -v -e '/1 \"%02X\"' -s " ++ offsetHex ++ " -n " ++ toString numBytes ++ " " ++
    cfg.nvmemPath

def burnCmd (b64Payload : String) (offsetDec : Int) (numBytes : Nat) : String :=
  "echo '" ++ b64Payload ++ "' | base64 -d | dd of=" ++ cfg.nvmemPath ++ " bs=1 seek=" ++
    toString offsetDec ++ " count=" ++ toString numBytes ++ " conv=notrunc"

def dmesgCmd : String := "dmesg | grep -iE '" ++ cfg.dmesgGrepPattern ++ "' | tail -n 10"

def b64encode (data : Bytes) : String :=
  String.ofList ((Base64.encode data).map fun b => Char.ofNat b.toNat)

def safeRun (cmd : String) (timeoutMs : Nat) : Efuse d CommandResult :=
  call (I := efuseInterface) (.safeRun cmd timeoutMs)

def perfCounter : Efuse d ℚ := call (I := efuseInterface) .perfCounter

def sleep (ms : Nat) : Efuse d Unit := call (I := efuseInterface) (.sleep ms)

def readEfuse (offsetHex : String) (numBytes : Nat) : Efuse d String := do
  let res : CommandResult ← safeRun (readCmd cfg offsetHex numBytes) 5000
  if res.ok then
    let val := lib.upper (stripText res.stdout)
    if val.length ≠ numBytes * 2 then
      fail (.osError
        s!"Hexdump returned {val.length / 2} bytes, expected {numBytes}. (Read: {val})")
    else pure val
  else fail (.osError s!"NVMEM read failed: {stripText res.stderr}")

/-- `str(e)` of an `IOError`. -/
def ioMessage : Err → String
  | .osError msg => msg
  | _ => ""

/-- `read_efuse` in a `try` block that turns an `IOError` into a verdict. -/
def tryRead (offsetHex : String) (numBytes : Nat) : Efuse d (Except String String) :=
  attempt (do return .ok (← readEfuse lib cfg offsetHex numBytes)) Err.isOSError fun e =>
    pure (.error (ioMessage e))

def failed (context : Context) (errorMsg : String) : Efuse d ValidatorResult :=
  ofExcept (ValidatorResult.create false [] context errorMsg)

def reportRejected (context : Context) (burnRes : CommandResult) : Efuse d ValidatorResult := do
  let dmesgRes : CommandResult ← safeRun (dmesgCmd cfg) 5000
  let trace := if dmesgRes.ok && dmesgRes.stdout ≠ "" then
      ("kernel_efuse_trace", ContextValue.str (stripText dmesgRes.stdout))
    else ("stderr", .str (stripText burnRes.stderr))
  failed (context ++ [trace]) "Kernel rejected eFuse burn."

/-- The readback after a write that the kernel has taken. -/
def verifyBurn (context : Context) (offsetHex hexPayload : String) (numBytes : Nat) (duration : ℚ) :
    Efuse d ValidatorResult := do
  match ← tryRead lib cfg offsetHex numBytes with
  | .error msg => failed context s!"Post-burn read failed: {msg}"
  | .ok readbackVal =>
    let context := context ++ [("post_burn_state", .str readbackVal)]
    if readbackVal ≠ hexPayload then
      failed context s!"Burn verification failed. Expected: {hexPayload}, Read: {readbackVal}"
    else ofExcept (ValidatorResult.create true [("t_efuse_burn_s", duration)] context "")

def burn (context : Context) (offsetHex hexPayload : String) (payloadBytes : Bytes)
    (offsetDec : Int) :
    Efuse d ValidatorResult := do
  let numBytes := payloadBytes.length
  let t0 : ℚ ← perfCounter
  let burnRes : CommandResult ←
    safeRun (burnCmd cfg (b64encode payloadBytes) offsetDec numBytes) 10000
  let t1 : ℚ ← perfCounter
  sleep 500
  if burnRes.ok then
    verifyBurn lib cfg context offsetHex hexPayload numBytes (lib.round3 (t1 - t0))
  else reportRejected cfg context burnRes

def aligned (offsetDec : Int) (numBytes : Nat) : Bool := offsetDec % 4 = 0 && numBytes % 4 = 0

/-- The context before the first read. An unaligned access is logged and noted here. -/
def initialContext (offsetHex hexPayload : String) (numBytes : Nat) (offsetDec : Int) : Context :=
  [("target_offset", .str offsetHex), ("payload", .str hexPayload)] ++
    if cfg.require32bitAlignment && !aligned offsetDec numBytes then
      [("alignment_warning", .bool true)]
    else []

/-- `burn_efuse` once its arguments are parsed. -/
def burnParsed (offsetHex hexPayload : String) (payloadBytes : Bytes) (offsetDec : Int) :
    Efuse d ValidatorResult := do
  let numBytes := payloadBytes.length
  let context := initialContext cfg offsetHex hexPayload numBytes offsetDec
  match ← tryRead lib cfg offsetHex numBytes with
  | .error msg => failed context msg
  | .ok currentVal =>
    let context := context ++ [("pre_burn_state", .str currentVal)]
    if currentVal = hexPayload then
      ofExcept (ValidatorResult.create true [] (("status", .str "already_burned") :: context) "")
    else if currentVal ≠ zeros numBytes then
      failed context (s!"Region {offsetHex} is dirty (Contains: {currentVal}). " ++
        "Cannot overwrite one-time programmable memory!")
    else burn lib cfg context offsetHex hexPayload payloadBytes offsetDec

def burnEfuse (offsetHex hexPayload : String) : Efuse d ValidatorResult :=
  let hexPayload := normalize lib hexPayload
  match fromHex hexPayload.toList with
  | none => fail (.otherException "non-hexadecimal number found in fromhex() arg")
  | some payloadBytes =>
    match lib.int16 offsetHex with
    | none => fail (.otherException s!"invalid literal for int() with base 16: '{offsetHex}'")
    | some offsetDec => burnParsed lib cfg offsetHex hexPayload payloadBytes offsetDec

end

section
variable (lib : Builtins) (cfg : EfuseConfig)

/-- The entry is a write to the fuses. -/
def IsBurn (e : EfuseEntry) : Prop :=
  ∃ b64Payload offsetDec numBytes timeoutMs r,
    e = .call (.safeRun (burnCmd cfg b64Payload offsetDec numBytes) timeoutMs) r

/-- The entry is a read of the region. `seek` is what hexdump makes of the operand of `-s`. -/
def IsRead (seek : String → Option Int) (offsetDec : Int) (numBytes : Nat)
    (e : EfuseEntry) : Prop :=
  ∃ operand timeoutMs r, seek operand = some offsetDec ∧
    e = .call (.safeRun (readCmd cfg operand numBytes) timeoutMs) r

/-- The last read of the region returned this text. -/
def LastRead (seek : String → Option Int) (offsetDec : Int) (numBytes : Nat) (val : String)
    (seg : List EfuseEntry) : Prop :=
  ∃ before cmd timeoutMs res after,
    seg = before ++ .call (.safeRun cmd timeoutMs) (.ok res) :: after ∧
    IsRead cfg seek offsetDec numBytes (.call (.safeRun cmd timeoutMs) (.ok res)) ∧
    (∀ e ∈ after, ¬ IsRead cfg seek offsetDec numBytes e) ∧
    res.ok = true ∧ lib.upper (stripText res.stdout) = val

/-- The gates before a write. -/
def Gated (seek : String → Option Int) (offsetDec : Int) (numBytes : Nat) (seg : List EfuseEntry) :
    Prop :=
  ∀ before e after, seg = before ++ e :: after → IsBurn cfg e →
    LastRead lib cfg seek offsetDec numBytes (zeros numBytes) before ∧
      (cfg.require32bitAlignment = true → aligned offsetDec numBytes = true)

/-- Every gate of a burn holds, whatever the target answers. -/
def SafeBurn (seek : String → Option Int) (offsetHex hexPayload : String) : Prop :=
  ∀ (d : EfuseHost) (w : World d),
    let run := burnEfuse lib cfg offsetHex hexPayload w
    let seg := w.since (World.after run)
    (seg.Pairwise fun e e' => IsBurn cfg e → ¬ IsBurn cfg e') ∧
      ∀ payloadBytes offsetDec, fromHex (normalize lib hexPayload).toList = some payloadBytes →
        lib.int16 offsetHex = some offsetDec →
        Gated lib cfg seek offsetDec payloadBytes.length seg ∧
          ∀ r w', run = .ok r w' → r.passed = true →
            LastRead lib cfg seek offsetDec payloadBytes.length (normalize lib hexPayload) seg

end

section
variable {lib : Builtins} {cfg : EfuseConfig} {d : EfuseHost} {seek : String → Option Int}
  {offsetHex hexPayload : String} {offsetDec : Int} {numBytes timeoutMs : Nat}

theorem head_append {s t : String} {c : Char} (h : s.toList.head? = some c) :
    (s ++ t).toList.head? = some c := by
  rw [String.toList_append, List.head?_append, h]
  rfl

theorem head_readCmd (cfg : EfuseConfig) (offsetHex : String) (numBytes : Nat) :
    (readCmd cfg offsetHex numBytes).toList.head? = some 'h' :=
  head_append (head_append (head_append (head_append (head_append (by decide)))))

theorem head_burnCmd (cfg : EfuseConfig) (b64Payload : String) (offsetDec : Int) (numBytes : Nat) :
    (burnCmd cfg b64Payload offsetDec numBytes).toList.head? = some 'e' := by
  apply head_append
  exact head_append (head_append (head_append (head_append (head_append (head_append (head_append
    (by decide)))))))

theorem head_dmesgCmd (cfg : EfuseConfig) : (dmesgCmd cfg).toList.head? = some 'd' :=
  head_append (head_append (by decide))

theorem not_isBurn {cmd : String} {c : Char} (h : cmd.toList.head? = some c) (hc : c ≠ 'e')
    (r : Except Err CommandResult) : ¬ IsBurn cfg (.call (.safeRun cmd timeoutMs) r) := by
  intro hburn
  obtain ⟨b64Payload, offsetDec, numBytes, timeoutMs, r, heq⟩ := hburn
  cases heq
  rw [head_burnCmd] at h
  exact hc (Option.some.inj h).symm

theorem not_isBurn_perfCounter (cfg : EfuseConfig) (r : Except Err ℚ) :
    ¬ IsBurn cfg (.call .perfCounter r) := by
  intro hburn
  obtain ⟨_, _, _, _, _, heq⟩ := hburn
  cases heq

theorem not_isRead_perfCounter (r : Except Err ℚ) :
    ¬ IsRead cfg seek offsetDec numBytes (.call .perfCounter r) := by
  intro hread
  obtain ⟨_, _, _, _, heq⟩ := hread
  cases heq

theorem not_isBurn_sleep (ms : Nat) (r : Except Err Unit) : ¬ IsBurn cfg (.call (.sleep ms) r) := by
  intro hburn
  obtain ⟨_, _, _, _, _, heq⟩ := hburn
  cases heq

theorem readCmd_inj {a b : String} (h : readCmd cfg a numBytes = readCmd cfg b numBytes) :
    a = b := by
  have hlist := congrArg String.toList h
  unfold readCmd at hlist
  simp only [String.toList_append] at hlist
  exact String.toList_inj.1 (List.append_cancel_left (List.append_cancel_right
    (List.append_cancel_right (List.append_cancel_right (List.append_cancel_right hlist)))))

/-- The entries of one read of the region, and of what may follow a write. -/
abbrev readEntry (cfg : EfuseConfig) (offsetHex : String) (numBytes : Nat)
    (r : Except Err CommandResult) : EfuseEntry :=
  .call (.safeRun (readCmd cfg offsetHex numBytes) 5000) r

theorem leaves_readEfuse (lib : Builtins) (cfg : EfuseConfig) (offsetHex : String)
    (numBytes : Nat) :
    Leaves (d := d) (readEfuse lib cfg offsetHex numBytes)
      (fun val seg => ∃ res, seg = [readEntry cfg offsetHex numBytes (.ok res)] ∧ res.ok = true ∧
        lib.upper (stripText res.stdout) = val)
      (fun _ seg => ∃ r, seg = [readEntry cfg offsetHex numBytes r]) := by
  apply Leaves.bind_call
  · intro e
    exact ⟨_, rfl⟩
  · intro res
    split
    · dsimp only
      split
      · exact .fail ⟨_, rfl⟩
      · exact .pure ⟨res, rfl, ‹_›, rfl⟩
    · exact .fail ⟨_, rfl⟩

theorem leaves_tryRead (lib : Builtins) (cfg : EfuseConfig) (offsetHex : String) (numBytes : Nat) :
    Leaves (d := d) (tryRead lib cfg offsetHex numBytes)
      (fun v seg => ∃ r, seg = [readEntry cfg offsetHex numBytes r] ∧ ∀ val, v = .ok val →
        ∃ res, r = .ok res ∧ res.ok = true ∧ lib.upper (stripText res.stdout) = val)
      (fun _ seg => ∃ r, seg = [readEntry cfg offsetHex numBytes r]) := by
  apply Leaves.attempt (S := fun _ seg => ∃ r, seg = [readEntry cfg offsetHex numBytes r])
  · apply Leaves.bind (leaves_readEfuse lib cfg offsetHex numBytes)
    intro val s hs
    obtain ⟨res, rfl, hok, hval⟩ := hs
    apply Leaves.pure
    refine ⟨_, rfl, fun val' hval' => ⟨res, rfl, hok, ?_⟩⟩
    cases hval'
    exact hval
  · intro e s hs _
    obtain ⟨r, rfl⟩ := hs
    exact .pure ⟨r, rfl, nofun⟩
  · intro e s hs _
    exact hs

theorem leaves_failed {context : Context} {errorMsg : String}
    {P : ValidatorResult → List EfuseEntry → Prop} {R : Err → List EfuseEntry → Prop}
    (hP : ∀ r, r.passed = false → P r []) (hR : ∀ e, R e []) :
    Leaves (d := d) (failed context errorMsg) P R :=
  .ofExcept (fun r h => hP r (ValidatorResult.create_ok h)) fun e _ => hR e

/-- What may come after a write: no other, and a PASS only on the payload read back. -/
structure Closing (lib : Builtins) (cfg : EfuseConfig) (seek : String → Option Int)
    (offsetDec : Int)
    (numBytes : Nat) (hexPayload : String) (passed : Prop) (seg : List EfuseEntry) : Prop where
  unburned : ∀ e ∈ seg, ¬ IsBurn cfg e
  verified : passed → LastRead lib cfg seek offsetDec numBytes hexPayload seg

theorem Closing.failed {r : ValidatorResult} {seg : List EfuseEntry}
    (hunburned : ∀ e ∈ seg, ¬ IsBurn cfg e) (hr : r.passed = false) :
    Closing lib cfg seek offsetDec numBytes hexPayload (r.passed = true) seg := by
  refine ⟨hunburned, fun h => ?_⟩
  rw [hr] at h
  cases h

theorem lastRead_readEntry (hseek : seek offsetHex = some offsetDec) {res : CommandResult}
    (hok : res.ok = true) {val : String} (hval : lib.upper (stripText res.stdout) = val) :
    LastRead lib cfg seek offsetDec numBytes val [readEntry cfg offsetHex numBytes (.ok res)] :=
  ⟨[], _, _, res, [], rfl, ⟨offsetHex, _, _, hseek, rfl⟩, nofun, hok, hval⟩

theorem LastRead.append {val : String} {seg : List EfuseEntry}
    (h : LastRead lib cfg seek offsetDec numBytes val seg) (s : List EfuseEntry) :
    LastRead lib cfg seek offsetDec numBytes val (s ++ seg) := by
  obtain ⟨before, cmd, timeoutMs, res, after, rfl, h⟩ := h
  exact ⟨s ++ before, cmd, timeoutMs, res, after, (List.append_assoc ..).symm, h⟩

theorem not_isBurn_readEntry (cfg : EfuseConfig) (offsetHex : String) (numBytes : Nat)
    (r : Except Err CommandResult) :
    ∀ e ∈ [readEntry cfg offsetHex numBytes r], ¬ IsBurn cfg e := by
  intro e he
  rw [List.mem_singleton.1 he]
  exact not_isBurn (head_readCmd ..) (by decide) r

theorem leaves_verifyBurn (hseek : seek offsetHex = some offsetDec) (context : Context)
    (duration : ℚ) :
    Leaves (d := d) (verifyBurn lib cfg context offsetHex hexPayload numBytes duration)
      (fun r => Closing lib cfg seek offsetDec numBytes hexPayload (r.passed = true))
      (fun _ => Closing lib cfg seek offsetDec numBytes hexPayload False) := by
  apply Leaves.bind ((leaves_tryRead lib cfg offsetHex numBytes).mono (fun _ _ h => h) ?_)
  · intro v s hs
    obtain ⟨r, rfl, hr⟩ := hs
    have hunburned := not_isBurn_readEntry cfg offsetHex numBytes r
    cases v with
    | error msg =>
      exact leaves_failed (fun r hr => .failed hunburned hr) fun _ => ⟨hunburned, False.elim⟩
    | ok val =>
      obtain ⟨res, rfl, hok, hval⟩ := hr val rfl
      dsimp only
      split
      · exact leaves_failed (fun r hr => .failed hunburned hr) fun _ => ⟨hunburned, False.elim⟩
      · obtain rfl : val = hexPayload := not_not.1 ‹_›
        apply Leaves.ofExcept
        · exact fun r _ => ⟨hunburned, fun _ => lastRead_readEntry hseek hok hval⟩
        · exact fun _ _ => ⟨hunburned, False.elim⟩
  · intro e s hs
    obtain ⟨r, rfl⟩ := hs
    exact ⟨not_isBurn_readEntry cfg offsetHex numBytes r, False.elim⟩

theorem leaves_reportRejected (context : Context) (burnRes : CommandResult) :
    Leaves (d := d) (reportRejected cfg context burnRes)
      (fun r => Closing lib cfg seek offsetDec numBytes hexPayload (r.passed = true))
      (fun _ => Closing lib cfg seek offsetDec numBytes hexPayload False) := by
  have hunburned (r : Except Err CommandResult) :
      ∀ e ∈ [(.call (.safeRun (dmesgCmd cfg) 5000) r : EfuseEntry)], ¬ IsBurn cfg e := by
    intro e he
    rw [List.mem_singleton.1 he]
    exact not_isBurn (head_dmesgCmd cfg) (by decide) r
  apply Leaves.bind_call
  · exact fun e => ⟨hunburned (.error e), False.elim⟩
  · intro res
    exact leaves_failed (fun r hr => .failed (hunburned (.ok res)) hr) fun _ =>
      ⟨hunburned (.ok res), False.elim⟩

theorem Closing.cons {passed : Prop} {seg : List EfuseEntry} {e : EfuseEntry} (he : ¬ IsBurn cfg e)
    (h : Closing lib cfg seek offsetDec numBytes hexPayload passed seg) :
    Closing lib cfg seek offsetDec numBytes hexPayload passed (e :: seg) where
  unburned := List.forall_mem_cons.2 ⟨he, h.unburned⟩
  verified hpassed := (h.verified hpassed).append [e]

/-- What may come after the read of a blank region: at most one write, with no read before it. -/
structure Burning (lib : Builtins) (cfg : EfuseConfig) (seek : String → Option Int)
    (offsetDec : Int)
    (numBytes : Nat) (hexPayload : String) (passed : Prop) (seg : List EfuseEntry) : Prop where
  once : seg.Pairwise fun e e' => IsBurn cfg e → ¬ IsBurn cfg e'
  unread : ∀ before e after, seg = before ++ e :: after → IsBurn cfg e →
    ∀ e' ∈ before, ¬ IsRead cfg seek offsetDec numBytes e'
  verified : passed → LastRead lib cfg seek offsetDec numBytes hexPayload seg

theorem once_of_unburned {seg : List EfuseEntry} (h : ∀ e ∈ seg, ¬ IsBurn cfg e) :
    seg.Pairwise fun e e' => IsBurn cfg e → ¬ IsBurn cfg e' :=
  List.pairwise_of_forall_mem_list fun _ _ e' he' _ => h e' he'

theorem Closing.burning {passed : Prop} {seg : List EfuseEntry}
    (h : Closing lib cfg seek offsetDec numBytes hexPayload passed seg) :
    Burning lib cfg seek offsetDec numBytes hexPayload passed seg where
  once := once_of_unburned h.unburned
  unread before e after hseg he := by
    subst hseg
    exact (h.unburned e (by simp) he).elim
  verified := h.verified

theorem Closing.burn {passed : Prop} {seg : List EfuseEntry} (e : EfuseEntry)
    (h : Closing lib cfg seek offsetDec numBytes hexPayload passed seg) :
    Burning lib cfg seek offsetDec numBytes hexPayload passed (e :: seg) where
  once := List.pairwise_cons.2 ⟨fun e' he' _ => h.unburned e' he', once_of_unburned h.unburned⟩
  unread before e' after hseg he' := by
    cases before with
    | nil => exact nofun
    | cons b before =>
      rw [List.cons_append, List.cons.injEq] at hseg
      obtain ⟨-, rfl⟩ := hseg
      exact (h.unburned e' (by simp) he').elim
  verified hpassed := (h.verified hpassed).append [e]

theorem Burning.cons {passed : Prop} {seg : List EfuseEntry} {e : EfuseEntry} (he : ¬ IsBurn cfg e)
    (he' : ¬ IsRead cfg seek offsetDec numBytes e)
    (h : Burning lib cfg seek offsetDec numBytes hexPayload passed seg) :
    Burning lib cfg seek offsetDec numBytes hexPayload passed (e :: seg) where
  once := List.pairwise_cons.2 ⟨fun _ _ hburn => (he hburn).elim, h.once⟩
  unread before b after hseg hb := by
    cases before with
    | nil => exact nofun
    | cons a before =>
      rw [List.cons_append, List.cons.injEq] at hseg
      obtain ⟨rfl, rfl⟩ := hseg
      exact List.forall_mem_cons.2 ⟨he', h.unread before b after rfl hb⟩
  verified hpassed := (h.verified hpassed).append [e]

theorem leaves_burn (hseek : seek offsetHex = some offsetDec) (context : Context)
    (payloadBytes : Bytes) :
    Leaves (d := d) (burn lib cfg context offsetHex hexPayload payloadBytes offsetDec)
      (fun r => Burning lib cfg seek offsetDec payloadBytes.length hexPayload (r.passed = true))
      (fun _ => Burning lib cfg seek offsetDec payloadBytes.length hexPayload False) := by
  have hnil : Closing lib cfg seek offsetDec payloadBytes.length hexPayload False [] :=
    ⟨nofun, False.elim⟩
  have hclock (r : Except Err ℚ) := not_isBurn_perfCounter cfg r
  have hclock' (r : Except Err ℚ) :
      ¬ IsRead cfg seek offsetDec payloadBytes.length (.call .perfCounter r) :=
    not_isRead_perfCounter r
  apply Leaves.bind_call
  · exact fun e => (hnil.cons (hclock (.error e))).burning
  · intro t0
    apply Leaves.bind_call
    · exact fun e => (hnil.burn _).cons (hclock (.ok t0)) (hclock' (.ok t0))
    · intro burnRes
      apply Leaves.bind_call
      · exact fun e => ((hnil.cons (hclock (.error e))).burn _).cons (hclock (.ok t0))
          (hclock' (.ok t0))
      · intro t1
        apply Leaves.bind_call
        · intro e
          have hslept := (hnil.cons (not_isBurn_sleep 500 (.error e))).cons (hclock (.ok t1))
          exact (hslept.burn _).cons (hclock (.ok t0)) (hclock' (.ok t0))
        · intro _
          have hclosing {passed : Prop} {seg : List EfuseEntry}
              (h : Closing lib cfg seek offsetDec payloadBytes.length hexPayload passed seg) :=
            let cmd := burnCmd cfg (b64encode payloadBytes) offsetDec payloadBytes.length
            (((h.cons (not_isBurn_sleep 500 (.ok ()))).cons (hclock (.ok t1))).burn
              (.call (.safeRun cmd 10000) (.ok burnRes))).cons (hclock (.ok t0)) (hclock' (.ok t0))
          split
          · exact (leaves_verifyBurn hseek _ _).mono
              (fun _ _ h => hclosing h) fun _ _ h => hclosing h
          · exact (leaves_reportRejected _ _).mono (fun _ _ h => hclosing h) fun _ _ h => hclosing h

end

section
variable {lib : Builtins} {cfg : EfuseConfig} {seek : String → Option Int}
  {offsetHex hexPayload : String} {offsetDec : Int} {payloadBytes : Bytes}

/-- What a run leaves behind, with its verdict. -/
structure Safe (lib : Builtins) (cfg : EfuseConfig) (seek : String → Option Int) (offsetDec : Int)
    (numBytes : Nat) (hexPayload : String) (passed : Prop) (seg : List EfuseEntry) : Prop where
  once : seg.Pairwise fun e e' => IsBurn cfg e → ¬ IsBurn cfg e'
  gated : Gated lib cfg seek offsetDec numBytes seg
  verified : passed → LastRead lib cfg seek offsetDec numBytes hexPayload seg

theorem safe_readEntry {numBytes : Nat} {passed : Prop} (r : Except Err CommandResult)
    (hverified : passed → LastRead lib cfg seek offsetDec numBytes hexPayload
      [readEntry cfg offsetHex numBytes r]) :
    Safe lib cfg seek offsetDec numBytes hexPayload passed
      [readEntry cfg offsetHex numBytes r] where
  once := List.pairwise_singleton ..
  gated before e after hseg he :=
    (not_isBurn_readEntry cfg offsetHex numBytes r e (by rw [hseg]; simp) he).elim
  verified := hverified

theorem Burning.safe {numBytes : Nat} {passed : Prop} {mid : List EfuseEntry} {res : CommandResult}
    (hseek : seek offsetHex = some offsetDec) (hok : res.ok = true)
    (hblank : lib.upper (stripText res.stdout) = zeros numBytes)
    (haligned : cfg.require32bitAlignment = true → aligned offsetDec numBytes = true)
    (h : Burning lib cfg seek offsetDec numBytes hexPayload passed mid) :
    Safe lib cfg seek offsetDec numBytes hexPayload passed
      (readEntry cfg offsetHex numBytes (.ok res) :: mid) where
  once := by
    refine List.pairwise_cons.2 ⟨fun _ _ hburn => ?_, h.once⟩
    exact (not_isBurn_readEntry _ _ _ _ _ (List.mem_singleton_self _) hburn).elim
  gated before e after hseg he := by
    cases before with
    | nil =>
      rw [List.nil_append, List.cons.injEq] at hseg
      rw [← hseg.1] at he
      exact (not_isBurn_readEntry _ _ _ _ _ (List.mem_singleton_self _) he).elim
    | cons a before =>
      rw [List.cons_append, List.cons.injEq] at hseg
      obtain ⟨rfl, hmid⟩ := hseg
      exact ⟨⟨[], _, _, res, before, rfl, ⟨offsetHex, _, _, hseek, rfl⟩,
        h.unread before e after hmid he,
        hok, hblank⟩, haligned⟩
  verified hpassed := (h.verified hpassed).append [_]

theorem leaves_burnParsed (lib : Builtins) {d : EfuseHost} (hseek : seek offsetHex = some offsetDec)
    (haligned : hexPayload ≠ zeros payloadBytes.length → cfg.require32bitAlignment = true →
      aligned offsetDec payloadBytes.length = true) :
    Leaves (d := d) (burnParsed lib cfg offsetHex hexPayload payloadBytes offsetDec)
      (fun r => Safe lib cfg seek offsetDec payloadBytes.length hexPayload (r.passed = true))
      (fun _ => Safe lib cfg seek offsetDec payloadBytes.length hexPayload False) := by
  apply Leaves.bind ((leaves_tryRead lib cfg offsetHex payloadBytes.length).mono
    (fun _ _ h => h) ?_)
  · intro v s hs
    obtain ⟨r, rfl, hr⟩ := hs
    have hfailed (r' : ValidatorResult) (hr' : r'.passed = false) :
        Safe lib cfg seek offsetDec payloadBytes.length hexPayload (r'.passed = true)
          [readEntry cfg offsetHex payloadBytes.length r] := by
      apply safe_readEntry
      rw [hr']
      exact nofun
    have hraised : Safe lib cfg seek offsetDec payloadBytes.length hexPayload False
        [readEntry cfg offsetHex payloadBytes.length r] := safe_readEntry r False.elim
    cases v with
    | error msg => exact leaves_failed hfailed fun _ => hraised
    | ok val =>
      obtain ⟨res, rfl, hok, hval⟩ := hr val rfl
      dsimp only
      split
      · obtain rfl : val = hexPayload := ‹_›
        apply Leaves.ofExcept
        · exact fun r' _ => safe_readEntry _ fun _ => lastRead_readEntry hseek hok hval
        · exact fun _ _ => hraised
      · split
        · exact leaves_failed hfailed fun _ => hraised
        · obtain rfl : val = zeros payloadBytes.length := not_not.1 ‹_›
          have hgate := haligned (Ne.symm ‹_›)
          exact (leaves_burn hseek _ _).mono (fun _ _ h => h.safe hseek hok hval hgate)
            fun _ _ h => h.safe hseek hok hval hgate
  · intro e s hs
    obtain ⟨r, rfl⟩ := hs
    exact safe_readEntry r False.elim

end

/-- The region is blank, and the write is refused by the transport. -/
def refusing (text : String) : EfuseHost where
  State := Unit
  respond
    | .safeRun _ timeoutMs, s =>
      (if timeoutMs = 5000 then .ok { stdout := text } else .error (.transportTimeoutError ""), s)
    | .perfCounter, s => (.ok 0, s)
    | .sleep _, s => (.ok (), s)

section
variable {lib : Builtins} {cfg : EfuseConfig} {seek : String → Option Int}
  {offsetHex hexPayload : String} {offsetDec : Int} {payloadBytes : Bytes}

theorem upper_zeros (hupper : lib.AsciiUpper) (n : Nat) :
    lib.upper (stripText (zeros n)) = zeros n := by
  have hstrip : stripText (zeros n) = zeros n := by
    rw [stripText, zeros, String.toList_ofList, pyStrip_eq_self]
    intro c hc
    rw [List.eq_of_mem_replicate hc]
    decide
  rw [hstrip, hupper, pyUpper, zeros, String.toList_ofList, List.map_replicate]
  · rfl
  · intro c hc
    rw [zeros, String.toList_ofList] at hc
    rw [List.eq_of_mem_replicate hc]
    decide

theorem tryRead_refusing (hupper : lib.AsciiUpper) (cfg : EfuseConfig) (offsetHex : String)
    (numBytes : Nat)
    (w : World (refusing (zeros numBytes))) :
    ∃ w', tryRead lib cfg offsetHex numBytes w = .ok (.ok (zeros numBytes)) w' ∧
      w'.trace = w.trace ++ [readEntry cfg offsetHex numBytes
        (.ok { stdout := zeros numBytes })] := by
  have hlength : (zeros numBytes).length = numBytes * 2 := by
    rw [zeros, String.length_ofList, List.length_replicate, Nat.mul_comm]
  have hread : readEfuse lib cfg offsetHex numBytes w = .ok (zeros numBytes) { w with
      trace := w.trace ++ [readEntry cfg offsetHex numBytes
        (.ok { stdout := zeros numBytes })] } := by
    have hcall := call_of_respond (c := .safeRun (readCmd cfg offsetHex numBytes) 5000) (w := w)
      (d := refusing (zeros numBytes)) (a := { stdout := zeros numBytes }) (s := ()) rfl
    rw [readEfuse, safeRun, bind_of_ok hcall]
    dsimp only
    rw [if_pos rfl, upper_zeros hupper, if_neg (not_not.2 hlength)]
    rfl
  refine ⟨{ w with
      trace := w.trace ++ [readEntry cfg offsetHex numBytes (.ok { stdout := zeros numBytes })] },
        ?_, rfl⟩
  rw [tryRead, attempt, bind_of_ok hread]
  rfl

/-- What was read is the region, if the last read of the region is among these. -/
theorem LastRead.seek_eq {numBytes : Nat} {val : String} {seg : List EfuseEntry}
    (h : LastRead lib cfg seek offsetDec numBytes val seg) (offsetHex : String)
    (hseg : ∀ e ∈ seg, (∃ r, e = readEntry cfg offsetHex numBytes r) ∨
      ¬ IsRead cfg seek offsetDec numBytes e) : seek offsetHex = some offsetDec := by
  obtain ⟨before, cmd, timeoutMs, res, after, rfl, hread, -⟩ := h
  obtain ⟨r, heq⟩ | hother := hseg _ (List.mem_append_right _ List.mem_cons_self)
  · obtain ⟨operand, timeoutMs', r', hseek, heq'⟩ := hread
    cases heq
    injection heq' with hcall
    injection hcall with hcmd
    rwa [readCmd_inj hcmd]
  · exact (hother hread).elim

theorem burnParsed_blank (hupper : lib.AsciiUpper) (cfg : EfuseConfig) (offsetHex : String)
    (offsetDec : Int)
    (hblank : hexPayload = zeros payloadBytes.length) :
    ∃ r w, burnParsed lib cfg offsetHex hexPayload payloadBytes offsetDec
        (⟨(), (), []⟩ : World (refusing (zeros payloadBytes.length))) = .ok r w ∧
      r.passed = true ∧ ∃ r', w.trace = [readEntry cfg offsetHex payloadBytes.length r'] := by
  obtain ⟨w₁, hread, htrace⟩ := tryRead_refusing hupper cfg offsetHex payloadBytes.length
    ⟨(), (), []⟩
  obtain ⟨r, hcreate, hr⟩ := ValidatorResult.create_passed [] (("status", .str "already_burned") ::
    (initialContext cfg offsetHex hexPayload payloadBytes.length offsetDec ++
      [("pre_burn_state", .str (zeros payloadBytes.length))]))
  refine ⟨r, w₁, ?_, hr, _, htrace⟩
  rw [burnParsed, bind_of_ok hread]
  dsimp only
  rw [if_pos hblank.symm]
  exact ofExcept_of_ok hcreate w₁

theorem burnParsed_refused (hupper : lib.AsciiUpper) (cfg : EfuseConfig) (offsetHex : String)
    (offsetDec : Int)
    (hpayload : hexPayload ≠ zeros payloadBytes.length) :
    ∃ e w, burnParsed lib cfg offsetHex hexPayload payloadBytes offsetDec
        (⟨(), (), []⟩ : World (refusing (zeros payloadBytes.length))) = .error e w ∧
      ∃ r, w.trace = [readEntry cfg offsetHex payloadBytes.length r, .call .perfCounter (.ok 0),
        .call (.safeRun (burnCmd cfg (b64encode payloadBytes) offsetDec payloadBytes.length) 10000)
          (.error (.transportTimeoutError ""))] := by
  obtain ⟨w₁, hread, htrace⟩ := tryRead_refusing hupper cfg offsetHex payloadBytes.length
    ⟨(), (), []⟩
  refine ⟨.transportTimeoutError "", { w₁ with trace := w₁.trace ++ [.call .perfCounter (.ok 0)] ++
    [.call (.safeRun (burnCmd cfg (b64encode payloadBytes) offsetDec payloadBytes.length) 10000)
      (.error (.transportTimeoutError ""))] }, ?_, .ok { stdout := zeros payloadBytes.length }, ?_⟩
  · rw [burnParsed, bind_of_ok hread]
    dsimp only
    rw [if_neg (Ne.symm hpayload), if_neg (not_not.2 rfl)]
    rfl
  · rw [htrace]
    rfl

theorem burnEfuse_parsed {d : EfuseHost} (hbytes : fromHex (normalize lib hexPayload).toList =
    some payloadBytes) (hoffset : lib.int16 offsetHex = some offsetDec) :
    (burnEfuse lib cfg offsetHex hexPayload : Efuse d ValidatorResult) =
      burnParsed lib cfg offsetHex (normalize lib hexPayload) payloadBytes offsetDec := by
  unfold burnEfuse
  dsimp only
  rw [hbytes]
  dsimp only
  rw [hoffset]

theorem burnEfuse_unparsed (cfg : EfuseConfig) {d : EfuseHost} (h : ∀ payloadBytes offsetDec,
    fromHex (normalize lib hexPayload).toList = some payloadBytes →
      lib.int16 offsetHex ≠ some offsetDec) :
    ∃ e, (burnEfuse lib cfg offsetHex hexPayload : Efuse d ValidatorResult) = fail e := by
  unfold burnEfuse
  dsimp only
  split
  · exact ⟨_, rfl⟩
  · split
    · exact ⟨_, rfl⟩
    · exact (h _ _ ‹_› ‹_›).elim

theorem SafeBurn.seek_eq (hupper : lib.AsciiUpper) (h : SafeBurn lib cfg seek offsetHex hexPayload)
    (hbytes : fromHex (normalize lib hexPayload).toList = some payloadBytes)
    (hoffset : lib.int16 offsetHex = some offsetDec)
    (hblank : normalize lib hexPayload = zeros payloadBytes.length) :
    seek offsetHex = some offsetDec := by
  obtain ⟨-, h⟩ := h (refusing (zeros payloadBytes.length)) ⟨(), (), []⟩
  obtain ⟨-, hverified⟩ := h payloadBytes offsetDec hbytes hoffset
  rw [burnEfuse_parsed hbytes hoffset] at hverified
  obtain ⟨r, w, hw, hr, r', htrace⟩ := burnParsed_blank hupper cfg offsetHex offsetDec
    hblank
  have hlast := hverified r w hw hr
  apply hlast.seek_eq offsetHex
  rw [hw, World.after_ok, World.since_eq (List.nil_append _).symm, htrace]
  exact fun e he => .inl ⟨r', List.mem_singleton.1 he⟩

/-- A region that the target calls blank is written, so the gates before the write must hold. -/
theorem SafeBurn.gates (hupper : lib.AsciiUpper) (h : SafeBurn lib cfg seek offsetHex hexPayload)
    (hbytes : fromHex (normalize lib hexPayload).toList = some payloadBytes)
    (hoffset : lib.int16 offsetHex = some offsetDec)
    (hpayload : normalize lib hexPayload ≠ zeros payloadBytes.length) :
    seek offsetHex = some offsetDec ∧
      (cfg.require32bitAlignment = true → aligned offsetDec payloadBytes.length = true) := by
  obtain ⟨-, h⟩ := h (refusing (zeros payloadBytes.length)) ⟨(), (), []⟩
  obtain ⟨hgated, -⟩ := h payloadBytes offsetDec hbytes hoffset
  rw [burnEfuse_parsed hbytes hoffset] at hgated
  obtain ⟨e, w, hw, r, htrace⟩ := burnParsed_refused hupper cfg offsetHex offsetDec hpayload
  rw [hw, World.after_error, World.since_eq (List.nil_append _).symm, htrace] at hgated
  obtain ⟨hlast, haligned⟩ := hgated [_, _] _ [] rfl ⟨_, _, _, _, _, rfl⟩
  refine ⟨hlast.seek_eq offsetHex ?_, haligned⟩
  intro e he
  rw [List.mem_pair] at he
  obtain rfl | rfl := he
  · exact .inl ⟨r, rfl⟩
  · exact .inr (not_isRead_perfCounter _)

theorem safe_burnParsed (lib : Builtins) {d : EfuseHost} (hseek : seek offsetHex = some offsetDec)
    (haligned : hexPayload ≠ zeros payloadBytes.length → cfg.require32bitAlignment = true →
      aligned offsetDec payloadBytes.length = true) (w : World d) :
    let run := burnParsed lib cfg offsetHex hexPayload payloadBytes offsetDec w
    Safe lib cfg seek offsetDec payloadBytes.length hexPayload
      (∃ r w', run = .ok r w' ∧ r.passed = true) (w.since (World.after run)) := by
  have hleaves := leaves_burnParsed (d := d) lib hseek haligned
  intro run
  cases hrun : run with
  | ok r w' =>
    obtain ⟨honce, hgated, hverified⟩ := hleaves.ok hrun
    refine ⟨honce, hgated, fun hpassed => hverified ?_⟩
    obtain ⟨r', w'', heq, hr⟩ := hpassed
    cases heq
    exact hr
  | error e w' =>
    obtain ⟨honce, hgated, -⟩ := hleaves.error hrun
    refine ⟨honce, hgated, fun hpassed => ?_⟩
    obtain ⟨r', w'', heq, -⟩ := hpassed
    cases heq

/-- The gates of a burn hold exactly where hexdump reads the offset as the hexadecimal number that
it is to `dd`, and a payload that is not all zeros is aligned as the configuration requires. -/
theorem safeBurn_iff (hupper : lib.AsciiUpper) (cfg : EfuseConfig) (seek : String → Option Int)
    (offsetHex hexPayload : String) :
    SafeBurn lib cfg seek offsetHex hexPayload ↔ ∀ payloadBytes offsetDec,
      fromHex (normalize lib hexPayload).toList = some payloadBytes →
      lib.int16 offsetHex = some offsetDec →
        seek offsetHex = some offsetDec ∧
          (normalize lib hexPayload ≠ zeros payloadBytes.length →
            cfg.require32bitAlignment = true → aligned offsetDec payloadBytes.length = true) := by
  constructor
  · intro h payloadBytes offsetDec hbytes hoffset
    by_cases hblank : normalize lib hexPayload = zeros payloadBytes.length
    · exact ⟨h.seek_eq hupper hbytes hoffset hblank, fun hpayload => (hpayload hblank).elim⟩
    · obtain ⟨hseek, haligned⟩ := h.gates hupper hbytes hoffset hblank
      exact ⟨hseek, fun _ => haligned⟩
  · intro h d w
    by_cases hparsed : ∃ payloadBytes offsetDec,
        fromHex (normalize lib hexPayload).toList = some payloadBytes ∧
          lib.int16 offsetHex = some offsetDec
    · obtain ⟨payloadBytes, offsetDec, hbytes, hoffset⟩ := hparsed
      obtain ⟨hseek, haligned⟩ := h payloadBytes offsetDec hbytes hoffset
      have hsafe := safe_burnParsed lib hseek haligned w
      rw [burnEfuse_parsed hbytes hoffset]
      refine ⟨hsafe.once, fun payloadBytes' offsetDec' hbytes' hoffset' => ?_⟩
      rw [hbytes] at hbytes'
      rw [hoffset] at hoffset'
      cases hbytes'
      cases hoffset'
      exact ⟨hsafe.gated, fun r w' hrun hr => hsafe.verified ⟨r, w', hrun, hr⟩⟩
    · have hunparsed (payloadBytes : Bytes) (offsetDec : Int)
          (hbytes : fromHex (normalize lib hexPayload).toList = some payloadBytes) :
          lib.int16 offsetHex ≠ some offsetDec :=
        fun hoffset => hparsed ⟨payloadBytes, offsetDec, hbytes, hoffset⟩
      obtain ⟨e, he⟩ := burnEfuse_unparsed (d := d) cfg hunparsed
      refine ⟨?_, fun payloadBytes offsetDec hbytes hoffset => (hunparsed _ _ hbytes hoffset).elim⟩
      rw [he]
      exact Leaves.after (.fail List.Pairwise.nil) w

end

def digitsValue (base : Nat) (ds : List Char) : Option Int := do
  let values ← ds.mapM hexDigit
  if ds = [] ∨ values.any (base ≤ ·) = true then none
  else some (Int.ofNat (values.foldl (fun n v => n * base + v) 0))

def asciiBuiltins : Builtins where
  upper := pyUpper
  int16 s := match s.toList with
    | '0' :: 'x' :: ds => digitsValue 16 ds
    | ds => digitsValue 16 ds
  round3 := id

/-- `-s` of hexdump: a decimal number, a hexadecimal one after `0x`, an octal one after `0`. -/
def hexdumpSeek (s : String) : Option Int :=
  match s.toList with
  | '0' :: 'x' :: ds => digitsValue 16 ds
  | '0' :: d :: ds => digitsValue 8 (d :: ds)
  | ds => digitsValue 10 ds

def imxOcotp : EfuseConfig := { nvmemPath := "/sys/bus/nvmem/devices/imx-ocotp0/nvmem" }

theorem safeBurn_word : SafeBurn asciiBuiltins imxOcotp hexdumpSeek "0x10" "0xDEADBEEF" := by
  apply (safeBurn_iff (fun _ _ => rfl) imxOcotp hexdumpSeek "0x10" "0xDEADBEEF").2
  intro payloadBytes offsetDec hbytes hoffset
  have hpayload : fromHex (normalize asciiBuiltins "0xDEADBEEF").toList =
      some [0xDE, 0xAD, 0xBE, 0xEF] := by
    decide +kernel
  have hsixteen : asciiBuiltins.int16 "0x10" = some 16 := by decide +kernel
  rw [hpayload] at hbytes
  rw [hsixteen] at hoffset
  cases hbytes
  cases hoffset
  exact ⟨by decide +kernel, fun _ _ => by decide⟩

/-- Two bytes at offset 2 are written where every access must be aligned. -/
theorem safeBurn_unaligned : imxOcotp.require32bitAlignment = true ∧
    ¬ SafeBurn asciiBuiltins imxOcotp hexdumpSeek "0x2" "BEEF" := by
  refine ⟨rfl, fun h => ?_⟩
  have hpayload : fromHex (normalize asciiBuiltins "BEEF").toList = some [0xBE, 0xEF] := by
    decide +kernel
  have hoffset : asciiBuiltins.int16 "0x2" = some 2 := by decide +kernel
  have hgates := (h.gates (fun _ _ => rfl) hpayload hoffset (by decide +kernel)).2 rfl
  exact absurd hgates (by decide)

end NvmemEfuseValidator
end MesCore
