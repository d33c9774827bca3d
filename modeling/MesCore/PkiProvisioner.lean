import MesCore.Base64
import MesCore.CallHistory
import MesCore.Hardware
import MesCore.Shell

namespace MesCore
set_option autoImplicit true

namespace Pki

/-- `hashlib.sha256(..).hexdigest()`: 64 characters, none of them a blank. -/
structure Sha256 where
  hexdigest : Bytes → String
  length : ∀ data, (hexdigest data).length = 64
  solid : ∀ data, ∀ c ∈ (hexdigest data).toList, isPySpace c = false

instance : Inhabited Sha256 where
  default :=
    { hexdigest := fun _ => String.ofList (List.replicate 64 '0')
      length := fun _ => rfl
      solid := fun _ c hc => by
        rw [String.toList_ofList] at hc
        rw [List.eq_of_mem_replicate hc]
        decide }

/-- What is asked of a target, whose shell takes each path as one ordinary word. -/
inductive Cmd
  | sha256sum (path : String)
  | chmod (permissions path : String)
  | mkdir (dir : String)
  | truncate (path : String)
  | echo (chunk : Bytes) (path : String)
  | base64 (temp path : String)
  | rm (path : String)
  deriving DecidableEq

def chunkText (chunk : Bytes) : String := String.ofList (chunk.map fun b => Char.ofNat b.toNat)

def Cmd.text : Cmd → String
  | .sha256sum path => "sha256sum " ++ path ++ " 2>/dev/null | awk '\x7bprint $1\x7d'"
  | .chmod permissions path => "chmod " ++ permissions ++ " " ++ path
  | .mkdir dir => "mkdir -p " ++ dir
  | .truncate path => "> " ++ path
  | .echo chunk path => "echo '" ++ chunkText chunk ++ "' >> " ++ path
  | .base64 temp path => "base64 -d " ++ temp ++ " > " ++ path
  | .rm path => "rm -f " ++ path

inductive PkiErr
  | provisioningError (msg : String)
  | raised (e : Err)
  deriving DecidableEq

inductive PkiCall
  | safeRun (cmd : Cmd) (sensitive : Bool)
  | sleep (ms : Nat)

@[reducible] def PkiCall.Ans : PkiCall → Type
  | .safeRun _ _ => CommandResult
  | .sleep _ => Unit

@[reducible] def pkiInterface : Interface where
  Call := PkiCall
  Ans := PkiCall.Ans
  Err := PkiErr
  Note := Empty
  Vars := Unit

abbrev Target := Device pkiInterface

abbrev PkiM (d : Target) (α : Type) := Prog d α

abbrev PkiEntry := Entry pkiInterface

/-- `b64_chunks`. -/
def b64Chunks (rawData : Bytes) : List Bytes := blocks 63 (Base64.encode rawData)

/-- `'/'.join(remote_dest.split('/')[:-1])`. -/
def remoteDir (remoteDest : String) : String :=
  String.ofList ((remoteDest.toList.reverse.dropWhile (· ≠ '/')).drop 1).reverse

def b64Temp (remoteDest : String) : String := remoteDest ++ ".b64"

section
variable {d : Target}

def safeRun (cmd : Cmd) (sensitive : Bool) : PkiM d CommandResult :=
  call (I := pkiInterface) (.safeRun cmd sensitive)

def sleep (ms : Nat) : PkiM d Unit := call (I := pkiInterface) (.sleep ms)

def sendChunks (temp : String) : List Bytes → PkiM d Unit
  | [] => pure ()
  | chunk :: chunks => do
    let resChunk : CommandResult ← safeRun (.echo chunk temp) true
    if resChunk.exited ≠ 0 then
      fail (.provisioningError
        ("Failed to write payload chunk to DUT: " ++ stripText resChunk.stderr))
    else do
      sleep 50
      sendChunks temp chunks

/-- The hash is asked for again, and a file with another one destroyed. -/
def verifyTransit (localHash remoteDest permissions : String) : PkiM d Unit := do
  let _ : CommandResult ← safeRun (.chmod permissions remoteDest) false
  let resHash : CommandResult ← safeRun (.sha256sum remoteDest) false
  if localHash ≠ stripText resHash.stdout then do
    let _ : CommandResult ← safeRun (.rm remoteDest) false
    fail (.provisioningError
      "Cryptographic transit failure. Corrupted payload destroyed on target.")
  else pure ()

def decodePayload (localHash remoteDest permissions : String) : PkiM d Unit := do
  let resDecode : CommandResult ← safeRun (.base64 (b64Temp remoteDest) remoteDest) false
  let _ : CommandResult ← safeRun (.rm (b64Temp remoteDest)) false
  if resDecode.exited ≠ 0 then
    fail (.provisioningError
      ("Failed to decode base64 payload on DUT: " ++ stripText resDecode.stderr))
  else verifyTransit localHash remoteDest permissions

/-- The transit of a credential that is not on the target yet. -/
def transmit (rawData : Bytes) (localHash remoteDest permissions : String) : PkiM d Unit := do
  let _ : CommandResult ← safeRun (.mkdir (remoteDir remoteDest)) false
  let _ : CommandResult ← safeRun (.truncate (b64Temp remoteDest)) false
  sendChunks (b64Temp remoteDest) (b64Chunks rawData)
  decodePayload localHash remoteDest permissions

def injectCredential (lib : Sha256) (rawData : Bytes) (remoteDest permissions : String) :
    PkiM d Unit := do
  let resCheck : CommandResult ← safeRun (.sha256sum remoteDest) false
  if resCheck.exited = 0 ∧ stripText resCheck.stdout = lib.hexdigest rawData then do
    let _ : CommandResult ← safeRun (.chmod permissions remoteDest) false
    pure ()
  else transmit rawData (lib.hexdigest rawData) remoteDest permissions

/-- `provision_credential`, with what the local file holds. -/
def provisionCredential (lib : Sha256) (localFilepath : String) (content : Option Bytes)
    (remoteDest permissions : String) : PkiM d Unit :=
  match content with
  | none => fail (.provisioningError s!"Local credential file not found at {localFilepath}")
  | some rawData => injectCredential lib rawData remoteDest permissions

end

/-- What `sha256sum` is read to have said about a file. -/
def hashOf (path : String) : PkiEntry → Option String
  | .call (.safeRun (.sha256sum p) _) (.ok (res : CommandResult)) =>
    if p = path then some (stripText res.stdout) else none
  | _ => none

def lastHash (path : String) (h : List PkiEntry) : Option String :=
  (h.filterMap (hashOf path)).getLast?

/-- A command, and whether the target has answered that it succeeded. -/
abbrev Attempt := Cmd × Bool

def attemptOf : PkiEntry → Option Attempt
  | .call (.safeRun cmd _) (.ok (res : CommandResult)) => some (cmd, res.exited = 0)
  | .call (.safeRun cmd _) (.error _) => some (cmd, false)
  | _ => none

def attempts (h : List PkiEntry) : List Attempt := h.filterMap attemptOf

section
variable {d : Target} {content : Bytes} {dest : String}

theorem leaves_ignored {cmd : Cmd} {sensitive : Bool} {k : CommandResult → PkiM d Unit}
    {P : Unit → List PkiEntry → Prop}
    (hk : ∀ res, Leaves (k res)
      (fun a seg => P a (.call (.safeRun cmd sensitive) (.ok res) :: seg)) fun _ _ => True) :
    Leaves (safeRun cmd sensitive >>= k) P fun _ _ => True :=
  Leaves.bind_call (fun _ => trivial) hk

theorem lastHash_append {h h' : List PkiEntry} {hash : String}
    (hlast : lastHash dest h' = some hash) : lastHash dest (h ++ h') = some hash := by
  rw [lastHash, List.filterMap_append, List.getLast?_append]
  exact Option.or_eq_some_iff.2 (.inl hlast)

theorem lastHash_cons {e : PkiEntry} {h : List PkiEntry} {hash : String}
    (hlast : lastHash dest h = some hash) : lastHash dest (e :: h) = some hash :=
  lastHash_append (h := [e]) hlast

theorem lastHash_sha256sum (dest : String) (res : CommandResult) :
    lastHash dest [.call (.safeRun (.sha256sum dest) false) (.ok res)] =
      some (stripText res.stdout) := by
  rw [lastHash, List.filterMap_cons, hashOf, if_pos rfl]
  rfl

theorem attempts_append (h h' : List PkiEntry) :
    attempts (h ++ h') = attempts h ++ attempts h' := List.filterMap_append

theorem attempts_answered (cmd : Cmd) (sensitive : Bool) (res : CommandResult)
    (h : List PkiEntry) : attempts (.call (.safeRun cmd sensitive) (.ok res) :: h) =
      (cmd, decide (res.exited = 0)) :: attempts h := rfl

theorem attempts_sleep (ms : Nat) (r : Except PkiErr Unit) (h : List PkiEntry) :
    attempts (.call (.sleep ms) r :: h) = attempts h := by
  cases r <;> rfl

def sent (temp : String) (chunks : List Bytes) : List Attempt :=
  chunks.map fun chunk => (.echo chunk temp, true)

theorem sendChunks_leaves (temp : String) (chunks : List Bytes) :
    Leaves (sendChunks temp chunks : PkiM d Unit) (fun _ seg => attempts seg = sent temp chunks)
      fun _ seg => ∃ before chunk behind ok, chunks = before ++ chunk :: behind ∧
        attempts seg = sent temp before ++ [(.echo chunk temp, ok)] := by
  induction chunks with
  | nil => exact Leaves.pure rfl
  | cons chunk chunks ih =>
    apply Leaves.bind_call
    · exact fun _ => ⟨[], chunk, chunks, false, rfl, rfl⟩
    · intro resChunk
      by_cases hexit : resChunk.exited = 0
      · have hanswered (seg : List PkiEntry) :
            attempts (.call (.safeRun (.echo chunk temp) true) (.ok resChunk) :: seg) =
              (.echo chunk temp, true) :: attempts seg := by
          rw [attempts_answered, decide_eq_true hexit]
        rw [if_neg (not_not.2 hexit)]
        apply Leaves.bind_call
        · intro _
          refine ⟨[], chunk, chunks, true, rfl, ?_⟩
          rw [hanswered]
          rfl
        · intro _
          apply ih.mono
          · intro _ seg hseg
            rw [hanswered, attempts_sleep, hseg]
            rfl
          · intro _ seg hseg
            obtain ⟨before, last, behind, ok, rfl, hseg⟩ := hseg
            refine ⟨chunk :: before, last, behind, ok, rfl, ?_⟩
            rw [hanswered, attempts_sleep, hseg]
            rfl
      · rw [if_pos hexit]
        apply Leaves.fail
        refine ⟨[], chunk, chunks, false, rfl, ?_⟩
        rw [attempts_answered, decide_eq_false hexit]
        rfl

theorem verifyTransit_leaves (localHash dest permissions : String) :
    Leaves (verifyTransit localHash dest permissions : PkiM d Unit)
      (fun _ seg => lastHash dest seg = some localHash) fun _ _ => True := by
  apply leaves_ignored
  intro _
  apply leaves_ignored
  intro resHash
  by_cases hhash : localHash = stripText resHash.stdout
  · rw [if_neg (not_not.2 hhash), hhash]
    exact Leaves.pure (lastHash_cons (lastHash_sha256sum dest resHash))
  · rw [if_pos hhash]
    apply leaves_ignored
    intro _
    exact Leaves.fail trivial

theorem decodePayload_leaves (localHash dest permissions : String) :
    Leaves (decodePayload localHash dest permissions : PkiM d Unit)
      (fun _ seg => lastHash dest seg = some localHash) fun _ _ => True := by
  apply leaves_ignored
  intro resDecode
  apply leaves_ignored
  intro _
  split
  · exact Leaves.fail trivial
  · apply (verifyTransit_leaves localHash dest permissions).mono
    · intro _ seg hseg
      exact lastHash_cons (lastHash_cons hseg)
    · exact fun _ _ h => h

/-- Whatever the target does, a call returns on the hash that was last read. -/
theorem provisionCredential_leaves (lib : Sha256) (localFilepath : String) (content : Bytes)
    (dest permissions : String) :
    Leaves (provisionCredential lib localFilepath (some content) dest permissions : PkiM d Unit)
      (fun _ seg => lastHash dest seg = some (lib.hexdigest content)) fun _ _ => True := by
  apply leaves_ignored
  intro resCheck
  split
  · apply leaves_ignored
    intro _
    apply Leaves.pure
    have hhash : stripText resCheck.stdout = lib.hexdigest content := And.right ‹_›
    rw [← hhash]
    exact lastHash_sha256sum dest resCheck
  · apply leaves_ignored
    intro _
    apply leaves_ignored
    intro _
    apply Leaves.bind ((sendChunks_leaves (b64Temp dest) (b64Chunks content)).mono
      (fun _ _ h => h) fun _ _ _ => trivial)
    intro _ s _
    apply (decodePayload_leaves (lib.hexdigest content) dest permissions).mono
    · intro _ seg hseg
      exact lastHash_cons (lastHash_cons (lastHash_cons (lastHash_append hseg)))
    · exact fun _ _ h => h

theorem flatten_b64Chunks (content : Bytes) : (b64Chunks content).flatten = Base64.encode content :=
  flatten_blocks 63 _

theorem chunkText_no_quote {chunk : Bytes} (h : chunk ∈ b64Chunks content) :
    '\'' ∉ (chunkText chunk).toList := by
  rw [chunkText, String.toList_ofList, List.mem_map]
  rintro ⟨b, hb, hquote⟩
  have hmem : b ∈ Base64.encode content := by
    rw [← flatten_b64Chunks]
    exact List.mem_flatten_of_mem h hb
  have hb' : b = 0x27 := by
    have hascii := Base64.encode_ascii hmem
    have hvalid : b.toNat.isValidChar := .inl (by omega)
    have hval := congrArg Char.toNat hquote
    rw [Char.ofNat, dif_pos hvalid] at hval
    exact UInt8.toNat_inj.1 hval
  subst hb'
  exact Base64.notMem_encode (by decide) (by decide) hmem

theorem lex_echo {chunk : Bytes} (h : chunk ∈ b64Chunks content) {path : String}
    (hpath : Shell.OrdinaryWord path.toList) : Shell.lex (Cmd.echo chunk path).text.toList =
      [.word (Shell.literal "echo"), .word [.quoted (chunkText chunk).toList], .dgreat 1,
        .word (Shell.literal path)] := by
  have hecho : "echo '".toList = "echo".toList ++ [' ', '\''] := by decide
  have happend : "' >> ".toList = '\'' :: ' ' :: '>' :: '>' :: [' '] := by decide
  have hword : Shell.OrdinaryWord "echo".toList := ⟨by decide, by decide⟩
  have hredirect : Shell.lexFrom (.text none) ('>' :: '>' :: ' ' :: path.toList) =
      .dgreat 1 :: Shell.lexFrom (.text none) path.toList := rfl
  rw [Cmd.text, String.toList_append, String.toList_append, String.toList_append, hecho, happend]
  simp only [List.append_assoc, List.cons_append, List.nil_append]
  rw [Shell.lex, Shell.lexFrom_word hword, Shell.lexFrom_quote,
    Shell.lexFrom_single (chunkText_no_quote h), Shell.lexFrom_blank, hredirect,
    Shell.lexFrom_last hpath]
  rfl

end

end Pki
end MesCore
