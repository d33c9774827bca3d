import MesCore.Hardware
import MesCore.Lines

namespace MesCore
set_option autoImplicit true

namespace SecureFetch

/-- `hashlib.sha256(..).hexdigest()` and `str.lower`. -/
structure Hashing where
  sha256 : Bytes → String
  lower : String → String

/-- The file at `dest`, the `.part` file of this process, and all that has been renamed to
`dest`. -/
structure Disk where
  dest : Option Bytes
  temp : Option Bytes
  placed : List Bytes

inductive FetchErr
  | httpError (code : Nat) (reason : String)
  | keyboardInterrupt
  | secureFetchError (msg : String)
  | imageVerificationError (msg : String)
  | other (text : String)
  deriving DecidableEq

/-- What is retried is any `Exception`. -/
def FetchErr.isException : FetchErr → Bool
  | .keyboardInterrupt => false
  | _ => true

/-- An error of the stream. It is `urlopen` alone that raises an `HTTPError`. -/
inductive Failure
  | keyboardInterrupt
  | exception (text : String)

def Failure.err : Failure → FetchErr
  | .keyboardInterrupt => .keyboardInterrupt
  | .exception text => .other text

/-- The stream ends, or something raises at a chunk: the read, the write, which may get part of its
data out, or the closing of the files. -/
inductive StreamEnd
  | eof
  | raised (e : Failure) (torn : Bytes)

/-- What the server does in one attempt. It fails before the `.part` file is open, or sends
chunks. -/
inductive Response
  | httpError (code : Nat) (reason : String)
  | failed (e : Failure)
  | stream (chunks : List Bytes) (ending : StreamEnd)

/-- The attempts of a call, and whether an interrupt ends the wait behind each. -/
structure Server where
  responses : Nat → Response
  interrupted : Nat → Bool

abbrev FetchM := EStateM FetchErr Disk

def unlinkDest : FetchM Unit := modify fun disk => { disk with dest := none }

/-- `temp_dest.unlink(missing_ok=True)`. -/
def unlinkTemp : FetchM Unit := modify fun disk => { disk with temp := none }

def openTemp : FetchM Unit := modify fun disk => { disk with temp := some [] }

def writeTemp (data : Bytes) : FetchM Unit :=
  modify fun disk => { disk with temp := disk.temp.map (· ++ data) }

/-- `os.rename(temp_dest, dest)`. -/
def rename : FetchM Unit := do
  let disk ← get
  match disk.temp with
  | some content => set (⟨some content, none, disk.placed ++ [content]⟩ : Disk)
  | none => throw (.other "[Errno 2] No such file or directory")

section
variable (lib : Hashing) (expected : String)

def readChunks (content : Bytes) : List Bytes := blocks 65535 content

/-- `_calculate_local_hash`. -/
def calculateLocalHash (content : Bytes) : String :=
  lib.lower (lib.sha256 ((readChunks content).foldl (· ++ ·) []))

/-- The loop of the download. It returns what has been hashed. -/
def readLoop (ending : StreamEnd) : List Bytes → (hashed : Bytes) → FetchM Bytes
  | [], hashed =>
    match ending with
    | .eof => pure hashed
    | .raised e torn => do
      writeTemp torn
      throw e.err
  | chunk :: chunks, hashed =>
    if chunk = [] then pure hashed
    else do
      writeTemp chunk
      readLoop ending chunks (hashed ++ chunk)

def receive : Response → FetchM Bytes
  | .httpError code reason => throw (.httpError code reason)
  | .failed e => throw e.err
  | .stream chunks ending => do
    openTemp
    readLoop ending chunks []

def FetchErr.text : FetchErr → String
  | .httpError code reason => s!"HTTP Error {code}: {reason}"
  | .keyboardInterrupt => ""
  | .secureFetchError msg | .imageVerificationError msg => msg
  | .other text => text

/-- The `except` clauses. -/
def giveUp (e : FetchErr) : FetchM Bytes :=
  match e with
  | .httpError code _ =>
    if code = 401 ∨ code = 403 ∨ code = 404 then
      throw (.secureFetchError s!"HTTP {code} - Cannot fetch firmware.")
    else throw e
  | .keyboardInterrupt => do
    unlinkTemp
    throw (.secureFetchError "Firmware download interrupted by operator (Ctrl+C).")
  | e => do
    unlinkTemp
    throw (.secureFetchError ("Failed to fetch asset: " ++ e.text))

def download (response : Response) : FetchM Unit := do
  let hashed ← tryCatch (receive response) giveUp
  if lib.lower (lib.sha256 hashed) ≠ expected then do
    unlinkTemp
    throw (.imageVerificationError "Firmware SHA256 mismatch! Transit payload corrupted.")
  else rename

def fetchOnce (response : Response) : FetchM Unit := do
  let disk ← get
  match disk.dest with
  | some content =>
    if calculateLocalHash lib content = expected then pure ()
    else do
      unlinkDest
      download lib expected response
  | none => download lib expected response

/-- The attempts from some number on, of which so many are left. -/
def fetchFrom (server : Server) (n : Nat) : (left : Nat) → FetchM Unit
  | 0 => fetchOnce lib expected (server.responses n)
  | left + 1 =>
    tryCatch (fetchOnce lib expected (server.responses n)) fun e =>
      if e.isException then
        if server.interrupted n then throw .keyboardInterrupt else fetchFrom server (n + 1) left
      else throw e

/-- `fetch_and_verify`: three attempts. -/
def fetchAndVerify (server : Server) : FetchM Unit := fetchFrom lib (lib.lower expected) server 0 2

end

/-- The disk before a call: anything at `dest`. -/
def Disk.before (dest : Option Bytes) : Disk := ⟨dest, none, []⟩

/-- The content has the hash that was asked for. -/
def Verified (lib : Hashing) (expected : String) (content : Bytes) : Prop :=
  lib.lower (lib.sha256 content) = expected

/-- Nothing is at `dest` and no `.part` file is left, and nothing unverified has been at `dest`. -/
structure Disk.Clean (lib : Hashing) (expected : String) (disk : Disk) : Prop where
  dest : disk.dest = none
  temp : disk.temp = none
  placed : ∀ content ∈ disk.placed, Verified lib expected content

/-- The file at `dest` is verified, and nothing unverified has been there in its place. -/
structure Disk.Fetched (lib : Hashing) (expected : String) (disk : Disk) : Prop where
  dest : ∃ content, disk.dest = some content ∧ Verified lib expected content
  temp : disk.temp = none
  placed : ∀ content ∈ disk.placed, Verified lib expected content

/-- All or nothing: a verified file where the program returns, a clean disk where it raises. -/
def AllOrNothing (lib : Hashing) (expected : String) (p : FetchM Unit) (disk : Disk) : Prop :=
  match p disk with
  | .ok _ disk' => disk'.Fetched lib expected
  | .error _ disk' => disk'.Clean lib expected

section
variable {lib : Hashing} {expected : String} {disk : Disk} {ending : StreamEnd}

theorem calculateLocalHash_eq (lib : Hashing) (content : Bytes) :
    calculateLocalHash lib content = lib.lower (lib.sha256 content) := by
  have hread : (readChunks content).foldl (· ++ ·) [] = content := by
    have hflatten := @List.foldl_append_eq_append _ _ (readChunks content) id []
    rw [List.map_id, List.nil_append, readChunks, flatten_blocks] at hflatten
    exact hflatten
  rw [calculateLocalHash, hread]

/-- What the loop of the download leaves behind. -/
def Received (disk : Disk) : EStateM.Result FetchErr Disk Bytes → Prop
  | .ok hashed disk' => disk' = { disk with temp := some hashed }
  | .error e disk' => (disk' = disk ∨ ∀ code reason, e ≠ .httpError code reason) ∧
      disk'.dest = disk.dest ∧ disk'.placed = disk.placed

theorem Failure.err_ne (e : Failure) (code : Nat) (reason : String) :
    e.err ≠ .httpError code reason := by
  cases e with
  | keyboardInterrupt => simp [Failure.err]
  | exception text => simp [Failure.err]

theorem received_readLoop (ending : StreamEnd) (chunks : List Bytes) (hashed : Bytes)
    (disk : Disk) :
    Received disk (readLoop ending chunks hashed { disk with temp := some hashed }) := by
  induction chunks generalizing hashed with
  | nil =>
    cases ending with
    | eof => exact rfl
    | raised e torn => exact ⟨.inr e.err_ne, rfl, rfl⟩
  | cons chunk chunks ih =>
    rw [readLoop]
    split
    · exact rfl
    · exact ih (hashed ++ chunk)

theorem received_receive (response : Response) (disk : Disk) :
    Received disk (receive response disk) := by
  cases response with
  | httpError code reason => exact ⟨.inl rfl, rfl, rfl⟩
  | failed e => exact ⟨.inl rfl, rfl, rfl⟩
  | stream chunks ending => exact received_readLoop ending chunks [] disk

theorem giveUp_clean {e : FetchErr} {disk disk' : Disk} (hdisk : disk.Clean lib expected)
    (h : Received disk (.error e disk')) : ∃ e' disk'', giveUp e disk' = .error e' disk'' ∧
      disk''.Clean lib expected := by
  obtain ⟨hsame, hdest, hplaced⟩ := h
  have hunlinked : ({ disk' with temp := none } : Disk).Clean lib expected :=
    ⟨hdest.trans hdisk.dest, rfl, hplaced ▸ hdisk.placed⟩
  cases e with
  | httpError code reason =>
    have hclean : disk'.Clean lib expected := by
      rcases hsame with rfl | hne
      · exact hdisk
      · exact absurd rfl (hne code reason)
    rw [giveUp]
    split
    · exact ⟨_, disk', rfl, hclean⟩
    · exact ⟨_, disk', rfl, hclean⟩
  | keyboardInterrupt => exact ⟨_, _, rfl, hunlinked⟩
  | secureFetchError msg => exact ⟨_, _, rfl, hunlinked⟩
  | imageVerificationError msg => exact ⟨_, _, rfl, hunlinked⟩
  | other text => exact ⟨_, _, rfl, hunlinked⟩

theorem tryCatch_apply (p : FetchM α) (handler : FetchErr → FetchM α) (disk : Disk) :
    tryCatch p handler disk = match p disk with
      | .ok a disk' => .ok a disk'
      | .error e disk' => handler e disk' := by
  change EStateM.tryCatch p handler disk = _
  rw [EStateM.tryCatch]
  cases p disk with
  | ok a disk' => rfl
  | error e disk' => rfl

theorem bind_apply (p : FetchM α) (k : α → FetchM β) (disk : Disk) :
    (p >>= k) disk = match p disk with
      | .ok a disk' => k a disk'
      | .error e disk' => .error e disk' := by
  change EStateM.bind p k disk = _
  rw [EStateM.bind]
  cases p disk with
  | ok a disk' => rfl
  | error e disk' => rfl

theorem download_allOrNothing (response : Response) (hdisk : disk.Clean lib expected) :
    AllOrNothing lib expected (download lib expected response) disk := by
  have hreceived := received_receive response disk
  rw [AllOrNothing, download, bind_apply, tryCatch_apply]
  cases hrun : receive response disk with
  | ok hashed disk' =>
    rw [hrun] at hreceived
    obtain rfl : disk' = { disk with temp := some hashed } := hreceived
    dsimp only
    by_cases hhash : lib.lower (lib.sha256 hashed) = expected
    · rw [if_neg (not_not.2 hhash)]
      refine ⟨⟨hashed, rfl, hhash⟩, rfl, ?_⟩
      intro content hcontent
      rcases List.mem_append.1 hcontent with hold | hnew
      · exact hdisk.placed content hold
      · exact List.mem_singleton.1 hnew ▸ hhash
    · rw [if_pos hhash]
      exact ⟨hdisk.dest, rfl, hdisk.placed⟩
  | error e disk' =>
    rw [hrun] at hreceived
    obtain ⟨e', disk'', hgive, hclean⟩ := giveUp_clean hdisk hreceived
    dsimp only
    rw [hgive]
    exact hclean

theorem fetchOnce_allOrNothing (response : Response) (htemp : disk.temp = none)
    (hplaced : ∀ content ∈ disk.placed, Verified lib expected content) :
    AllOrNothing lib expected (fetchOnce lib expected response) disk := by
  have hfetch : fetchOnce lib expected response disk = (match disk.dest with
    | some content =>
      if calculateLocalHash lib content = expected then pure ()
      else do
        unlinkDest
        download lib expected response
    | none => download lib expected response : FetchM Unit) disk := rfl
  rw [AllOrNothing, hfetch]
  cases hdest : disk.dest with
  | none => exact download_allOrNothing response ⟨hdest, htemp, hplaced⟩
  | some content =>
    dsimp only
    by_cases hhash : calculateLocalHash lib content = expected
    · rw [if_pos hhash]
      rw [calculateLocalHash_eq] at hhash
      exact ⟨⟨content, hdest, hhash⟩, htemp, hplaced⟩
    · rw [if_neg hhash]
      have hunlinked : Disk.Clean lib expected { disk with dest := none } := ⟨rfl, htemp, hplaced⟩
      exact download_allOrNothing response hunlinked

theorem fetchFrom_allOrNothing (server : Server) (n left : Nat) (htemp : disk.temp = none)
    (hplaced : ∀ content ∈ disk.placed, Verified lib expected content) :
    AllOrNothing lib expected (fetchFrom lib expected server n left) disk := by
  induction left generalizing n disk with
  | zero => exact fetchOnce_allOrNothing (server.responses n) htemp hplaced
  | succ left ih =>
    have honce := fetchOnce_allOrNothing (server.responses n) htemp hplaced
    rw [AllOrNothing] at honce ⊢
    rw [fetchFrom, tryCatch_apply]
    cases hrun : fetchOnce lib expected (server.responses n) disk with
    | ok _ disk' =>
      rw [hrun] at honce
      exact honce
    | error e disk' =>
      rw [hrun] at honce
      have hclean : disk'.Clean lib expected := honce
      dsimp only
      by_cases he : e.isException = true
      · rw [if_pos he]
        by_cases hint : server.interrupted n = true
        · rw [if_pos hint]
          exact hclean
        · rw [if_neg hint]
          exact ih (n + 1) hclean.temp hclean.placed
      · rw [if_neg he]
        exact hclean

/-- Whatever the server does in the three attempts, a call that returns has a verified file at
`dest`, and a call that raises leaves nothing behind. -/
theorem fetchAndVerify_allOrNothing (lib : Hashing) (expected : String) (server : Server)
    (old : Option Bytes) : AllOrNothing lib (lib.lower expected)
      (fetchAndVerify lib expected server) (.before old) :=
  fetchFrom_allOrNothing server 0 2 rfl fun content hcontent => by cases hcontent

end

end SecureFetch
end MesCore
