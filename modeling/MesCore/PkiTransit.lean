import MesCore.PkiProvisioner
import Mathlib.Logic.Function.Basic

namespace MesCore
set_option autoImplicit true

namespace Pki

/-- What each file holds. Directories and permissions decide nothing here. -/
abbrev Files := String → Option Bytes

def newline : UInt8 := 0x0A

/-- `base64 -d`, which skips the ends of lines. -/
def base64Decode (text : Bytes) : Option Bytes :=
  match Base64.decode (text.filter (· ≠ newline)) with
  | .ok data => if Base64.encode data = text.filter (· ≠ newline) then some data else none
  | .error _ => none

/-- What `echo` has appended for these chunks. -/
def echoed (chunks : List Bytes) : Bytes := chunks.flatMap (· ++ [newline])

def succeeded (stdout : String) : CommandResult := ⟨stdout, "", 0, true⟩

def failed (stderr : String) : CommandResult := ⟨"", stderr, 1, false⟩

def Cmd.exec (lib : Sha256) (files : Files) : Cmd → CommandResult × Files
  | .sha256sum path =>
    match files path with
    | some content => (succeeded (lib.hexdigest content ++ "\n"), files)
    | none => (succeeded "", files)
  | .chmod _ path =>
    match files path with
    | some _ => (succeeded "", files)
    | none => (failed s!"chmod: {path}: No such file or directory", files)
  | .mkdir _ => (succeeded "", files)
  | .truncate path => (succeeded "", Function.update files path (some []))
  | .echo chunk path =>
    (succeeded "", Function.update files path (some ((files path).getD [] ++ echoed [chunk])))
  | .base64 temp path =>
    match (files temp).bind base64Decode with
    | some data => (succeeded "", Function.update files path (some data))
    | none => (failed "base64: invalid input", Function.update files path (some []))
  | .rm path => (succeeded "", Function.update files path none)

section
variable {content chunk : Bytes} {path : String}

/-- The files as a shell has them, a character for a byte. -/
def shellFiles (files : Files) : Shell.Files :=
  fun path => (files (String.ofList path)).map fun content => (chunkText content).toList

def echoCommand (chunk : Bytes) (path : String) : Shell.Simple where
  words := [Shell.literal "echo", [.quoted (chunkText chunk).toList]]
  redirects := [⟨.dgreat 1, Shell.literal path⟩]

theorem parse_echo (h : chunk ∈ b64Chunks content) (hpath : Shell.OrdinaryWord path.toList) :
    Shell.parse (Cmd.echo chunk path).text.toList =
      some (.commands [echoCommand chunk path]) := by
  have hseparator : ∀ t ∈ [Shell.Token.word (Shell.literal "echo"),
      .word [.quoted (chunkText chunk).toList], .dgreat 1, .word (Shell.literal path)],
      t.isSeparator = false := by
    simp [Shell.Token.isSeparator]
  have hcommand : Shell.parseCommand [.word (Shell.literal "echo"),
      .word [.quoted (chunkText chunk).toList], .dgreat 1, .word (Shell.literal path)] =
      some (echoCommand chunk path) := by
    rw [Shell.parseCommand, if_neg (by decide)]
    rfl
  rw [Shell.parse, lex_echo h hpath, Shell.segments_eq hseparator, List.nil_append,
    if_neg (List.cons_ne_nil _ _)]
  change Shell.Script.commands <$> [_].mapM Shell.parseCommand = _
  rw [List.mapM_cons, hcommand]
  rfl

theorem chunkText_append (chunk chunk' : Bytes) :
    (chunkText (chunk ++ chunk')).toList =
      (chunkText chunk).toList ++ (chunkText chunk').toList := by
  simp [chunkText]

theorem shellFiles_update (files : Files) (path : String) (content : Bytes) :
    shellFiles (Function.update files path (some content)) =
      Shell.setFile (shellFiles files) path.toList (chunkText content).toList := by
  funext p
  rw [shellFiles, Shell.setFile]
  by_cases h : p = path.toList
  · rw [if_pos h, h, String.ofList_toList, Function.update_self]
    rfl
  · have hne : String.ofList p ≠ path := by
      intro hp
      apply h
      rw [← hp, String.toList_ofList]
    rw [if_neg h, Function.update_of_ne hne]
    rfl

/-- What the shell of a target makes of the text of an `echo` is what `exec` says. -/
theorem echo_exec {lib : Sha256} {run : Shell.Files → List Shell.Text → Shell.Text}
    {sub : Shell.Files → Shell.Text → Option Shell.Text} (h : chunk ∈ b64Chunks content)
    (hpath : Shell.OrdinaryWord path.toList) (hnull : path.toList ≠ Shell.devNull)
    (hecho : ∀ files, run files ["echo".toList, (chunkText chunk).toList] =
      (chunkText chunk).toList ++ ['\n']) (files : Files) :
    ∃ script, Shell.parse (Cmd.echo chunk path).text.toList = some (.commands script) ∧
      Shell.runList run sub ([], shellFiles files) script =
        some ([], shellFiles ((Cmd.echo chunk path).exec lib files).2) := by
  have hwords : Shell.expandWords (sub (shellFiles files)) (echoCommand chunk path).words =
      some ["echo".toList, (chunkText chunk).toList] :=
    Shell.expandWords_cons (Shell.expandWord_plain (by decide)) <|
      Shell.expandWords_cons (Shell.expandWord_quoted _) Shell.expandWords_nil
  have hredirect : (echoCommand chunk path).redirects.mapM
      (Shell.expandRedirect (sub (shellFiles files))) = some [(.dgreat 1, path.toList)] := by
    simp [echoCommand, Shell.expandRedirect, Shell.literal,
      Shell.expandWord_plain hpath.nonempty]
  have hold :
      (shellFiles files path.toList).getD [] = (chunkText ((files path).getD [])).toList := by
    rw [shellFiles, String.ofList_toList]
    cases files path <;> rfl
  have hline : (chunkText (echoed [chunk])).toList = (chunkText chunk).toList ++ ['\n'] := by
    rw [echoed, List.flatMap_singleton, chunkText_append]
    rfl
  refine ⟨_, parse_echo h hpath, ?_⟩
  change Shell.runSimple run sub ([], shellFiles files) (echoCommand chunk path) >>= pure = _
  rw [Shell.runSimple, hwords]
  simp only [Option.bind_eq_bind, Option.bind_some, hredirect, List.foldl_cons, List.foldl_nil,
    Shell.openRedirect, if_neg hnull, if_true, Shell.write, hecho, hold, Shell.setFile_self,
    Shell.setFile_setFile, Option.getD_some]
  rw [Cmd.exec, shellFiles_update, chunkText_append, hline]
  rfl

end

def faithful (lib : Sha256) : Target where
  State := Files
  respond
  | .safeRun cmd _, files => (.ok (cmd.exec lib files).1, (cmd.exec lib files).2)
  | .sleep _, files => (.ok (), files)

def filesOf (w : World (faithful lib)) : Files := w.dev

/-- On these files the program returns, with the credential in its place and no temporary file. -/
def Injected (lib : Sha256) (content : Bytes) (remoteDest : String) (files : Files)
    (p : PkiM (faithful lib) Unit) : Prop :=
  ∀ w, filesOf w = files →
    wp p (fun _ w' => filesOf w' remoteDest = some content ∧
      filesOf w' (b64Temp remoteDest) = none) never w

section
variable {lib : Sha256} {content : Bytes} {dest permissions : String} {files : Files}

theorem echoed_cons (chunk : Bytes) (chunks : List Bytes) :
    echoed (chunk :: chunks) = echoed [chunk] ++ echoed chunks := by
  simp [echoed]

theorem filter_echoed {chunks : List Bytes} (h : newline ∉ chunks.flatten) :
    (echoed chunks).filter (· ≠ newline) = chunks.flatten := by
  induction chunks with
  | nil => rfl
  | cons chunk chunks ih =>
    rw [List.flatten_cons, List.mem_append, not_or] at h
    have hchunk : chunk.filter (· ≠ newline) = chunk := by
      apply List.filter_eq_self.2
      intro c hc
      apply decide_eq_true
      rintro rfl
      exact h.1 hc
    rw [echoed, List.flatMap_cons, ← echoed, List.filter_append, ih h.2, List.filter_append, hchunk,
      List.flatten_cons]
    exact congrArg (· ++ chunks.flatten) (List.append_nil chunk)

theorem filter_b64Chunks (content : Bytes) :
    (echoed (b64Chunks content)).filter (· ≠ newline) = Base64.encode content := by
  have hnewline : newline ∉ Base64.encode content := Base64.notMem_encode (by decide) (by decide)
  rw [← flatten_b64Chunks] at hnewline ⊢
  exact filter_echoed hnewline

theorem base64Decode_of_filter {text : Bytes}
    (h : text.filter (· ≠ newline) = Base64.encode content) :
    base64Decode text = some content := by
  rw [base64Decode, h, Base64.decode_encode]
  exact if_pos rfl

theorem base64Decode_echoed (content : Bytes) :
    base64Decode (echoed (b64Chunks content)) = some content :=
  base64Decode_of_filter (filter_b64Chunks content)

theorem wp_exec {cmd : Cmd} {sensitive : Bool} {k : CommandResult → PkiM (faithful lib) α}
    {Q : α → World (faithful lib) → Prop} {w : World (faithful lib)} {res : CommandResult}
    {files' : Files} (hw : filesOf w = files) (hexec : cmd.exec lib files = (res, files'))
    (h : ∀ w', filesOf w' = files' → wp (k res) Q never w') :
    wp (safeRun cmd sensitive >>= k) Q never w := by
  rw [wp_bind]
  apply wp_respond
  · intro answer left hres
    have hanswer : (Except.ok (cmd.exec lib (filesOf w)).1, (cmd.exec lib (filesOf w)).2) =
        ((Except.ok answer : Except PkiErr CommandResult), left) := hres
    rw [hw, hexec] at hanswer
    cases hanswer
    exact h _ rfl
  · intro e _ hres
    cases hres

theorem wp_sleep {ms : Nat} {k : Unit → PkiM (faithful lib) α}
    {Q : α → World (faithful lib) → Prop} {w : World (faithful lib)} (hw : filesOf w = files)
    (h : ∀ w', filesOf w' = files → wp (k ()) Q never w') : wp (sleep ms >>= k) Q never w := by
  subst hw
  rw [wp_bind]
  apply wp_respond
  · intro _ _ hres
    cases hres
    exact h _ rfl
  · intro e _ hres
    cases hres

theorem succeeded_exited {stdout : String} : ¬ (succeeded stdout).exited ≠ 0 := not_not.2 rfl

theorem sendChunks_faithful {temp : String} {chunks : List Bytes} {old : Bytes}
    {w : World (faithful lib)} (hw : filesOf w = Function.update files temp (some old)) :
    wp (sendChunks temp chunks) (fun _ w' =>
      filesOf w' = Function.update files temp (some (old ++ echoed chunks))) never w := by
  induction chunks generalizing old w with
  | nil =>
    have hnil : old ++ echoed [] = old := List.append_nil old
    rw [hnil]
    exact hw
  | cons chunk chunks ih =>
    have hecho : Cmd.exec lib (Function.update files temp (some old)) (.echo chunk temp) =
        (succeeded "", Function.update files temp (some (old ++ echoed [chunk]))) := by
      rw [Cmd.exec, Function.update_self, Function.update_idem, Option.getD_some]
    apply wp_exec hw hecho
    intro w₁ hw₁
    rw [if_neg succeeded_exited]
    apply wp_sleep hw₁
    intro w₂ hw₂
    apply (ih hw₂).mono
    · intro _ w' hw'
      rw [hw', List.append_assoc, ← echoed_cons]
    · exact fun _ _ h => h

theorem b64Temp_ne (dest : String) : b64Temp dest ≠ dest := by
  intro h
  have hlength := congrArg String.length h
  rw [b64Temp, String.length_append] at hlength
  have hext : ".b64".length = 4 := by decide
  omega

theorem stripText_hash (data : Bytes) :
    stripText (lib.hexdigest data ++ "\n") = lib.hexdigest data := by
  have hnewline : "\n".toList = ['\n'] := by decide
  rw [stripText, String.toList_append, hnewline, pyStrip_concat_space (by decide),
    pyStrip_eq_self (lib.solid data), String.ofList_toList]

theorem hexdigest_ne_empty (data : Bytes) : stripText "" ≠ lib.hexdigest data := by
  intro h
  have hlength := lib.length data
  rw [← h] at hlength
  revert hlength
  decide

theorem sha256sum_exec {old : Bytes} (h : files dest = some old) :
    Cmd.exec lib files (.sha256sum dest) = (succeeded (lib.hexdigest old ++ "\n"), files) := by
  rw [Cmd.exec, h]

theorem chmod_exec {data : Bytes} (h : files dest = some data) (permissions : String) :
    Cmd.exec lib files (.chmod permissions dest) = (succeeded "", files) := by
  rw [Cmd.exec, h]

theorem base64_exec {temp : String} {text data : Bytes} (h : files temp = some text)
    (hdata : base64Decode text = some data) : Cmd.exec lib files (.base64 temp dest) =
      (succeeded "", Function.update files dest (some data)) := by
  rw [Cmd.exec, h, Option.bind_some, hdata]

theorem rm_exec (files : Files) (path : String) :
    Cmd.exec lib files (.rm path) = (succeeded "", Function.update files path none) := rfl

theorem verifyTransit_faithful {w : World (faithful lib)} (hw : filesOf w = files)
    (hdest : files dest = some content) (permissions : String) :
    wp (verifyTransit (lib.hexdigest content) dest permissions)
      (fun _ w' => filesOf w' = files) never w := by
  apply wp_exec hw (chmod_exec hdest permissions)
  intro w₁ hw₁
  apply wp_exec hw₁ (sha256sum_exec hdest)
  intro w₂ hw₂
  have hsame : ¬ lib.hexdigest content ≠ stripText (lib.hexdigest content ++ "\n") :=
    not_not.2 (stripText_hash content).symm
  rw [succeeded, if_neg hsame]
  exact hw₂

theorem decodePayload_faithful {w : World (faithful lib)}
    (hw : filesOf w =
      Function.update files (b64Temp dest) (some (echoed (b64Chunks content))))
    (permissions : String) :
    wp (decodePayload (lib.hexdigest content) dest permissions)
      (fun _ w' => filesOf w' dest = some content ∧ filesOf w' (b64Temp dest) = none) never w := by
  have htext := Function.update_self (b64Temp dest) (some (echoed (b64Chunks content))) files
  apply wp_exec hw (base64_exec htext (base64Decode_echoed content))
  intro w₁ hw₁
  apply wp_exec hw₁ (rm_exec _ _)
  intro w₂ hw₂
  rw [if_neg succeeded_exited]
  have hdest : filesOf w₂ dest = some content := by
    rw [hw₂, Function.update_of_ne (b64Temp_ne dest).symm, Function.update_self]
  have htemp : filesOf w₂ (b64Temp dest) = none := by
    rw [hw₂, Function.update_self]
  apply (verifyTransit_faithful rfl hdest permissions).mono
  · intro _ w' hw'
    rw [hw']
    exact ⟨hdest, htemp⟩
  · exact fun _ _ h => h

theorem transmit_faithful (files : Files) (permissions : String) :
    Injected lib content dest files
      (transmit content (lib.hexdigest content) dest permissions) := by
  intro w hw
  apply wp_exec hw rfl
  intro w₁ hw₁
  apply wp_exec hw₁ rfl
  intro w₂ hw₂
  apply (sendChunks_faithful hw₂).bind
  intro _ w' hw'
  exact decodePayload_faithful hw' permissions

theorem skipped_faithful {old : Bytes} {w : World (faithful lib)} (hw : filesOf w = files)
    (hold : files dest = some old) (hhash : lib.hexdigest old = lib.hexdigest content)
    (localFilepath permissions : String) :
    wp (provisionCredential lib localFilepath (some content) dest permissions)
      (fun _ w' => filesOf w' = files) never w := by
  apply wp_exec hw (sha256sum_exec hold)
  intro w₁ hw₁
  rw [if_pos ⟨rfl, (stripText_hash old).trans hhash⟩]
  apply wp_exec hw₁ (chmod_exec hold permissions)
  intro w₂ hw₂
  exact hw₂

theorem absent_faithful (habsent : ∀ old, files dest = some old →
      lib.hexdigest old ≠ lib.hexdigest content) (localFilepath permissions : String) :
    Injected lib content dest files
      (provisionCredential lib localFilepath (some content) dest permissions) := by
  intro w hw
  cases hdest : files dest with
  | none =>
    have hexec : Cmd.exec lib files (.sha256sum dest) = (succeeded "", files) := by
      rw [Cmd.exec, hdest]
    apply wp_exec hw hexec
    intro w₁ hw₁
    rw [if_neg fun h => hexdigest_ne_empty content h.2]
    exact transmit_faithful files permissions w₁ hw₁
  | some old =>
    apply wp_exec hw (sha256sum_exec hdest)
    intro w₁ hw₁
    rw [if_neg fun h => habsent old hdest ((stripText_hash old).symm.trans h.2)]
    exact transmit_faithful files permissions w₁ hw₁

/-- A credential is injected unless a file with its hash is in place already: then that file has to
be the credential, and no temporary file left from before. -/
theorem injected_iff (files : Files) (localFilepath permissions : String) :
    Injected lib content dest files
      (provisionCredential lib localFilepath (some content) dest permissions) ↔
    ∀ old, files dest = some old → lib.hexdigest old = lib.hexdigest content →
      old = content ∧ files (b64Temp dest) = none := by
  constructor
  · intro h old hold hhash
    let w : World (faithful lib) := ⟨(), files, []⟩
    have hskipped := skipped_faithful (w := w) rfl hold hhash localFilepath permissions
    obtain ⟨_, w', hrun, hsame⟩ := hskipped.returns
    obtain ⟨hdest, htemp⟩ := (h w rfl).ok hrun
    rw [hsame] at hdest htemp
    exact ⟨Option.some.inj (hold.symm.trans hdest), htemp⟩
  · intro h
    by_cases hcheck : ∃ old, files dest = some old ∧ lib.hexdigest old = lib.hexdigest content
    · obtain ⟨old, hold, hhash⟩ := hcheck
      obtain ⟨rfl, htemp⟩ := h old hold hhash
      intro w hw
      apply (skipped_faithful hw hold rfl localFilepath permissions).mono
      · intro _ w' hw'
        rw [hw']
        exact ⟨hold, htemp⟩
      · exact fun _ _ h => h
    · exact absent_faithful (fun old hold hhash => hcheck ⟨old, hold, hhash⟩)
        localFilepath permissions

/-- Whatever the target does, a call returns only on the hash that was read last; and a faithful one
ends up with the credential unless a file with its hash is in place already, which then has to be
the credential, with no temporary file beside it. -/
theorem provisionCredential_iff (lib : Sha256) (content : Bytes)
    (localFilepath dest permissions : String) :
    (∀ (d : Target) (w w' : World d),
      provisionCredential lib localFilepath (some content) dest permissions w = .ok () w' →
      lastHash dest (w.since w') = some (lib.hexdigest content)) ∧
    ∀ files : Files, Injected lib content dest files
        (provisionCredential lib localFilepath (some content) dest permissions) ↔
      ∀ old, files dest = some old → lib.hexdigest old = lib.hexdigest content →
        old = content ∧ files (b64Temp dest) = none := by
  constructor
  · intro d w w' hrun
    exact (provisionCredential_leaves lib localFilepath content dest permissions).ok hrun
  · exact fun files => injected_iff files localFilepath permissions

def digestOfA : String := "559aead08264d5795d3909718cdd05abd49572e84fe55590eef31a88a08fdffd"

theorem digestOfA_solid : digestOfA.toList.all (!isPySpace ·) = true := by decide

/-- The byte `A` is all that is hashed below. -/
def sha256OfA : Sha256 where
  hexdigest := fun _ => digestOfA
  length := fun _ => rfl
  solid := fun _ c hc => by
    have hsolid := List.all_eq_true.1 digestOfA_solid c hc
    rwa [Bool.not_eq_true'] at hsolid

/-- A credential of one byte is in place, with the temporary file of an attempt that broke off. -/
def brokenOff : Files := fun path =>
  if path = "/etc/ssl/key.pem" then some [0x41]
  else if path = "/etc/ssl/key.pem.b64" then some [0x51, 0x51]
  else none

/-- The temporary file stays. -/
theorem brokenOff_not_injected :
    ¬ Injected sha256OfA [0x41] "/etc/ssl/key.pem" brokenOff
      (provisionCredential sha256OfA "key.pem" (some [0x41]) "/etc/ssl/key.pem" "400") := by
  intro h
  obtain ⟨-, htemp⟩ := (injected_iff brokenOff "key.pem" "400").1 h [0x41] rfl rfl
  revert htemp
  decide

end

end Pki
end MesCore
