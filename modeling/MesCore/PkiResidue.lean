import MesCore.PkiTransit

namespace MesCore
set_option autoImplicit true

namespace Pki

/-- What a call leaves on the target: what the temporary file holds from before it, what the call
has written to that file, and what it has written to the destination. -/
structure Residue where
  stale : Bytes
  fresh : Bytes
  dest : Option Bytes

namespace Residue

def text (r : Residue) : Bytes := r.stale ++ r.fresh

def append (r : Residue) (part : Bytes) : Residue := { r with fresh := r.fresh ++ part }

def decodedTo (r : Residue) (data : Bytes) : Residue := { r with dest := some data }

def cleared (r : Residue) : Residue := { r with stale := [], fresh := [] }

def removed (dest path : String) (r : Residue) : Residue :=
  if path = dest then { r with dest := none } else r.cleared

end Residue

/-- What a decoding may have written when it breaks off. -/
def PartlyDecoded (text out : Bytes) : Prop :=
  ∃ read data, read <+: text ∧ base64Decode read = some data ∧ out <+: data

/-- What a command may have done. One that has not been answered, or has failed, may have been
carried out, in part or not at all. -/
def Effect (dest : String) : Attempt → Residue → Residue → Prop
  | (.truncate _, ok), r, r' => r' = r.cleared ∨ ok = false ∧ r' = r
  | (.echo chunk _, ok), r, r' =>
    ∃ part, part <+: echoed [chunk] ∧ (ok = true → part = echoed [chunk]) ∧ r' = r.append part
  | (.base64 _ _, true), r, r' => ∃ data, base64Decode r.text = some data ∧ r' = r.decodedTo data
  | (.base64 _ _, false), r, r' => r' = r ∨ ∃ out, PartlyDecoded r.text out ∧ r' = r.decodedTo out
  | (.rm path, ok), r, r' => r' = r.removed dest path ∨ ok = false ∧ r' = r
  | _, r, r' => r' = r

/-- What the attempts may have left, one after the other. -/
def Reach (dest : String) : List Attempt → Residue → Residue → Prop
  | [], r, r' => r' = r
  | a :: h, r, r'' => ∃ r', Effect dest a r r' ∧ Reach dest h r' r''

/-- Bytes of the credential that the call has written are in the temporary file, or in a destination
file that is not the credential. -/
def Secret (content : Bytes) (r : Residue) : Prop :=
  content ≠ [] ∧ (r.fresh ≠ [] ∨ ∃ out, r.dest = some out ∧ out ≠ [] ∧ out ≠ content)

/-- After these attempts no secret can be left, whatever the temporary file held before. -/
def Spared (dest : String) (content : Bytes) (h : List Attempt) : Prop :=
  ∀ stale r, Reach dest h ⟨stale, [], none⟩ r → ¬ Secret content r

/-- No chunk has been sent, or the temporary file is known to be removed, and so is the destination,
or else the temporary file was known to be empty at first and the decoding has not broken off in the
middle of the credential. -/
def CleanedUp (dest : String) (content : Bytes) (h : List Attempt) : Prop :=
  content = [] ∨ (∀ chunk ok, ((.echo chunk (b64Temp dest), ok) : Attempt) ∉ h) ∨
    (.rm (b64Temp dest), true) ∈ h ∧
      ((.rm dest, true) ∈ h ∨ (.truncate (b64Temp dest), true) ∈ h ∧
        ((.base64 (b64Temp dest) dest, true) ∈ h ∨ content.length ≤ 1))

/-- The commands that write nothing of the credential. -/
def Cmd.Harmless : Cmd → Prop
  | .sha256sum _ | .chmod _ _ | .mkdir _ | .truncate _ => True
  | _ => False

/-- The commands behind the decoding and the removal of the temporary file. -/
def Cmd.Final (dest : String) : Cmd → Prop
  | .sha256sum _ | .chmod _ _ => True
  | .rm path => path = dest
  | _ => False

def prepared (dest : String) (checked made truncated : Bool) : List Attempt :=
  [(.sha256sum dest, checked), (.mkdir (remoteDir dest), made),
    (.truncate (b64Temp dest), truncated)]

/-- The attempts of a call that raises. -/
inductive Failing (dest : String) (content : Bytes) : List Attempt → Prop
  | early {h : List Attempt} (hh : ∀ a ∈ h, a.1.Harmless) : Failing dest content h
  | sending {checked made truncated ok : Bool} {before behind : List Bytes} {chunk : Bytes}
      (hsplit : b64Chunks content = before ++ chunk :: behind) :
      Failing dest content (prepared dest checked made truncated ++
        (sent (b64Temp dest) before ++ [(.echo chunk (b64Temp dest), ok)]))
  | decoding {checked made truncated : Bool} :
      Failing dest content (prepared dest checked made truncated ++
        (sent (b64Temp dest) (b64Chunks content) ++ [(.base64 (b64Temp dest) dest, false)]))
  | removing {checked made truncated decoded removed : Bool} {h : List Attempt}
      (hh : ∀ a ∈ h, a.1.Final dest) :
      Failing dest content (prepared dest checked made truncated ++
        (sent (b64Temp dest) (b64Chunks content) ++
          (.base64 (b64Temp dest) dest, decoded) :: (.rm (b64Temp dest), removed) :: h))

section
variable {d : Target} {dest : String} {content : Bytes} {h h' : List Attempt} {r r' r'' : Residue}

theorem Reach.append (hr : Reach dest h r r') (hr' : Reach dest h' r' r'') :
    Reach dest (h ++ h') r r'' := by
  induction h generalizing r with
  | nil =>
    cases hr
    exact hr'
  | cons a h ih =>
    obtain ⟨r₁, heffect, hr⟩ := hr
    exact ⟨r₁, heffect, ih hr⟩

theorem Reach.split (hr : Reach dest (h ++ h') r r'') :
    ∃ r', Reach dest h r r' ∧ Reach dest h' r' r'' := by
  induction h generalizing r with
  | nil => exact ⟨r, rfl, hr⟩
  | cons a h ih =>
    obtain ⟨r₁, heffect, hr⟩ := hr
    obtain ⟨r', hr, hr'⟩ := ih hr
    exact ⟨r', ⟨r₁, heffect, hr⟩, hr'⟩

/-- Without a command that writes the credential nothing of it is written. -/
theorem Reach.harmless (hh : ∀ a ∈ h, a.1.Harmless) (hr : Reach dest h r r')
    (hfresh : r.fresh = []) : r'.fresh = [] ∧ r'.dest = r.dest := by
  induction h generalizing r with
  | nil =>
    cases hr
    exact ⟨hfresh, rfl⟩
  | cons a h ih =>
    obtain ⟨r₁, heffect, hr⟩ := hr
    have hrest := ih (fun b hb => hh b (List.mem_cons_of_mem a hb)) hr
    have hstep : r₁.fresh = [] ∧ r₁.dest = r.dest := by
      obtain ⟨cmd, ok⟩ := a
      have hcmd := hh (cmd, ok) List.mem_cons_self
      cases cmd with
      | sha256sum path =>
        cases heffect
        exact ⟨hfresh, rfl⟩
      | chmod permissions path =>
        cases heffect
        exact ⟨hfresh, rfl⟩
      | mkdir dir =>
        cases heffect
        exact ⟨hfresh, rfl⟩
      | truncate path =>
        rcases heffect with rfl | ⟨-, rfl⟩
        · exact ⟨rfl, rfl⟩
        · exact ⟨hfresh, rfl⟩
      | echo chunk path => exact hcmd.elim
      | base64 temp path => exact hcmd.elim
      | rm path => exact hcmd.elim
    rw [← hstep.2]
    exact hrest hstep.1

/-- The commands at the end leave the temporary file alone; the destination is gone if its removal
has been answered. -/
theorem Reach.final (hh : ∀ a ∈ h, a.1.Final dest) (hr : Reach dest h r r') :
    r'.fresh = r.fresh ∧ (r'.dest = r.dest ∨ r'.dest = none) ∧
      ((.rm dest, true) ∈ h → r'.dest = none) := by
  induction h generalizing r with
  | nil =>
    cases hr
    exact ⟨rfl, .inl rfl, fun hmem => by cases hmem⟩
  | cons a h ih =>
    obtain ⟨r₁, heffect, hr⟩ := hr
    obtain ⟨hfresh, hdest, hgone⟩ := ih (fun b hb => hh b (List.mem_cons_of_mem a hb)) hr
    obtain ⟨cmd, ok⟩ := a
    have hcmd := hh (cmd, ok) List.mem_cons_self
    have hquiet (hr₁ : r₁ = r) (hother : cmd ≠ .rm dest ∨ ok = false) : r'.fresh = r.fresh ∧
        (r'.dest = r.dest ∨ r'.dest = none) ∧
        ((.rm dest, true) ∈ (cmd, ok) :: h → r'.dest = none) := by
      subst hr₁
      refine ⟨hfresh, hdest, fun hmem => ?_⟩
      rcases List.mem_cons.1 hmem with hsame | hmem
      · cases hsame
        rcases hother with hother | hother
        · exact absurd rfl hother
        · cases hother
      · exact hgone hmem
    cases cmd with
    | sha256sum path => exact hquiet heffect (.inl (by simp))
    | chmod permissions path => exact hquiet heffect (.inl (by simp))
    | mkdir dir => exact hcmd.elim
    | truncate path => exact hcmd.elim
    | echo chunk path => exact hcmd.elim
    | base64 temp path => exact hcmd.elim
    | rm path =>
      obtain rfl : path = dest := hcmd
      rcases heffect with rfl | ⟨rfl, rfl⟩
      · rw [Residue.removed, if_pos rfl] at hfresh hdest
        have hnone : r'.dest = none := hdest.elim id id
        exact ⟨hfresh, .inr hnone, fun _ => hnone⟩
      · exact hquiet rfl (.inr rfl)

/-- Unless the removal of the destination has been answered, all may be left as it was. -/
theorem Reach.untouched (hh : ∀ a ∈ h, a.1.Final dest) (hkept : (.rm dest, true) ∉ h)
    (r : Residue) : Reach dest h r r := by
  induction h with
  | nil => exact rfl
  | cons a h ih =>
    have hrest := ih (fun b hb => hh b (List.mem_cons_of_mem a hb))
      fun hmem => hkept (List.mem_cons_of_mem a hmem)
    obtain ⟨cmd, ok⟩ := a
    have hcmd := hh (cmd, ok) List.mem_cons_self
    refine ⟨r, ?_, hrest⟩
    cases cmd with
    | sha256sum path => exact rfl
    | chmod permissions path => exact rfl
    | mkdir dir => exact hcmd.elim
    | truncate path => exact hcmd.elim
    | echo chunk path => exact hcmd.elim
    | base64 temp path => exact hcmd.elim
    | rm path =>
      obtain rfl : path = dest := hcmd
      refine .inr ⟨?_, rfl⟩
      cases ok with
      | false => rfl
      | true => exact absurd List.mem_cons_self hkept

theorem Reach.some_final (hh : ∀ a ∈ h, a.1.Final dest) (r : Residue) :
    ∃ r', Reach dest h r r' := by
  induction h generalizing r with
  | nil => exact ⟨r, rfl⟩
  | cons a h ih =>
    obtain ⟨cmd, ok⟩ := a
    have hcmd := hh (cmd, ok) List.mem_cons_self
    have hrest (r₁ : Residue) := ih (fun b hb => hh b (List.mem_cons_of_mem _ hb)) r₁
    cases cmd with
    | sha256sum path => exact (hrest r).imp fun _ hr => ⟨r, rfl, hr⟩
    | chmod permissions path => exact (hrest r).imp fun _ hr => ⟨r, rfl, hr⟩
    | mkdir dir => exact hcmd.elim
    | truncate path => exact hcmd.elim
    | echo chunk path => exact hcmd.elim
    | base64 temp path => exact hcmd.elim
    | rm path => exact (hrest _).imp fun _ hr => ⟨_, .inl rfl, hr⟩

theorem Residue.append_append (r : Residue) (part part' : Bytes) :
    (r.append part).append part' = r.append (part ++ part') :=
  congrArg (fun fresh => { r with fresh := fresh }) (List.append_assoc r.fresh part part')

theorem reach_sent (temp : String) (chunks : List Bytes) :
    Reach dest (sent temp chunks) r r' ↔ r' = r.append (echoed chunks) := by
  induction chunks generalizing r with
  | nil =>
    have hnil : r.append (echoed []) = r := by
      rw [Residue.append, echoed, List.flatMap_nil, List.append_nil]
    rw [hnil]
    rfl
  | cons chunk chunks ih =>
    have hstep : (r.append (echoed [chunk])).append (echoed chunks) =
        r.append (echoed (chunk :: chunks)) := by
      rw [Residue.append_append, ← echoed_cons]
    rw [← hstep, ← ih]
    constructor
    · intro hr
      obtain ⟨r₁, ⟨part, -, hpart, rfl⟩, hr⟩ := hr
      rw [hpart rfl] at hr
      exact hr
    · intro hr
      exact ⟨_, ⟨_, List.prefix_rfl, fun _ => rfl, rfl⟩, hr⟩

theorem reach_prepared {checked made truncated : Bool} {stale : Bytes} :
    Reach dest (prepared dest checked made truncated) ⟨stale, [], none⟩ r ↔
      r = ⟨[], [], none⟩ ∨ truncated = false ∧ r = ⟨stale, [], none⟩ := by
  constructor
  · rintro ⟨_, rfl, _, rfl, r', hr', rfl⟩
    exact hr'
  · exact fun hr => ⟨_, rfl, _, rfl, r, hr, rfl⟩

theorem reach_transmitted {checked made truncated : Bool} {stale : Bytes} {chunks : List Bytes} :
    Reach dest (prepared dest checked made truncated ++ (sent (b64Temp dest) chunks ++ h))
        ⟨stale, [], none⟩ r ↔
      Reach dest h ⟨[], echoed chunks, none⟩ r ∨
        truncated = false ∧ Reach dest h ⟨stale, echoed chunks, none⟩ r := by
  constructor
  · intro hr
    obtain ⟨r₁, hprepared, hr⟩ := hr.split
    obtain ⟨r₂, hsent, hr⟩ := hr.split
    rw [reach_sent] at hsent
    subst hsent
    rcases reach_prepared.1 hprepared with rfl | ⟨hfailed, rfl⟩
    · exact .inl hr
    · exact .inr ⟨hfailed, hr⟩
  · intro hr
    rcases hr with hr | ⟨hfailed, hr⟩
    · exact (reach_prepared.2 (.inl rfl)).append ((reach_sent _ _).2 rfl |>.append hr)
    · exact (reach_prepared.2 (.inr ⟨hfailed, rfl⟩)).append ((reach_sent _ _).2 rfl |>.append hr)

theorem b64Chunks_ne_nil (h : content ≠ []) : b64Chunks content ≠ [] := by
  intro hnil
  have hflat := flatten_b64Chunks content
  rw [hnil] at hflat
  have hdecode := Base64.decode_encode content
  rw [← hflat] at hdecode
  cases hdecode
  exact h rfl

theorem echoed_ne_nil {chunks : List Bytes} (h : chunks ≠ []) : echoed chunks ≠ [] := by
  cases chunks with
  | nil => exact absurd rfl h
  | cons chunk chunks => simp [echoed]

theorem secret_of_fresh (hcontent : content ≠ []) (hfresh : r.fresh ≠ []) : Secret content r :=
  ⟨hcontent, .inl hfresh⟩

theorem spared_early (hh : ∀ a ∈ h, a.1.Harmless) :
    Spared dest content h ↔ CleanedUp dest content h := by
  apply iff_of_true
  · intro stale r hr hsecret
    obtain ⟨hfresh, hdest⟩ := hr.harmless hh rfl
    rcases hsecret.2 with hsecret | ⟨out, hout, -⟩
    · exact hsecret hfresh
    · rw [hdest] at hout
      cases hout
  · exact .inr (.inl fun chunk ok hmem => hh _ hmem)

theorem mem_sent {a : Attempt} {temp : String} {chunks : List Bytes} :
    a ∈ sent temp chunks ↔ ∃ chunk ∈ chunks, a = (.echo chunk temp, true) := by
  simp [sent, eq_comm]

theorem spared_sending {checked made truncated ok : Bool} {before behind : List Bytes}
    {chunk : Bytes} (hsplit : b64Chunks content = before ++ chunk :: behind) :
    Spared dest content (prepared dest checked made truncated ++
        (sent (b64Temp dest) before ++ [(.echo chunk (b64Temp dest), ok)])) ↔
      CleanedUp dest content (prepared dest checked made truncated ++
        (sent (b64Temp dest) before ++ [(.echo chunk (b64Temp dest), ok)])) := by
  have hcontent : content ≠ [] := by
    rintro rfl
    have hnil : b64Chunks [] = [] := by
      rw [b64Chunks, Base64.encode, blocks, dif_pos rfl]
    rw [hnil] at hsplit
    simp at hsplit
  apply iff_of_false
  · intro hspared
    apply hspared [] (Residue.append ⟨[], echoed before, none⟩ (echoed [chunk]))
    · apply reach_transmitted.2
      exact .inl ⟨_, ⟨_, List.prefix_rfl, fun _ => rfl, rfl⟩, rfl⟩
    · apply secret_of_fresh hcontent
      intro hnil
      exact echoed_ne_nil (List.cons_ne_nil chunk []) (List.append_eq_nil_iff.1 hnil).2
  · rintro (hnil | hnone | ⟨hremoved, -⟩)
    · exact hcontent hnil
    · exact hnone chunk ok (by simp)
    · simp [prepared, mem_sent] at hremoved

theorem exposed_decoding {checked made truncated : Bool} (hcontent : content ≠ []) :
    ¬ Spared dest content (prepared dest checked made truncated ++
      (sent (b64Temp dest) (b64Chunks content) ++ [(.base64 (b64Temp dest) dest, false)])) := by
  intro hspared
  apply hspared [] ⟨[], echoed (b64Chunks content), none⟩
  · exact reach_transmitted.2 (.inl ⟨_, .inl rfl, rfl⟩)
  · exact secret_of_fresh hcontent (echoed_ne_nil (b64Chunks_ne_nil hcontent))

theorem spared_decoding {checked made truncated : Bool} :
    Spared dest content (prepared dest checked made truncated ++
        (sent (b64Temp dest) (b64Chunks content) ++ [(.base64 (b64Temp dest) dest, false)])) ↔
      CleanedUp dest content (prepared dest checked made truncated ++
        (sent (b64Temp dest) (b64Chunks content) ++ [(.base64 (b64Temp dest) dest, false)])) := by
  by_cases hcontent : content = []
  · apply iff_of_true
    · exact fun _ _ _ hsecret => hsecret.1 hcontent
    · exact .inl hcontent
  · apply iff_of_false (exposed_decoding hcontent)
    rintro (hnil | hnone | ⟨hremoved, -⟩)
    · exact hcontent hnil
    · obtain ⟨chunk, hmem⟩ := List.exists_mem_of_ne_nil _ (b64Chunks_ne_nil hcontent)
      exact hnone chunk true (by simp [mem_sent, hmem])
    · simp [prepared, mem_sent] at hremoved

theorem removed_temp (r : Residue) : r.removed dest (b64Temp dest) = r.cleared := by
  rw [Residue.removed, if_neg (b64Temp_ne dest)]

theorem rm_temp_notMem (hh : ∀ a ∈ h, a.1.Final dest) : (.rm (b64Temp dest), true) ∉ h :=
  fun hmem => b64Temp_ne dest (hh _ hmem)

/-- Three bytes that an earlier attempt has left in the temporary file. -/
def leftover : Bytes := echoed [Base64.encode [0, 0, 0]]

theorem base64Decode_leftover (content : Bytes) :
    base64Decode (leftover ++ echoed (b64Chunks content)) = some (0 :: 0 :: 0 :: content) := by
  apply base64Decode_of_filter
  rw [List.filter_append, filter_b64Chunks]
  have hleftover : leftover.filter (· ≠ newline) = Base64.encode [0, 0, 0] := by decide
  rw [hleftover]
  rfl

theorem partlyDecoded_of_base64Decode {text data : Bytes} (hdecode : base64Decode text = some data)
    (n : Nat) : PartlyDecoded text (data.take n) :=
  ⟨text, data, List.prefix_rfl, hdecode, List.take_prefix n data⟩

section
variable {checked made truncated decoded removed : Bool}

/-- The attempts of a call that gets as far as the removal of the temporary file. -/
def pastDecoding (dest : String) (content : Bytes) (checked made truncated decoded removed : Bool)
    (h : List Attempt) : List Attempt :=
  prepared dest checked made truncated ++ (sent (b64Temp dest) (b64Chunks content) ++
    (.base64 (b64Temp dest) dest, decoded) :: (.rm (b64Temp dest), removed) :: h)

theorem cleanedUp_removing (hcontent : content ≠ []) (hh : ∀ a ∈ h, a.1.Final dest) :
    CleanedUp dest content (pastDecoding dest content checked made truncated decoded removed h) ↔
      removed = true ∧ ((.rm dest, true) ∈ h ∨
        truncated = true ∧ (decoded = true ∨ content.length ≤ 1)) := by
  have htruncate : (.truncate (b64Temp dest), true) ∉ h := fun hmem => (hh _ hmem).elim
  have hbase64 : (.base64 (b64Temp dest) dest, true) ∉ h := fun hmem => (hh _ hmem).elim
  have hsent : ¬ ∀ chunk ok, ((.echo chunk (b64Temp dest), ok) : Attempt) ∉
      pastDecoding dest content checked made truncated decoded removed h := by
    intro hnone
    obtain ⟨chunk, hmem⟩ := List.exists_mem_of_ne_nil _ (b64Chunks_ne_nil hcontent)
    exact hnone chunk true (by simp [pastDecoding, mem_sent, hmem])
  rw [CleanedUp, or_iff_right hcontent, or_iff_right hsent]
  simp [pastDecoding, prepared, mem_sent, rm_temp_notMem hh, htruncate, hbase64,
    (b64Temp_ne dest).symm]

/-- A temporary file that has not been removed may still hold the credential. -/
theorem exposed_temp (hcontent : content ≠ []) (hh : ∀ a ∈ h, a.1.Final dest) :
    ¬ Spared dest content (pastDecoding dest content checked made truncated decoded false h) := by
  intro hspared
  have hdecode : ∃ r, Effect dest (.base64 (b64Temp dest) dest, decoded)
      ⟨[], echoed (b64Chunks content), none⟩ r ∧ r.fresh = echoed (b64Chunks content) := by
    cases decoded with
    | false => exact ⟨_, .inl rfl, rfl⟩
    | true => exact ⟨_, ⟨content, base64Decode_echoed content, rfl⟩, rfl⟩
  obtain ⟨r, heffect, hfresh⟩ := hdecode
  obtain ⟨r', hr'⟩ := Reach.some_final hh r
  apply hspared [] r'
  · exact reach_transmitted.2 (.inl ⟨r, heffect, r, .inr ⟨rfl, rfl⟩, hr'⟩)
  · apply secret_of_fresh hcontent
    rw [(hr'.final hh).1, hfresh]
    exact echoed_ne_nil (b64Chunks_ne_nil hcontent)

theorem exposed_dest {stale out : Bytes} (hcontent : content ≠ []) (hout : out ≠ [])
    (hother : out ≠ content) (hh : ∀ a ∈ h, a.1.Final dest) (hkept : (.rm dest, true) ∉ h)
    (hstale : stale = [] ∨ truncated = false)
    (heffect : Effect dest (.base64 (b64Temp dest) dest, decoded)
      ⟨stale, echoed (b64Chunks content), none⟩ ⟨stale, echoed (b64Chunks content), some out⟩) :
    ¬ Spared dest content (pastDecoding dest content checked made truncated decoded true h) := by
  intro hspared
  have hrest : Reach dest
      ((.base64 (b64Temp dest) dest, decoded) :: (.rm (b64Temp dest), true) :: h)
      ⟨stale, echoed (b64Chunks content), none⟩ ⟨[], [], some out⟩ :=
    ⟨_, heffect, _, .inl (removed_temp _).symm, Reach.untouched hh hkept _⟩
  apply hspared stale ⟨[], [], some out⟩
  · apply reach_transmitted.2
    rcases hstale with rfl | htruncated
    · exact .inl hrest
    · exact .inr ⟨htruncated, hrest⟩
  · exact ⟨hcontent, .inr ⟨out, rfl, hout, hother⟩⟩

theorem encode_of_base64Decode {text data : Bytes} (h : base64Decode text = some data) :
    Base64.encode data = text.filter (· ≠ newline) := by
  rw [base64Decode] at h
  split at h
  · split at h
    · cases h
      assumption
    · cases h
  · cases h

/-- A decoding that breaks off in a single byte has written it or has not. -/
theorem partlyDecoded_short {out : Bytes} (hlength : content.length ≤ 1)
    (hout : PartlyDecoded (echoed (b64Chunks content)) out) : out = [] ∨ out = content := by
  obtain ⟨read, data, hread, hdecode, hprefix⟩ := hout
  have hencoded : Base64.encode data <+: Base64.encode content := by
    rw [encode_of_base64Decode hdecode, ← filter_b64Chunks]
    exact hread.filter _
  have hdata : data = [] ∨ data = content := by
    by_cases hempty : data = []
    · exact .inl hempty
    · right
      apply Base64.encode_injective
      apply hencoded.eq_of_length_le
      apply Nat.le_trans _ (Base64.encode_length hempty)
      cases content with
      | nil => exact Nat.zero_le 4
      | cons b rest =>
        have hrest : rest.length = 0 := Nat.le_zero.1 (Nat.le_of_succ_le_succ hlength)
        obtain rfl := List.eq_nil_of_length_eq_zero hrest
        exact Nat.le_refl 4
  rcases hdata with rfl | rfl
  · exact .inl (List.prefix_nil.1 hprefix)
  · by_cases hempty : out = []
    · exact .inl hempty
    · right
      apply hprefix.eq_of_length_le
      exact Nat.le_trans hlength (List.length_pos_of_ne_nil hempty)

theorem reach_removed (hh : ∀ a ∈ h, a.1.Final dest)
    (hr : Reach dest
      ((.base64 (b64Temp dest) dest, decoded) :: (.rm (b64Temp dest), true) :: h) r r') :
    ∃ r₁, Effect dest (.base64 (b64Temp dest) dest, decoded) r r₁ ∧ r'.fresh = [] ∧
      (r'.dest = r₁.dest ∨ r'.dest = none) ∧ ((.rm dest, true) ∈ h → r'.dest = none) := by
  obtain ⟨r₁, heffect, r₂, hcleared, hr⟩ := hr
  obtain ⟨hfresh, hdest, hgone⟩ := hr.final hh
  rcases hcleared with rfl | ⟨hfalse, -⟩
  · rw [removed_temp] at hfresh hdest
    exact ⟨r₁, heffect, hfresh, hdest, hgone⟩
  · cases hfalse

/-- What the decoding of an intact temporary file may have put at the destination. -/
theorem intact_decoded {r₁ : Residue} (hgood : decoded = true ∨ content.length ≤ 1)
    (heffect : Effect dest (.base64 (b64Temp dest) dest, decoded)
      ⟨[], echoed (b64Chunks content), none⟩ r₁) :
    ∀ out, r₁.dest = some out → out = [] ∨ out = content := by
  intro out hout
  cases decoded with
  | true =>
    obtain ⟨data, hdecode, rfl⟩ := heffect
    rw [Residue.text, List.nil_append, base64Decode_echoed] at hdecode
    cases hdecode
    cases hout
    exact .inr rfl
  | false =>
    rcases heffect with rfl | ⟨part, hpart, rfl⟩
    · cases hout
    · cases hout
      rw [Residue.text, List.nil_append] at hpart
      exact partlyDecoded_short (hgood.resolve_left Bool.false_ne_true) hpart

/-- The temporary file is removed, and the destination is too or can only be the credential. -/
theorem spared_removed (hh : ∀ a ∈ h, a.1.Final dest)
    (hgood : (.rm dest, true) ∈ h ∨ truncated = true ∧ (decoded = true ∨ content.length ≤ 1)) :
    Spared dest content (pastDecoding dest content checked made truncated decoded true h) := by
  intro stale r hr hsecret
  have hone : ∃ r₁, r.fresh = [] ∧ (r.dest = r₁.dest ∨ r.dest = none) ∧
      ((.rm dest, true) ∈ h → r.dest = none) ∧ (truncated = true →
        Effect dest (.base64 (b64Temp dest) dest, decoded)
          ⟨[], echoed (b64Chunks content), none⟩ r₁) := by
    rcases reach_transmitted.1 hr with hr | ⟨hfailed, hr⟩
    · obtain ⟨r₁, heffect, hfresh, hdest, hgone⟩ := reach_removed hh hr
      exact ⟨r₁, hfresh, hdest, hgone, fun _ => heffect⟩
    · obtain ⟨r₁, heffect, hfresh, hdest, hgone⟩ := reach_removed hh hr
      exact ⟨r₁, hfresh, hdest, hgone, fun htruncated => absurd (hfailed.symm.trans htruncated)
        Bool.false_ne_true⟩
  obtain ⟨r₁, hfresh, hdest, hgone, heffect⟩ := hone
  rcases hsecret.2 with hsecret | ⟨out, hout, hne, hother⟩
  · exact hsecret hfresh
  · rcases hgood with hmem | ⟨htruncated, hgood⟩
    · rw [hgone hmem] at hout
      cases hout
    · rcases hdest with hdest | hdest
      · rw [hdest] at hout
        exact (intact_decoded hgood (heffect htruncated) out hout).elim hne hother
      · rw [hdest] at hout
        cases hout

theorem exposed_removed (hcontent : content ≠ []) (hh : ∀ a ∈ h, a.1.Final dest)
    (hkept : (.rm dest, true) ∉ h)
    (hbad : truncated = true → decoded = false ∧ 1 < content.length) :
    ¬ Spared dest content (pastDecoding dest content checked made truncated decoded true h) := by
  cases truncated with
  | false =>
    have hother : (0 : UInt8) :: 0 :: 0 :: content ≠ content := by
      intro hsame
      have hlength := congrArg List.length hsame
      simp only [List.length_cons] at hlength
      omega
    have hdecode := base64Decode_leftover content
    apply exposed_dest hcontent (List.cons_ne_nil _ _) hother hh hkept (.inr rfl)
    cases decoded with
    | true => exact ⟨_, hdecode, rfl⟩
    | false =>
      have hall := partlyDecoded_of_base64Decode hdecode (0 :: 0 :: 0 :: content).length
      rw [List.take_length] at hall
      exact .inr ⟨_, hall, rfl⟩
  | true =>
    obtain ⟨rfl, hlength⟩ := hbad rfl
    have hout : (content.take 1).length = 1 := by
      rw [List.length_take]
      omega
    have hne : content.take 1 ≠ [] := by
      intro hnil
      rw [hnil] at hout
      cases hout
    have hother : content.take 1 ≠ content := by
      intro hsame
      rw [hsame] at hout
      omega
    apply exposed_dest hcontent hne hother hh hkept (.inl rfl)
    exact .inr ⟨_, partlyDecoded_of_base64Decode (base64Decode_echoed content) 1, rfl⟩

theorem spared_removing (hh : ∀ a ∈ h, a.1.Final dest) :
    Spared dest content (pastDecoding dest content checked made truncated decoded removed h) ↔
      CleanedUp dest content
        (pastDecoding dest content checked made truncated decoded removed h) := by
  by_cases hcontent : content = []
  · apply iff_of_true
    · exact fun _ _ _ hsecret => hsecret.1 hcontent
    · exact .inl hcontent
  rw [cleanedUp_removing hcontent hh]
  cases removed with
  | false => exact iff_of_false (exposed_temp hcontent hh) (by simp)
  | true =>
    by_cases hgood : (.rm dest, true) ∈ h ∨
        truncated = true ∧ (decoded = true ∨ content.length ≤ 1)
    · exact iff_of_true (spared_removed hh hgood) ⟨rfl, hgood⟩
    · apply iff_of_false _ fun h => hgood h.2
      rw [not_or, not_and, not_or, Bool.not_eq_true, Nat.not_le] at hgood
      exact exposed_removed hcontent hh hgood.1 hgood.2

end

theorem spared_iff (hfailing : Failing dest content h) :
    Spared dest content h ↔ CleanedUp dest content h := by
  cases hfailing with
  | early hh => exact spared_early hh
  | sending hsplit => exact spared_sending hsplit
  | decoding => exact spared_decoding
  | removing hh => exact spared_removing hh

end

end Pki
end MesCore
