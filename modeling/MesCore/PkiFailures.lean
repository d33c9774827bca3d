import MesCore.PkiResidue

namespace MesCore
set_option autoImplicit true

namespace Pki

section
variable {d : Target}

theorem verifyTransit_attempts (localHash dest permissions : String) :
    Leaves (verifyTransit localHash dest permissions : PkiM d Unit) (fun _ _ => True)
      fun _ seg => ∀ a ∈ attempts seg, a.1.Final dest := by
  have hchmod (ok : Bool) : ((.chmod permissions dest, ok) : Attempt).1.Final dest := trivial
  have hcheck (ok : Bool) : ((.sha256sum dest, ok) : Attempt).1.Final dest := trivial
  have hrm (ok : Bool) : ((.rm dest, ok) : Attempt).1.Final dest := rfl
  apply Leaves.bind_call
  · intro e
    exact List.forall_mem_singleton.2 (hchmod false)
  · intro resChmod
    apply Leaves.bind_call
    · intro e
      exact List.forall_mem_cons.2 ⟨hchmod _, List.forall_mem_singleton.2 (hcheck false)⟩
    · intro resHash
      split
      · apply Leaves.bind_call
        · intro e
          exact List.forall_mem_cons.2 ⟨hchmod _, List.forall_mem_cons.2
            ⟨hcheck _, List.forall_mem_singleton.2 (hrm false)⟩⟩
        · intro resRm
          apply Leaves.fail
          exact List.forall_mem_cons.2 ⟨hchmod _, List.forall_mem_cons.2
            ⟨hcheck _, List.forall_mem_singleton.2 (hrm _)⟩⟩
      · exact Leaves.pure trivial

theorem decodePayload_attempts (localHash dest permissions : String) :
    Leaves (decodePayload localHash dest permissions : PkiM d Unit) (fun _ _ => True)
      fun _ seg => attempts seg = [(.base64 (b64Temp dest) dest, false)] ∨
        ∃ decoded removed h, (∀ a ∈ h, a.1.Final dest) ∧ attempts seg =
          (.base64 (b64Temp dest) dest, decoded) :: (.rm (b64Temp dest), removed) :: h := by
  apply Leaves.bind_call
  · exact fun e => .inl rfl
  · intro resDecode
    apply Leaves.bind_call
    · exact fun e => .inr ⟨_, false, [], List.forall_mem_nil _, rfl⟩
    · intro resRm
      split
      · apply Leaves.fail
        exact .inr ⟨_, _, [], List.forall_mem_nil _, rfl⟩
      · apply (verifyTransit_attempts localHash dest permissions).mono
        · exact fun _ _ h => h
        · exact fun e seg hseg => .inr ⟨_, _, attempts seg, hseg, rfl⟩

theorem transmit_attempts (content : Bytes) (localHash dest permissions : String) (checked : Bool) :
    Leaves (transmit content localHash dest permissions : PkiM d Unit) (fun _ _ => True)
      fun _ seg => Failing dest content ((.sha256sum dest, checked) :: attempts seg) := by
  have hcheck : ((.sha256sum dest, checked) : Attempt).1.Harmless := trivial
  have hmkdir (ok : Bool) : ((.mkdir (remoteDir dest), ok) : Attempt).1.Harmless := trivial
  have htruncate : ((.truncate (b64Temp dest), false) : Attempt).1.Harmless := trivial
  apply Leaves.bind_call
  · intro e
    exact .early (List.forall_mem_cons.2 ⟨hcheck, List.forall_mem_singleton.2 (hmkdir false)⟩)
  · intro resMkdir
    apply Leaves.bind_call
    · intro e
      exact .early (List.forall_mem_cons.2 ⟨hcheck, List.forall_mem_cons.2
        ⟨hmkdir _, List.forall_mem_singleton.2 htruncate⟩⟩)
    · intro resTruncate
      apply Leaves.bind (Q := fun _ s => attempts s = sent (b64Temp dest) (b64Chunks content))
      · apply (sendChunks_leaves (b64Temp dest) (b64Chunks content)).mono
        · exact fun _ _ h => h
        · intro e seg hseg
          obtain ⟨before, chunk, behind, ok, hsplit, hseg⟩ := hseg
          rw [attempts_answered, attempts_answered, hseg]
          exact .sending hsplit
      · intro _ s hs
        apply (decodePayload_attempts localHash dest permissions).mono
        · exact fun _ _ h => h
        · intro e seg hseg
          rw [attempts_answered, attempts_answered, attempts_append, hs]
          rcases hseg with hseg | ⟨decoded, removed, h, hh, hseg⟩
          · rw [hseg]
            exact .decoding
          · rw [hseg]
            exact .removing hh

/-- Where the program raises, whatever the target does, it has come to one of these ends. -/
theorem provisionCredential_failing (lib : Sha256) (localFilepath : String) (content : Bytes)
    (dest permissions : String) :
    Leaves (provisionCredential lib localFilepath (some content) dest permissions : PkiM d Unit)
      (fun _ _ => True) fun _ seg => Failing dest content (attempts seg) := by
  have hcheck (ok : Bool) : ((.sha256sum dest, ok) : Attempt).1.Harmless := trivial
  have hchmod : ((.chmod permissions dest, false) : Attempt).1.Harmless := trivial
  apply Leaves.bind_call
  · intro e
    exact .early (List.forall_mem_singleton.2 (hcheck false))
  · intro resCheck
    split
    · apply Leaves.bind_call
      · intro e
        exact .early (List.forall_mem_cons.2 ⟨hcheck _, List.forall_mem_singleton.2 hchmod⟩)
      · exact fun _ => Leaves.pure trivial
    · exact transmit_attempts content _ dest permissions _

/-- Wherever the program raises, no secret can be left if and only if it has cleaned up: no chunk
has been sent, or the temporary file has been removed and the destination cannot be a part of the
credential or a corrupted copy. -/
theorem provisionCredential_spared_iff (lib : Sha256) (localFilepath : String) (content : Bytes)
    (dest permissions : String) (d : Target) (w : World d) :
    wp (provisionCredential lib localFilepath (some content) dest permissions) (fun _ _ => True)
      (fun _ w' => Spared dest content (attempts (w.since w')) ↔
        CleanedUp dest content (attempts (w.since w'))) w := by
  have hfailing := provisionCredential_failing (d := d) lib localFilepath content dest permissions
  apply (hfailing.runs w).mono
  · exact fun _ _ _ => trivial
  · intro e w' h
    obtain ⟨seg, htrace, hseg⟩ := h
    rw [World.since_eq htrace]
    exact spared_iff hseg

def lostAtDecoding : Target where
  State := Unit
  respond
  | .safeRun (.base64 _ _) _, s => (.error (.raised (.transportConnectionError "link lost")), s)
  | .safeRun _ _, s => (.ok (succeeded ""), s)
  | .sleep _, s => (.ok (), s)

theorem lostAtDecoding_run (lib : Sha256) : ∃ e w',
    provisionCredential lib "key.pem" (some [0x41]) "/etc/ssl/key.pem" "400"
      (⟨(), (), []⟩ : World lostAtDecoding) = .error e w' ∧
    attempts w'.trace = prepared "/etc/ssl/key.pem" true true true ++
      (sent (b64Temp "/etc/ssl/key.pem") (b64Chunks [0x41]) ++
        [(.base64 (b64Temp "/etc/ssl/key.pem") "/etc/ssl/key.pem", false)]) := by
  have hchunks : b64Chunks [0x41] = [[0x51, 0x51, 0x3D, 0x3D]] := by
    have hencode : Base64.encode [0x41] = [0x51, 0x51, 0x3D, 0x3D] := by decide
    rw [b64Chunks, hencode, blocks, dif_neg (by decide), blocks, dif_pos (by decide)]
    rfl
  have hcheck : safeRun (.sha256sum "/etc/ssl/key.pem") false
      (⟨(), (), []⟩ : World lostAtDecoding) = .ok (succeeded "") _ := rfl
  rw [provisionCredential, injectCredential, bind_of_ok hcheck,
    if_neg fun h => hexdigest_ne_empty [0x41] h.2, transmit, hchunks]
  exact ⟨_, _, rfl, rfl⟩

/-- All of the credential is still in the temporary file when the call raises. -/
theorem lostAtDecoding_not_spared : ∃ e w',
    provisionCredential sha256OfA "key.pem" (some [0x41]) "/etc/ssl/key.pem" "400"
      (⟨(), (), []⟩ : World lostAtDecoding) = .error e w' ∧
    ¬ Spared "/etc/ssl/key.pem" [0x41] (attempts w'.trace) := by
  obtain ⟨e, w', hrun, hattempts⟩ := lostAtDecoding_run sha256OfA
  refine ⟨e, w', hrun, ?_⟩
  rw [hattempts]
  exact exposed_decoding (List.cons_ne_nil _ _)

end

end Pki
end MesCore
