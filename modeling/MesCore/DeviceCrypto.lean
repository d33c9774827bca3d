import MesCore.Base64
import MesCore.Decoding

namespace MesCore
set_option autoImplicit true

/-- A `str` by its code points: an escape in JSON text can make a lone surrogate. -/
abbrev CodePoints := List Nat

/-- What `json.loads` returns. -/
inductive Json
  | null
  | bool (b : Bool)
  | number (literal : List Char)
  | string (s : CodePoints)
  | array (elements : List Json)
  | object (members : List (CodePoints × Json))

/-- `plaintext.decode("utf-8")`: only what a text encodes to decodes. -/
def decodeUtf8 (bs : Bytes) : Option (List Char) :=
  if encodeUtf8 (decodeReplace bs) = bs then some (decodeReplace bs) else none

theorem decodeUtf8_encode (s : List Char) : decodeUtf8 (encodeUtf8 s) = some s := by
  have hs : decodeReplace (encodeUtf8 s) = s := by
    have h := decodeReplace_encode_append s []
    simpa [decodeReplace, decodeFrom] using h
  rw [decodeUtf8, hs, if_pos rfl]

/-- `json`, and what the module takes from `cryptography`. A cipher or an unpadder raises
`ValueError` with its own text. -/
structure CryptoLibraries where
  loads : List Char → Option Json
  dumps : Json → List Char
  hmac : (key message : Bytes) → Bytes
  verify : (key message tag : Bytes) → Bool
  pad : Bytes → Bytes
  unpad : Bytes → Except String Bytes
  cbcEncrypt : (key iv data : Bytes) → Except String Bytes
  cbcDecrypt : (key iv data : Bytes) → Except String Bytes

structure DeviceCrypto where
  key : Bytes
  fallbackKey : Option Bytes
  key_length : key.length = 16

namespace DeviceCrypto

/-- `DeviceCrypto.__init__`. -/
def create (key : Bytes) (fallbackKey : Option Bytes) : Except String DeviceCrypto :=
  if h : key.length = 16 then .ok ⟨key, fallbackKey, h⟩
  else .error s!"AES-128 key must be exactly 16 bytes, got {key.length}"

/-- What `_try_decrypt` raises. -/
inductive Failure
  | typeError
  | notAscii
  | base64 (e : Base64.DecodeError)
  | invalidSignature
  | valueError (message : String)
  | unicodeDecodeError
  deriving DecidableEq

/-- `DeviceCryptoError`, with the exception it was raised from. -/
structure DeviceCryptoError where
  message : String
  cause : Failure
  deriving DecidableEq

/-- `os.urandom(16)`. -/
abbrev Iv := {iv : Bytes // iv.length = 16}

/-- `base64.b64encode(data).decode("utf-8")`. -/
def b64encode (data : Bytes) : CodePoints := (Base64.encode data).map UInt8.toNat

/-- `base64.b64decode` of a JSON value. -/
def b64decode : Json → Except Failure Bytes
  | .string s =>
    if ∀ c ∈ s, c < 0x80 then (Base64.decode (s.map UInt8.ofNat)).mapError .base64
    else .error .notAscii
  | _ => .error .typeError

def fieldName (s : String) : CodePoints := s.toList.map Char.toNat

def envelope (iv ciphertext mac : Bytes) : Json :=
  .object [(fieldName "iv", .string (b64encode iv)),
    (fieldName "ciphertext", .string (b64encode ciphertext)),
    (fieldName "hmac", .string (b64encode mac))]

/-- The three fields of an envelope. -/
structure Fields where
  iv : Json
  ciphertext : Json
  hmac : Json

section
variable (lib : CryptoLibraries)

def encrypt (c : DeviceCrypto) (iv : Iv) (plaintextStr : List Char) :
    Except String (List Char) := do
  let plaintext := encodeUtf8 plaintextStr
  let paddedData := lib.pad plaintext
  let ciphertext ← lib.cbcEncrypt c.key iv paddedData
  let mac := lib.hmac c.key (iv ++ ciphertext)
  return lib.dumps (envelope iv ciphertext mac)

/-- What the text is an envelope of: a JSON object that has all three fields. -/
def envelope? (envelopeJson : List Char) : Option Fields := do
  let .object data ← lib.loads envelopeJson | none
  let iv ← data.lookup (fieldName "iv")
  let ciphertext ← data.lookup (fieldName "ciphertext")
  let hmac ← data.lookup (fieldName "hmac")
  return ⟨iv, ciphertext, hmac⟩

def tryDecrypt (data : Fields) (key : Bytes) : Except Failure (List Char) := do
  let iv ← b64decode data.iv
  let ciphertext ← b64decode data.ciphertext
  let macReceived ← b64decode data.hmac
  if lib.verify key (iv ++ ciphertext) macReceived then
    let paddedPlaintext ← (lib.cbcDecrypt key iv ciphertext).mapError .valueError
    let plaintext ← (lib.unpad paddedPlaintext).mapError .valueError
    (decodeUtf8 plaintext).elim (.error .unicodeDecodeError) .ok
  else .error .invalidSignature

def allKeysFailed (primary : Failure) : DeviceCryptoError where
  message := "Envelope HMAC verification/decryption failed with all configured keys"
  cause := primary

/-- The fallback key, if there is one to try: an empty one is falsy. -/
def usableFallback (c : DeviceCrypto) : Option Bytes := c.fallbackKey.filter (· ≠ [])

def configuredKeys (c : DeviceCrypto) : List Bytes := c.key :: c.usableFallback.toList

def decrypt (c : DeviceCrypto) (envelopeJson : List Char) : Except DeviceCryptoError (List Char) :=
  match envelope? lib envelopeJson with
  | none => .ok envelopeJson
  | some data =>
    match tryDecrypt lib data c.key with
    | .ok plaintext => .ok plaintext
    | .error primary =>
      match c.usableFallback with
      | none => .error (allKeysFailed primary)
      | some key =>
        match tryDecrypt lib data key with
        | .ok plaintext => .ok plaintext
        | .error _ => .error (allKeysFailed primary)

/-- A JSON object having all of `iv`, `ciphertext` and `hmac`. -/
def IsEnvelope (text : List Char) : Prop :=
  ∃ data, lib.loads text = some (.object data) ∧
    ∀ k ∈ ["iv", "ciphertext", "hmac"], ∃ v, data.lookup (fieldName k) = some v

/-- The tag over `iv ++ ciphertext` verifies under the key. -/
def Verifies (data : Fields) (key : Bytes) : Prop :=
  ∃ iv ciphertext mac, b64decode data.iv = .ok iv ∧ b64decode data.ciphertext = .ok ciphertext ∧
    b64decode data.hmac = .ok mac ∧ lib.verify key (iv ++ ciphertext) mac = true

/-- The text the key opens the envelope to: its tag verifies over a 16-byte iv and the ciphertext,
and the text is the UTF-8 decoding of the unpadded CBC decryption of that pair. -/
def Opens (data : Fields) (key : Bytes) (d : List Char) : Prop :=
  ∃ iv ciphertext mac padded plaintext,
    b64decode data.iv = .ok iv ∧ b64decode data.ciphertext = .ok ciphertext ∧
    b64decode data.hmac = .ok mac ∧ lib.verify key (iv ++ ciphertext) mac = true ∧
    iv.length = 16 ∧ lib.cbcDecrypt key iv ciphertext = .ok padded ∧
    lib.unpad padded = .ok plaintext ∧ decodeUtf8 plaintext = some d

end

/-- The library calls undo each other, and a tag verifies exactly if it is the computed one. -/
structure Inverse (lib : CryptoLibraries) : Prop where
  cbc : ∀ key iv data : Bytes, key.length = 16 → iv.length = 16 → 16 ∣ data.length →
    ∃ ciphertext, lib.cbcEncrypt key iv data = .ok ciphertext ∧
      lib.cbcDecrypt key iv ciphertext = .ok data
  pkcs7 : ∀ data, 16 ∣ (lib.pad data).length ∧ lib.unpad (lib.pad data) = .ok data
  hmac : ∀ key message tag, lib.verify key message tag = true ↔ tag = lib.hmac key message
  json : ∀ iv ciphertext mac,
    lib.loads (lib.dumps (envelope iv ciphertext mac)) = some (envelope iv ciphertext mac)

section
variable {lib : CryptoLibraries} {c : DeviceCrypto} {text d : List Char} {data : Fields}

theorem b64decode_encode (data : Bytes) : b64decode (.string (b64encode data)) = .ok data := by
  have hascii : ∀ c ∈ b64encode data, c < 0x80 := by
    intro c hc
    obtain ⟨b, hb, rfl⟩ := List.mem_map.1 hc
    exact Base64.encode_ascii hb
  have hbytes : (b64encode data).map UInt8.ofNat = Base64.encode data := by
    rw [b64encode, List.map_map]
    exact List.map_id'' (fun b => UInt8.ofNat_toNat) _
  rw [b64decode, if_pos hascii, hbytes, Base64.decode_encode]
  rfl

def encodedFields (iv ciphertext mac : Bytes) : Fields where
  iv := .string (b64encode iv)
  ciphertext := .string (b64encode ciphertext)
  hmac := .string (b64encode mac)

theorem envelope?_dumps (hlib : Inverse lib) (iv ciphertext mac : Bytes) :
    envelope? lib (lib.dumps (envelope iv ciphertext mac)) =
      some (encodedFields iv ciphertext mac) := by
  rw [envelope?, hlib.json]
  rfl

theorem isEnvelope_iff : IsEnvelope lib text ↔ ∃ data, envelope? lib text = some data := by
  constructor
  · rintro ⟨data, hloads, hall⟩
    obtain ⟨iv, hiv⟩ := hall "iv" (by simp)
    obtain ⟨ciphertext, hct⟩ := hall "ciphertext" (by simp)
    obtain ⟨hmac, hmac'⟩ := hall "hmac" (by simp)
    refine ⟨⟨iv, ciphertext, hmac⟩, ?_⟩
    rw [envelope?, hloads]
    simp [hiv, hct, hmac']
  · rintro ⟨data, h⟩
    rw [envelope?] at h
    cases hloads : lib.loads text with
    | none => rw [hloads] at h; cases h
    | some v =>
      rw [hloads] at h
      cases v with
      | object members =>
        simp only [Option.bind_eq_bind, Option.bind_some, Option.bind_eq_some_iff] at h
        obtain ⟨iv, hiv, ciphertext, hct, hmac, hmac', -⟩ := h
        refine ⟨members, hloads, ?_⟩
        simp only [List.forall_mem_cons, List.not_mem_nil, false_imp_iff, implies_true, and_true]
        exact ⟨⟨iv, hiv⟩, ⟨ciphertext, hct⟩, ⟨hmac, hmac'⟩⟩
      | _ => cases h

theorem except_bind_ok {x : Except ε α} {f : α → Except ε β} {r : β} (h : x >>= f = .ok r) :
    ∃ a, x = .ok a ∧ f a = .ok r := by
  cases x with
  | error e => cases h
  | ok a => exact ⟨a, rfl, h⟩

theorem mapError_ok {x : Except ε α} {f : ε → ε'} {a : α} (h : x.mapError f = .ok a) :
    x = .ok a := by
  cases x with
  | error e => cases h
  | ok b => exact congrArg _ (Except.ok.inj h)

theorem tryDecrypt_ok {key : Bytes} (h : tryDecrypt lib data key = .ok d) :
    ∃ iv ciphertext mac padded plaintext,
      b64decode data.iv = .ok iv ∧ b64decode data.ciphertext = .ok ciphertext ∧
      b64decode data.hmac = .ok mac ∧ lib.verify key (iv ++ ciphertext) mac = true ∧
      lib.cbcDecrypt key iv ciphertext = .ok padded ∧
      lib.unpad padded = .ok plaintext ∧ decodeUtf8 plaintext = some d := by
  obtain ⟨iv, hiv, h⟩ := except_bind_ok h
  obtain ⟨ciphertext, hct, h⟩ := except_bind_ok h
  obtain ⟨mac, hmac, h⟩ := except_bind_ok h
  split at h
  · rename_i hverify
    obtain ⟨padded, hpadded, h⟩ := except_bind_ok h
    obtain ⟨plaintext, hplain, h⟩ := except_bind_ok h
    refine ⟨iv, ciphertext, mac, padded, plaintext, hiv, hct, hmac, hverify, mapError_ok hpadded,
      mapError_ok hplain, ?_⟩
    cases hd : decodeUtf8 plaintext with
    | none => rw [hd] at h; cases h
    | some d' =>
      rw [hd] at h
      exact congrArg some (Except.ok.inj h)
  · cases h

theorem tryDecrypt_verifies {key : Bytes} (h : tryDecrypt lib data key = .ok d) :
    Verifies lib data key := by
  obtain ⟨iv, ciphertext, mac, _, _, hiv, hct, hmac, hverify, -⟩ := tryDecrypt_ok h
  exact ⟨iv, ciphertext, mac, hiv, hct, hmac, hverify⟩

/-- A text comes back only if it is no envelope, or one of the keys opened it. -/
theorem decrypt_ok (h : decrypt lib c text = .ok d) :
    (envelope? lib text = none ∧ d = text) ∨
      ∃ data, envelope? lib text = some data ∧
        ∃ key ∈ c.configuredKeys, tryDecrypt lib data key = .ok d := by
  rw [decrypt] at h
  cases henv : envelope? lib text with
  | none =>
    rw [henv] at h
    exact .inl ⟨rfl, (Except.ok.inj h).symm⟩
  | some data =>
    rw [henv] at h
    dsimp only at h
    refine .inr ⟨data, rfl, ?_⟩
    cases hprimary : tryDecrypt lib data c.key with
    | ok d' =>
      rw [hprimary] at h
      cases h
      exact ⟨c.key, List.mem_cons_self, hprimary⟩
    | error primary =>
      rw [hprimary] at h
      dsimp only at h
      cases hkey : c.usableFallback with
      | none => rw [hkey] at h; cases h
      | some key =>
        rw [hkey] at h
        dsimp only at h
        cases hfallback : tryDecrypt lib data key with
        | error e => rw [hfallback] at h; cases h
        | ok d' =>
          rw [hfallback] at h
          cases h
          refine ⟨key, ?_, hfallback⟩
          rw [configuredKeys, hkey]
          simp

theorem decrypt_error {e : DeviceCryptoError} (h : decrypt lib c text = .error e) :
    ∃ cause, e = allKeysFailed cause := by
  rw [decrypt] at h
  split at h
  · cases h
  · split at h
    · cases h
    · split at h
      · cases h
        exact ⟨_, rfl⟩
      · split at h
        · cases h
        · cases h
          exact ⟨_, rfl⟩

theorem tryDecrypt_sealed (hlib : Inverse lib) {key : Bytes} (iv : Iv) {ciphertext : Bytes}
    {s : List Char}
    (hdec : lib.cbcDecrypt key iv ciphertext = .ok (lib.pad (encodeUtf8 s))) :
    tryDecrypt lib (encodedFields iv ciphertext (lib.hmac key (iv ++ ciphertext))) key = .ok s := by
  have hverify : lib.verify key (iv ++ ciphertext) (lib.hmac key (iv ++ ciphertext)) = true :=
    (hlib.hmac ..).2 rfl
  simp [tryDecrypt, encodedFields, b64decode_encode, hverify, hdec, (hlib.pkcs7 _).2,
    decodeUtf8_encode, bind, Except.bind, Except.mapError]

theorem encrypt_ok (hlib : Inverse lib) (c : DeviceCrypto) (iv : Iv) (s : List Char) :
    ∃ ciphertext,
      encrypt lib c iv s =
        .ok (lib.dumps (envelope iv ciphertext (lib.hmac c.key (iv ++ ciphertext)))) ∧
      lib.cbcDecrypt c.key iv ciphertext = .ok (lib.pad (encodeUtf8 s)) := by
  obtain ⟨ciphertext, henc, hdec⟩ :=
    hlib.cbc c.key iv _ c.key_length iv.2 (hlib.pkcs7 (encodeUtf8 s)).1
  refine ⟨ciphertext, ?_, hdec⟩
  rw [encrypt, henc]
  rfl

theorem tryDecrypt_foreign {key iv ciphertext mac : Bytes}
    (h : lib.verify key (iv ++ ciphertext) mac = false) :
    tryDecrypt lib (encodedFields iv ciphertext mac) key = .error .invalidSignature := by
  simp [tryDecrypt, encodedFields, b64decode_encode, h, bind, Except.bind]

/-- The keys, the iv and what AES and HMAC make of `rotate me` under them. -/
def currentKey : Bytes :=
  [0xA1, 0xB2, 0xC3, 0xD4, 0xE5, 0xF6, 0x78, 0x90, 0x12, 0x34, 0x56, 0x78, 0x90, 0x12, 0xAB, 0xCD]

def retiredKey : Bytes :=
  [0x00, 0x01, 0x02, 0x03, 0x04, 0x05, 0x06, 0x07, 0x08, 0x09, 0x0A, 0x0B, 0x0C, 0x0D, 0x0E, 0x0F]

def sampleIv : Iv := ⟨[16, 17, 18, 19, 20, 21, 22, 23, 24, 25, 26, 27, 28, 29, 30, 31], rfl⟩

def sampleBlock : Bytes := [114, 111, 116, 97, 116, 101, 32, 109, 101, 7, 7, 7, 7, 7, 7, 7]

def sampleCipher : Bytes :=
  [60, 223, 147, 25, 71, 95, 173, 152, 153, 187, 247, 235, 178, 45, 133, 203]

def retiredTag : Bytes :=
  [20, 226, 235, 55, 84, 189, 57, 29, 33, 135, 249, 35, 69, 219, 19, 34, 48, 66, 23, 98, 1, 135,
    241, 228, 210, 76, 198, 145, 133, 231, 211, 199]

def currentTag : Bytes :=
  [186, 185, 174, 164, 221, 156, 121, 219, 56, 241, 29, 247, 142, 9, 246, 243, 154, 19, 237, 102,
    174, 148, 242, 24, 23, 4, 188, 21, 223, 171, 38, 196]

def sampleHmac (key message : Bytes) : Bytes :=
  if message = sampleIv ++ sampleCipher then
    if key = retiredKey then retiredTag else if key = currentKey then currentTag else key
  else key

/-- AES on the one block the sample encrypts; every other block is left alone. -/
def sampleAes (key iv block : Bytes) : Bytes :=
  if key = retiredKey ∧ iv = sampleIv then
    if block = sampleBlock then sampleCipher
    else if block = sampleCipher then sampleBlock
    else block
  else block

def sampleCbc (key iv data : Bytes) : Except String Bytes :=
  if key.length ≠ 16 then .error "Invalid key size"
  else if iv.length ≠ 16 then .error "Invalid IV size"
  else if data.length % 16 ≠ 0 then .error "The length is not a multiple of the block length."
  else .ok (sampleAes key iv data)

def pkcs7Pad (data : Bytes) : Bytes :=
  data ++ List.replicate (16 - data.length % 16) (UInt8.ofNat (16 - data.length % 16))

def pkcs7Unpad (data : Bytes) : Except String Bytes :=
  let n := (data.getLast?.getD 0).toNat
  let plain := data.take (data.length - n)
  if data.length % 16 = 0 ∧ 1 ≤ n ∧ n ≤ 16 ∧ data = plain ++ List.replicate n (UInt8.ofNat n) then
    .ok plain
  else .error "Invalid padding bytes."

/-- An object of three strings as `json.dumps` writes it, with nothing to escape. -/
def dumpsThree : Json → List Char
  | .object [(k₁, .string v₁), (k₂, .string v₂), (k₃, .string v₃)] =>
    ['"'].intercalate [['{'], k₁.map Char.ofNat, [':'], v₁.map Char.ofNat, [','],
      k₂.map Char.ofNat, [':'], v₂.map Char.ofNat, [','], k₃.map Char.ofNat, [':'],
      v₃.map Char.ofNat, ['}']]
  | _ => []

def loadsThree (text : List Char) : Option Json :=
  match text.splitOn '"' with
  | [['{'], k₁, [':'], v₁, [','], k₂, [':'], v₂, [','], k₃, [':'], v₃, ['}']] =>
    some (.object [(k₁.map Char.toNat, .string (v₁.map Char.toNat)),
      (k₂.map Char.toNat, .string (v₂.map Char.toNat)),
      (k₃.map Char.toNat, .string (v₃.map Char.toNat))])
  | _ => none

def sampleLibraries : CryptoLibraries where
  loads := loadsThree
  dumps := dumpsThree
  hmac := sampleHmac
  verify key message tag := tag = sampleHmac key message
  pad := pkcs7Pad
  unpad := pkcs7Unpad
  cbcEncrypt := sampleCbc
  cbcDecrypt := sampleCbc

theorem sampleAes_length (key iv block : Bytes) :
    (sampleAes key iv block).length = block.length := by
  rw [sampleAes]
  split_ifs with h₁ h₂ h₃
  · rw [h₂]
    rfl
  · rw [h₃]
    rfl
  · rfl
  · rfl

theorem sampleAes_sampleAes (key iv block : Bytes) :
    sampleAes key iv (sampleAes key iv block) = block := by
  have hne : sampleCipher ≠ sampleBlock := by decide
  by_cases h : key = retiredKey ∧ iv = sampleIv
  · by_cases hblock : block = sampleBlock
    · simp [sampleAes, h, hblock, hne]
    · by_cases hcipher : block = sampleCipher
      · simp [sampleAes, h, hcipher, hne]
      · simp [sampleAes, h, hblock, hcipher]
  · simp [sampleAes, h]

theorem sampleCbc_inverse (key iv data : Bytes) (hkey : key.length = 16) (hiv : iv.length = 16)
    (hdata : 16 ∣ data.length) :
    ∃ ciphertext, sampleCbc key iv data = .ok ciphertext ∧
      sampleCbc key iv ciphertext = .ok data := by
  have hmod : data.length % 16 = 0 := Nat.mod_eq_zero_of_dvd hdata
  refine ⟨sampleAes key iv data, ?_, ?_⟩
  · simp [sampleCbc, hkey, hiv, hmod]
  · simp [sampleCbc, hkey, hiv, sampleAes_length, hmod, sampleAes_sampleAes]

theorem sampleCbc_iv (key iv data padded : Bytes) (h : sampleCbc key iv data = .ok padded) :
    iv.length = 16 := by
  rw [sampleCbc] at h
  split_ifs at h with hkey hiv
  exact not_not.1 hiv

theorem pkcs7_inverse (data : Bytes) :
    16 ∣ (pkcs7Pad data).length ∧ pkcs7Unpad (pkcs7Pad data) = .ok data := by
  obtain ⟨n, hn⟩ : ∃ n, n = 16 - data.length % 16 := ⟨_, rfl⟩
  have hpad : pkcs7Pad data = data ++ List.replicate n (UInt8.ofNat n) := by rw [pkcs7Pad, hn]
  have hpos : 1 ≤ n := by omega
  have hle : n ≤ 16 := by omega
  have hlen : (pkcs7Pad data).length = data.length + n := by
    rw [hpad, List.length_append, List.length_replicate]
  have hmod : (pkcs7Pad data).length % 16 = 0 := by omega
  refine ⟨Nat.dvd_of_mod_eq_zero hmod, ?_⟩
  have hlast : ((pkcs7Pad data).getLast?.getD 0).toNat = n := by
    obtain ⟨m, rfl⟩ : ∃ m, n = m + 1 := ⟨n - 1, by omega⟩
    rw [hpad, List.replicate_succ', ← List.append_assoc, List.getLast?_concat, Option.getD_some]
    exact toNat_ofNat_eq rfl (by omega)
  have htake : (pkcs7Pad data).take ((pkcs7Pad data).length - n) = data := by
    rw [hlen, Nat.add_sub_cancel, hpad, List.take_left]
  rw [pkcs7Unpad, hlast, htake, if_pos ⟨hmod, hpos, hle, hpad⟩]

theorem quote_not_mem_b64 (data : Bytes) : '"' ∉ (b64encode data).map Char.ofNat := by
  intro h
  obtain ⟨n, hn, hquote⟩ := List.mem_map.1 h
  obtain ⟨b, hb, rfl⟩ := List.mem_map.1 hn
  have hb' : b.toNat = (0x22 : UInt8).toNat := by
    have hascii := Base64.encode_ascii hb
    have hvalid : b.toNat.isValidChar := .inl (by omega)
    have hval := congrArg Char.toNat hquote
    rwa [Char.ofNat, dif_pos hvalid] at hval
  rw [UInt8.toNat_inj.1 hb'] at hb
  exact Base64.encode_no_quote hb

theorem toNat_ofNat_b64 (data : Bytes) :
    ((b64encode data).map Char.ofNat).map Char.toNat = b64encode data := by
  rw [List.map_map, b64encode, List.map_map]
  refine List.map_congr_left fun b hb => ?_
  have hascii := Base64.encode_ascii hb
  have hvalid : b.toNat.isValidChar := .inl (by omega)
  have hnat : (Char.ofNat b.toNat).toNat = b.toNat := by
    rw [Char.ofNat, dif_pos hvalid]
    rfl
  exact hnat

theorem loadsThree_dumps (iv ciphertext mac : Bytes) :
    loadsThree (dumpsThree (envelope iv ciphertext mac)) = some (envelope iv ciphertext mac) := by
  rw [envelope, dumpsThree, loadsThree, List.splitOn_intercalate]
  · simp only [toNat_ofNat_b64]
    rfl
  · intro l hl
    simp only [List.mem_cons, List.not_mem_nil, or_false] at hl
    rcases hl with rfl | rfl | rfl | rfl | rfl | rfl | rfl | rfl | rfl | rfl | rfl | rfl | rfl
    case inr.inr.inr.inl => exact quote_not_mem_b64 _
    all_goals first | exact quote_not_mem_b64 _ | decide
  · exact List.cons_ne_nil _ _

theorem sampleLibraries_inverse : Inverse sampleLibraries where
  cbc := sampleCbc_inverse
  pkcs7 := pkcs7_inverse
  hmac _ _ _ := decide_eq_true_iff
  json := loadsThree_dumps

theorem sampleHmac_ne (message : Bytes) :
    sampleLibraries.verify currentKey message (sampleLibraries.hmac retiredKey message) =
      false := by
  refine decide_eq_false ?_
  change sampleHmac retiredKey message ≠ sampleHmac currentKey message
  have hkeys : currentKey ≠ retiredKey := by decide
  by_cases h : message = sampleIv ++ sampleCipher
  · rw [sampleHmac, sampleHmac, if_pos h, if_pos h, if_pos rfl, if_neg hkeys, if_pos rfl]
    decide
  · rw [sampleHmac, sampleHmac, if_neg h, if_neg h]
    exact hkeys.symm

/-- Texts come back from the key that sealed them, and across a rotation from the pair of keys. -/
theorem decrypt_encrypt (hlib : Inverse lib) (iv : Iv) (s : List Char) :
    (∀ c : DeviceCrypto, ∃ e, encrypt lib c iv s = .ok e ∧ decrypt lib c e = .ok s) ∧
    ∀ old new : DeviceCrypto, new.fallbackKey = some old.key →
      (new.key ≠ old.key →
        ∀ message, lib.verify new.key message (lib.hmac old.key message) = false) →
      ∀ sender : DeviceCrypto, sender.key = old.key ∨ sender.key = new.key →
        ∃ e, encrypt lib sender iv s = .ok e ∧ decrypt lib new e = .ok s := by
  have hown (sender c : DeviceCrypto) (hkey : sender.key = c.key) :
      ∃ e, encrypt lib sender iv s = .ok e ∧ decrypt lib c e = .ok s := by
    obtain ⟨ciphertext, henc, hdec⟩ := encrypt_ok hlib sender iv s
    refine ⟨_, henc, ?_⟩
    rw [decrypt, envelope?_dumps hlib, ← hkey]
    dsimp only
    rw [tryDecrypt_sealed hlib iv hdec]
  refine ⟨fun c => hown c c rfl, ?_⟩
  intro old new hfallback hforeign sender hsender
  by_cases hsame : sender.key = new.key
  · exact hown sender new hsame
  · have hold : sender.key = old.key := hsender.resolve_right hsame
    have hne : new.key ≠ old.key := fun h => hsame (hold.trans h.symm)
    have hfallback' : new.usableFallback = some old.key := by
      rw [usableFallback, hfallback, Option.filter_some_pos]
      have hlen := old.key_length
      simp only [decide_eq_true_eq]
      rintro hnil
      rw [hnil] at hlen
      cases hlen
    obtain ⟨ciphertext, henc, hdec⟩ := encrypt_ok hlib sender iv s
    refine ⟨_, henc, ?_⟩
    -- the new key rejects the tag, so the fallback is reached
    rw [decrypt, envelope?_dumps hlib]
    dsimp only
    rw [hold] at hdec ⊢
    rw [tryDecrypt_foreign (hforeign hne _), hfallback']
    dsimp only
    rw [tryDecrypt_sealed hlib iv hdec]

theorem decrypt_encrypt_rotated :
    ∃ e, encrypt sampleLibraries ⟨retiredKey, none, rfl⟩ sampleIv "rotate me".toList = .ok e ∧
      decrypt sampleLibraries ⟨currentKey, some retiredKey, rfl⟩ e = .ok "rotate me".toList :=
  (decrypt_encrypt sampleLibraries_inverse sampleIv "rotate me".toList).2 ⟨retiredKey, none, rfl⟩
    ⟨currentKey, some retiredKey, rfl⟩ rfl (fun _ => sampleHmac_ne) ⟨retiredKey, none, rfl⟩
    (.inl rfl)

/-- Every way out of `decrypt`: the text unchanged if it is no envelope, the text a configured key
opens it to, or the error; and the error it is where no configured key verifies the tag. -/
theorem decrypt_authenticated
    (hcbc : ∀ key iv data padded, lib.cbcDecrypt key iv data = .ok padded → iv.length = 16)
    (c : DeviceCrypto) (text : List Char) :
    (∀ d, decrypt lib c text = .ok d →
      (d = text ∧ ¬ IsEnvelope lib text) ∨
        ∃ data, envelope? lib text = some data ∧ ∃ key ∈ c.configuredKeys, Opens lib data key d) ∧
    (∀ e, decrypt lib c text = .error e → ∃ cause, e = allKeysFailed cause) ∧
    (∀ data, envelope? lib text = some data →
      (∀ key ∈ c.configuredKeys, ¬ Verifies lib data key) →
        ∃ e, decrypt lib c text = .error e) := by
  refine ⟨?_, fun e h => decrypt_error h, ?_⟩
  · intro d h
    rcases decrypt_ok h with ⟨hnone, rfl⟩ | ⟨data, henv, key, hkey, htry⟩
    · refine .inl ⟨rfl, fun henv => ?_⟩
      obtain ⟨data, hsome⟩ := isEnvelope_iff.1 henv
      cases hnone.symm.trans hsome
    · obtain ⟨iv, ciphertext, mac, padded, plaintext, hiv, hct, hmac, hverify, hpadded, hrest⟩ :=
        tryDecrypt_ok htry
      exact .inr ⟨data, henv, key, hkey, iv, ciphertext, mac, padded, plaintext, hiv, hct, hmac,
        hverify, hcbc _ _ _ _ hpadded, hpadded, hrest⟩
  · intro data henv hnone
    cases hres : decrypt lib c text with
    | error e => exact ⟨e, rfl⟩
    | ok d =>
      rcases decrypt_ok hres with ⟨henv', -⟩ | ⟨data', henv', key, hkey, htry⟩
      · cases henv'.symm.trans henv
      · cases henv'.symm.trans henv
        exact (hnone key hkey (tryDecrypt_verifies htry)).elim

/-- An envelope whose iv is cut short: no base64 decodes to it. -/
def cutEnvelope : List Char :=
  ['{', '"', 'i', 'v', '"', ':', '"', 'A', 'A', '"', ',',
    '"', 'c', 'i', 'p', 'h', 'e', 'r', 't', 'e', 'x', 't', '"', ':', '"', 'A', 'A', '=', '=', '"',
    ',',
    '"', 'h', 'm', 'a', 'c', '"', ':', '"', 'A', 'A', '=', '=', '"', '}']

theorem decrypt_cutEnvelope :
    ∃ e, decrypt sampleLibraries ⟨currentKey, some retiredKey, rfl⟩ cutEnvelope = .error e := by
  refine (decrypt_authenticated sampleCbc_iv _ cutEnvelope).2.2
    ⟨.string [65, 65], .string [65, 65, 61, 61], .string [65, 65, 61, 61]⟩ rfl ?_
  rintro key - ⟨iv, _, _, hiv, -⟩
  cases hiv

end

end DeviceCrypto

end MesCore
