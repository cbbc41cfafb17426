import Pwos.Lib.CodeUnits
import Mathlib.Data.List.DropRight

/-!
# Encrypted fields

`lib/fieldEncryption.ts`: the envelope of sensitive texts. A text is a list of code units, a
context is a constant of the code. The cipher and the encodings are parameters, with what they
promise. A text that begins like an envelope is taken for one, so it is stored as it is
(`encryptSensitive_iff`).
-/

namespace Pwos

abbrev Bytes := List UInt8

/-- An authenticated cipher: what is enciphered opens with the same key, vector and associated data,
and with no other associated data. The tag has 16 bytes. -/
structure Aead where
  /-- The ciphertext and the tag. -/
  encipher : (key iv aad plain : Bytes) → Bytes × Bytes
  decipher : (key iv aad ciphertext tag : Bytes) → Option Bytes
  tag_length : ∀ key iv aad plain, (encipher key iv aad plain).2.length = 16
  ciphertext_ne_nil : ∀ key iv aad plain, plain ≠ [] → (encipher key iv aad plain).1 ≠ []
  decipher_encipher : ∀ key iv aad plain,
    decipher key iv aad (encipher key iv aad plain).1 (encipher key iv aad plain).2 = some plain
  decipher_other : ∀ key iv aad aad' plain, aad' ≠ aad →
    decipher key iv aad' (encipher key iv aad plain).1 (encipher key iv aad plain).2 = none

/-- Buffers and texts. -/
structure Encodings where
  /-- What a reader makes of bytes that are no UTF-8. -/
  repaired : Bytes → List Nat
  toBase64url : Bytes → List Nat
  fromBase64url : List Nat → Bytes
  fromBase64 : List Char → Bytes
  fromBase64url_toBase64url : ∀ bytes, fromBase64url (toBase64url bytes) = bytes

def toUtf8 (s : String) : Bytes := s.toByteArray.data.toList

def Encodings.fromUtf8 (enc : Encodings) (bytes : Bytes) : List Nat :=
  match String.fromUTF8? ⟨bytes.toArray⟩ with
  | some s => codeUnits s
  | none => enc.repaired bytes

/-- What the process is started with. -/
structure ProcessEnv where
  fieldEncryptionKey : Option String
  nodeEnv : Option String
  deriving DecidableEq, Repr

/-- The 12 random bytes of a call. -/
abbrev Iv := { iv : Bytes // iv.length = 12 }

def ENVELOPE_PREFIX : List Nat := codeUnits "enc:v1:"

/-- `!value`: a text may also be missing, or empty. -/
def present (value : Option (List Nat)) : Option (List Nat) := value.filter (· ≠ [])

theorem present_some {value : List Nat} (hv : value ≠ []) : present (some value) = some value := by
  simp [present, Option.filter, hv]

section Field
variable (gcm : Aead) (enc : Encodings) (env : ProcessEnv)

/-- The key, if one is configured. -/
def encryptionKey : Except String (Option Bytes) :=
  let trimmed := env.fieldEncryptionKey.map fun raw =>
    (raw.toList.dropWhile Char.isWhitespace).rdropWhile Char.isWhitespace
  match trimmed.filter (· ≠ []) with
  | none => .ok none
  | some raw =>
    let decoded := enc.fromBase64 raw
    if decoded.length ≠ 32 then .error "FIELD_ENCRYPTION_KEY must be a 32-byte base64 key"
    else .ok (some decoded)

def encryptSensitive (value : Option (List Nat)) (context : String) (iv : Iv) :
    Except String (Option (List Nat)) :=
  match present value with
  | none => .ok none
  | some value =>
    if ENVELOPE_PREFIX <+: value then .ok (some value)
    else do
      match ← encryptionKey enc env with
      | none =>
        if env.nodeEnv = some "production" then
          .error "Sensitive-data encryption is not configured"
        else .ok (some value)
      | some key =>
        let (ciphertext, tag) :=
          gcm.encipher key iv.1 (toUtf8 context) (toUtf8 (fromUnits value))
        .ok (some (ENVELOPE_PREFIX ++ enc.toBase64url (iv.1 ++ tag ++ ciphertext)))

def decryptSensitive (value : Option (List Nat)) (context : String) :
    Except String (Option (List Nat)) :=
  match present value with
  | none => .ok none
  | some value =>
    -- legacy plaintext, migrated on next write
    if ¬ ENVELOPE_PREFIX <+: value then .ok (some value)
    else do
      match ← encryptionKey enc env with
      | none => .error "Sensitive-data encryption is not configured"
      | some key =>
        let packed := enc.fromBase64url (value.drop ENVELOPE_PREFIX.length)
        if packed.length < 29 then .error "Encrypted value is invalid"
        else
          match gcm.decipher key (packed.take 12) (toUtf8 context) (packed.drop 28)
            ((packed.drop 12).take 16) with
          | none => .error "Unsupported state or unable to authenticate data"
          | some plain => .ok (some (enc.fromUtf8 plain))

/-- No lone surrogate: the units of some text. -/
def NoLoneSurrogate (value : List Nat) : Prop := codeUnits (fromUnits value) = value

instance : DecidablePred NoLoneSurrogate := fun _ => inferInstanceAs (Decidable (_ = _))

/-- The text comes back, it is not what is stored, and no other context opens it. -/
def KeptSecret (value : List Nat) (context : String) (iv : Iv) : Prop :=
  ∃ stored, encryptSensitive gcm enc env (some value) context iv = .ok (some stored) ∧
    decryptSensitive gcm enc env (some stored) context = .ok (some value) ∧ stored ≠ value ∧
    ∀ other, other ≠ context →
      ∃ message, decryptSensitive gcm enc env (some stored) other = .error message

end Field

theorem noLoneSurrogate_codeUnits (s : String) : NoLoneSurrogate (codeUnits s) := by
  unfold NoLoneSurrogate
  rw [fromUnits_codeUnits]

section Field
variable {gcm : Aead} {enc : Encodings} {env : ProcessEnv} {value : List Nat} {context : String}
  {key : Bytes} {iv : Iv}

theorem fromUtf8_toUtf8 (enc : Encodings) (s : String) : enc.fromUtf8 (toUtf8 s) = codeUnits s := by
  have hbytes : (⟨(toUtf8 s).toArray⟩ : ByteArray) = s.toByteArray := by simp [toUtf8]
  have hread : String.fromUTF8? s.toByteArray = some s := by
    unfold String.fromUTF8?
    rw [dif_pos s.isValidUTF8]
    rfl
  unfold Encodings.fromUtf8
  rw [hbytes, hread]

theorem toUtf8_injective : Function.Injective toUtf8 := by
  intro a b h
  have hbytes : a.toByteArray.data = b.toByteArray.data := Array.toList_inj.mp h
  exact String.toByteArray_inj.mp (ByteArray.ext hbytes)

theorem toUtf8_ne_nil (hv : value ≠ []) : toUtf8 (fromUnits value) ≠ [] := by
  intro hnil
  have hempty : fromUnits value = "" := toUtf8_injective (hnil.trans (by decide))
  exact hv (fromUnits_eq_empty.mp hempty)

/-- What is packed for a text: the vector, the tag and the ciphertext. -/
def packed (gcm : Aead) (key : Bytes) (value : List Nat) (context : String) (iv : Iv) : Bytes :=
  iv.1 ++ (gcm.encipher key iv.1 (toUtf8 context) (toUtf8 (fromUnits value))).2 ++
    (gcm.encipher key iv.1 (toUtf8 context) (toUtf8 (fromUnits value))).1

/-- The envelope of a text. -/
def envelope (gcm : Aead) (enc : Encodings) (key : Bytes) (value : List Nat) (context : String)
    (iv : Iv) : List Nat :=
  ENVELOPE_PREFIX ++ enc.toBase64url (packed gcm key value context iv)

theorem encryptSensitive_of_envelope (hv : value ≠ []) (h : ENVELOPE_PREFIX <+: value) :
    encryptSensitive gcm enc env (some value) context iv = .ok (some value) := by
  unfold encryptSensitive
  rw [present_some hv]
  exact if_pos h

theorem encryptSensitive_plain (hkey : encryptionKey enc env = .ok (some key)) (hv : value ≠ [])
    (h : ¬ ENVELOPE_PREFIX <+: value) :
    encryptSensitive gcm enc env (some value) context iv =
      .ok (some (envelope gcm enc key value context iv)) := by
  unfold encryptSensitive
  rw [present_some hv]
  dsimp only
  rw [if_neg h, hkey]
  rfl

/-- A reader takes the envelope apart, and then the associated data decides. -/
theorem decryptSensitive_envelope (hkey : encryptionKey enc env = .ok (some key)) (hv : value ≠ [])
    (other : String) :
    decryptSensitive gcm enc env (some (envelope gcm enc key value context iv)) other =
      match gcm.decipher key iv.1 (toUtf8 other)
        (gcm.encipher key iv.1 (toUtf8 context) (toUtf8 (fromUnits value))).1
        (gcm.encipher key iv.1 (toUtf8 context) (toUtf8 (fromUnits value))).2 with
      | none => .error "Unsupported state or unable to authenticate data"
      | some plain => .ok (some (enc.fromUtf8 plain)) := by
  have hstarts : ENVELOPE_PREFIX <+: envelope gcm enc key value context iv :=
    List.prefix_append _ _
  have hne : envelope gcm enc key value context iv ≠ [] := by
    intro hnil
    rw [hnil] at hstarts
    exact absurd (List.prefix_nil.mp hstarts) (by decide)
  have hpacked : enc.fromBase64url ((envelope gcm enc key value context iv).drop
      ENVELOPE_PREFIX.length) = packed gcm key value context iv := by
    rw [envelope, List.drop_left, enc.fromBase64url_toBase64url]
  have hplain := toUtf8_ne_nil hv
  have hlength := List.length_pos_iff.mpr (gcm.ciphertext_ne_nil key iv.1 (toUtf8 context) _ hplain)
  have htag := gcm.tag_length key iv.1 (toUtf8 context) (toUtf8 (fromUnits value))
  have hiv : iv.1.length = 12 := iv.2
  unfold decryptSensitive
  rw [present_some hne]
  dsimp only
  rw [if_neg (not_not.mpr hstarts), hkey, hpacked]
  dsimp only [bind, Except.bind]
  unfold packed
  generalize (gcm.encipher key iv.1 (toUtf8 context) (toUtf8 (fromUnits value))).2 = tag at *
  generalize (gcm.encipher key iv.1 (toUtf8 context) (toUtf8 (fromUnits value))).1 = text at *
  have hiv12 : (iv.1 ++ tag ++ text).take 12 = iv.1 := by
    rw [List.append_assoc, List.take_left' hiv]
  have htag16 : ((iv.1 ++ tag ++ text).drop 12).take 16 = tag := by
    rw [List.append_assoc, List.drop_left' hiv, List.take_left' htag]
  have htext : (iv.1 ++ tag ++ text).drop 28 = text :=
    List.drop_left' (by rw [List.length_append, hiv, htag])
  rw [if_neg (by simp only [List.length_append]; omega), hiv12, htag16, htext]

/-- A text is kept secret and comes back if and only if it does not begin like an envelope and
has no lone surrogate. -/
theorem encryptSensitive_iff (gcm : Aead) (enc : Encodings) (env : ProcessEnv) (key : Bytes)
    (hkey : encryptionKey enc env = .ok (some key)) (value : List Nat) (hv : value ≠ [])
    (context : String) (iv : Iv) :
    KeptSecret gcm enc env value context iv ↔
      ¬ ENVELOPE_PREFIX <+: value ∧ NoLoneSurrogate value := by
  constructor
  · rintro ⟨stored, hstored, hback, hdiffers, -⟩
    by_cases hstarts : ENVELOPE_PREFIX <+: value
    · rw [encryptSensitive_of_envelope hv hstarts] at hstored
      cases hstored
      exact absurd rfl hdiffers
    · refine ⟨hstarts, ?_⟩
      rw [encryptSensitive_plain hkey hv hstarts] at hstored
      cases hstored
      rw [decryptSensitive_envelope hkey hv, gcm.decipher_encipher] at hback
      dsimp only at hback
      rw [fromUtf8_toUtf8] at hback
      exact Option.some.inj (Except.ok.inj hback)
  · rintro ⟨hstarts, hwell⟩
    refine ⟨_, encryptSensitive_plain hkey hv hstarts, ?_, ?_, ?_⟩
    · rw [decryptSensitive_envelope hkey hv, gcm.decipher_encipher]
      dsimp only
      rw [fromUtf8_toUtf8, hwell]
    · intro hsame
      exact hstarts (hsame ▸ List.prefix_append _ _)
    · intro other hother
      have hutf : toUtf8 other ≠ toUtf8 context := fun h => hother (toUtf8_injective h)
      rw [decryptSensitive_envelope hkey hv, gcm.decipher_other _ _ _ _ _ hutf]
      exact ⟨_, rfl⟩

end Field

/-! ### A cipher that hides nothing -/

/-- The associated data stands in front of the plain text. -/
def framed (aad plain : Bytes) : Bytes := aad.flatMap (fun b => [1, b]) ++ 0 :: plain

def unframed : (aad text : Bytes) → Option Bytes
  | [], 0 :: plain => some plain
  | b :: aad, 1 :: c :: text => if b = c then unframed aad text else none
  | _, _ => none

theorem unframed_framed (aad aad' plain : Bytes) :
    unframed aad' (framed aad plain) = if aad' = aad then some plain else none := by
  induction aad generalizing aad' with
  | nil => cases aad' <;> simp [framed, unframed]
  | cons b aad ih =>
    have hcons : framed (b :: aad) plain = 1 :: b :: framed aad plain := rfl
    cases aad' with
    | nil => simp [hcons, unframed]
    | cons c aad' =>
      rw [hcons, unframed, ih]
      grind

def plainCipher : Aead where
  encipher _ _ aad plain := (framed aad plain, List.replicate 16 0)
  decipher _ _ aad text _ := unframed aad text
  tag_length _ _ _ _ := List.length_replicate
  ciphertext_ne_nil _ _ _ _ _ := by simp [framed]
  decipher_encipher _ _ aad plain := (unframed_framed aad aad plain).trans (if_pos rfl)
  decipher_other _ _ aad aad' plain h := (unframed_framed aad aad' plain).trans (if_neg h)

/-- Bytes as units. -/
def plainEncodings : Encodings where
  repaired _ := [0xfffd]
  toBase64url bytes := bytes.map UInt8.toNat
  fromBase64url us := us.map UInt8.ofNat
  fromBase64 raw := raw.map fun c => UInt8.ofNat c.toNat
  fromBase64url_toBase64url bytes := by
    rw [List.map_map]
    exact (List.map_congr_left fun _ _ => UInt8.ofNat_toNat).trans (List.map_id bytes)

def demoKeyEnv : ProcessEnv := ⟨some "0123456789abcdef0123456789abcdef", some "production"⟩

def zeroIv : Iv := ⟨List.replicate 12 0, rfl⟩

theorem plate_kept_secret :
    KeptSecret plainCipher plainEncodings demoKeyEnv (codeUnits "12ب345") "vehicle.licensePlate"
      zeroIv :=
  (encryptSensitive_iff plainCipher plainEncodings demoKeyEnv
    ("0123456789abcdef0123456789abcdef".toList.map fun c => UInt8.ofNat c.toNat) (by decide)
    (codeUnits "12ب345") (by decide) "vehicle.licensePlate" zeroIv).mpr
      ⟨by decide, noLoneSurrogate_codeUnits _⟩

/-- A note that begins like an envelope is stored as it is, and cannot be read again. -/
theorem note_not_kept_secret :
    encryptSensitive plainCipher plainEncodings demoKeyEnv (some (codeUnits "enc:v1:رمز"))
      "vehicle.notes" zeroIv = .ok (some (codeUnits "enc:v1:رمز")) ∧
    decryptSensitive plainCipher plainEncodings demoKeyEnv (some (codeUnits "enc:v1:رمز"))
      "vehicle.notes" = .error "Encrypted value is invalid" ∧
    ¬ KeptSecret plainCipher plainEncodings demoKeyEnv (codeUnits "enc:v1:رمز") "vehicle.notes"
      zeroIv := by
  have hstored : encryptSensitive plainCipher plainEncodings demoKeyEnv
      (some (codeUnits "enc:v1:رمز")) "vehicle.notes" zeroIv =
        .ok (some (codeUnits "enc:v1:رمز")) := by decide
  refine ⟨hstored, by decide, ?_⟩
  rintro ⟨stored, h, -, hdiffers, -⟩
  rw [hstored] at h
  cases h
  exact hdiffers rfl

end Pwos
