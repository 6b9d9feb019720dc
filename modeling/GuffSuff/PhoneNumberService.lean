import Mathlib.Data.List.Basic
import GuffSuff.Calls

/-! `PhoneNumberService`: the normal form of a phone number, its blind index and
its encrypted column. -/

namespace GuffSuff

namespace Registration

structure PhoneNumber where
  number : String
  isValid : Bool
  deriving DecidableEq, Repr

/-- The functions of Node, its packages and PostgreSQL that registration calls;
keys and peppers are those of the server. `uuid` reads the text of an
identifier and `uuidText` writes it. -/
structure Platform where
  services : GuffSuff.Platform
  uuid : String → Option Uuid
  uuidText : Uuid → String
  hmacOtp : String → Digest
  hmacPhone : String → Digest
  parsePhoneNumber : String → String → Except String PhoneNumber
  aesGcmEncrypt : Bytes → String → Bytes × Bytes
  aesGcmDecrypt : Bytes → Bytes → Bytes → Option String
  toLowerCase : String → String
  production : Bool

/-- AES-GCM: tags of 16 bytes, and decryption undoes encryption. -/
structure Platform.Lawful (pf : Platform) : Prop where
  tag_length : ∀ iv text, (pf.aesGcmEncrypt iv text).2.length = 16
  decrypt_encrypt : ∀ iv text,
    pf.aesGcmDecrypt iv (pf.aesGcmEncrypt iv text).2 (pf.aesGcmEncrypt iv text).1 = some text

namespace PhoneNumberService

def ivLength : Nat := 12
def tagLength : Nat := 16

/-- The `WhiteSpace` and `LineTerminator` code points of `String.prototype.trim`. -/
def isSpace (c : Char) : Bool :=
  (9 ≤ c.toNat && c.toNat ≤ 13) || c.toNat ∈ [0x20, 0xA0, 0x1680] ||
    (0x2000 ≤ c.toNat && c.toNat ≤ 0x200A) ||
    c.toNat ∈ [0x2028, 0x2029, 0x202F, 0x205F, 0x3000, 0xFEFF]

def trim (input : List Char) : List Char :=
  ((input.dropWhile isSpace).reverse.dropWhile isSpace).reverse

/-- `NEPALI_NUMERAL_MAP`: the digits from U+0966 on. -/
def nepaliNumeral (c : Char) : Char :=
  if 0x966 ≤ c.toNat && c.toNat ≤ 0x96F then Char.ofNat (c.toNat - 0x966 + '0'.toNat) else c

def convertNepaliNumeralsToAscii (input : List Char) : List Char := input.map nepaliNumeral

section
variable (pf : Platform)

def normalizeToE164 (input : String) (defaultCountry : String) : Except String String :=
  let asciiInput := String.ofList (convertNepaliNumeralsToAscii (trim input.toList))
  match pf.parsePhoneNumber asciiInput defaultCountry with
  | .error message => .error ("Phone number normalization failed: " ++ message)
  | .ok phoneNumber =>
    if !phoneNumber.isValid then
      .error ("Phone number normalization failed: " ++
        ("Invalid phone number format for country " ++ defaultCountry))
    else .ok phoneNumber.number

def generateBlindIndex (e164Phone : String) : Digest := pf.hmacPhone e164Phone

/-- `iv` stands for the random bytes that the function draws. -/
def encryptPhoneNumber (iv : Bytes) (e164Phone : String) : Bytes :=
  iv ++ (pf.aesGcmEncrypt iv e164Phone).2 ++ (pf.aesGcmEncrypt iv e164Phone).1

def decryptPhoneNumber (encryptedBuffer : Bytes) : Option String :=
  let iv := encryptedBuffer.take ivLength
  let tag := (encryptedBuffer.drop ivLength).take tagLength
  let ciphertext := encryptedBuffer.drop (ivLength + tagLength)
  pf.aesGcmDecrypt iv tag ciphertext

variable {pf}

theorem decrypt_encrypt (hpf : pf.Lawful) {iv : Bytes} (hiv : iv.length = ivLength) (e164Phone : String) :
    decryptPhoneNumber pf (encryptPhoneNumber pf iv e164Phone) = some e164Phone := by
  have htag := hpf.tag_length iv e164Phone
  have hdrop : (encryptPhoneNumber pf iv e164Phone).drop ivLength =
      (pf.aesGcmEncrypt iv e164Phone).2 ++ (pf.aesGcmEncrypt iv e164Phone).1 := by
    rw [encryptPhoneNumber, List.append_assoc, ← hiv, List.drop_left]
  have htake : (encryptPhoneNumber pf iv e164Phone).take ivLength = iv := by
    rw [encryptPhoneNumber, List.append_assoc, ← hiv, List.take_left]
  have hrest : (encryptPhoneNumber pf iv e164Phone).drop (ivLength + tagLength) =
      (pf.aesGcmEncrypt iv e164Phone).1 := by
    rw [← List.drop_drop, hdrop, tagLength, ← htag, List.drop_left]
  simp only [decryptPhoneNumber, htake, hrest, hdrop]
  rw [tagLength, ← htag, List.take_left]
  exact hpf.decrypt_encrypt iv e164Phone

end

end PhoneNumberService

/-- A text as a number, so that no two texts share a digest. -/
def sampleHmac (text : String) : Digest :=
  text.toList.foldr (fun c n => 0x110000 * n + c.toNat + 1) 0

theorem char_toNat_lt (c : Char) : c.toNat < 0x110000 := by
  rcases c.valid with h | ⟨_, h⟩
  · exact Nat.lt_trans h (by decide)
  · exact h

theorem sampleHmac_injective : Function.Injective sampleHmac := fun _ _ h =>
  String.toList_inj.mp (digits_injective (fun _ _ => Char.toNat_inj.mp) char_toNat_lt h)

/-- Three bytes for each character. -/
def sampleEncode (text : List Char) : Bytes :=
  text.flatMap fun c =>
    [UInt8.ofNat (c.toNat / 65536), UInt8.ofNat (c.toNat / 256), UInt8.ofNat c.toNat]

def sampleDecode : Bytes → List Char
  | a :: b :: c :: rest =>
    Char.ofNat (65536 * a.toNat + 256 * b.toNat + c.toNat) :: sampleDecode rest
  | _ => []

theorem sampleDecode_encode (text : List Char) : sampleDecode (sampleEncode text) = text := by
  induction text with
  | nil => rfl
  | cons c text ih =>
    have hc := char_toNat_lt c
    have hsum : 65536 * (c.toNat / 65536 % 256) + 256 * (c.toNat / 256 % 256) + c.toNat % 256 =
        c.toNat := by omega
    have hcons : sampleDecode (sampleEncode (c :: text)) =
        Char.ofNat (65536 * (c.toNat / 65536 % 256) + 256 * (c.toNat / 256 % 256) + c.toNat % 256) ::
          sampleDecode (sampleEncode text) := rfl
    rw [hcons, hsum, Char.ofNat_toNat, ih]

/-- An identifier is written with as many ones, and read by counting them; every
phone number is valid as it stands. -/
def samplePlatform : Platform where
  services :=
    { jwt := { sign := fun _ _ _ _ _ => [], verify := fun _ _ _ _ => .error "jwt malformed" }
      hashRefreshToken := id
      sha256 := fun b => b.length
      decodeBase64 := fun _ => []
      encodeBase64 := fun _ => [] }
  uuid text :=
    if text.toList.all (· ∈ ['0', '1', '-']) then some (text.toList.count '1') else none
  uuidText id := String.ofList (List.replicate id '1' ++ List.replicate (8 - id) '0' ++
    "-0000-0000-0000-000000000000".toList)
  hmacOtp := sampleHmac
  hmacPhone := sampleHmac
  parsePhoneNumber text _ := .ok { number := text, isValid := true }
  aesGcmEncrypt _ text := (sampleEncode text.toList, List.replicate 16 0)
  aesGcmDecrypt _ _ bytes := some (String.ofList (sampleDecode bytes))
  toLowerCase := id
  production := false

theorem samplePlatform_lawful : samplePlatform.Lawful where
  tag_length := fun _ _ => rfl
  decrypt_encrypt := fun _ text => by
    simp only [samplePlatform, sampleDecode_encode, String.ofList_toList]

end Registration

end GuffSuff
