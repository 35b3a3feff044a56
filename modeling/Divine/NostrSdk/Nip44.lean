/-
This file embeds the messages of NIP-44, version two: how a text is padded, encrypted and
written in base64, and the checks with which it is read again.
-/

import Divine.Library.Base64
import Divine.Library.Sha256
import Divine.Library.StreamCipher
import Divine.NostrSdk.TlvEntries
import Mathlib.Algebra.GroupWithZero.Nat

namespace Divine.NostrSdk.Nip44

open List Fallible Nip19

/-! ### Bytes -/

abbrev Uint8List := List UInt8

/-- What a function throws. -/
inductive Thrown where
  | exception (message : String)
  | rangeError
  | formatException
  | assertionError
  deriving DecidableEq

def sublist (list : Uint8List) (start stop : Nat) : Except Thrown Uint8List :=
  if start ≤ stop ∧ stop ≤ list.length then .ok ((list.drop start).take (stop - start))
  else .error .rangeError

/-- `getUint16(0, Endian.big)` of the first two bytes. -/
def getUint16 : Uint8List → Except Thrown Nat
  | high :: low :: _ => .ok (high.toNat * 256 + low.toNat)
  | _ => .error .rangeError

def utf8Bytes (text : String) : Uint8List := text.toByteArray.data.toList

def codeUnits (text : String) : Nat :=
  (text.toList.map fun char => if char.toNat < 0x10000 then 1 else 2).sum

/-! ### The packages -/

/-- The keyed hash and the stream cipher, and whether assertions are checked. -/
structure Packages where
  asserts : Bool
  hmac : Uint8List → Uint8List → Uint8List
  chacha20Encrypt : Uint8List → Uint8List → Uint8List → Uint8List
  chacha20Decrypt : Uint8List → Uint8List → Uint8List → Uint8List

def digestSize : Nat := 32

/-- A hash has the size of a digest, and decryption inverts encryption, which keeps the length. -/
structure Packages.Lawful (packages : Packages) : Prop where
  digest : ∀ key message, (packages.hmac key message).length = digestSize
  inverts : ∀ key nonce data, key.length = 32 → nonce.length = 12 →
    packages.chacha20Decrypt key nonce (packages.chacha20Encrypt key nonce data) = data
  keeps : ∀ key nonce data, key.length = 32 → nonce.length = 12 →
    (packages.chacha20Encrypt key nonce data).length = data.length

/-! ### Keys -/

/-- The loop of `hkdfExpand`. Every round adds a byte at least, so as many rounds as bytes are
enough. -/
def hkdfExpandLoop (hmac : Uint8List → Uint8List → Uint8List) (prk info : Uint8List)
    (outputLength : Nat) : Nat → Uint8List → Uint8List → Nat → Uint8List
  | 0, output, _, _ => output
  | rounds + 1, output, current, round =>
      if output.length < outputLength then
        let current := hmac prk (current ++ info ++ [UInt8.ofNat round])
        let partLength := min (outputLength - output.length) digestSize
        hkdfExpandLoop hmac prk info outputLength rounds (output ++ current.take partLength) current
          (round + 1)
      else output

def hkdfExpand (hmac : Uint8List → Uint8List → Uint8List) (prk info : Uint8List)
    (outputLength : Nat) : Uint8List :=
  hkdfExpandLoop hmac prk info outputLength outputLength [] [] 1

structure MessageKeys where
  chachaKey : Uint8List
  chachaNonce : Uint8List
  hmacKey : Uint8List
  deriving DecidableEq

def getMessageKeys (packages : Packages) (conversationKey nonce : Uint8List) :
    Except Thrown MessageKeys := do
  require (!packages.asserts || conversationKey.length = 32) .assertionError
  require (!packages.asserts || nonce.length = 32) .assertionError
  let keys := hkdfExpand packages.hmac conversationKey nonce 76
  let chachaKey ← sublist keys 0 32
  let chachaNonce ← sublist keys 32 44
  let hmacKey ← sublist keys 44 76
  .ok ⟨chachaKey, chachaNonce, hmacKey⟩

/-! ### Padding -/

def bitLength (value : Nat) : Nat := if value = 0 then 0 else value.log2 + 1

def calcPaddedLen (len : Nat) : Except Thrown Nat :=
  if len < 1 then .error (.exception "expected positive integer")
  else if len ≤ 32 then .ok 32
  else
    let nextPower := 1 <<< bitLength (len - 1)
    let chunk := if nextPower ≤ 256 then 32 else nextPower / 8
    .ok (chunk * ((len - 1) / chunk + 1))

def writeU16BE (num : Nat) : Except Thrown Uint8List :=
  if num < 1 ∨ num > 65535 then
    .error (.exception "Invalid plaintext size: must be between 1 and 65535 bytes")
  else .ok [UInt8.ofNat (num / 256), UInt8.ofNat (num % 256)]

def pad (plaintext : String) : Except Thrown Uint8List := do
  let unpadded := utf8Bytes plaintext
  let unpaddedLen := unpadded.length
  let first ← writeU16BE unpaddedLen
  let paddedLen ← calcPaddedLen unpaddedLen
  require (unpaddedLen ≤ paddedLen) .rangeError
  .ok (first ++ unpadded ++ List.replicate (paddedLen - unpaddedLen) 0)

def unpad (padded : Uint8List) : Except Thrown String := do
  let unpaddedLen ← getUint16 padded
  let unpadded ← sublist padded 2 (2 + unpaddedLen)
  require (1 ≤ unpaddedLen ∧ unpaddedLen ≤ 65535 ∧ unpadded.length = unpaddedLen)
    (.exception "Invalid padding")
  let paddedLen ← calcPaddedLen unpaddedLen
  require (padded.length = 2 + paddedLen) (.exception "Invalid padding")
  (utf8Decode (unpadded.map UInt8.toNat)).mapError fun _ => .formatException

/-! ### Payloads -/

def hmacAad (packages : Packages) (key message aad : Uint8List) : Except Thrown Uint8List := do
  require (aad.length = 32) (.exception "AAD associated data must be 32 bytes")
  .ok (packages.hmac key (aad ++ message))

structure Payload where
  nonce : Uint8List
  ciphertext : Uint8List
  mac : Uint8List
  deriving DecidableEq

/-- `decodePayload`. The text of a base64 failure ends with that of the exception it was. -/
def decodePayload (payload : String) : Except Thrown Payload := do
  let length := codeUnits payload
  require (132 ≤ length ∧ length ≤ 87472)
    (.exception ("Invalid payload length: " ++ toString length))
  require (payload.toList.head? ≠ some '#') (.exception "Unknown encryption version")
  let data ← okOr (Base64.decode payload.toList) (.exception "Invalid base64: ")
  require (99 ≤ data.length ∧ data.length ≤ 65603)
    (.exception ("Invalid data length: " ++ toString data.length))
  let version ← okOr data.head? .rangeError
  require (version = 2) (.exception ("Unknown encryption version " ++ toString version.toNat))
  let nonce ← sublist data 1 33
  let ciphertext ← sublist data 33 (data.length - 32)
  let mac ← sublist data (data.length - 32) data.length
  .ok ⟨nonce, ciphertext, mac⟩

def encrypt (packages : Packages) (plaintext : String) (conversationKey nonce : Uint8List) :
    Except Thrown String := do
  let keys ← getMessageKeys packages conversationKey nonce
  let padded ← pad plaintext
  let ciphertext := packages.chacha20Encrypt keys.chachaKey keys.chachaNonce padded
  let mac ← hmacAad packages keys.hmacKey ciphertext nonce
  .ok (String.ofList (Base64.encode ([2] ++ nonce ++ ciphertext ++ mac)))

def decrypt (packages : Packages) (payload : String) (conversationKey : Uint8List) :
    Except Thrown String := do
  let payloadData ← decodePayload payload
  let keys ← getMessageKeys packages conversationKey payloadData.nonce
  let calculatedMac ← hmacAad packages keys.hmacKey payloadData.ciphertext payloadData.nonce
  require (calculatedMac = payloadData.mac) (.exception "Invalid MAC")
  unpad (packages.chacha20Decrypt keys.chachaKey keys.chachaNonce payloadData.ciphertext)

/-! ### The keys of a message -/

theorem sublist_eq_ok {list : Uint8List} {start stop : Nat} (ordered : start ≤ stop)
    (inside : stop ≤ list.length) :
    sublist list start stop = .ok ((list.drop start).take (stop - start)) :=
  if_pos ⟨ordered, inside⟩

theorem hkdfExpandLoop_length {packages : Packages} (lawful : packages.Lawful)
    (prk info : Uint8List) {outputLength rounds : Nat} {output current : Uint8List} {round : Nat}
    (within : output.length ≤ outputLength) (enough : outputLength ≤ output.length + rounds) :
    (hkdfExpandLoop packages.hmac prk info outputLength rounds output current round).length =
      outputLength := by
  induction rounds generalizing output current round with
  | zero =>
    unfold hkdfExpandLoop
    omega
  | succ rounds ih =>
    unfold hkdfExpandLoop
    by_cases more : output.length < outputLength
    · rw [if_pos more]
      have added : (packages.hmac prk (current ++ info ++ [UInt8.ofNat round])).length = 32 :=
        lawful.digest _ _
      have size : digestSize = 32 := rfl
      refine ih ?_ ?_
      · rw [length_append, length_take]
        omega
      · rw [length_append, length_take]
        omega
    · rw [if_neg more]
      omega

theorem getMessageKeys_ok {packages : Packages} (lawful : packages.Lawful)
    {conversationKey nonce : Uint8List}
    (keySize : packages.asserts = true → conversationKey.length = 32)
      (nonceSize : nonce.length = 32) :
    ∃ keys, getMessageKeys packages conversationKey nonce = .ok keys ∧ keys.chachaKey.length = 32 ∧
      keys.chachaNonce.length = 12 := by
  have size : (hkdfExpand packages.hmac conversationKey nonce 76).length = 76 :=
    hkdfExpandLoop_length lawful conversationKey nonce (Nat.zero_le _) (by simp)
  have keyChecked : (!packages.asserts || decide (conversationKey.length = 32)) = true := by
    cases asserts : packages.asserts with
    | false => rfl
    | true => exact decide_eq_true (keySize asserts)
  have nonceChecked : (!packages.asserts || decide (nonce.length = 32)) = true := by
    rw [decide_eq_true nonceSize, Bool.or_true]
  unfold getMessageKeys
  rw [keyChecked, nonceChecked]
  dsimp only
  rw [sublist_eq_ok (by decide) (by omega), sublist_eq_ok (by decide) (by omega),
    sublist_eq_ok (by decide) (by omega)]
  refine ⟨_, rfl, ?_, ?_⟩
  · rw [length_take, length_drop]
    omega
  · rw [length_take, length_drop]
    omega

/-! ### The size of a padding -/

theorem bitLength_le {value bits : Nat} (small : value < 2 ^ bits) : bitLength value ≤ bits := by
  unfold bitLength
  by_cases zero : value = 0
  · rw [if_pos zero]
    exact Nat.zero_le _
  · rw [if_neg zero]
    exact (Nat.log2_lt zero).mpr small

theorem chunk_dvd {bits : Nat} (small : bits ≤ 16) :
    (if 1 <<< bits ≤ 256 then 32 else 1 <<< bits / 8) ∣ 2 ^ 16 := by
  revert bits
  decide

theorem calcPaddedLen_ok {len : Nat} (positive : 1 ≤ len) (small : len ≤ 65535) :
    ∃ paddedLen, calcPaddedLen len = .ok paddedLen ∧ len ≤ paddedLen ∧ 32 ≤ paddedLen ∧
      paddedLen ≤ 65536 := by
  unfold calcPaddedLen
  rw [if_neg (by omega)]
  by_cases short : len ≤ 32
  · rw [if_pos short]
    exact ⟨32, rfl, short, le_refl _, by decide⟩
  · rw [if_neg short]
    have bits : bitLength (len - 1) ≤ 16 := bitLength_le (by omega)
    obtain ⟨count, whole⟩ := chunk_dvd bits
    dsimp only
    generalize (if 1 <<< bitLength (len - 1) ≤ 256 then 32 else 1 <<< bitLength (len - 1) / 8) =
      chunk at whole
    have positiveChunk : 0 < chunk := Nat.pos_of_ne_zero fun zero => by simp [zero] at whole
    have next : len - 1 < chunk * ((len - 1) / chunk + 1) := Nat.lt_mul_div_succ _ positiveChunk
    have below : (len - 1) / chunk < count :=
      Nat.div_lt_of_lt_mul (whole ▸ (by omega : len - 1 < 2 ^ 16))
    have bound : chunk * ((len - 1) / chunk + 1) ≤ chunk * count := Nat.mul_le_mul_left _ below
    exact ⟨_, rfl, by omega, by omega, by omega⟩

/-! ### Padding and its removal -/

/-- The text's bytes are as many as a message may have. -/
def Fits (plaintext : String) : Prop :=
  1 ≤ plaintext.utf8ByteSize ∧ plaintext.utf8ByteSize ≤ 65535

theorem utf8Bytes_length (text : String) : (utf8Bytes text).length = text.utf8ByteSize := rfl

def paddedBytes (plaintext : String) (paddedLen : Nat) : Uint8List :=
  [UInt8.ofNat (plaintext.utf8ByteSize / 256), UInt8.ofNat (plaintext.utf8ByteSize % 256)] ++
    utf8Bytes plaintext ++ List.replicate (paddedLen - plaintext.utf8ByteSize) 0

theorem paddedBytes_length {plaintext : String} {paddedLen : Nat}
    (atLeast : plaintext.utf8ByteSize ≤ paddedLen) :
    (paddedBytes plaintext paddedLen).length = 2 + paddedLen := by
  unfold paddedBytes
  rw [length_append, length_append, utf8Bytes_length, length_replicate,
    length_cons, length_cons, length_nil]
  omega

theorem getUint16_paddedBytes {plaintext : String} (fits : Fits plaintext) (paddedLen : Nat) :
    getUint16 (paddedBytes plaintext paddedLen) = .ok plaintext.utf8ByteSize := by
  have small := fits.2
  show Except.ok ((UInt8.ofNat (plaintext.utf8ByteSize / 256)).toNat * 256 +
    (UInt8.ofNat (plaintext.utf8ByteSize % 256)).toNat) = _
  rw [UInt8.toNat_ofNat', UInt8.toNat_ofNat']
  exact congrArg Except.ok (by omega)

theorem pad_ok {plaintext : String} (fits : Fits plaintext) :
    ∃ paddedLen, calcPaddedLen plaintext.utf8ByteSize = .ok paddedLen ∧
      plaintext.utf8ByteSize ≤ paddedLen ∧ 32 ≤ paddedLen ∧ paddedLen ≤ 65536 ∧
      pad plaintext = .ok (paddedBytes plaintext paddedLen) := by
  obtain ⟨paddedLen, padded, atLeast, least, most⟩ := calcPaddedLen_ok fits.1 fits.2
  refine ⟨paddedLen, padded, atLeast, least, most, ?_⟩
  have within : ¬(plaintext.utf8ByteSize < 1 ∨ plaintext.utf8ByteSize > 65535) := by
    unfold Fits at fits
    omega
  unfold pad writeU16BE
  dsimp only
  rw [utf8Bytes_length, if_neg within, ok_bind, padded, ok_bind, decide_eq_true atLeast]
  rfl

theorem pad_error {plaintext : String} (large : ¬Fits plaintext) :
    pad plaintext =
      .error (.exception "Invalid plaintext size: must be between 1 and 65535 bytes") := by
  have outside : plaintext.utf8ByteSize < 1 ∨ plaintext.utf8ByteSize > 65535 := by
    unfold Fits at large
    omega
  unfold pad writeU16BE
  dsimp only
  rw [utf8Bytes_length, if_pos outside]
  rfl

theorem unpad_length {padded : Uint8List} {text : String} (read : unpad padded = .ok text) :
    ∃ unpaddedLen paddedLen, getUint16 padded = .ok unpaddedLen ∧
      calcPaddedLen unpaddedLen = .ok paddedLen ∧ padded.length = 2 + paddedLen := by
  obtain ⟨unpaddedLen, first, read⟩ := bind_eq_ok.mp read
  obtain ⟨_, _, read⟩ := bind_eq_ok.mp read
  obtain ⟨_, _, read⟩ := bind_eq_ok.mp read
  obtain ⟨paddedLen, computed, read⟩ := bind_eq_ok.mp read
  obtain ⟨_, checked, _⟩ := bind_eq_ok.mp read
  exact ⟨unpaddedLen, paddedLen, first, computed, of_decide_eq_true (require_eq_ok.mp checked)⟩

theorem unpad_paddedBytes {plaintext : String} (fits : Fits plaintext) {paddedLen : Nat}
    (computed : calcPaddedLen plaintext.utf8ByteSize = .ok paddedLen)
    (atLeast : plaintext.utf8ByteSize ≤ paddedLen) :
    unpad (paddedBytes plaintext paddedLen) = .ok (dropMark plaintext) := by
  have size := paddedBytes_length atLeast
  have inner : ((paddedBytes plaintext paddedLen).drop 2).take (2 + plaintext.utf8ByteSize - 2) =
      utf8Bytes plaintext := by
    rw [Nat.add_sub_cancel_left]
    exact take_left' (utf8Bytes_length plaintext)
  have decoded : utf8Decode ((utf8Bytes plaintext).map UInt8.toNat) = .ok (dropMark plaintext) :=
    utf8Decode_utf8Encode plaintext
  have checked : decide (1 ≤ plaintext.utf8ByteSize ∧ plaintext.utf8ByteSize ≤ 65535 ∧
      (utf8Bytes plaintext).length = plaintext.utf8ByteSize) = true :=
    decide_eq_true ⟨fits.1, fits.2, rfl⟩
  unfold unpad
  rw [getUint16_paddedBytes fits, ok_bind, sublist_eq_ok (by omega) (by omega), inner, ok_bind,
    checked, computed, size, decoded]
  show (require (decide (2 + paddedLen = 2 + paddedLen)) (Thrown.exception "Invalid padding") >>=
    fun _ => Except.ok (dropMark plaintext)) = _
  rw [decide_eq_true rfl]
  rfl

/-! ### Payloads and their reading -/

theorem codeUnits_ofList {chars : List Char} (ascii : ∀ char ∈ chars, char.toNat < 128) :
    codeUnits (String.ofList chars) = chars.length := by
  have units : ∀ char ∈ chars, (if char.toNat < 0x10000 then 1 else 2) = 1 := by
    intro char member
    have small := ascii char member
    exact if_pos (by omega)
  unfold codeUnits
  rw [String.toList_ofList, map_congr_left units, map_const', sum_replicate_nat,
    Nat.mul_one]

theorem decodePayload_encode {nonce ciphertext mac : Uint8List} (nonceSize : nonce.length = 32)
    (macSize : mac.length = 32) (least : 34 ≤ ciphertext.length)
    (most : ciphertext.length ≤ 65538) :
    decodePayload (String.ofList (Base64.encode ([2] ++ nonce ++ ciphertext ++ mac))) =
      .ok ⟨nonce, ciphertext, mac⟩ := by
  have size : ([2] ++ nonce ++ ciphertext ++ mac).length = 65 + ciphertext.length := by
    simp only [length_append, length_cons, length_nil]
    omega
  have first : ([2] ++ nonce ++ ciphertext ++ mac).head? = some 2 := rfl
  have nonceIs : (([2] ++ nonce ++ ciphertext ++ mac).drop 1).take (33 - 1) = nonce := by
    show (nonce ++ ciphertext ++ mac).take 32 = nonce
    rw [append_assoc, take_left' nonceSize]
  have ciphertextIs : (([2] ++ nonce ++ ciphertext ++ mac).drop 33).take
      (65 + ciphertext.length - 32 - 33) = ciphertext := by
    show ((nonce ++ ciphertext ++ mac).drop 32).take _ = ciphertext
    rw [append_assoc, drop_left' nonceSize, take_left' (by omega)]
  have macIs : (([2] ++ nonce ++ ciphertext ++ mac).drop (65 + ciphertext.length - 32)).take
      (65 + ciphertext.length - (65 + ciphertext.length - 32)) = mac := by
    have before : ([2] ++ nonce ++ ciphertext).length = 65 + ciphertext.length - 32 := by
      simp only [length_append, length_cons, length_nil]
      omega
    rw [drop_left' before, take_of_length_le (by omega)]
  generalize [2] ++ nonce ++ ciphertext ++ mac = data at size first nonceIs ciphertextIs macIs ⊢
  have units : codeUnits (String.ofList (Base64.encode data)) = 4 * ((data.length + 2) / 3) := by
    rw [codeUnits_ofList fun _ member => (Base64.encode_ascii member).2, Base64.length_encode]
  have textFits : decide (132 ≤ codeUnits (String.ofList (Base64.encode data)) ∧
      codeUnits (String.ofList (Base64.encode data)) ≤ 87472) = true :=
    decide_eq_true (by omega)
  have version : decide ((Base64.encode data).head? ≠ some '#') = true :=
    decide_eq_true fun begins => (Base64.encode_ascii (mem_of_head? begins)).1 rfl
  have dataFits : decide (99 ≤ data.length ∧ data.length ≤ 65603) = true :=
    decide_eq_true (by omega)
  unfold decodePayload
  dsimp only
  rw [textFits, String.toList_ofList, version, Base64.decode_encode]
  show (require (decide (99 ≤ data.length ∧ data.length ≤ 65603)) _ >>= _) = _
  rw [dataFits]
  rw [first]
  rw [sublist_eq_ok (by decide) (by omega), nonceIs]
  rw [sublist_eq_ok (by omega) (by omega), size, ciphertextIs]
  rw [sublist_eq_ok (by omega) (by omega), macIs]
  rfl

/-! ### Messages -/

section Messages

variable {packages : Packages} {conversationKey nonce : Uint8List} {plaintext : String}

theorem decrypt_encrypt (lawful : packages.Lawful)
    (keySize : packages.asserts = true → conversationKey.length = 32)
      (nonceSize : nonce.length = 32)
    (fits : Fits plaintext) :
    ∃ payload, encrypt packages plaintext conversationKey nonce = .ok payload ∧
      decrypt packages payload conversationKey = .ok (dropMark plaintext) := by
  obtain ⟨keys, derived, chachaKeySize, chachaNonceSize⟩ :=
    getMessageKeys_ok lawful keySize nonceSize
  obtain ⟨paddedLen, computed, atLeast, least, most, padded⟩ := pad_ok fits
  have authenticated : ∀ message, hmacAad packages keys.hmacKey message nonce =
      .ok (packages.hmac keys.hmacKey (nonce ++ message)) := by
    intro message
    unfold hmacAad
    rw [decide_eq_true nonceSize]
    rfl
  have ciphertextSize : (packages.chacha20Encrypt keys.chachaKey keys.chachaNonce
      (paddedBytes plaintext paddedLen)).length = 2 + paddedLen := by
    rw [lawful.keeps _ _ _ chachaKeySize chachaNonceSize, paddedBytes_length atLeast]
  have encrypted : encrypt packages plaintext conversationKey nonce =
      .ok (String.ofList (Base64.encode ([2] ++ nonce ++
        packages.chacha20Encrypt keys.chachaKey keys.chachaNonce
          (paddedBytes plaintext paddedLen) ++
          packages.hmac keys.hmacKey (nonce ++ packages.chacha20Encrypt keys.chachaKey
            keys.chachaNonce (paddedBytes plaintext paddedLen))))) := by
    unfold encrypt
    rw [derived, ok_bind, padded, ok_bind]
    dsimp only
    rw [authenticated, ok_bind]
  refine ⟨_, encrypted, ?_⟩
  unfold decrypt
  rw [decodePayload_encode nonceSize (lawful.digest _ _) (by omega) (by omega), ok_bind]
  rw [derived, ok_bind, authenticated, ok_bind,
    lawful.inverts _ _ _ chachaKeySize chachaNonceSize, unpad_paddedBytes fits computed atLeast,
    decide_eq_true rfl]
  rfl

theorem encrypt_error (large : ¬Fits plaintext) :
    ∃ thrown, encrypt packages plaintext conversationKey nonce = .error thrown := by
  unfold encrypt
  rw [pad_error large]
  cases getMessageKeys packages conversationKey nonce with
  | error thrown => exact ⟨thrown, rfl⟩
  | ok keys => exact ⟨_, rfl⟩

end Messages

/-- A text of a size that fits comes back, and encrypting any other throws. -/
structure RoundTrips (packages : Packages) (conversationKey nonce : Uint8List)
    (plaintext : String) : Prop where
  returns : Fits plaintext → ∃ payload,
    encrypt packages plaintext conversationKey nonce = .ok payload ∧
      decrypt packages payload conversationKey = .ok plaintext
  throws : ¬Fits plaintext → ∃ thrown,
    encrypt packages plaintext conversationKey nonce = .error thrown

/-- A message makes its round trip exactly when no text that fits begins with a byte order mark. -/
theorem roundTrips_iff (packages : Packages) (lawful : packages.Lawful)
    (conversationKey nonce : Uint8List)
    (keySize : packages.asserts = true → conversationKey.length = 32)
      (nonceSize : nonce.length = 32)
    (plaintext : String) :
    (RoundTrips packages conversationKey nonce plaintext ↔ (Fits plaintext → ¬Marked plaintext)) ∧
    (Fits plaintext → ∃ payload, encrypt packages plaintext conversationKey nonce = .ok payload ∧
      decrypt packages payload conversationKey = .ok (dropMark plaintext)) ∧
    ∀ padded text, unpad padded = .ok text →
      ∃ unpaddedLen paddedLen, getUint16 padded = .ok unpaddedLen ∧
        calcPaddedLen unpaddedLen = .ok paddedLen ∧ padded.length = 2 + paddedLen := by
  refine ⟨⟨fun trips fits => ?_, fun unmarked => ⟨fun fits => ?_, encrypt_error⟩⟩,
    decrypt_encrypt lawful keySize nonceSize, fun _ _ => unpad_length⟩
  · obtain ⟨payload, encrypted, decrypted⟩ := trips.returns fits
    obtain ⟨other, again, dropped⟩ := decrypt_encrypt lawful keySize nonceSize fits
    have same : payload = other := Except.ok.inj (encrypted.symm.trans again)
    rw [same, dropped] at decrypted
    exact dropMark_eq_self_iff.mp (Except.ok.inj decrypted)
  · have decrypted := decrypt_encrypt lawful keySize nonceSize fits
    rw [dropMark_eq_self_iff.mpr (unmarked fits)] at decrypted
    exact decrypted

/-! ### Samples -/

def samplePackages : Packages where
  asserts := true
  hmac := Sha256.hmac
  chacha20Encrypt key nonce := StreamCipher.combine (StreamCipher.chacha20 key nonce)
  chacha20Decrypt key nonce := StreamCipher.combine (StreamCipher.chacha20 key nonce)

theorem samplePackages_lawful : samplePackages.Lawful where
  digest := Sha256.length_hmac
  inverts _ _ data _ _ := StreamCipher.combine_combine _ data
  keeps _ _ data _ _ := StreamCipher.length_combine _ data

def sampleKey : Uint8List := List.replicate 32 1

def sampleNonce : Uint8List := List.replicate 32 2

theorem sampleKey_length : sampleKey.length = 32 := length_replicate

theorem sampleNonce_length : sampleNonce.length = 32 := length_replicate

/-- A short text makes its round trip. -/
theorem roundTrips_sample : RoundTrips samplePackages sampleKey sampleNonce "hello" := by
  refine (roundTrips_iff samplePackages samplePackages_lawful sampleKey sampleNonce
    (fun _ => sampleKey_length) sampleNonce_length "hello").1.mpr fun _ => ?_
  unfold Marked
  decide

/-- A text that begins with a byte order mark comes back without it. -/
theorem mark_lost : Fits "\uFEFFa" ∧
    ∃ payload, encrypt samplePackages "\uFEFFa" sampleKey sampleNonce = .ok payload ∧
      decrypt samplePackages payload sampleKey = .ok "a" := by
  have fits : Fits "\uFEFFa" := by
    unfold Fits
    decide
  have decrypted := decrypt_encrypt samplePackages_lawful (fun _ => sampleKey_length)
    sampleNonce_length fits
  exact ⟨fits, decrypted⟩

end Divine.NostrSdk.Nip44
