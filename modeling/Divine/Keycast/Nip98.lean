/-
This file embeds the check of a NIP-98 `Authorization` header.
-/

import Divine.Keycast.Permission
import Divine.Library.Fallible
import Mathlib.Tactic.NormNum

namespace Divine.Keycast

open Fallible

/-! ### The header -/

def maxEventAgeSeconds : Int64 := 60

def httpAuthKind : UInt16 := 27235

/-- A signed event with its time as the 64-bit number it is parsed into. -/
structure HttpAuthEvent where
  id : String
  pubkey : PublicKey
  createdAt : UInt64
  kind : UInt16
  tags : List (List String)
  content : String
  sig : String
  deriving DecidableEq

structure Nip98Auth where
  pubkey : PublicKey
  deriving DecidableEq

inductive Nip98Error where
  | invalidHeaderFormat
  | base64DecodeError (error : String)
  | jsonParseError (error : String)
  | invalidKind (kind : UInt16)
  | invalidSignature
  | eventExpired
  | urlMismatch (expected actual : String)
  | methodMismatch (expected actual : String)
  | missingTag (tag : String)
  deriving DecidableEq

def Nip98Error.display : Nip98Error → String
  | invalidHeaderFormat => "Authorization header must start with 'Nostr '"
  | base64DecodeError error => s!"Base64 decode error: {error}"
  | jsonParseError error => s!"JSON parse error: {error}"
  | invalidKind kind => s!"Invalid event kind: {kind} (expected 27235)"
  | invalidSignature => "Invalid Schnorr signature"
  | eventExpired =>
      s!"Event expired (created_at must be within {maxEventAgeSeconds.toInt} seconds)"
  | urlMismatch expected actual => s!"URL mismatch: expected '{expected}', got '{actual}'"
  | methodMismatch expected actual => s!"Method mismatch: expected '{expected}', got '{actual}'"
  | missingTag tag => s!"Missing required tag: '{tag}'"

/-- The libraries the check calls: base64, UTF-8, the parser of events and their verification. -/
structure Nip98Library where
  decodeBase64 : String → Except String (List UInt8)
  fromUtf8 : List UInt8 → Except String String
  parseEvent : String → Except String HttpAuthEvent
  verify : HttpAuthEvent → Bool

/-- A character that `str::trim` removes. -/
def isWhite (symbol : Char) : Bool :=
  symbol.toNat ∈ [0x20, 0x85, 0xA0, 0x1680, 0x2028, 0x2029, 0x202F, 0x205F, 0x3000] ||
    (0x09 ≤ symbol.toNat && symbol.toNat ≤ 0x0D) ||
    (0x2000 ≤ symbol.toNat && symbol.toNat ≤ 0x200A)

def trimWhite (text : String) : String :=
  String.ofList ((text.toList.dropWhile isWhite).reverse.dropWhile isWhite).reverse

def eqIgnoreAsciiCase (first second : String) : Bool :=
  first.toList.map Char.toLower = second.toList.map Char.toLower

/-- The second item of the first tag with a name, empty when the tag has no other item. -/
def requiredTag (tags : List (List String)) (name : String) : Except Nip98Error String :=
  (okOr (tags.find? fun tag => tag.head? = some name) (.missingTag name)).map fun tag =>
    tag[1]?.getD ""

section

variable (library : Nip98Library)

/-- The event of a header, of the right kind and with a valid signature. -/
def presentedEvent (authHeader : String) : Except Nip98Error HttpAuthEvent := do
  let encoded ← okOr (stripLeading "Nostr " authHeader) .invalidHeaderFormat
  let bytes ← (library.decodeBase64 (trimWhite encoded)).mapError .base64DecodeError
  let text ← (library.fromUtf8 bytes).mapError .jsonParseError
  let event ← (library.parseEvent text).mapError .jsonParseError
  require (event.kind = httpAuthKind) (.invalidKind event.kind)
  require (library.verify event) .invalidSignature
  return event

/-- The current time less the time of the event, both in seconds. -/
def eventAge (now : Int64) (createdAt : UInt64) : Int64 := now - createdAt.toInt64

def isFresh (now : Int64) (createdAt : UInt64) : Bool :=
  !decide (maxEventAgeSeconds < (eventAge now createdAt).abs)

def extractAndValidate (now : Int64) (authHeader expectedUrl expectedMethod : String) :
    Except Nip98Error Nip98Auth := do
  let event ← presentedEvent library authHeader
  require (isFresh now event.createdAt) .eventExpired
  let actualUrl ← requiredTag event.tags "u"
  require (actualUrl = expectedUrl) (.urlMismatch expectedUrl actualUrl)
  let actualMethod ← requiredTag event.tags "method"
  require (eqIgnoreAsciiCase actualMethod expectedMethod)
    (.methodMismatch expectedMethod actualMethod)
  return ⟨event.pubkey⟩

end

/-! ### The steps as integers -/

/-- Neither the subtraction nor the absolute value leaves the signed 64-bit numbers. -/
def NoOverflow (now : Int64) (createdAt : UInt64) : Prop :=
  (-2 ^ 63 ≤ now.toInt - createdAt.toInt64.toInt ∧ now.toInt - createdAt.toInt64.toInt < 2 ^ 63) ∧
    eventAge now createdAt ≠ Int64.minValue

theorem toInt_toInt64 (value : UInt64) :
    value.toInt64.toInt =
      if value.toNat < 2 ^ 63 then (value.toNat : Int) else value.toNat - 2 ^ 64 := by
  show (if 2 * value.toNat < 2 ^ 64 then _ else _) = _
  split <;> split <;> first | rfl | omega

theorem toInt_eventAge (now : Int64) (createdAt : UInt64) :
    (eventAge now createdAt).toInt = (now.toInt - createdAt.toInt64.toInt).bmod (2 ^ 64) :=
  Int64.toInt_sub now createdAt.toInt64

theorem bmod_of_lt {difference : Int} (lower : -2 ^ 64 ≤ difference) (upper : difference < 2 ^ 64) :
    difference.bmod (2 ^ 64) =
      if difference < -2 ^ 63 then difference + 2 ^ 64
      else if difference < 2 ^ 63 then difference
      else difference - 2 ^ 64 := by
  rw [Int.bmod_def]
  split_ifs <;> omega

theorem toInt_abs (value : Int64) :
    value.abs.toInt = if value.toInt = -2 ^ 63 then -2 ^ 63 else (value.toInt.natAbs : Int) := by
  show value.toBitVec.abs.toInt = _
  rw [BitVec.toInt_abs_eq_natAbs]
  have least : (BitVec.intMin 64).toInt = -2 ^ 63 := by decide
  have same : value.toBitVec = BitVec.intMin 64 ↔ value.toInt = -2 ^ 63 := by
    exact BitVec.toInt_inj.symm
  simp only [same, least]
  rfl

theorem isFresh_iff {now : Int64} {createdAt : UInt64} :
    isFresh now createdAt = true ↔
      (eventAge now createdAt).toInt = -2 ^ 63 ∨ (eventAge now createdAt).toInt.natAbs ≤ 60 := by
  unfold isFresh
  rw [Bool.not_eq_true', decide_eq_false_iff_not, Int64.lt_iff_toInt_lt, toInt_abs,
    show maxEventAgeSeconds.toInt = 60 from rfl]
  split <;> omega

theorem noOverflow_iff {now : Int64} {createdAt : UInt64} :
    NoOverflow now createdAt ↔
      (eventAge now createdAt).toInt = now.toInt - createdAt.toInt64.toInt ∧
        (eventAge now createdAt).toInt ≠ -2 ^ 63 := by
  have least : eventAge now createdAt = Int64.minValue ↔
      (eventAge now createdAt).toInt = -2 ^ 63 := by
    rw [← Int64.toInt_inj]
    rfl
  have lower := Int64.le_toInt (eventAge now createdAt)
  have upper := Int64.toInt_lt (eventAge now createdAt)
  unfold NoOverflow
  rw [Ne, least]
  refine and_congr_left fun _ => ⟨fun inside => ?_, fun same => ?_⟩
  · rw [toInt_eventAge]
    exact Int.bmod_eq_of_le (by omega) (by omega)
  · omega

/-! ### When the check is exact -/

/-- The check passes exactly the events within a minute of the current time, and no step
overflows. -/
def FreshnessExact (now : Int64) (createdAt : UInt64) (passes : Prop) : Prop :=
  (passes ↔ (now.toInt - createdAt.toNat).natAbs ≤ 60) ∧ NoOverflow now createdAt

/-- The time of the event is less than `2^63` ahead, or so far ahead that it is not within a minute
again. -/
def TimesComparable (now : Int64) (createdAt : UInt64) : Prop :=
  (createdAt.toNat < 2 ^ 63 ∧ createdAt.toNat < now.toInt + 2 ^ 63) ∨
    (2 ^ 63 ≤ createdAt.toNat ∧ now.toInt + 2 ^ 63 < createdAt.toNat ∧
      60 < (now.toInt + 2 ^ 64 - createdAt.toNat).natAbs)

theorem freshnessExact_iff {now : Int64} {createdAt : UInt64} :
    FreshnessExact now createdAt (isFresh now createdAt = true) ↔
      TimesComparable now createdAt := by
  have bound : createdAt.toNat < 2 ^ 64 := createdAt.toNat_lt
  have lower := Int64.le_toInt now
  have upper := Int64.toInt_lt now
  have age := toInt_eventAge now createdAt
  unfold FreshnessExact TimesComparable
  rw [isFresh_iff, noOverflow_iff]
  rw [toInt_toInt64] at age ⊢
  by_cases signed : createdAt.toNat < 2 ^ 63
  · rw [if_pos signed] at age ⊢
    rw [bmod_of_lt (by omega) (by omega)] at age
    split_ifs at age <;> omega
  · rw [if_neg signed] at age ⊢
    rw [bmod_of_lt (by omega) (by omega)] at age
    split_ifs at age <;> omega

/-! ### The check in its place -/

theorem requiredTag_ne_expired (tags : List (List String)) (name : String) :
    requiredTag tags name ≠ .error .eventExpired := by
  unfold requiredTag
  cases tags.find? fun tag => tag.head? = some name <;> simp [okOr, Except.map]

section

variable {library : Nip98Library} {now : Int64} {event : HttpAuthEvent}
  {authHeader expectedUrl expectedMethod : String}

theorem extractAndValidate_expired_iff (presented : presentedEvent library authHeader = .ok event) :
    extractAndValidate library now authHeader expectedUrl expectedMethod = .error .eventExpired ↔
      isFresh now event.createdAt = false := by
  unfold extractAndValidate
  rw [presented, ok_bind]
  cases fresh : isFresh now event.createdAt with
  | false => exact iff_of_true rfl rfl
  | true =>
    refine iff_of_false ?_ (by decide)
    show (requiredTag event.tags "u" >>= _) ≠ _
    refine bind_ne_error (requiredTag_ne_expired event.tags "u") fun actualUrl => ?_
    refine bind_ne_error (require_ne_error (by simp)) fun _ => ?_
    refine bind_ne_error (requiredTag_ne_expired event.tags "method") fun actualMethod => ?_
    exact bind_ne_error (require_ne_error (by simp)) nofun

/-- Exactly the events within a minute of the current time are accepted exactly when the times are
comparable. -/
theorem extractAndValidate_freshness_iff
    (presented : presentedEvent library authHeader = .ok event) :
    FreshnessExact now event.createdAt
        (extractAndValidate library now authHeader expectedUrl expectedMethod ≠
          .error .eventExpired) ↔
      TimesComparable now event.createdAt := by
  have passes : extractAndValidate library now authHeader expectedUrl expectedMethod ≠
      .error .eventExpired ↔ isFresh now event.createdAt = true := by
    rw [Ne, extractAndValidate_expired_iff presented, Bool.not_eq_false]
  rw [← freshnessExact_iff, passes]

end

/-! ### A header with a chosen time -/

def sampleHttpAuth (createdAt : UInt64) : HttpAuthEvent where
  id := "id"
  pubkey := ⟨"key"⟩
  createdAt := createdAt
  kind := 27235
  tags := [["u", "https://login.example/api/admin"], ["method", "get"]]
  content := ""
  sig := "sig"

def sampleNip98Library (createdAt : UInt64) : Nip98Library where
  decodeBase64 text := if text = "e30=" then .ok [0x7b, 0x7d] else .error "Invalid padding"
  fromUtf8 bytes := if bytes = [0x7b, 0x7d] then .ok "\x7b\x7d" else .error "invalid utf-8 sequence"
  parseEvent text :=
    if text = "\x7b\x7d" then .ok (sampleHttpAuth createdAt) else .error "expected value"
  verify _ := true

theorem extractAndValidate_freshness_sample :
    TimesComparable 1700000000 1700000060 ∧
      FreshnessExact 1700000000 1700000060
        (extractAndValidate (sampleNip98Library 1700000060) 1700000000 "Nostr e30="
          "https://login.example/api/admin" "GET" ≠ .error .eventExpired) := by
  have comparable : TimesComparable 1700000000 1700000060 := .inl (by decide)
  have presented : presentedEvent (sampleNip98Library 1700000060) "Nostr e30=" =
      .ok (sampleHttpAuth 1700000060) := by decide +kernel
  exact ⟨comparable, (extractAndValidate_freshness_iff presented).mpr comparable⟩

/-- An event from `2^63` seconds ahead is accepted. -/
theorem extractAndValidate_future :
    extractAndValidate (sampleNip98Library (1700000000 + 2 ^ 63)) 1700000000 "Nostr e30="
        "https://login.example/api/admin" "GET" = .ok ⟨⟨"key"⟩⟩ ∧
      ¬FreshnessExact 1700000000 (1700000000 + 2 ^ 63)
        (extractAndValidate (sampleNip98Library (1700000000 + 2 ^ 63)) 1700000000 "Nostr e30="
          "https://login.example/api/admin" "GET" ≠ .error .eventExpired) := by
  have accepted : extractAndValidate (sampleNip98Library (1700000000 + 2 ^ 63)) 1700000000
      "Nostr e30=" "https://login.example/api/admin" "GET" = .ok ⟨⟨"key"⟩⟩ := by decide +kernel
  refine ⟨accepted, fun exact => ?_⟩
  have passes : extractAndValidate (sampleNip98Library (1700000000 + 2 ^ 63)) 1700000000
      "Nostr e30=" "https://login.example/api/admin" "GET" ≠ .error .eventExpired := by
    rw [accepted]
    exact nofun
  exact absurd (exact.1.mp passes) (by decide +kernel)

end Divine.Keycast
