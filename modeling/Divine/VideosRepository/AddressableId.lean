/-
This file settles when an addressable id and its text belong together.
-/

import Divine.Library.Decimal
import Divine.VideosRepository.HomeFeed

namespace Divine.VideosRepository

open List Option Decimal Models

/-! ### Printing -/

deriving instance DecidableEq for AId

def AId.toAString (a : AId) : String := toString a.kind ++ ":" ++ a.pubkey ++ ":" ++ a.dTag

def kindText (text : String) : List Char := text.toList.takeWhile fun symbol => symbol ≠ ':'

/-- A minus sign, if any, and a numeral, but no sign before zero. -/
inductive Plain : List Char → Prop
  | natural {digits : List Char} : Numeral digits → Plain digits
  | negative {digits : List Char} : Numeral digits → digits ≠ ['0'] → Plain ('-' :: digits)

theorem toList_toString (kind : Int) :
    (toString kind).toList =
      if 0 ≤ kind then Nat.toDigits 10 kind.toNat else '-' :: Nat.toDigits 10 (-kind).toNat := by
  rw [Int.toString_eq_repr, Int.repr_eq_if]
  split
  · exact Nat.toList_repr
  · rw [String.toList_append, Nat.toList_repr]
    rfl

theorem plain_iff {text : List Char} : Plain text ↔ ∃ kind : Int,
    (toString kind).toList = text := by
  constructor
  · rintro (numeral | ⟨numeral, nonzero⟩)
    · obtain ⟨number, rfl⟩ := numeral_iff.mp numeral
      refine ⟨number, ?_⟩
      rw [toList_toString, if_pos (Int.natCast_nonneg number), Int.toNat_natCast]
    · obtain ⟨number, rfl⟩ := numeral_iff.mp numeral
      have positive : 0 < number := by
        refine Nat.pos_of_ne_zero fun zero => nonzero ?_
        rw [zero, Nat.toDigits_zero]
      refine ⟨-number, ?_⟩
      rw [toList_toString, if_neg (by omega), Int.neg_neg, Int.toNat_natCast]
  · rintro ⟨kind, rfl⟩
    rw [toList_toString]
    split
    · exact .natural (numeral_toDigits _)
    · refine .negative (numeral_toDigits _) fun zero => ?_
      have none : (-kind).toNat = 0 := by
        rw [← @Nat.ofDigitChars_ten_toDigits (-kind).toNat, zero]
        rfl
      omega

/-! ### Reading what was printed -/

theorem digitValue_of_isDigit {digit : Char} (isDigit : digit.isDigit = true) :
    digitValue digit = some (digit.toNat - '0'.toNat) := by
  exact if_pos (Bool.and_eq_true_iff.mp isDigit |>.imp of_decide_eq_true of_decide_eq_true)

theorem readDigits_eq {digits : List Char} (number : Nat)
    (isDigits : ∀ digit ∈ digits, digit.isDigit = true) :
    readDigits 10 number digits = some (Nat.ofDigitChars 10 digits number) := by
  induction digits generalizing number with
  | nil => rw [readDigits, Nat.ofDigitChars_nil]
  | cons digit rest ih =>
    have isDigit := isDigits digit mem_cons_self
    rw [readDigits, digitValue_of_isDigit isDigit, bind_some,
      if_pos (digitChar_of_isDigit isDigit).1, ih _
        fun later member => isDigits later (mem_cons_of_mem digit member),
      Nat.ofDigitChars_cons, Nat.mul_comm]

theorem readMagnitude_toDigits (negative : Bool) (number : Nat) :
    readMagnitude negative (Nat.toDigits 10 number) =
      if wrapped (if negative then -(number : Int) else number) =
          if negative then -(number : Int) else number then
        some (if negative then -(number : Int) else number)
      else none := by
  have isDigits := (numeral_toDigits number).isDigit
  have read := readDigits_eq 0 isDigits
  rw [Nat.ofDigitChars_ten_toDigits] at read
  unfold readMagnitude
  dsimp only
  split
  · rename_i absurd
    exact (Nat.toDigits_ne_nil absurd).elim
  · rename_i hexadecimal
    have letter :=
      isDigits 'x' (by rw [hexadecimal]; exact mem_cons_of_mem _ mem_cons_self)
    cases letter
  · rename_i hexadecimal
    have letter :=
      isDigits 'X' (by rw [hexadecimal]; exact mem_cons_of_mem _ mem_cons_self)
    cases letter
  · rw [read, bind_some]

theorem dropWhile_eq_self {drops : Char → Bool} {text : List Char}
    (none : ∀ symbol ∈ text, drops symbol = false) : text.dropWhile drops = text := by
  cases text with
  | nil => rfl
  | cons first rest =>
    rw [dropWhile_cons, none first mem_cons_self]
    rfl

theorem trimmed_eq_self {text : List Char}
    (none : ∀ symbol ∈ text, (isWhitespace symbol || symbol.toNat = 133) = false) :
    trimmed text = text := by
  unfold trimmed
  dsimp only
  rw [dropWhile_eq_self none, dropWhile_eq_self fun symbol member => none symbol
    (mem_reverse.mp member), reverse_reverse]

theorem trimmed_of_isDigit {symbol : Char} (plain : symbol = '-' ∨ symbol.isDigit = true) :
    (isWhitespace symbol || symbol.toNat = 133) = false := by
  rcases plain with rfl | isDigit
  · decide
  · obtain ⟨least, most⟩ : 48 ≤ symbol.toNat ∧ symbol.toNat ≤ 57 := by
      exact Bool.and_eq_true_iff.mp isDigit |>.imp of_decide_eq_true of_decide_eq_true
    unfold isWhitespace
    simp only [Bool.or_eq_false_iff, Bool.and_eq_false_iff, decide_eq_false_iff_not]
    omega

theorem tryParseInt_toString (kind : Int) :
    tryParseInt (toString kind) = if wrapped kind = kind then some kind else none := by
  have symbols : ∀ symbol ∈ (toString kind).toList, symbol = '-' ∨ symbol.isDigit = true := by
    intro symbol member
    rw [toList_toString] at member
    split at member
    · exact .inr ((numeral_toDigits _).isDigit symbol member)
    · exact (mem_cons.mp member).imp_right ((numeral_toDigits _).isDigit symbol)
  unfold tryParseInt
  rw [trimmed_eq_self fun symbol member => trimmed_of_isDigit (symbols symbol member),
    toList_toString]
  by_cases natural : 0 ≤ kind
  · rw [if_pos natural]
    have isDigits := (numeral_toDigits kind.toNat).isDigit
    have whole : ((kind.toNat : Nat) : Int) = kind := Int.toNat_of_nonneg natural
    have read := readMagnitude_toDigits false kind.toNat
    rw [if_neg Bool.false_ne_true, whole] at read
    split
    · rename_i digits minus
      have absurd := isDigits '-' (by rw [minus]; exact mem_cons_self)
      cases absurd
    · rename_i digits plus
      have absurd := isDigits '+' (by rw [plus]; exact mem_cons_self)
      cases absurd
    · exact read
  · rw [if_neg natural]
    have whole : -(((-kind).toNat : Nat) : Int) = kind := by omega
    have read := readMagnitude_toDigits true (-kind).toNat
    rw [if_pos rfl, whole] at read
    exact read

/-! ### Splitting at colons -/

theorem colonParts_ne_nil (text : List Char) : colonParts text ≠ [] := by
  cases text with
  | nil => exact cons_ne_nil _ _
  | cons symbol rest =>
    unfold colonParts
    split
    · exact cons_ne_nil _ _
    · split <;> exact cons_ne_nil _ _

theorem colonParts_joined {text part : List Char} {later : List (List Char)}
    (parts : colonParts text = part :: later) :
    text = part ++ later.flatMap fun part => ':' :: part := by
  induction text generalizing part later with
  | nil =>
    obtain ⟨rfl, rfl⟩ := List.cons.inj parts
    rfl
  | cons symbol rest ih =>
    unfold colonParts at parts
    cases restParts : colonParts rest with
    | nil => exact absurd restParts (colonParts_ne_nil rest)
    | cons first others =>
      have joined := ih restParts
      rw [restParts] at parts
      by_cases colon : symbol = ':'
      · rw [if_pos colon] at parts
        obtain ⟨rfl, rfl⟩ := List.cons.inj parts
        rw [colon, flatMap_cons, nil_append, cons_append, ← joined]
      · rw [if_neg colon] at parts
        obtain ⟨rfl, rfl⟩ := List.cons.inj parts
        rw [cons_append, ← joined]

theorem colonParts_append {part : List Char} (plain : ':' ∉ part) (rest : List Char) :
    colonParts (part ++ ':' :: rest) = part :: colonParts rest := by
  induction part with
  | nil => exact if_pos rfl
  | cons symbol more ih =>
    obtain ⟨differs, later⟩ := not_or.mp (mt mem_cons.mpr plain)
    rw [cons_append, colonParts, if_neg (Ne.symm differs), ih later]

theorem takeWhile_of_colonParts {text part : List Char} {later : List (List Char)}
    (parts : colonParts text = part :: later) :
    (text.takeWhile fun symbol => symbol ≠ ':') = part := by
  induction text generalizing part later with
  | nil => exact (List.cons.inj parts).1
  | cons symbol rest ih =>
    unfold colonParts at parts
    cases restParts : colonParts rest with
    | nil => exact absurd restParts (colonParts_ne_nil rest)
    | cons first others =>
      rw [restParts] at parts
      by_cases colon : symbol = ':'
      · rw [if_pos colon] at parts
        rw [takeWhile_cons_of_neg (by simpa using colon)]
        exact (List.cons.inj parts).1
      · rw [if_neg colon] at parts
        rw [takeWhile_cons_of_pos (by simpa using colon), ih restParts]
        exact (List.cons.inj parts).1

/-! ### Ids and their texts -/

theorem toList_toAString (a : AId) : a.toAString.toList =
    (toString a.kind).toList ++ ':' :: (a.pubkey.toList ++ ':' :: a.dTag.toList) := by
  unfold AId.toAString
  simp only [String.toList_append, append_assoc]
  rfl

theorem colon_not_mem_toString (kind : Int) : ':' ∉ (toString kind).toList := by
  intro member
  rw [toList_toString] at member
  split at member
  · cases (numeral_toDigits _).isDigit ':' member
  · rcases mem_cons.mp member with minus | digit
    · exact absurd minus (by decide)
    · cases (numeral_toDigits _).isDigit ':' digit

theorem fromString_toAString {a : AId} (bits : wrapped a.kind = a.kind)
    (noColon : ':' ∉ a.pubkey.toList) : AId.fromString a.toAString = some a := by
  unfold AId.fromString
  rw [toList_toAString, colonParts_append (colon_not_mem_toString a.kind),
    colonParts_append noColon]
  cases parts : colonParts a.dTag.toList with
  | nil => exact absurd parts (colonParts_ne_nil _)
  | cons first rest =>
    dsimp only
    rw [← colonParts_joined parts, String.ofList_toList, String.ofList_toList, String.ofList_toList,
      tryParseInt_toString, if_pos bits]
    rfl

theorem fromString_eq_some {text : String} {a : AId} (read : AId.fromString text = some a) :
    tryParseInt (String.ofList (kindText text)) = some a.kind ∧
      text.toList = kindText text ++ ':' :: (a.pubkey.toList ++ ':' :: a.dTag.toList) := by
  unfold AId.fromString at read
  split at read
  · rename_i kind pubkey first rest parts
    obtain ⟨number, parsed, rfl⟩ := map_eq_some_iff.mp read
    have joined := colonParts_joined parts
    have front : kindText text = kind := takeWhile_of_colonParts parts
    rw [front]
    refine ⟨parsed, ?_⟩
    simp only [String.toList_ofList]
    simpa only [flatMap_cons, cons_append, append_assoc] using joined
  · cases read

theorem toAString_fromString_iff {text : String} {a : AId} (read : AId.fromString text = some a) :
    a.toAString = text ↔ Plain (kindText text) := by
  obtain ⟨parsed, joined⟩ := fromString_eq_some read
  have same : a.toAString = text ↔ (toString a.kind).toList = kindText text := by
    rw [← String.toList_inj, toList_toAString, joined, append_cancel_right_eq]
  rw [same, plain_iff]
  constructor
  · intro printed
    exact ⟨a.kind, printed⟩
  · rintro ⟨kind, printed⟩
    rw [← printed, String.ofList_toList, tryParseInt_toString] at parsed
    obtain ⟨_, kindIs⟩ := ite_none_right_eq_some.mp parsed
    rw [← printed, Option.some.inj kindIs]

/-- Every id is read from its text, and of the texts that are read as the same id only one has a
plain kind. -/
theorem addressableId_texts (text : String) :
    (∀ (kind : Int64) (pubkey dTag : String), ':' ∉ pubkey.toList →
      AId.fromString (AId.toAString ⟨kind.toInt, pubkey, dTag⟩) =
        some ⟨kind.toInt, pubkey, dTag⟩) ∧
    (∀ a, AId.fromString text = some a → (a.toAString = text ↔ Plain (kindText text))) ∧
    ∀ a other, AId.fromString text = some a → AId.fromString other = some a →
      Plain (kindText text) → (other = text ↔ Plain (kindText other)) := by
  refine ⟨fun kind pubkey dTag noColon => ?_, fun a read => toAString_fromString_iff read, ?_⟩
  · have least := Int64.le_toInt kind
    have most := Int64.toInt_lt kind
    have bits : wrapped kind.toInt = kind.toInt := Int.bmod_eq_of_le (by omega) (by omega)
    exact fromString_toAString bits noColon
  · intro a other read readOther plain
    rw [← toAString_fromString_iff readOther, (toAString_fromString_iff read).mpr plain]
    exact eq_comm

/-- A text with a plain kind is the text of its id. -/
theorem addressableId_texts_sample :
    AId.toAString ⟨30000, "k", "d:e"⟩ = "30000:k:d:e" := by
  have settled := (addressableId_texts "30000:k:d:e").2.1
  refine (settled ⟨30000, "k", "d:e"⟩ (by decide +kernel)).mpr ?_
  exact plain_iff.mpr ⟨30000, by decide +kernel⟩

/-- Four texts are read as one id, of which one is its text. -/
theorem spellings :
    AId.fromString "30000:k:d" = some ⟨30000, "k", "d"⟩ ∧
    AId.fromString "0x7530:k:d" = some ⟨30000, "k", "d"⟩ ∧
    AId.fromString "+030000:k:d" = some ⟨30000, "k", "d"⟩ ∧
    AId.fromString " 30000:k:d" = some ⟨30000, "k", "d"⟩ ∧
    AId.toAString ⟨30000, "k", "d"⟩ = "30000:k:d" := by
  decide +kernel

end Divine.VideosRepository
