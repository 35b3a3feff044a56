/-
This file follows the user object into its script: where its JSON text has a dollar sign
that `replace` would read, and at which level of escaping the script's text is after it.
-/

import Divine.ComputeJs.SubdomainProfile
import Divine.Library.Markup

namespace Divine.ComputeJs

open List JsonText Replacing Markup

/-! ### Escapes -/

section Escapes

theorem escape_dollar : escape '$' = ['$'] := rfl

theorem eq_of_mem_escape {symbol other : Char} (member : symbol ∈ escape other)
    (special : symbol.isAlphanum = false) (noSlash : symbol ≠ '\\') (noQuote : symbol ≠ '"') :
    symbol = other := by
  have digits : ∀ value < 16, (Nat.digitChar value).isAlphanum = true := by decide
  have letter : ∀ {digit : Char}, digit.isAlphanum = true → symbol ≠ digit := by
    rintro digit isLetter rfl
    exact absurd (isLetter.symm.trans special) (by decide)
  have named : (letters.all fun letter => letter.isAlphanum || letter = '\\' || letter = '"') =
      true := by decide
  rcases escape_cases other with ⟨stand, isLetter, -, same⟩ | ⟨control, same⟩ | ⟨-, -, -, same⟩
  · rw [same] at member
    simp only [mem_cons, not_mem_nil, or_false] at member
    obtain rfl := member.resolve_left noSlash
    have either := all_eq_true.mp named symbol isLetter
    simp only [Bool.or_eq_true, decide_eq_true_eq] at either
    rcases either with (alphanumeric | slash) | quoted
    · exact absurd rfl (letter alphanumeric)
    · exact absurd slash noSlash
    · exact absurd quoted noQuote
  · rw [same] at member
    simp only [mem_cons, not_mem_nil, or_false] at member
    rcases member with same | same | same | same | same | same
    · exact absurd same noSlash
    · exact absurd same (letter (by decide))
    · exact absurd same (letter (by decide))
    · exact absurd same (letter (by decide))
    · exact absurd same (letter (digits _ (by omega)))
    · exact absurd same (letter (digits _ (Nat.mod_lt _ (by decide))))
  · rw [same] at member
    exact mem_singleton.mp member

theorem exists_escape (symbol : Char) :
    ∃ first rest, escape symbol = first :: rest ∧ isRead first = isRead symbol := by
  rcases escape_cases symbol with ⟨letter, isLetter, stands, same⟩ | ⟨control,
    same⟩ | ⟨-, -, -, same⟩
  · have each : (letters.all fun letter => (unescape letter).all fun symbol => !isRead symbol) =
        true := by decide
    have unread := all_eq_true.mp each letter isLetter
    rw [stands, Option.all_some, Bool.not_eq_true'] at unread
    exact ⟨_, _, same, by rw [unread]; rfl⟩
  · refine ⟨_, _, same, ?_⟩
    have unread : isRead symbol = false := by
      refine Bool.eq_false_iff.mpr fun read => ?_
      unfold isRead at read
      simp only [Bool.or_eq_true, decide_eq_true_eq] at read
      rcases read with ((rfl | rfl) | rfl) | rfl
      all_goals exact absurd control (by decide)
    rw [unread]
    rfl
  · exact ⟨_, _, same, rfl⟩

theorem not_mem_flatMap_escape {symbol : Char} {text : Text} (free : symbol ∉ text)
    (special : symbol.isAlphanum = false) (noSlash : symbol ≠ '\\') (noQuote : symbol ≠ '"') :
    symbol ∉ text.flatMap escape := by
  intro member
  obtain ⟨other, inside, written⟩ := mem_flatMap.mp member
  exact free (eq_of_mem_escape written special noSlash noQuote ▸ inside)

theorem pairs_escape (text : Text) : pairs isRead (text.flatMap escape) = pairs isRead text := by
  refine pairs_flatMap escape_dollar (fun symbol differs member => ?_) exists_escape text
  exact differs (eq_of_mem_escape member (by decide) (by decide) (by decide)).symm

theorem after_escape {text : Text} (opening : '<' ∉ text) (closing : '>' ∉ text) (level : Level) :
    level.after (text.flatMap escape) = level :=
  after_eq_of_not_mem
    (not_mem_flatMap_escape opening (by decide) (by decide) (by decide))
    (not_mem_flatMap_escape closing (by decide) (by decide) (by decide)) level

end Escapes

/-! ### Objects -/

def hasPair : Value → Bool
  | .string text => pairs isRead text
  | _ => false

def through (level : Level) : Value → Level
  | .string text => level.after (text.flatMap escape)
  | _ => level

section Objects
variable {symbol : Char}


theorem not_mem_numeral (other : isNumeric symbol = false) (numeral : Numeral) :
    symbol ∉ numeral.text := fun member =>
  absurd ((numeral.numeric symbol member).symm.trans other) (by decide)

theorem pairs_write (value : Value) : pairs isRead value.write = hasPair value := by
  cases value with
  | null => rfl
  | number numeral => exact pairs_of_not_mem (not_mem_numeral (by decide) numeral)
  | string text =>
    show pairs isRead ('"' :: (text.flatMap escape ++ ['"'])) = pairs isRead text
    rw [pairs_cons (by decide), pairs_append _ rfl, pairs_escape]
    exact Bool.or_false _

theorem exists_write (value : Value) :
    ∃ first rest, value.write = first :: rest ∧ isRead first = false := by
  cases value with
  | null | string => exact ⟨_, _, rfl, rfl⟩
  | number numeral =>
    obtain ⟨text, numeric, number⟩ := numeral
    cases text with
    | nil => cases number
    | cons symbol text =>
      refine ⟨symbol, text, rfl, Bool.eq_false_iff.mpr fun read => ?_⟩
      have isFirst := numeric symbol mem_cons_self
      unfold isRead at read
      simp only [Bool.or_eq_true, decide_eq_true_eq] at read
      rcases read with ((rfl | rfl) | rfl) | rfl
      all_goals exact absurd isFirst (by decide)

theorem pairs_writeEntry {entry : Entry} (free : '$' ∉ entry.1) :
    pairs isRead (writeEntry entry) = hasPair entry.2 := by
  obtain ⟨first, rest, written, unread⟩ := exists_write entry.2
  have quoted : '$' ∉ quote entry.1 ++ [':'] := by
    intro member
    rcases mem_append.mp member with member | member
    · rcases mem_cons.mp member with same | member
      · exact absurd same (by decide)
      · rcases mem_append.mp member with member | member
        · exact not_mem_flatMap_escape free (by decide) (by decide) (by decide) member
        · exact absurd member (by decide)
    · exact absurd member (by decide)
  have split : writeEntry entry = (quote entry.1 ++ [':']) ++ entry.2.write := by
    unfold writeEntry
    rw [append_assoc, singleton_append]
  rw [split, pairs_append_of_not_mem quoted, pairs_write]

theorem pairs_stringify {entries : List Entry} (free : ∀ entry ∈ entries, '$' ∉ entry.1) :
    pairs isRead (stringify entries) = entries.any fun entry => hasPair entry.2 := by
  have members : ∀ entries : List Entry, (∀ entry ∈ entries, '$' ∉ entry.1) →
      pairs isRead (writeEntries entries) = entries.any fun entry => hasPair entry.2 := by
    intro entries free
    induction entries with
    | nil => rfl
    | cons entry entries ih =>
      have first := pairs_writeEntry (free entry mem_cons_self)
      have rest := ih fun other member => free other (mem_cons_of_mem _ member)
      cases entries with
      | nil =>
        show pairs isRead (writeEntry entry) = (hasPair entry.2 || false)
        rw [first, Bool.or_false]
      | cons next entries =>
        show pairs isRead (writeEntry entry ++ ',' :: writeEntries (next :: entries)) =
          (hasPair entry.2 || (next :: entries).any fun entry => hasPair entry.2)
        rw [pairs_append _ rfl, first, pairs_cons (by decide), rest]
  unfold stringify
  rw [pairs_cons (by decide), pairs_append _ rfl, members entries free]
  exact Bool.or_false _

theorem run_quote (level : Level) (text rest : Text) (calm : Calm symbol) :
    level.start.run (quote text ++ symbol :: rest) =
      (level.after (text.flatMap escape)).start.run rest := by
  have quoteCalm : Calm '"' := by decide
  have split : quote text ++ symbol :: rest =
      [] ++ '"' :: (text.flatMap escape ++ '"' :: ([] ++ symbol :: rest)) := by
    simp [quote]
  have after_nil : ∀ level : Level, level.after [] = level := level_start
  rw [split, run_calm quoteCalm, run_calm quoteCalm, run_calm calm, after_nil, after_nil]

theorem run_value (calm : Calm symbol) (level : Level) (value : Value) (rest : Text) :
    level.start.run (value.write ++ symbol :: rest) = (through level value).start.run rest := by
  cases value with
  | null =>
    rw [run_calm calm]
    exact congrArg (fun level : Level => level.start.run rest)
      (after_eq_of_not_mem (by decide) (by decide) level)
  | number numeral =>
    rw [run_calm calm]
    exact congrArg (fun level : Level => level.start.run rest)
      (after_eq_of_not_mem (not_mem_numeral (by decide) numeral)
        (not_mem_numeral (by decide) numeral) level)
  | string text => exact run_quote level text rest calm

def Plain (entry : Entry) : Prop := '<' ∉ entry.1 ∧ '>' ∉ entry.1

theorem run_writeEntry (calm : Calm symbol) (level : Level) {entry : Entry} (plain : Plain entry)
    (rest : Text) :
    level.start.run (writeEntry entry ++ symbol :: rest) =
      (through level entry.2).start.run rest := by
  have split : writeEntry entry ++ symbol :: rest =
      quote entry.1 ++ ':' :: (entry.2.write ++ symbol :: rest) := by
    simp [writeEntry]
  rw [split, run_quote level _ _ (by decide), after_escape plain.1 plain.2, run_value calm]

theorem run_writeEntries (calm : Calm symbol) {entries : List Entry} (nonempty : entries ≠ [])
    (plain : ∀ entry ∈ entries, Plain entry) (level : Level) (rest : Text) :
    level.start.run (writeEntries entries ++ symbol :: rest) =
      (entries.foldl (fun level entry => through level entry.2) level).start.run rest := by
  induction entries generalizing level with
  | nil => exact absurd rfl nonempty
  | cons entry entries ih =>
    have isPlain := plain entry mem_cons_self
    cases entries with
    | nil => exact run_writeEntry calm level isPlain rest
    | cons next entries =>
      have split : writeEntries (entry :: next :: entries) ++ symbol :: rest =
          writeEntry entry ++ ',' :: (writeEntries (next :: entries) ++ symbol :: rest) := by
        simp [writeEntries]
      rw [split, run_writeEntry (by decide) level isPlain]
      exact ih (cons_ne_nil _ _)
        (fun other member => plain other (mem_cons_of_mem _ member)) _

end Objects

/-! ### The user object -/

section User

variable {subdomain pubkey hostname : Text} {profileData : Option ProfileData} {user : DivineUser}

theorem isAlphanum_of_mem_hexToNpub {hex : Text} {symbol : Char} (member : symbol ∈ hexToNpub hex) :
    symbol.isAlphanum = true := by
  have letters : ∀ text : Text, text.all Char.isAlphanum = true → symbol ∈ text →
      symbol.isAlphanum = true := fun text letters member => all_eq_true.mp letters _ member
  rcases mem_append.mp member with lead | written
  · exact letters _ (by decide) lead
  · obtain ⟨group, -, inside⟩ := mem_flatMap.mp written
    cases found : charset[group.toNat]? with
    | none =>
      rw [found] at inside
      exact letters _ (by decide) inside
    | some other =>
      rw [found] at inside
      obtain rfl := mem_singleton.mp inside
      exact letters charset (by decide) (mem_of_getElem? found)

theorem not_mem_hexToNpub {hex : Text} {symbol : Char} (special : symbol.isAlphanum = false) :
    symbol ∉ hexToNpub hex := fun member =>
  absurd ((isAlphanum_of_mem_hexToNpub member).symm.trans special) (by decide)

theorem apexDomain_mem (hostname : Text) : apexDomain hostname ∈ apexDomains := by
  unfold apexDomain
  cases found : apexDomains.find? fun apex => apex.isSuffixOf hostname with
  | none => exact mem_cons_self
  | some apex => exact mem_of_find?_eq_some found

theorem not_mem_apexDomain {symbol : Char} (special : ∀ apex ∈ apexDomains, symbol ∉ apex)
    (hostname : Text) : symbol ∉ apexDomain hostname :=
  special _ (apexDomain_mem hostname)

theorem plain_entries : ∀ entry ∈ user.entries, Plain entry ∧ '$' ∉ entry.1 := by
  have keys : ∀ key ∈ user.entries.map Prod.fst, ('<' ∉ key ∧ '>' ∉ key) ∧ '$' ∉ key := by
    show ∀ key ∈ ["subdomain".toList, "pubkey".toList, "npub".toList, "username".toList,
      "displayName".toList, "picture".toList, "banner".toList, "about".toList, "nip05".toList,
      "followersCount".toList, "followingCount".toList, "videoCount".toList,
      "apexDomain".toList], _
    decide
  exact fun entry member => keys entry.1 (mem_map_of_mem member)

variable (subdomain pubkey hostname profileData)

/-- The strings of the user object in their order, without those that the code writes. -/
def shownStrings : List Text :=
  [subdomain, pubkey, subdomain, displayName subdomain profileData] ++
    (profileField profileData Profile.picture).toList ++
    (profileField profileData Profile.banner).toList ++
    (profileField profileData Profile.about).toList ++ [nip05 subdomain hostname profileData]

def shownLevel : Level :=
  (shownStrings subdomain pubkey hostname profileData).foldl
    (fun level text => level.after (text.flatMap escape)) .plain

variable {subdomain pubkey hostname profileData}

theorem through_stringOrNull (level : Level) (value : Option Text) :
    through level (stringOrNull value) =
      value.toList.foldl (fun level text => level.after (text.flatMap escape)) level := by
  cases value <;> rfl

theorem foldl_entries :
    (divineUser subdomain pubkey hostname profileData).entries.foldl
        (fun level entry => through level entry.2) .plain =
      shownLevel subdomain pubkey hostname profileData := by
  have npub : ∀ level : Level, level.after ((hexToNpub pubkey).flatMap escape) = level :=
    after_escape (not_mem_hexToNpub (by decide)) (not_mem_hexToNpub (by decide))
  have apex : ∀ level : Level, level.after ((apexDomain hostname).flatMap escape) = level :=
    after_escape (not_mem_apexDomain (by decide) hostname)
      (not_mem_apexDomain (by decide) hostname)
  unfold shownLevel shownStrings DivineUser.entries divineUser
  simp only [foldl_cons, foldl_nil, foldl_append, through_stringOrNull]
  simp only [through, npub, apex]

theorem endsThere_userScript :
    EndsThere ("window.__DIVINE_USER__ = ".toList ++
        stringify (divineUser subdomain pubkey hostname profileData).entries ++ [';']) ↔
      (shownLevel subdomain pubkey hostname profileData).Open := by
  rw [endsThere_iff (by decide)]
  have reached : Level.plain.after ("window.__DIVINE_USER__ = ".toList ++
      stringify (divineUser subdomain pubkey hostname profileData).entries) =
        shownLevel subdomain pubkey hostname profileData := by
    have begun : Level.plain.start.run "window.__DIVINE_USER__ = ".toList = Level.plain.start := by
      decide
    have calm : Calm '}' := by decide
    have split : stringify (divineUser subdomain pubkey hostname profileData).entries =
        [] ++ '{' :: (writeEntries (divineUser subdomain pubkey hostname profileData).entries ++
          '}' :: []) := rfl
    unfold Level.after
    rw [Script.run_append, begun, split, run_calm (by decide)]
    rw [show Level.plain.after [] = .plain from rfl, run_writeEntries calm (by nofun)
      (fun entry member => (plain_entries entry member).1), foldl_entries]
    exact level_start _
  rw [reached]

theorem pairs_entries :
    pairs isRead (stringify (divineUser subdomain pubkey hostname profileData).entries) =
      (shownStrings subdomain pubkey hostname profileData).any (pairs isRead) := by
  have npub : pairs isRead (hexToNpub pubkey) = false :=
    pairs_of_not_mem (not_mem_hexToNpub (by decide))
  have apex : pairs isRead (apexDomain hostname) = false :=
    pairs_of_not_mem (not_mem_apexDomain (by decide) hostname)
  have orNull : ∀ value : Option Text,
      hasPair (stringOrNull value) = value.toList.any (pairs isRead) := fun value => by
    cases value with
    | none => rfl
    | some text => exact (Bool.or_false _).symm
  rw [pairs_stringify fun entry member => (plain_entries entry member).2]
  unfold shownStrings DivineUser.entries divineUser
  simp only [any_cons, any_nil, any_append, orNull]
  simp only [hasPair, npub, apex, Bool.or_false, Bool.false_or, Bool.or_assoc]

end User

end Divine.ComputeJs
