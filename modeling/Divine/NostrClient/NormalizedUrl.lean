/-
This file proves when the address of a relay stays what it was normalized to. One slash is
removed from the end, and nothing is trimmed after it.
-/

import Divine.NostrClient.RelayManager
import Mathlib.Data.List.DropRight

namespace Divine.NostrClient

open List Option RelayManagerConfig

/-! ### Slashes at the end -/

/-- An address as it is before the slash is removed. -/
def spelled (url : String) : List Char := withScheme (trim url.toList)

/-- Two addresses that differ by white space around them, a missing `wss://` or slashes at the end.
-/
def Alike (first second : String) : Prop :=
  (spelled first).rdropWhile (· = '/') = (spelled second).rdropWhile (· = '/')

/-- No slash or white space stands before a slash at the end. -/
def EndsOnce (text : List Char) : Prop :=
  ∀ letter, letter = '/' ∨ isBlank letter = true → ¬ [letter, '/'] <:+ text

section

variable {text front : List Char} {letter last : Char}

theorem singleton_suffix_concat : [letter] <:+ front ++ [last] ↔ letter = last := by
  rw [suffix_concat_iff]
  constructor
  · rintro (empty | ⟨before, same, -⟩)
    · cases empty
    · exact (append_singleton_inj.mp (show [] ++ [letter] = before ++ [last] from same)).2
  · rintro rfl
    exact .inr ⟨[], rfl, nil_suffix⟩

theorem pair_suffix_concat :
    [letter, '/'] <:+ front ++ [last] ↔ last = '/' ∧ [letter] <:+ front := by
  rw [show [letter, '/'] = [letter] ++ ['/'] from rfl, suffix_concat_iff]
  simp only [append_ne_nil_of_right_ne_nil, ne_eq, cons_ne_self, not_false_eq_true,
    false_or]
  constructor
  · rintro ⟨ending, same, suffix⟩
    obtain ⟨rfl, rfl⟩ := append_singleton_inj.mp same
    exact ⟨rfl, suffix⟩
  · rintro ⟨rfl, suffix⟩
    exact ⟨[letter], rfl, suffix⟩

theorem endsOnce_concat_of_ne (differs : last ≠ '/') : EndsOnce (front ++ [last]) :=
  fun _ _ suffix => differs (pair_suffix_concat.mp suffix).1

theorem endsOnce_concat_slash :
    EndsOnce (front ++ [letter] ++ ['/']) ↔ ¬(letter = '/' ∨ isBlank letter = true) := by
  simp only [EndsOnce, pair_suffix_concat, singleton_suffix_concat, true_and]
  exact ⟨fun once stands => once letter stands rfl, fun plain _ stands same =>
    plain (same ▸ stands)⟩

theorem withoutSlash_concat :
    withoutSlash (front ++ [last]) = if last = '/' then front else front ++ [last] := by
  simp only [withoutSlash, getLast?_concat, Option.some.injEq, dropLast_concat]

theorem prefix_rdropWhile {drops : Char → Bool} (stays : drops last = false)
    (begins : front ++ [last] <+: text) : front ++ [last] <+: text.rdropWhile drops := by
  induction text using reverseRecOn with
  | nil => simp at begins
  | append_singleton rest letter ih =>
    rw [rdropWhile_concat]
    split
    · rename_i dropped
      refine ih ((prefix_concat_iff.mp begins).resolve_left fun same => ?_)
      obtain ⟨-, rfl⟩ := append_singleton_inj.mp same
      cases stays.symm.trans dropped
    · exact begins

end

/-! ### Schemes -/

def Schemed (text : List Char) : Prop :=
  "wss://".toList <+: text ∨ "ws://".toList <+: text

section

variable {text front : List Char} {letter last : Char}

theorem schemed_iff : Schemed text ↔ ∃ name, ('w' :: name) ++ ['/'] <+: text ∧
    (name = ['s', 's', ':', '/'] ∨ name = ['s', ':', '/']) := by
  constructor
  · rintro (secure | plain)
    · exact ⟨['s', 's', ':', '/'], secure, .inl rfl⟩
    · exact ⟨['s', ':', '/'], plain, .inr rfl⟩
  · rintro ⟨name, begins, rfl | rfl⟩
    · exact .inl begins
    · exact .inr begins

theorem withScheme_of_schemed (schemed : Schemed text) : withScheme text = text := by
  refine if_pos ?_
  rwa [Bool.or_eq_true, isPrefixOf_iff_prefix, isPrefixOf_iff_prefix]

theorem schemed_withScheme (text : List Char) : Schemed (withScheme text) := by
  unfold withScheme
  split
  · rename_i begins
    rwa [Bool.or_eq_true, isPrefixOf_iff_prefix, isPrefixOf_iff_prefix] at begins
  · exact .inl (prefix_append _ _)

theorem trim_of_schemed (schemed : Schemed text) : trim text = text.rdropWhile isBlank := by
  obtain ⟨name, ⟨rest, rfl⟩, -⟩ := schemed_iff.mp schemed
  rfl

theorem Schemed.trimmed (schemed : Schemed text) : Schemed (trim text) := by
  obtain ⟨name, begins, known⟩ := schemed_iff.mp schemed
  rw [trim_of_schemed schemed]
  exact schemed_iff.mpr ⟨name, prefix_rdropWhile (by decide) begins, known⟩

/-- Without its last slash an address keeps its scheme, unless that ends in the slash. -/
theorem Schemed.of_concat (schemed : Schemed (front ++ [letter] ++ [last]))
    (differs : letter ≠ '/') :
    Schemed (front ++ [letter]) := by
  obtain ⟨name, begins, known⟩ := schemed_iff.mp schemed
  refine schemed_iff.mpr ⟨name, ?_, known⟩
  refine (prefix_concat_iff.mp begins).resolve_left fun same => differs ?_
  have own := (append_singleton_inj.mp same).1
  rcases known with rfl | rfl
  · exact (append_singleton_inj.mp (show ['w', 's', 's', ':'] ++ ['/'] = _ from own)).2.symm
  · exact (append_singleton_inj.mp (show ['w', 's', ':'] ++ ['/'] = _ from own)).2.symm

/-- The end of a trimmed address is not white space, with a scheme neither. -/
theorem not_blank_of_spelled {url : String} (ends : spelled url = front ++ [last]) :
    isBlank last = false := by
  have trimmed {before : List Char} (same : trim url.toList = before ++ [last]) :
      isBlank last = false := by
    have filled : (url.toList.dropWhile isBlank).rdropWhile isBlank ≠ [] := fun empty =>
      append_ne_nil_of_right_ne_nil before (cons_ne_nil last []) (same.symm.trans empty)
    have stays := rdropWhile_last_not isBlank _ filled
    rw [← Bool.not_eq_true]
    rwa [getLast_congr filled (by simp) same, getLast_concat] at stays
  unfold spelled withScheme at ends
  split at ends
  · exact trimmed ends
  · rcases eq_nil_or_concat (trim url.toList) with empty | ⟨before, letter, same⟩
    · rw [empty, append_nil] at ends
      obtain rfl := (append_singleton_inj.mp
        (show ['w', 's', 's', ':', '/'] ++ ['/'] = front ++ [last] from ends)).2
      decide
    · rw [same, concat_eq_append, ← append_assoc] at ends
      obtain rfl := (append_singleton_inj.mp ends).2
      exact trimmed (same.trans (concat_eq_append ..))

theorem exists_concat_of_schemed (schemed : Schemed text) : ∃ front last, text =
    front ++ [last] := by
  obtain ⟨name, ⟨rest, rfl⟩, -⟩ := schemed_iff.mp schemed
  rcases eq_nil_or_concat rest with rfl | ⟨before, last, rfl⟩
  · exact ⟨_, _, append_nil _⟩
  · exact ⟨_, last, by rw [concat_eq_append, ← append_assoc]⟩

theorem length_withoutSlash_le (text : List Char) : (withoutSlash text).length ≤ text.length := by
  unfold withoutSlash
  split
  · exact length_dropLast ▸ Nat.sub_le _ _
  · exact Nat.le_refl _

theorem trim_concat (front : List Char) (solid : isBlank last = false) {rest : List Char}
    (begins : front ++ [last] = 'w' :: rest) : trim (front ++ [last]) = front ++ [last] := by
  have same : trim (front ++ [last]) = (front ++ [last]).rdropWhile isBlank := by
    rw [begins]
    rfl
  rw [same, rdropWhile_concat_neg _ _ _ (Bool.eq_false_iff.mp solid)]

/-- A second slash at the end is removed in its turn. -/
theorem withoutSlash_twice {rest : List Char} (begins : front ++ ['/'] = 'w' :: rest) :
    withoutSlash (withScheme (trim (front ++ ['/']))) ≠ front ++ ['/'] := by
  intro stable
  rw [trim_concat front (by decide) begins] at stable
  unfold withScheme at stable
  split at stable
  · rw [withoutSlash_concat, if_pos rfl] at stable
    exact ne_cons_self
      ((append_cancel_left (stable.symm.trans front.append_nil.symm)).symm)
  · rw [← append_assoc, withoutSlash_concat, if_pos rfl] at stable
    have lengths := congrArg List.length stable
    exact absurd lengths (by simp; omega)

/-- An address that was normalized is left as it is exactly when it ended in one slash at most. -/
theorem withoutSlash_stable_iff (schemed : Schemed (front ++ [last]))
    (solid : isBlank last = false) :
    withoutSlash (withScheme (trim (withoutSlash (front ++ [last])))) =
      withoutSlash (front ++ [last]) ↔ EndsOnce (front ++ [last]) := by
  have kept {before : List Char} {letter : Char} (schemed : Schemed (before ++ [letter]))
      (solid : isBlank letter = false) : withScheme (trim (before ++ [letter])) =
        before ++ [letter] := by
    rw [trim_of_schemed schemed, rdropWhile_concat_neg _ _ _ (Bool.eq_false_iff.mp solid),
      withScheme_of_schemed schemed]
  by_cases slash : last = '/'
  · subst slash
    rw [withoutSlash_concat, if_pos rfl]
    obtain ⟨name, begins, -⟩ := schemed_iff.mp schemed
    rcases eq_nil_or_concat front with rfl | ⟨before, letter, rfl⟩
    · exact absurd begins.length_le (by simp)
    rw [concat_eq_append] at *
    rw [endsOnce_concat_slash]
    by_cases again : letter = '/'
    · subst again
      refine iff_of_false ?_ (not_not.mpr (.inl rfl))
      obtain ⟨rest, same⟩ := begins
      cases before with
      | nil => exact absurd (List.cons.inj same).1 (by decide)
      | cons first more =>
        obtain rfl : 'w' = first := (List.cons.inj same).1
        exact withoutSlash_twice rfl
    · have schemed := schemed.of_concat again
      by_cases blank : isBlank letter = true
      · refine iff_of_false (fun stable => ?_) (not_not.mpr (.inr blank))
        have shorter : trim (before ++ [letter]) = before.rdropWhile isBlank := by
          rw [trim_of_schemed schemed, rdropWhile_concat_pos _ _ _ blank]
        have lengths := congrArg List.length stable
        rw [withScheme_of_schemed schemed.trimmed, shorter, length_append] at lengths
        have least := length_withoutSlash_le (before.rdropWhile isBlank)
        have fewer : (before.rdropWhile isBlank).length ≤ before.length :=
          ( rdropWhile_prefix isBlank before).length_le
        rw [length_singleton] at lengths
        omega
      · rw [kept schemed (Bool.eq_false_iff.mpr blank), withoutSlash_concat, if_neg again]
        exact iff_of_true rfl (not_or.mpr ⟨again, blank⟩)
  · rw [withoutSlash_concat, if_neg slash, kept schemed solid, withoutSlash_concat, if_neg slash]
    exact iff_of_true rfl (endsOnce_concat_of_ne slash)

theorem EndsOnce.withoutSlash_eq (once : EndsOnce text) :
    withoutSlash text = text.rdropWhile (· = '/') := by
  rcases eq_nil_or_concat text with rfl | ⟨front, last, rfl⟩
  · rfl
  rw [concat_eq_append] at *
  rw [withoutSlash_concat, rdropWhile_concat]
  by_cases slash : last = '/'
  · subst slash
    rcases eq_nil_or_concat front with rfl | ⟨before, letter, rfl⟩
    · rfl
    · rw [concat_eq_append] at *
      have differs := (not_or.mp (endsOnce_concat_slash.mp once)).1
      exact (rdropWhile_concat_neg _ _ _ (by simpa using differs)).symm
  · rw [if_neg slash, if_neg (by simpa using slash)]

end

/-! ### Addresses that are normalized -/

structure NormalizesAlike (config : RelayManagerConfig) (other normalized : String) : Prop where
  stable : config.normalizeUrl normalized = some normalized
  alike : config.normalizeUrl other = some normalized
  reloaded : ∀ manager : RelayManager, config.isBlockedRelay normalized = false →
    (manager.addLoaded config normalized).configuredRelays =
      if normalized ∈ manager.configuredRelays then manager.configuredRelays
      else manager.configuredRelays ++ [normalized]

section

variable {config : RelayManagerConfig} {url other normalized : String}

theorem normalizeUrl_eq_some : config.normalizeUrl url = some normalized ↔
    withoutSlash (spelled url) = normalized.toList ∧
      ∃ host, config.host normalized = some host ∧ host ≠ "" := by
  simp only [normalizeUrl, bind_eq_some_iff, ite_none_left_eq_some, Option.some.injEq]
  constructor
  · rintro ⟨host, found, filled, rfl⟩
    exact ⟨(String.toList_ofList).symm, host, found, filled⟩
  · rintro ⟨same, host, found, filled⟩
    have same : String.ofList (withoutSlash (withScheme (trim url.toList))) = normalized :=
      (congrArg String.ofList same).trans String.ofList_toList
    exact ⟨host, same ▸ found, filled, same⟩

theorem spelled_stable_iff (url : String) :
    withoutSlash (withScheme (trim (withoutSlash (spelled url)))) = withoutSlash (spelled url) ↔
      EndsOnce (spelled url) := by
  obtain ⟨front, last, ends⟩ := exists_concat_of_schemed (schemed_withScheme (trim url.toList))
  have schemed : Schemed (spelled url) := schemed_withScheme _
  have ends : spelled url = front ++ [last] := ends
  have solid := not_blank_of_spelled ends
  rw [ends] at schemed ⊢
  exact withoutSlash_stable_iff schemed solid

theorem configuredRelays_addLoaded (manager : RelayManager)
    (stable : config.normalizeUrl normalized = some normalized)
    (unblocked : config.isBlockedRelay normalized = false) :
    (manager.addLoaded config normalized).configuredRelays =
      if normalized ∈ manager.configuredRelays then manager.configuredRelays
      else manager.configuredRelays ++ [normalized] := by
  unfold RelayManager.addLoaded
  rw [stable]
  simp only [unblocked, Bool.false_or, decide_eq_true_eq]
  split <;> rfl

/-- Like addresses are normalized alike exactly when both end in one slash at most, with no white
space before it. -/
theorem normalizesAlike_iff (returns : config.normalizeUrl url = some normalized)
    (alike : Alike url other) : NormalizesAlike config other normalized ↔
      EndsOnce (spelled url) ∧ EndsOnce (spelled other) := by
  obtain ⟨same, valid⟩ := normalizeUrl_eq_some.mp returns
  have stable_iff (first : String) (own : withoutSlash (spelled first) = normalized.toList) :
      config.normalizeUrl normalized = some normalized ↔ EndsOnce (spelled first) := by
    rw [normalizeUrl_eq_some, ← spelled_stable_iff, own]
    exact and_iff_left valid
  constructor
  · intro both
    have own := (normalizeUrl_eq_some.mp both.alike).1
    exact ⟨(stable_iff url same).mp both.stable, (stable_iff other own).mp both.stable⟩
  · rintro ⟨first, second⟩
    have stable := (stable_iff url same).mpr first
    refine ⟨stable, normalizeUrl_eq_some.mpr ⟨?_, valid⟩, fun manager =>
      configuredRelays_addLoaded manager stable⟩
    rw [second.withoutSlash_eq, ← show _ = _ from alike, ← first.withoutSlash_eq, same]

end

section

/-- The host of every address is the one of the samples. -/
def oneHost : RelayManagerConfig := ⟨"wss://relay.divine.video", fun _ => some "relay.example"⟩

theorem normalizesAlike_sample :
    NormalizesAlike oneHost "wss://relay.example/" "wss://relay.example" ↔
      EndsOnce (spelled " relay.example") ∧ EndsOnce (spelled "wss://relay.example/") :=
  normalizesAlike_iff (by decide) (by unfold Alike; decide)

/-- Two slashes at the end are removed one at a time, and white space before the slash is left. -/
theorem normalizeUrl_unstable :
    oneHost.normalizeUrl "relay.example//" = some "wss://relay.example/" ∧
      oneHost.normalizeUrl "wss://relay.example/" = some "wss://relay.example" ∧
      oneHost.normalizeUrl "relay.example/a /" = some "wss://relay.example/a " ∧
      oneHost.normalizeUrl "wss://relay.example/a " = some "wss://relay.example/a" := by
  decide

end

end Divine.NostrClient
