/-
This file develops replacing in a text as ECMAScript's `String.prototype.replace` does it.
-/

import Mathlib.Data.List.Infix

namespace Divine.Replacing

/-! ### Patterns -/

/-- An opening, symbols that are allowed next, as many as there are, and a closing, which stops
them. -/
structure Pattern where
  opening : List Char
  allows : Char → Bool
  closing : List Char
  stops : ∀ rest : List Char, ∀ symbol ∈ (closing ++ rest).head?, allows symbol = false

namespace Pattern

variable (pattern : Pattern)

def matchStart (text : List Char) : Option (List Char × List Char) :=
  (text.dropPrefix? pattern.opening).bind fun inside =>
    ((inside.dropWhile pattern.allows).dropPrefix? pattern.closing).map fun after =>
      (pattern.opening ++ inside.takeWhile pattern.allows ++ pattern.closing, after)

/-- The text before the first match, the match, and the text after it. -/
def find : List Char → Option (List Char × List Char × List Char)
  | [] => (pattern.matchStart []).map fun found => ([], found.1, found.2)
  | symbol :: rest =>
      match pattern.matchStart (symbol :: rest) with
      | some found => some ([], found.1, found.2)
      | none => (find rest).map fun found => (symbol :: found.1, found.2)

end Pattern

/-- `GetSubstitution` without captures: what a replacement stands for. -/
def expand (before found after : List Char) : List Char → List Char
  | [] => []
  | '$' :: '$' :: rest => '$' :: expand before found after rest
  | '$' :: '&' :: rest => found ++ expand before found after rest
  | '$' :: '`' :: rest => before ++ expand before found after rest
  | '$' :: '\'' :: rest => after ++ expand before found after rest
  | symbol :: rest => symbol :: expand before found after rest

/-- `replace` of the first match. -/
def Pattern.replace (pattern : Pattern) (replacement text : List Char) : List Char :=
  match pattern.find text with
  | none => text
  | some (before, found, after) => before ++ expand before found after replacement ++ after

/-! ### Matches -/

section Matches

variable {pattern : Pattern}

theorem matchStart_append {content : List Char}
    (allowed : ∀ symbol ∈ content, pattern.allows symbol = true) (after : List Char) :
    pattern.matchStart (pattern.opening ++ (content ++ (pattern.closing ++ after))) =
      some (pattern.opening ++ content ++ pattern.closing, after) := by
  have stops := pattern.stops after
  have takes : (pattern.closing ++ after).takeWhile pattern.allows = [] := by
    cases rest : pattern.closing ++ after with
    | nil => rfl
    | cons symbol rest =>
      exact List.takeWhile_cons_of_neg (by simp [stops symbol (by rw [rest]; rfl)])
  have drops : (pattern.closing ++ after).dropWhile pattern.allows = pattern.closing ++ after := by
    cases rest : pattern.closing ++ after with
    | nil => rfl
    | cons symbol rest =>
      exact List.dropWhile_cons_of_neg (by simp [stops symbol (by rw [rest]; rfl)])
  unfold Pattern.matchStart
  rw [List.dropPrefix?_append_of_beq _ BEq.rfl, Option.bind_some,
    List.takeWhile_append_of_pos allowed, List.dropWhile_append_of_pos allowed, takes, drops,
    List.dropPrefix?_append_of_beq _ BEq.rfl, List.append_nil]
  rfl

theorem opening_prefix_of_matchStart {text : List Char} {found : List Char × List Char}
    (matched : pattern.matchStart text = some found) : pattern.opening <+: text := by
  obtain ⟨inside, opened, -⟩ := Option.bind_eq_some_iff.mp matched
  obtain ⟨opening, rfl, same⟩ := List.dropPrefix?_eq_some_iff.mp opened
  rw [eq_of_beq same]
  exact List.prefix_append _ _

theorem find_append {lead text : List Char}
    (misses : ∀ rest, rest <:+ lead → rest ≠ [] → ¬ pattern.opening <+: rest ++ text) :
    pattern.find (lead ++ text) =
      (pattern.find text).map fun found => (lead ++ found.1, found.2) := by
  induction lead with
  | nil =>
    exact Option.map_id'.symm
  | cons symbol lead ih =>
    have unmatched : pattern.matchStart (symbol :: (lead ++ text)) = none := by
      refine Option.eq_none_iff_forall_ne_some.mpr fun found matched => ?_
      exact misses (symbol :: lead) List.suffix_rfl (List.cons_ne_nil _ _)
        (opening_prefix_of_matchStart matched)
    show (match pattern.matchStart (symbol :: (lead ++ text)) with
      | some found => some ([], found.1, found.2)
      | none => (pattern.find (lead ++ text)).map
          fun found : List Char × List Char × List Char => (symbol :: found.1, found.2)) = _
    rw [unmatched]
    rw [ih fun rest suffix =>
      misses rest (suffix.trans (List.suffix_cons symbol lead)), Option.map_map]
    rfl

theorem find_of_matchStart {text : List Char} {found : List Char × List Char}
    (matched : pattern.matchStart text = some found) :
    pattern.find text = some ([], found.1, found.2) := by
  cases text with
  | nil =>
    show (pattern.matchStart []).map _ = _
    rw [matched]
    rfl
  | cons symbol rest =>
    unfold Pattern.find
    rw [matched]

/-- The first match is the one that a text begins with in which the opening begins nowhere
earlier. -/
theorem find_first {lead content : List Char}
    (allowed : ∀ symbol ∈ content, pattern.allows symbol = true) (after : List Char)
    (misses : ∀ rest, rest <:+ lead → rest ≠ [] → ¬ pattern.opening <+:
      rest ++ (pattern.opening ++ (content ++ (pattern.closing ++ after)))) :
    pattern.find (lead ++ (pattern.opening ++ (content ++ (pattern.closing ++ after)))) =
      some (lead, pattern.opening ++ content ++ pattern.closing, after) := by
  rw [find_append misses, find_of_matchStart (matchStart_append allowed after), Option.map_some,
    List.append_nil]

theorem exists_replace_append {lead text replacement : List Char}
    (misses : ∀ rest, rest <:+ lead → rest ≠ [] → ¬ pattern.opening <+: rest ++ text) :
    ∃ rest, pattern.replace replacement (lead ++ text) = lead ++ rest := by
  unfold Pattern.replace
  rw [find_append misses]
  cases pattern.find text with
  | none => exact ⟨text, rfl⟩
  | some found =>
    exact ⟨found.1 ++ (expand (lead ++ found.1) found.2.1 found.2.2 replacement ++ found.2.2),
      by simp⟩

end Matches

/-! ### Replacements -/

/-- The characters that a dollar sign stands before in a pair that is read. -/
def isRead (symbol : Char) : Bool :=
  symbol = '$' || symbol = '&' || symbol = '`' || symbol = '\''

/-- Some dollar sign stands before a character that a condition holds of. -/
def pairs (condition : Char → Bool) : List Char → Bool
  | [] => false
  | symbol :: rest => (symbol = '$' && rest.head?.any condition) || pairs condition rest

section Replacements

variable {condition : Char → Bool} {before found after : List Char}

theorem pairs_cons {symbol : Char} (other : symbol ≠ '$') (text : List Char) :
    pairs condition (symbol :: text) = pairs condition text := by
  unfold pairs
  rw [decide_eq_false other, Bool.false_and, Bool.false_or]
  cases text <;> rfl

theorem pairs_append (first : List Char) {second : List Char}
    (begins : second.head?.any condition = false) :
    pairs condition (first ++ second) = (pairs condition first || pairs condition second) := by
  induction first with
  | nil => rfl
  | cons symbol first ih =>
    cases first with
    | nil => simp [pairs, begins]
    | cons next first =>
      show (symbol = '$' && condition next || pairs condition (next :: first ++ second)) =
        (symbol = '$' && condition next || pairs condition (next :: first) ||
          pairs condition second)
      rw [ih, Bool.or_assoc]

theorem pairs_append_of_not_mem {first : List Char} (free : '$' ∉ first) (second : List Char) :
    pairs condition (first ++ second) = pairs condition second := by
  induction first with
  | nil => rfl
  | cons symbol first ih =>
    obtain ⟨differs, free⟩ := not_or.mp (mt List.mem_cons.mpr free)
    rw [List.cons_append, pairs_cons (Ne.symm differs), ih free]

theorem pairs_of_not_mem {text : List Char} (free : '$' ∉ text) : pairs condition text = false := by
  have appended := @pairs_append_of_not_mem condition text free []
  rwa [List.append_nil] at appended

theorem pairs_append_cons (first : List Char) {symbol : Char} (holds : condition symbol = true)
    (rest : List Char) :
    pairs condition (first ++ symbol :: rest) =
      (pairs condition first || first.getLast? = some '$' || pairs condition (symbol :: rest)) := by
  induction first with
  | nil => rfl
  | cons other first ih =>
    cases first with
    | nil => simp [pairs, holds]
    | cons next first =>
      show (other = '$' && condition next ||
          pairs condition (next :: first ++ symbol :: rest)) =
        (other = '$' && condition next || pairs condition (next :: first) ||
          (next :: first).getLast? = some '$' || pairs condition (symbol :: rest))
      rw [ih]
      simp only [Bool.or_assoc]

theorem pairs_flatMap {write : Char → List Char} {inner : Char → Bool}
    (dollar : write '$' = ['$']) (plain : ∀ symbol, symbol ≠ '$' → '$' ∉ write symbol)
    (heads : ∀ symbol, ∃ first rest, write symbol = first :: rest ∧ condition first = inner symbol)
    (text : List Char) : pairs condition (text.flatMap write) = pairs inner text := by
  induction text with
  | nil => rfl
  | cons symbol text ih =>
    rw [List.flatMap_cons]
    by_cases isDollar : symbol = '$'
    · have heading : (text.flatMap write).head?.any condition = text.head?.any inner := by
        cases text with
        | nil => rfl
        | cons next text =>
          obtain ⟨first, rest, written, same⟩ := heads next
          rw [List.flatMap_cons, written]
          exact same
      subst isDollar
      rw [dollar, List.singleton_append]
      show (_ && (text.flatMap write).head?.any condition || pairs condition (text.flatMap write)) =
        (_ && text.head?.any inner || pairs inner text)
      rw [heading, ih]
    · rw [pairs_append_of_not_mem (plain symbol isDollar), ih,
        pairs_cons isDollar]

theorem exists_split_flatMap {write : Char → List Char} (dollar : write '$' = ['$'])
    (plain : ∀ symbol, symbol ≠ '$' → '$' ∉ write symbol) {text common : List Char}
    (inside : common ++ ['$'] <+: text.flatMap write) :
    ∃ first second, text = first ++ '$' :: second ∧ common = first.flatMap write := by
  induction text generalizing common with
  | nil => exact absurd (List.prefix_nil.mp inside) (by simp)
  | cons symbol text ih =>
    rw [List.flatMap_cons] at inside
    have later : ∀ remaining, common = write symbol ++ remaining →
        ∃ first second, symbol :: text = first ++ '$' :: second ∧ common = first.flatMap write := by
      rintro remaining rfl
      rw [List.append_assoc] at inside
      obtain ⟨first, second, rfl, rfl⟩ :=
        ih ((List.prefix_append_right_inj _).mp inside)
      exact ⟨symbol :: first, second, rfl, List.flatMap_cons.symm⟩
    by_cases isDollar : symbol = '$'
    · subst isDollar
      rw [dollar] at later inside
      cases common with
      | nil => exact ⟨[], text, rfl, rfl⟩
      | cons other common =>
        obtain ⟨rfl, -⟩ := List.cons_prefix_cons.mp inside
        exact later common rfl
    · rcases List.prefix_or_prefix_of_prefix inside (List.prefix_append _ _) with shorter | longer
      · exact absurd (shorter.subset (List.mem_append_right _ List.mem_cons_self))
          (plain symbol isDollar)
      · rcases List.prefix_concat_iff.mp longer with same | ⟨remaining, same⟩
        · exact absurd (same ▸ List.mem_append_right _ List.mem_cons_self) (plain symbol isDollar)
        · exact later remaining same.symm

theorem expand_of_not_pairs {replacement : List Char}
    (inert : pairs isRead replacement = false) :
    expand before found after replacement = replacement := by
  fun_induction expand before found after replacement with
  | case1 => rfl
  | case2 rest ih => cases inert
  | case3 rest ih => cases inert
  | case4 rest ih => cases inert
  | case5 rest ih => cases inert
  | case6 symbol rest _ _ _ _ ih =>
    rw [ih (Bool.or_eq_false_iff.mp inert).2]

theorem expand_cons {symbol : Char} {text : List Char}
    (inert : (symbol = '$' && text.head?.any isRead) = false) :
    expand before found after (symbol :: text) = symbol :: expand before found after text := by
  conv_lhs => unfold expand
  split
  · contradiction
  all_goals rename_i same
  all_goals obtain ⟨rfl, rfl⟩ := List.cons.inj same
  all_goals first | cases inert | rfl

theorem expand_cons_of_ne {symbol : Char} (other : symbol ≠ '$') (text : List Char) :
    expand before found after (symbol :: text) = symbol :: expand before found after text :=
  expand_cons (by rw [decide_eq_false other, Bool.false_and])

def Begins (text : List Char) : Prop := ∃ symbol rest, text = symbol :: rest ∧ symbol ≠ '$'

def Continues (before found after rest replacement text : List Char) : Prop :=
  before <+: text ∨ found <+: text ∨ after <+: text ∨ text = rest ∨
    ∃ tail, tail <:+ replacement ∧ Begins tail ∧ text = expand before found after tail ++ rest

/-- A replacement with a dollar sign and what it stands for without one go on differently from some
place on. -/
def Diverges (before found after rest lead replacement : List Char) : Prop :=
  ∃ common text, expand before found after replacement ++ rest = common ++ text ∧
    common ++ ['$'] <+: lead ++ replacement ∧ Begins text ∧
      Continues before found after rest replacement text

section Diverges

variable {rest replacement lead : List Char}

theorem Continues.mono {other text : List Char}
    (continues : Continues before found after rest replacement text)
    (suffix : replacement <:+ other) : Continues before found after rest other text := by
  rcases continues with copied | copied | copied | same | ⟨tail, inside, rest⟩
  · exact .inl copied
  · exact .inr (.inl copied)
  · exact .inr (.inr (.inl copied))
  · exact .inr (.inr (.inr (.inl same)))
  · exact .inr (.inr (.inr (.inr ⟨tail, inside.trans suffix, rest⟩)))

theorem Begins.append {text : List Char} (begins : Begins text) (more : List Char) :
    Begins (text ++ more) := by
  obtain ⟨symbol, rest, rfl, other⟩ := begins
  exact ⟨symbol, rest ++ more, rfl, other⟩

theorem diverges_of_copied {copied tail : List Char} (copiedBegins : Begins copied)
    (expanded : expand before found after replacement = copied ++ expand before found after tail)
    (dollar : ['$'] <+: lead ++ replacement)
    (among : copied = before ∨ copied = found ∨ copied = after) :
    Diverges before found after rest lead replacement := by
  refine ⟨[], copied ++ expand before found after tail ++ rest, ?_, dollar, ?_, ?_⟩
  · rw [expanded, List.nil_append]
  · rw [List.append_assoc]
    exact copiedBegins.append _
  · have copy : copied <+: copied ++ expand before found after tail ++ rest := by
      rw [List.append_assoc]
      exact List.prefix_append _ _
    rcases among with rfl | rfl | rfl
    · exact .inl copy
    · exact .inr (.inl copy)
    · exact .inr (.inr (.inl copy))

theorem Continues.self {symbol : Char} (other : symbol ≠ '$') {tail : List Char}
    (suffix : symbol :: tail <:+ replacement) :
    Continues before found after rest replacement
      (expand before found after (symbol :: tail) ++ rest) :=
  .inr (.inr (.inr (.inr ⟨symbol :: tail, suffix, ⟨symbol, tail, rfl, other⟩, rfl⟩)))

theorem begins_expand_cons {symbol : Char} (other : symbol ≠ '$') (tail : List Char) :
    Begins (expand before found after (symbol :: tail) ++ rest) := by
  rw [expand_cons_of_ne other]
  exact ⟨symbol, _, rfl, other⟩

theorem unread_of_cases {symbol : Char} {tail : List Char}
    (noDollar : ∀ rest, symbol = '$' → tail = '$' :: rest → False)
    (noMatch : ∀ rest, symbol = '$' → tail = '&' :: rest → False)
    (noLead : ∀ rest, symbol = '$' → tail = '`' :: rest → False)
    (noTrail : ∀ rest, symbol = '$' → tail = '\'' :: rest → False) :
    (symbol = '$' && tail.head?.any isRead) = false := by
  refine Bool.eq_false_iff.mpr fun read => ?_
  obtain ⟨dollar, special⟩ := Bool.and_eq_true_iff.mp read
  cases tail with
  | nil => cases special
  | cons next rest =>
    have dollar := of_decide_eq_true dollar
    have special : isRead next = true := special
    unfold isRead at special
    simp only [Bool.or_eq_true, decide_eq_true_eq] at special
    rcases special with ((rfl | rfl) | rfl) | rfl
    · exact noDollar rest dollar rfl
    · exact noMatch rest dollar rfl
    · exact noLead rest dollar rfl
    · exact noTrail rest dollar rfl

theorem diverges_after_dollar (beforeBegins : Begins before) (foundBegins : Begins found)
    (afterBegins : Begins after) (restBegins : Begins rest) (replacement : List Char) (more : Nat) :
    Diverges before found after rest (List.replicate (more + 1) '$') replacement := by
  have dollar : ∀ text : List Char, ['$'] <+: List.replicate (more + 1) '$' ++ text := fun text =>
    ⟨List.replicate more '$' ++ text, rfl⟩
  fun_induction expand before found after replacement generalizing more with
  | case1 => exact ⟨[], rest, rfl, dollar [], restBegins, .inr (.inr (.inr (.inl rfl)))⟩
  | case2 tail ih =>
    obtain ⟨common, text, expanded, short, begins, continues⟩ :=
      ih (more + 1) fun _ => ⟨_, rfl⟩
    refine ⟨'$' :: common, text, ?_, ?_, begins,
      continues.mono ((List.suffix_cons _ _).trans (List.suffix_cons _ _))⟩
    · show '$' :: (expand before found after tail ++ rest) = '$' :: (common ++ text)
      rw [expanded]
    · have moved : List.replicate (more + 1) '$' ++ '$' :: '$' :: tail =
          '$' :: (List.replicate (more + 1 + 1) '$' ++ tail) := by
        rw [List.append_cons, ← List.replicate_succ', List.append_cons, ← List.replicate_succ']
        rfl
      rw [moved, List.cons_append]
      exact List.cons_prefix_cons.mpr ⟨rfl, short⟩
  | case3 tail => exact diverges_of_copied foundBegins rfl (dollar _) (.inr (.inl rfl))
  | case4 tail => exact diverges_of_copied beforeBegins rfl (dollar _) (.inl rfl)
  | case5 tail => exact diverges_of_copied afterBegins rfl (dollar _) (.inr (.inr rfl))
  | case6 symbol tail noDollar noMatch noLead noTrail =>
    by_cases own : symbol = '$'
    · subst own
      have twice : ['$'] ++ ['$'] <+: List.replicate (more + 1) '$' ++ '$' :: tail := by
        rw [List.append_cons (List.replicate _ _), ← List.replicate_succ']
        exact ⟨List.replicate more '$' ++ tail, rfl⟩
      have own : expand before found after ('$' :: tail) = '$' :: expand before found after tail :=
        expand_cons (unread_of_cases noDollar noMatch noLead noTrail)
      cases tail with
      | nil => exact ⟨['$'], rest, rfl, twice, restBegins, .inr (.inr (.inr (.inl rfl)))⟩
      | cons next tail =>
        have other : next ≠ '$' := fun same => noDollar tail rfl (congrArg (· :: tail) same)
        refine ⟨['$'], expand before found after (next :: tail) ++ rest, ?_, twice,
          begins_expand_cons other tail, .self other (List.suffix_cons _ _)⟩
        rw [own]
        rfl
    · exact ⟨[], expand before found after (symbol :: tail) ++ rest, rfl, dollar _,
        begins_expand_cons own tail, .self own List.suffix_rfl⟩

theorem diverges_of_pairs (beforeBegins : Begins before) (foundBegins : Begins found)
    (afterBegins : Begins after) (restBegins : Begins rest) {replacement : List Char}
    (read : pairs isRead replacement = true) :
    Diverges before found after rest [] replacement := by
  fun_induction expand before found after replacement with
  | case1 => cases read
  | case2 tail ih =>
    obtain ⟨common, text, expanded, short, begins, continues⟩ :=
      diverges_after_dollar beforeBegins foundBegins afterBegins restBegins tail 0
    refine ⟨'$' :: common, text, ?_, List.cons_prefix_cons.mpr ⟨rfl, short⟩, begins,
      continues.mono ((List.suffix_cons _ _).trans (List.suffix_cons _ _))⟩
    show '$' :: (expand before found after tail ++ rest) = '$' :: (common ++ text)
    rw [expanded]
  | case3 tail => exact diverges_of_copied foundBegins rfl ⟨_, rfl⟩ (.inr (.inl rfl))
  | case4 tail => exact diverges_of_copied beforeBegins rfl ⟨_, rfl⟩ (.inl rfl)
  | case5 tail => exact diverges_of_copied afterBegins rfl ⟨_, rfl⟩ (.inr (.inr rfl))
  | case6 symbol tail noDollar noMatch noLead noTrail ih =>
    have inert := unread_of_cases noDollar noMatch noLead noTrail
    have later : pairs isRead tail = true := by
      unfold pairs at read
      rwa [inert, Bool.false_or] at read
    obtain ⟨common, text, expanded, short, begins, continues⟩ := ih later
    refine ⟨symbol :: common, text, ?_, List.cons_prefix_cons.mpr ⟨rfl, short⟩, begins,
      continues.mono (List.suffix_cons _ _)⟩
    rw [expand_cons inert, List.cons_append, expanded]
    rfl

end Diverges

end Replacements

end Divine.Replacing
