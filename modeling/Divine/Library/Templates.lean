/-
This file develops templates: texts with slots, each of which a pattern finds and a
replacement fills.
-/

import Divine.Library.Replacing

namespace Divine.Replacing

/-! ### Marks -/

def Clears (opening text : List Char) : Prop :=
  ∀ rest, rest <:+ text → rest ≠ [] → ∀ more, ¬ opening <+: rest ++ more

def MarkedBy (mark : Char) (heads : List (List Char)) (text : List Char) : Prop :=
  ∀ tail, mark :: tail <:+ text → ∃ head ∈ heads, head <+: mark :: tail

def Apart (first second : List Char) : Prop := ¬ first <+: second ∧ ¬ second <+: first

instance (first second : List Char) : Decidable (Apart first second) :=
  inferInstanceAs (Decidable (_ ∧ _))

def BeginsOnly (symbol : Char) (text : List Char) : Prop :=
  ∃ tail, text = symbol :: tail ∧ symbol ∉ tail

section Marks

variable {mark : Char} {opening text : List Char} {heads : List (List Char)}

theorem prefix_of_not_mem {symbol : Char} {first rest : List Char} (free : symbol ∉ text)
    (isPrefix : text <+: first ++ symbol :: rest) : text <+: first := by
  induction first generalizing text with
  | nil =>
    cases text with
    | nil => exact List.nil_prefix
    | cons head tail =>
      have same := (List.cons_prefix_cons.mp isPrefix).1
      exact absurd (same ▸ List.mem_cons_self) free
  | cons head first ih =>
    cases text with
    | nil => exact List.nil_prefix
    | cons other tail =>
      obtain ⟨rfl, later⟩ := List.cons_prefix_cons.mp isPrefix
      exact List.cons_prefix_cons.mpr ⟨rfl, ih
        (fun member => free (List.mem_cons_of_mem _ member)) later⟩

theorem opening_prefix (begins : BeginsOnly mark opening) {first rest : List Char}
    (nonempty : first ≠ []) (isPrefix : opening <+: first ++ mark :: rest) : opening <+: first := by
  obtain ⟨tail, rfl, free⟩ := begins
  cases first with
  | nil => exact absurd rfl nonempty
  | cons symbol first =>
    obtain ⟨rfl, later⟩ := List.cons_prefix_cons.mp isPrefix
    exact List.cons_prefix_cons.mpr ⟨rfl, prefix_of_not_mem free later⟩
variable {first second : List Char}


theorem Apart.not_both (apart : Apart first second) (one : first <+: text) :
    ¬ second <+: text := fun two =>
  (List.prefix_or_prefix_of_prefix one two).elim apart.1 apart.2

theorem suffix_append_cases {first second rest : List Char} (suffix : rest <:+ first ++ second) :
    rest <:+ second ∨ ∃ outer, outer <:+ first ∧ outer ≠ [] ∧ rest = outer ++ second := by
  rcases List.suffix_or_suffix_of_suffix suffix (List.suffix_append first second) with
    inside | ⟨outer, rfl⟩
  · exact .inl inside
  · obtain ⟨lead, same⟩ := suffix
    rw [← List.append_assoc] at same
    by_cases empty : outer = []
    · exact .inl (by rw [empty, List.nil_append])
    · exact .inr ⟨outer, ⟨lead, List.append_cancel_right same⟩, empty, rfl⟩

theorem Clears.append (clears : Clears opening first) (later : Clears opening second) :
    Clears opening (first ++ second) := by
  intro rest suffix nonempty more isPrefix
  rcases suffix_append_cases suffix with inside | ⟨outer, inside, outerNonempty, rfl⟩
  · exact later rest inside nonempty more isPrefix
  · rw [List.append_assoc] at isPrefix
    exact clears outer inside outerNonempty _ isPrefix

theorem clears_of_not_mem (begins : BeginsOnly mark opening) (free : mark ∉ text) :
    Clears opening text := by
  rintro rest suffix nonempty more isPrefix
  obtain ⟨tail, rfl, -⟩ := begins
  cases rest with
  | nil => exact nonempty rfl
  | cons symbol rest =>
    exact free ((List.cons_prefix_cons.mp isPrefix).1 ▸ suffix.subset List.mem_cons_self)

theorem MarkedBy.clears (marked : MarkedBy mark heads text) (begins : BeginsOnly mark opening)
    (apart : ∀ head ∈ heads, Apart opening head) : Clears opening text := by
  rintro rest suffix nonempty more isPrefix
  obtain ⟨tail, rfl, -⟩ := begins
  cases rest with
  | nil => exact nonempty rfl
  | cons symbol rest =>
    obtain rfl := (List.cons_prefix_cons.mp isPrefix).1
    obtain ⟨head, member, heading⟩ := marked rest suffix
    exact (apart head member).not_both isPrefix (heading.trans (List.prefix_append _ _))

theorem markedBy_of_not_mem (free : mark ∉ text) : MarkedBy mark heads text := fun _ suffix =>
  absurd (suffix.subset List.mem_cons_self) free

theorem markedBy_head {head : List Char} (begins : BeginsOnly mark head) (member : head ∈ heads) :
    MarkedBy mark heads head := by
  obtain ⟨tail, rfl, free⟩ := begins
  intro rest suffix
  rcases List.suffix_cons_iff.mp suffix with same | inside
  · exact ⟨_, member, same ▸ List.prefix_rfl⟩
  · exact absurd (inside.subset List.mem_cons_self) free

theorem MarkedBy.append (marked : MarkedBy mark heads first) (later : MarkedBy mark heads second) :
    MarkedBy mark heads (first ++ second) := by
  intro tail suffix
  rcases suffix_append_cases suffix with inside | ⟨outer, inside, nonempty, same⟩
  · exact later tail inside
  · cases outer with
    | nil => exact absurd rfl nonempty
    | cons symbol outer =>
      obtain ⟨rfl, rfl⟩ := List.cons.inj same
      obtain ⟨head, member, heading⟩ := marked outer inside
      exact ⟨head, member, heading.trans (List.prefix_append _ _)⟩

theorem infix_append_cases (inside : opening <:+: first ++ second) :
    opening <:+: second ∨
      ∃ rest, rest <:+ first ∧ rest ≠ [] ∧ opening <+: rest ++ second := by
  obtain ⟨text, isPrefix, suffix⟩ := List.infix_iff_prefix_suffix.mp inside
  rcases suffix_append_cases suffix with later | ⟨outer, here, nonempty, rfl⟩
  · exact .inl (List.infix_iff_prefix_suffix.mpr ⟨text, isPrefix, later⟩)
  · exact .inr ⟨outer, here, nonempty, isPrefix⟩

theorem Clears.later (clears : Clears opening first) (inside : opening <:+: first ++ second) :
    opening <:+: second :=
  (infix_append_cases inside).resolve_right fun ⟨rest, suffix, nonempty, isPrefix⟩ =>
    clears rest suffix nonempty second isPrefix

theorem infix_append_mark (begins : BeginsOnly mark opening) {first rest : List Char}
    (inside : opening <:+: first ++ mark :: rest) :
    opening <:+: first ∨ opening <:+: mark :: rest := by
  rcases infix_append_cases inside with later | ⟨outer, suffix, nonempty, isPrefix⟩
  · exact .inr later
  · exact .inl (List.infix_iff_prefix_suffix.mpr
      ⟨outer, opening_prefix begins nonempty isPrefix, suffix⟩)

end Marks

/-! ### Templates -/

section Templates

variable {Slot : Type*}

def render (fill : Slot → List Char) : List (List Char × Slot) → List Char → List Char
  | [], rest => rest
  | (text, slot) :: pieces, rest => text ++ (fill slot ++ render fill pieces rest)

def placeholder (pattern : Slot → Pattern) (content : Slot → List Char) (slot : Slot) : List Char :=
  (pattern slot).opening ++ (content slot ++ (pattern slot).closing)

/-- A text with a slot of each kind, which holds the first place that the opening of its pattern is
at. -/
structure Template (pattern : Slot → Pattern) where
  pieces : List (List Char × Slot)
  rest : List Char
  content : Slot → List Char
  once : (pieces.map Prod.snd).Nodup
  complete : ∀ slot, slot ∈ pieces.map Prod.snd
  allowed : ∀ slot, ∀ symbol ∈ content slot, (pattern slot).allows symbol = true
  first : ∀ before text slot after, pieces = before ++ (text, slot) :: after →
    ¬ (pattern slot).opening <:+: render (placeholder pattern content) before text

namespace Template

variable {pattern : Slot → Pattern} (template : Template pattern)

def filled (fill : Slot → List Char) : List Char := render fill template.pieces template.rest

def text : List Char := template.filled (placeholder pattern template.content)

end Template

def replaceEach (pattern : Slot → Pattern) (replacement : Slot → List Char) (slots : List Slot)
    (text : List Char) : List Char :=
  slots.foldl (fun text slot => (pattern slot).replace (replacement slot) text) text

variable {fill other : Slot → List Char} {mark : Char}

theorem render_append (before after : List (List Char × Slot)) (rest : List Char) :
    render fill (before ++ after) rest = render fill before (render fill after rest) := by
  induction before with
  | nil => rfl
  | cons piece before ih =>
    obtain ⟨text, slot⟩ := piece
    rw [List.cons_append]
    unfold render
    rw [ih]

theorem render_append_rest (pieces : List (List Char × Slot)) (first second : List Char) :
    render fill pieces (first ++ second) = render fill pieces first ++ second := by
  induction pieces with
  | nil => rfl
  | cons piece pieces ih =>
    obtain ⟨text, slot⟩ := piece
    unfold render
    rw [ih, List.append_assoc, List.append_assoc]

theorem render_congr {pieces : List (List Char × Slot)} (rest : List Char)
    (same : ∀ slot ∈ pieces.map Prod.snd, fill slot = other slot) :
    render fill pieces rest = render other pieces rest := by
  induction pieces with
  | nil => rfl
  | cons piece pieces ih =>
    obtain ⟨text, slot⟩ := piece
    unfold render
    rw [same slot List.mem_cons_self,
      ih fun other member => same other (List.mem_cons_of_mem _ member)]

/-- An opening is in the texts before a slot when it is there with other fillings that it is not
in. -/
theorem infix_render {opening : List Char} (begins : BeginsOnly mark opening)
    {pieces : List (List Char × Slot)} {rest : List Char}
    (marks : ∀ slot, [mark] <+: fill slot ∧ [mark] <+: other slot)
    (clears : ∀ slot, fill slot = other slot ∨ Clears opening (fill slot)) (lead : List Char)
    (inside : opening <:+: lead ++ render fill pieces rest) :
    opening <:+: lead ++ render other pieces rest := by
  induction pieces generalizing lead with
  | nil => exact inside
  | cons piece pieces ih =>
    obtain ⟨text, slot⟩ := piece
    obtain ⟨filling, isFilling⟩ := (marks slot).1
    have split : opening <:+: (lead ++ text) ++ mark :: (filling ++ render fill pieces rest) := by
      unfold render at inside
      rw [← isFilling] at inside
      simpa using inside
    have joined : lead ++ render other ((text, slot) :: pieces) rest =
        (lead ++ text) ++ (other slot ++ render other pieces rest) :=
      (List.append_assoc _ _ _).symm
    rw [joined]
    rcases infix_append_mark begins split with here | later
    · exact here.trans (List.prefix_append _ _).isInfix
    · have filled : opening <:+: fill slot ++ render fill pieces rest := by
        rw [← isFilling]
        exact later
      refine List.IsInfix.trans ?_ (List.suffix_append (lead ++ text) _).isInfix
      rcases clears slot with same | cleared
      · rw [same] at filled
        exact ih _ filled
      · exact (ih [] (cleared.later filled)).trans (List.suffix_append _ _).isInfix

/-- The slots of a template as far as they are filled; in what is filled in begins no opening that
is still looked for. -/
structure Partly (pattern : Slot → Pattern) (mark : Char) (content : Slot → List Char)
    (later : List Slot) (fill : Slot → List Char) : Prop where
  marks : ∀ slot, [mark] <+: fill slot
  unfilled : ∀ slot ∈ later, fill slot = placeholder pattern content slot
  clears : ∀ other ∈ later, ∀ slot, fill slot = placeholder pattern content slot ∨
    Clears (pattern other).opening (fill slot)

section Filling

variable {pattern : Slot → Pattern} {content : Slot → List Char} {later : List Slot} {slot : Slot}

theorem mark_placeholder (begins : ∀ slot, BeginsOnly mark (pattern slot).opening) (slot : Slot) :
    [mark] <+: placeholder pattern content slot := by
  obtain ⟨tail, opening, -⟩ := begins slot
  unfold placeholder
  rw [opening]
  exact ⟨_, rfl⟩

theorem partly_unfilled (begins : ∀ slot, BeginsOnly mark (pattern slot).opening)
    (later : List Slot) : Partly pattern mark content later (placeholder pattern content) where
  marks := mark_placeholder begins
  unfilled _ _ := rfl
  clears _ _ _ := .inl rfl

theorem Partly.not_infix (partly : Partly pattern mark content later fill)
    (begins : ∀ slot, BeginsOnly mark (pattern slot).opening) (member : slot ∈ later)
    {before : List (List Char × Slot)} {text : List Char}
    (first : ¬ (pattern slot).opening <:+: render (placeholder pattern content) before text) :
    ¬ (pattern slot).opening <:+: render fill before text := fun inside =>
  first (infix_render (begins slot)
    (fun other => ⟨partly.marks other, mark_placeholder begins other⟩)
    (partly.clears slot member) [] inside)

theorem Partly.find (partly : Partly pattern mark content later fill)
    (begins : ∀ slot, BeginsOnly mark (pattern slot).opening) (member : slot ∈ later)
    (allowed : ∀ symbol ∈ content slot, (pattern slot).allows symbol = true)
    {before after : List (List Char × Slot)} {text rest : List Char}
    (first : ¬ (pattern slot).opening <:+: render (placeholder pattern content) before text) :
    (pattern slot).find (render fill (before ++ (text, slot) :: after) rest) =
      some (render fill before text, placeholder pattern content slot, render fill after rest) := by
  have split : render fill (before ++ (text, slot) :: after) rest =
      render fill before text ++ ((pattern slot).opening ++ (content slot ++
        ((pattern slot).closing ++ render fill after rest))) := by
    rw [render_append, render, render_append_rest, partly.unfilled slot member]
    unfold placeholder
    rw [List.append_assoc, List.append_assoc]
  obtain ⟨tail, opening, -⟩ := begins slot
  rw [split, find_first allowed]
  · unfold placeholder
    rw [List.append_assoc]
  · rintro text' suffix nonempty isPrefix
    rw [opening, List.cons_append, ← opening] at isPrefix
    exact partly.not_infix begins member first (List.infix_iff_prefix_suffix.mpr
      ⟨text', opening_prefix (begins slot) nonempty isPrefix, suffix⟩)

variable [DecidableEq Slot]

theorem Partly.update (partly : Partly pattern mark content (slot :: later) fill)
    (distinct : slot ∉ later) {replacement : List Char} (marked : [mark] <+: replacement)
    (clears : ∀ other ∈ later, Clears (pattern other).opening replacement) :
    Partly pattern mark content later (Function.update fill slot replacement) where
  marks other := by
    by_cases own : other = slot
    · rw [own, Function.update_self]
      exact marked
    · rw [Function.update_of_ne own]
      exact partly.marks other
  unfilled other member := by
    have differs : other ≠ slot := fun own => distinct (own ▸ member)
    rw [Function.update_of_ne differs]
    exact partly.unfilled other (List.mem_cons_of_mem _ member)
  clears looked member other := by
    by_cases own : other = slot
    · rw [own, Function.update_self]
      exact .inr (clears looked member)
    · rw [Function.update_of_ne own]
      exact partly.clears looked (List.mem_cons_of_mem _ member) other

end Filling

namespace Template

variable {pattern : Slot → Pattern} (template : Template pattern)

theorem exists_pieces (slot : Slot) : ∃ before text after,
    template.pieces = before ++ (text, slot) :: after := by
  obtain ⟨piece, member, rfl⟩ := List.mem_map.mp (template.complete slot)
  obtain ⟨before, after, split⟩ := List.append_of_mem member
  exact ⟨before, piece.1, after, split⟩

variable [DecidableEq Slot] {later : List Slot} {replacement : Slot → List Char}

theorem replace_filled {slot : Slot}
    (partly : Partly pattern mark template.content (slot :: later) fill)
    (begins : ∀ slot, BeginsOnly mark (pattern slot).opening) {replacement : List Char}
    (inert : pairs isRead replacement = false) :
    (pattern slot).replace replacement (template.filled fill) =
      template.filled (Function.update fill slot replacement) := by
  obtain ⟨before, text, after, split⟩ := template.exists_pieces slot
  have once := template.once
  rw [split, List.map_append, List.map_cons, List.nodup_append] at once
  obtain ⟨-, onceAfter, apart⟩ := once
  have outside : ∀ other ∈ before.map Prod.snd, Function.update fill slot replacement other =
      fill other := fun other member =>
    Function.update_of_ne (apart other member slot List.mem_cons_self) _ _
  have beyond : ∀ other ∈ after.map Prod.snd, Function.update fill slot replacement other =
      fill other := fun other member =>
    Function.update_of_ne (fun own : other = slot =>
      (List.nodup_cons.mp onceAfter).1 (show slot ∈ after.map Prod.snd from own ▸ member)) _ _
  unfold filled Pattern.replace
  rw [split, partly.find begins List.mem_cons_self (template.allowed slot)
    (template.first before text slot after split)]
  dsimp only
  rw [expand_of_not_pairs inert, render_append, render, render_congr _ outside,
    Function.update_self, render_congr _ beyond, render_append_rest, List.append_assoc]

theorem replaceEach_filled (begins : ∀ slot, BeginsOnly mark (pattern slot).opening)
    {slots : List Slot} (distinct : slots.Nodup)
    (partly : Partly pattern mark template.content slots fill)
    (marked : ∀ slot ∈ slots, [mark] <+: replacement slot)
    (clears : slots.Pairwise fun slot other =>
      Clears (pattern other).opening (replacement slot))
    (inert : ∀ slot ∈ slots, pairs isRead (replacement slot) = false) :
    replaceEach pattern replacement slots (template.filled fill) =
      template.filled fun slot => if slot ∈ slots then replacement slot else fill slot := by
  induction slots generalizing fill with
  | nil => simp [replaceEach]
  | cons slot slots ih =>
    obtain ⟨fresh, distinct⟩ := List.nodup_cons.mp distinct
    obtain ⟨here, clears⟩ := List.pairwise_cons.mp clears
    have next := ih distinct
      (partly.update fresh (marked slot List.mem_cons_self) here)
      (fun other member => marked other (List.mem_cons_of_mem _ member)) clears
      fun other member => inert other (List.mem_cons_of_mem _ member)
    show replaceEach pattern replacement slots ((pattern slot).replace (replacement slot)
      (template.filled fill)) = _
    rw [template.replace_filled partly begins (inert slot List.mem_cons_self), next]
    refine congrArg template.filled (funext fun other => ?_)
    by_cases own : other = slot
    · subst own
      simp [fresh]
    · simp [own]

end Template

/-! ### A template that shows what is read -/

theorem MarkedBy.of_prefix {heads : List (List Char)} {replacement common : List Char}
    (marked : MarkedBy mark heads replacement) (plain : ∀ head ∈ heads, '$' ∉ head)
    (isPrefix : common ++ ['$'] <+: replacement) : MarkedBy mark heads common := by
  obtain ⟨more, rfl⟩ := isPrefix
  rintro tail ⟨lead, rfl⟩
  obtain ⟨head, member, heading⟩ := marked (tail ++ '$' :: more) ⟨lead, by simp⟩
  exact ⟨head, member, @prefix_of_not_mem head '$' (mark :: tail) more (plain head member) heading⟩

theorem prefix_expand {before found after head text : List Char} (plain : '$' ∉ head)
    (isPrefix : head <+: text) : head <+: expand before found after text := by
  induction head generalizing text with
  | nil => exact List.nil_prefix
  | cons symbol head ih =>
    obtain ⟨more, rfl⟩ := isPrefix
    have other : symbol ≠ '$' := fun same => plain (same ▸ List.mem_cons_self)
    rw [List.cons_append, expand_cons_of_ne other]
    exact List.cons_prefix_cons.mpr ⟨rfl, ih
      (fun member => plain (List.mem_cons_of_mem _ member)) (List.prefix_append _ _)⟩

theorem Continues.exists_kept {heads : List (List Char)}
    {before found after rest replacement text : List Char}
    (continues : Continues before found after rest replacement text) (begins : Begins text)
    (marked : MarkedBy mark heads replacement) (other : mark ≠ '$')
    (only : ∀ head ∈ heads, BeginsOnly mark head) (plain : ∀ head ∈ heads, '$' ∉ head)
    (unmarked : ∀ copy ∈ [before, after, rest], ∃ symbol, [symbol] <+: copy ∧ symbol ≠ mark)
    (heading : ∃ head ∈ heads, head <+: found) :
    ∃ kept, kept <+: text ∧ Begins kept ∧ MarkedBy mark heads kept := by
  obtain ⟨symbol, remaining, rfl, differs⟩ := begins
  by_cases own : symbol = mark
  · subst own
    have headed : ∃ head ∈ heads, head <+: symbol :: remaining := by
      have absent : ∀ copy ∈ [before, after, rest], ¬ copy <+: symbol :: remaining := by
        intro copy member isPrefix
        obtain ⟨first, begins, unequal⟩ := unmarked copy member
        exact unequal (List.cons_prefix_cons.mp (begins.trans isPrefix)).1
      rcases continues with copied | copied | copied | same | ⟨tail, suffix, tailBegins, same⟩
      · exact absurd copied (absent before (by simp))
      · obtain ⟨head, member, isPrefix⟩ := heading
        exact ⟨head, member, isPrefix.trans copied⟩
      · exact absurd copied (absent after (by simp))
      · exact absurd (same ▸ List.prefix_rfl) (absent rest (by simp))
      · obtain ⟨first, tail, rfl, unread⟩ := tailBegins
        rw [expand_cons_of_ne unread] at same
        obtain rfl := (List.cons.inj same).1
        obtain ⟨head, member, isPrefix⟩ := marked tail suffix
        refine ⟨head, member, ?_⟩
        have expanded := @prefix_expand before found after head _ (plain head member) isPrefix
        rw [expand_cons_of_ne unread] at expanded
        exact same ▸ expanded.trans (List.prefix_append _ _)
    obtain ⟨head, member, isPrefix⟩ := headed
    obtain ⟨tail, rfl, free⟩ := only head member
    exact ⟨symbol :: tail, isPrefix, ⟨symbol, tail, rfl, differs⟩,
      markedBy_head ⟨tail, rfl, free⟩ member⟩
  · refine ⟨[symbol], ⟨remaining, rfl⟩, ⟨symbol, [], rfl, differs⟩, markedBy_of_not_mem ?_⟩
    exact fun member => own (List.mem_singleton.mp member).symm

theorem exists_replaceEach_append {pattern : Slot → Pattern} {replacement : Slot → List Char}
    {slots : List Slot} {lead : List Char}
    (clears : ∀ slot ∈ slots, Clears (pattern slot).opening lead) (text : List Char) :
    ∃ rest, replaceEach pattern replacement slots (lead ++ text) = lead ++ rest := by
  induction slots generalizing text with
  | nil => exact ⟨text, rfl⟩
  | cons slot slots ih =>
    obtain ⟨rest, replaced⟩ := @exists_replace_append (pattern slot) lead text (replacement slot)
      fun outer suffix nonempty => clears slot List.mem_cons_self outer suffix nonempty text
    obtain ⟨final, kept⟩ := ih
      (fun other member => clears other (List.mem_cons_of_mem _ member)) rest
    refine ⟨final, ?_⟩
    show replaceEach pattern replacement slots ((pattern slot).replace (replacement slot)
      (lead ++ text)) = _
    rw [replaced, kept]

/-- Patterns whose openings begin with a mark and are told apart by their heads. -/
structure Marking (mark : Char) (pattern : Slot → Pattern) (heads : Slot → List (List Char)) :
    Prop where
  unread : mark ≠ '$'
  begins : ∀ slot, BeginsOnly mark (pattern slot).opening
  opening : ∀ slot, (pattern slot).opening ∈ heads slot
  only : ∀ slot, ∀ head ∈ heads slot, BeginsOnly mark head
  plain : ∀ slot, ∀ head ∈ heads slot, '$' ∉ head
  marked : ∀ slot, MarkedBy mark (heads slot) ((pattern slot).opening ++ (pattern slot).closing)
  apart : ∀ slot other, other ≠ slot → ∀ head ∈ heads slot, Apart (pattern other).opening head

/-- A text goes on with something else where another has a dollar sign. -/
def Departs (replacement written : List Char) : Prop :=
  ∃ common symbol rest more, common ++ ['$'] <+: replacement ∧ symbol ≠ '$' ∧
    written ++ more = common ++ symbol :: rest

section Shows

variable {pattern : Slot → Pattern} {heads : Slot → List (List Char)}

theorem not_infix_of_clears {opening text : List Char} (begins : BeginsOnly mark opening)
    (clears : Clears opening text) : ¬ opening <:+: text := by
  intro inside
  have within : opening <:+: text ++ [] := (List.append_nil text).symm ▸ inside
  obtain ⟨tail, rfl, -⟩ := begins
  cases List.infix_nil.mp (clears.later within)

theorem clears_placeholder (marking : Marking mark pattern heads) {slot other : Slot}
    (apart : other ≠ slot) :
    Clears (pattern other).opening (placeholder pattern (fun _ => []) slot) :=
  (marking.marked slot).clears (marking.begins other) (marking.apart slot other apart)

theorem clears_render {opening : List Char} {pieces : List (List Char × Slot)} {rest : List Char}
    (texts : ∀ piece ∈ pieces, Clears opening piece.1 ∧ Clears opening (fill piece.2))
    (clears : Clears opening rest) : Clears opening (render fill pieces rest) := by
  induction pieces with
  | nil => exact clears
  | cons piece pieces ih =>
    obtain ⟨here, filled⟩ := texts piece List.mem_cons_self
    exact here.append (filled.append
      (ih fun other member => texts other (List.mem_cons_of_mem _ member)))

/-- The template of a symbol around each of some slots, whose placeholders are empty. -/
def Marking.template (marking : Marking mark pattern heads) (slots : List Slot)
    (distinct : slots.Nodup) (complete : ∀ slot, slot ∈ slots) {symbol : Char}
    (other : symbol ≠ mark) : Template pattern where
  pieces := slots.map fun slot => ([symbol], slot)
  rest := [symbol]
  content _ := []
  once := by
    rw [List.map_map]
    exact (List.map_id slots).symm ▸ distinct
  complete slot := by
    rw [List.map_map]
    exact (List.map_id slots).symm ▸ complete slot
  allowed _ _ member := absurd member List.not_mem_nil
  first before text slot after split := by
    have free : ∀ {opening : List Char}, BeginsOnly mark opening → Clears opening [symbol] :=
      fun begins => clears_of_not_mem begins fun member => other (List.mem_singleton.mp member).symm
    have texts : ∀ piece ∈ before ++ (text, slot) :: after, piece.1 = [symbol] :=
      fun piece member => by
      rw [← split] at member
      obtain ⟨slot, -, rfl⟩ := List.mem_map.mp member
      rfl
    have names : (before.map Prod.snd ++ slot :: after.map Prod.snd).Nodup := by
      have same := congrArg (List.map Prod.snd) split
      rw [List.map_map, List.map_append, List.map_cons] at same
      rw [← same]
      exact (List.map_id slots).symm ▸ distinct
    have apart : ∀ piece ∈ before, piece.2 ≠ slot := fun piece member same =>
      (List.nodup_append.mp names).2.2 piece.2 (List.mem_map_of_mem member) slot List.mem_cons_self
        same
    refine not_infix_of_clears (marking.begins slot) ?_
    refine clears_render (fun piece member => ⟨?_, clears_placeholder marking
      (apart piece member).symm⟩) ?_
    · rw [texts piece (List.mem_append_left _ member)]
      exact free (marking.begins slot)
    · have own : text = [symbol] :=
        texts (text, slot) (List.mem_append_right _ List.mem_cons_self)
      rw [own]
      exact free (marking.begins slot)

variable [DecidableEq Slot] {slots earlier later : List Slot} {slot : Slot}
  {replacement : Slot → List Char}

theorem Marking.partly (marking : Marking mark pattern heads)
    (distinct : (earlier ++ later).Nodup) (begins : ∀ slot, [mark] <+: replacement slot)
    (marked : ∀ slot ∈ earlier, MarkedBy mark (heads slot) (replacement slot))
    (content : Slot → List Char) :
    Partly pattern mark content later fun slot =>
      if slot ∈ earlier then replacement slot else placeholder pattern content slot where
  marks slot := by
    split
    · exact begins slot
    · exact mark_placeholder marking.begins slot
  unfilled slot member :=
    if_neg fun also => (List.nodup_append.mp distinct).2.2 slot also slot member rfl
  clears other member slot := by
    by_cases own : slot ∈ earlier
    · rw [if_pos own]
      refine .inr ((marked slot own).clears (marking.begins other) (marking.apart slot other ?_))
      exact fun same => (List.nodup_append.mp distinct).2.2 slot own other member same.symm
    · exact .inl (if_neg own)

theorem Marking.replaceEach_eq (marking : Marking mark pattern heads)
    (distinct : (earlier ++ later).Nodup) (begins : ∀ slot, [mark] <+: replacement slot)
    (marked : (earlier ++ later).Pairwise fun slot _ =>
      MarkedBy mark (heads slot) (replacement slot))
    (inert : ∀ slot ∈ earlier, pairs isRead (replacement slot) = false)
    (template : Template pattern) :
    replaceEach pattern replacement earlier template.text = template.filled fun slot =>
      if slot ∈ earlier then replacement slot else placeholder pattern template.content slot := by
  have once := (List.nodup_append.mp distinct).1
  refine template.replaceEach_filled marking.begins once (partly_unfilled marking.begins _)
    (fun slot _ => begins slot) ?_ inert
  refine ((List.pairwise_append.mp marked).1.and once).imp ?_
  rintro slot other ⟨isMarked, differs⟩
  exact isMarked.clears (marking.begins other) (marking.apart slot other (Ne.symm differs))

omit [DecidableEq Slot] in
theorem begins_render_map {fill : Slot → List Char} {symbol : Char} (slots : List Slot) :
    ∃ tail, render fill (slots.map fun slot => ([symbol], slot)) [symbol] = symbol :: tail := by
  cases slots with
  | nil => exact ⟨[], rfl⟩
  | cons slot slots => exact ⟨_, rfl⟩

/-- A filling with a replacement that is read goes on differently from where the replacement has a
dollar sign. -/
theorem Marking.exists_template (marking : Marking mark pattern heads)
    (distinct : (earlier ++ slot :: later).Nodup)
    (complete : ∀ other, other ∈ earlier ++ slot :: later)
    (begins : ∀ slot, [mark] <+: replacement slot)
    (marked : (earlier ++ slot :: later).Pairwise fun slot _ =>
      MarkedBy mark (heads slot) (replacement slot))
    (inert : ∀ other ∈ earlier, pairs isRead (replacement other) = false)
    (read : pairs isRead (replacement slot) = true) :
    ∃ template : Template pattern, ∀ written : Slot → List Char,
      replaceEach pattern replacement (earlier ++ slot :: later) template.text =
        template.filled written → Departs (replacement slot) (written slot) := by
  obtain ⟨symbol, differs, unread⟩ : ∃ symbol, symbol ≠ mark ∧ symbol ≠ '$' := by
    by_cases own : mark = 'x'
    · exact ⟨'y', fun same => absurd (same.trans own) (by decide), by decide⟩
    · exact ⟨'x', fun same => own same.symm, by decide⟩
  have order := List.perm_middle.nodup_iff.mp distinct
  let template := marking.template (slot :: (earlier ++ later)) order
    (fun other => List.perm_middle.mem_iff.mp (complete other)) differs
  let fill := fun other => if other ∈ earlier then replacement other
    else placeholder pattern template.content other
  let after := render fill ((earlier ++ later).map fun slot => ([symbol], slot)) [symbol]
  have isMarked := (List.pairwise_append.mp marked).2.2
  have partly : Partly pattern mark template.content (slot :: later) fill :=
    marking.partly distinct begins
      (fun other member => isMarked other member slot List.mem_cons_self) template.content
  have found : (pattern slot).find (template.filled fill) =
      some ([symbol], placeholder pattern template.content slot, after) :=
    partly.find marking.begins List.mem_cons_self (template.allowed slot)
      (template.first [] [symbol] slot _ rfl)
  have replaced : replaceEach pattern replacement (earlier ++ slot :: later) template.text =
      replaceEach pattern replacement later ([symbol] ++ expand [symbol]
        (placeholder pattern template.content slot) after (replacement slot) ++ after) := by
    have first := marking.replaceEach_eq distinct begins marked inert template
    unfold replaceEach at first ⊢
    rw [List.foldl_append, first, List.foldl_cons]
    show _ = replaceEach pattern replacement later _
    unfold Pattern.replace
    rw [found]
    rfl
  obtain ⟨tail, isAfter⟩ : ∃ tail, after = symbol :: tail := begins_render_map _
  obtain ⟨tail', isFound⟩ := @mark_placeholder _ mark pattern template.content marking.begins slot
  obtain ⟨common, text, expanded, short, textBegins, continues⟩ :=
    diverges_of_pairs ⟨symbol, [], rfl, unread⟩ ⟨mark, tail', isFound.symm, marking.unread⟩
      ⟨symbol, tail, isAfter, unread⟩ ⟨symbol, tail, isAfter, unread⟩ read
  -- what is replaced later keeps the text up to where it differs
  obtain ⟨kept, rest, ⟨first, kept, rfl, keptUnread⟩, final⟩ : ∃ kept rest, Begins kept ∧
      replaceEach pattern replacement (earlier ++ slot :: later) template.text =
        [symbol] ++ common ++ kept ++ rest := by
    rw [replaced, List.append_assoc, expanded, ← List.append_assoc]
    cases later with
    | nil => exact ⟨text, [], textBegins, (List.append_nil _).symm⟩
    | cons other more =>
      have slotMarked := (List.pairwise_cons.mp (List.pairwise_append.mp marked).2.1).1 other
        List.mem_cons_self
      obtain ⟨kept, ⟨remaining, rfl⟩, keptBegins, keptMarked⟩ := continues.exists_kept textBegins
        slotMarked marking.unread (marking.only slot) (marking.plain slot)
        (fun copy member => ⟨symbol, by
          rcases List.mem_cons.mp member with rfl | member
          · exact List.prefix_rfl
          · have same : copy = after := by simpa using member
            exact ⟨tail, same ▸ isAfter.symm⟩, differs⟩)
        ⟨_, marking.opening slot, List.prefix_append _ _⟩
      have leadMarked : MarkedBy mark (heads slot) ([symbol] ++ common ++ kept) :=
        ((markedBy_of_not_mem fun member => differs (List.mem_singleton.mp member).symm).append
          (slotMarked.of_prefix (marking.plain slot) short)).append keptMarked
      obtain ⟨rest, isKept⟩ := @exists_replaceEach_append _ pattern replacement (other :: more)
        ([symbol] ++ common ++ kept) (fun looked member =>
          leadMarked.clears (marking.begins looked) (marking.apart slot looked fun same =>
            (List.nodup_cons.mp (List.nodup_append.mp distinct).2.1).1 (same ▸ member))) remaining
      refine ⟨kept, rest, keptBegins, ?_⟩
      rw [← List.append_assoc, isKept]
  refine ⟨template, fun written equal => ?_⟩
  have expected : template.filled written = [symbol] ++ (written slot ++
      render written ((earlier ++ later).map fun slot => ([symbol], slot)) [symbol]) := rfl
  rw [final, expected] at equal
  simp only [List.append_assoc, List.cons_append, List.nil_append, List.cons.injEq,
    true_and] at equal
  exact ⟨common, first, _, _, short, keptUnread, equal.symm⟩

theorem Marking.replaceEach_text (marking : Marking mark pattern heads) (distinct : slots.Nodup)
    (complete : ∀ slot, slot ∈ slots) (begins : ∀ slot, [mark] <+: replacement slot)
    (marked : slots.Pairwise fun slot _ => MarkedBy mark (heads slot) (replacement slot))
    (inert : ∀ slot, pairs isRead (replacement slot) = false) (template : Template pattern) :
    replaceEach pattern replacement slots template.text = template.filled replacement := by
  have filled := marking.replaceEach_eq ((List.append_nil slots).symm ▸ distinct :
    (slots ++ []).Nodup) begins ((List.append_nil slots).symm ▸ marked)
      (fun slot _ => inert slot) template
  rw [filled]
  exact congrArg template.filled (funext fun slot => if_pos (complete slot))

/-- Every template is filled with texts that fit exactly when no replacement has a pair that is
read. -/
theorem Marking.filled_iff (marking : Marking mark pattern heads) (distinct : slots.Nodup)
    (complete : ∀ slot, slot ∈ slots) (begins : ∀ slot, [mark] <+: replacement slot)
    (marked : slots.Pairwise fun slot _ => MarkedBy mark (heads slot) (replacement slot))
    {Fits : Slot → List Char → Prop} (fits : ∀ slot, Fits slot (replacement slot))
    (departs : ∀ slot written, Fits slot written → ¬ Departs (replacement slot) written) :
    (∀ template : Template pattern, ∃ written : Slot → List Char,
        replaceEach pattern replacement slots template.text = template.filled written ∧
          ∀ slot, Fits slot (written slot)) ↔
      ∀ slot, pairs isRead (replacement slot) = false := by
  constructor
  · intro filled
    by_contra some
    obtain ⟨slot, read⟩ := not_forall.mp some
    have present : (slots.find? fun slot => pairs isRead (replacement slot)).isSome = true :=
      List.find?_isSome.mpr ⟨slot, complete slot, Bool.not_eq_false _ ▸ read⟩
    obtain ⟨first, isFirst⟩ := Option.isSome_iff_exists.mp present
    obtain ⟨isRead, earlier, later, rfl, inert⟩ := List.find?_eq_some_iff_append.mp isFirst
    obtain ⟨template, shown⟩ := marking.exists_template distinct complete begins marked
      (fun other member => by simpa using inert other member) isRead
    obtain ⟨written, isFilled, fitting⟩ := filled template
    exact departs first (written first) (fitting first) (shown written isFilled)
  · intro inert template
    exact ⟨replacement,
      marking.replaceEach_text distinct complete begins marked inert template, fits⟩

end Shows

end Templates

end Divine.Replacing
