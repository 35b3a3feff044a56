/-
This file settles what the fields of a profile can do to the page of a subdomain.
-/

import Divine.ComputeJs.UserScript
import Divine.ComputeJs.VideoOgTags

namespace Divine.ComputeJs

open JsonText Replacing Markup

/-! ### The tags -/

/-- Where a less-than sign is in a slot's placeholder and replacement. -/
def Slot.heads : Slot → List Text
  | title => ["<title>".toList, "</title>".toList]
  | slot => [slot.pattern.opening]

section

theorem slots_complete (slot : Slot) : slot ∈ Slot.all := by
  cases slot <;> decide

theorem beginsOnly_of {mark : Char} {text : Text} (begins : text = mark :: text.tail)
    (only : mark ∉ text.tail) : BeginsOnly mark text := ⟨text.tail, begins, only⟩

/-- A less-than sign begins the heads of the texts around a slot; a dollar sign is nowhere. -/
theorem slot_texts (slot : Slot) :
    (slot.pattern.opening ∈ slot.heads ∧ (slot ≠ .title → '<' ∉ slot.pattern.closing)) ∧
      (∀ head ∈ slot.heads, (head = '<' :: head.tail ∧ '<' ∉ head.tail) ∧ '$' ∉ head) ∧
      '$' ∉ slot.pattern.closing ∧
      (slot ≠ .head → slot.pattern.closing.head?.any isRead = false) := by
  cases slot <;> unfold Slot.heads Slot.pattern <;> try unfold metaPattern
  all_goals
    repeat rw [String.toList_ofList]
    decide +kernel

theorem opening_mem (slot : Slot) : slot.pattern.opening ∈ slot.heads := (slot_texts slot).1.1

theorem heads_begin {slot : Slot} {head : Text} (member : head ∈ slot.heads) :
    BeginsOnly '<' head := by
  obtain ⟨begins, only⟩ := ((slot_texts slot).2.1 head member).1
  exact beginsOnly_of begins only

theorem dollar_not_mem_head {slot : Slot} {head : Text} (member : head ∈ slot.heads) :
    '$' ∉ head := ((slot_texts slot).2.1 head member).2

theorem dollar_not_mem_closing (slot : Slot) : '$' ∉ slot.pattern.closing := (slot_texts slot).2.2.1

theorem markedBy_opening (slot : Slot) : MarkedBy '<' slot.heads slot.pattern.opening :=
  markedBy_head (heads_begin (opening_mem slot)) (opening_mem slot)

theorem markedBy_closing (slot : Slot) : MarkedBy '<' slot.heads slot.pattern.closing := by
  have title : MarkedBy '<' Slot.title.heads Slot.title.pattern.closing :=
    markedBy_head (beginsOnly_of (by decide) (by decide))
      (List.mem_cons_of_mem _ List.mem_cons_self)
  by_cases isTitle : slot = .title
  · exact isTitle ▸ title
  · exact markedBy_of_not_mem ((slot_texts slot).1.2 isTitle)

theorem slots_marking : Marking '<' Slot.pattern Slot.heads where
  unread := by decide
  begins slot := heads_begin (opening_mem slot)
  opening slot := by
    cases slot <;> exact List.mem_cons_self
  only slot head member := heads_begin member
  plain slot head member := dollar_not_mem_head member
  marked slot := (markedBy_opening slot).append (markedBy_closing slot)
  apart := by
    have each : ∀ slot ∈ Slot.all, ∀ other ∈ Slot.all, other ≠ slot → ∀ head ∈ slot.heads,
        Apart other.pattern.opening head := by decide +kernel
    exact fun slot other => each slot (slots_complete slot) other (slots_complete other)

theorem replacement_of_ne (user : DivineUser) {slot : Slot} (isTag : slot ≠ .head) :
    user.replacement slot =
      slot.pattern.opening ++ escapeHtml (user.field slot) ++ slot.pattern.closing := by
  cases slot <;> first | rfl | exact absurd rfl isTag

theorem begins_replacement (user : DivineUser) (slot : Slot) : ['<'] <+: user.replacement slot := by
  cases slot <;> exact ⟨_, rfl⟩

theorem markedBy_replacement (user : DivineUser) {slot : Slot} (isTag : slot ≠ .head) :
    MarkedBy '<' slot.heads (user.replacement slot) := by
  rw [replacement_of_ne user isTag]
  exact ((markedBy_opening slot).append (markedBy_of_not_mem
    (not_mem_escapeHtml (.inr rfl) _))).append (markedBy_closing slot)

theorem pairwise_replacement (user : DivineUser) :
    Slot.all.Pairwise fun slot _ => MarkedBy '<' slot.heads (user.replacement slot) := by
  have tags : Slot.all.Pairwise fun slot _ => slot ≠ .head := by decide
  exact tags.imp fun isTag => markedBy_replacement user isTag

end

/-! ### What a page shows -/

namespace DivineUser

variable (user : DivineUser)

def commentText : Text :=
  " DIVINE_SUBDOMAIN_PROFILE: ".toList ++ user.subdomain ++ " -->".toList

def scriptText : Text :=
  "window.__DIVINE_USER__ = ".toList ++ stringify user.entries ++ [';']

/-- What is put in a slot: the comment and the script, or the slot's tag with a value that decodes
to the field. -/
def Shows (slot : Slot) (written : Text) : Prop :=
  if slot = .head then
    written = "<!--".toList ++ user.commentText ++ "<script>".toList ++ user.scriptText ++
      scriptEnd ++ "</head>".toList
  else
    ∃ value, written = slot.pattern.opening ++ value ++ slot.pattern.closing ∧
      (∀ symbol ∈ value, slot.pattern.allows symbol = true) ∧ decode value = user.field slot

end DivineUser

/-- A page is the template with its slots filled, where the comment and the script end where they
are closed. -/
structure Uninjected (user : DivineUser) (template : Template Slot.pattern) (page : Text) :
    Prop where
  filled : ∃ written, page = template.filled written ∧ ∀ slot, user.Shows slot (written slot)
  comment : ClosesThere user.commentText
  script : EndsThere user.scriptText
  parsed : parse (stringify user.entries) = some user.entries

section

variable {user : DivineUser} {slot : Slot} {written : Text}

theorem allows_of_mem_escapeHtml (isTag : slot ≠ .head) {str : Text} {symbol : Char}
    (member : symbol ∈ escapeHtml str) : slot.pattern.allows symbol = true := by
  have noQuote : symbol ≠ '"' := fun same => not_mem_escapeHtml (.inl same) _ member
  have noLess : symbol ≠ '<' := fun same => not_mem_escapeHtml (.inr same) _ member
  cases slot <;>
    first | exact decide_eq_true noQuote | exact decide_eq_true noLess | exact absurd rfl isTag

theorem shows_replacement (user : DivineUser) (slot : Slot) :
    user.Shows slot (user.replacement slot) := by
  unfold DivineUser.Shows
  by_cases isHead : slot = .head
  · rw [if_pos isHead, isHead]
    show user.debugComment ++ user.userScript ++ "</head>".toList = _
    have closing : ";</script>".toList = [';'] ++ scriptEnd := by decide
    have opening : "<!-- DIVINE_SUBDOMAIN_PROFILE: ".toList =
        "<!--".toList ++ " DIVINE_SUBDOMAIN_PROFILE: ".toList := by decide
    have script : "<script>window.__DIVINE_USER__ = ".toList =
        "<script>".toList ++ "window.__DIVINE_USER__ = ".toList := by decide
    unfold DivineUser.debugComment DivineUser.userScript DivineUser.commentText
      DivineUser.scriptText
    rw [closing, opening, script]
    simp only [List.append_assoc]
  · rw [if_neg isHead]
    exact ⟨_, replacement_of_ne user isHead, fun symbol => allows_of_mem_escapeHtml isHead,
      decode_escapeHtml _⟩

theorem head_decode {symbol : Char} {rest text : Text}
    (decoded : decode (symbol :: rest) = '$' :: text) :
    symbol = '$' := by
  rw [decode.eq_def (symbol :: rest)] at decoded
  split at decoded
  · contradiction
  all_goals first
    | exact absurd (List.cons.inj decoded).1 (by decide)
    | exact (List.cons.inj ‹_›).1.trans (List.cons.inj decoded).1

theorem escapeSymbol_dollar : escapeSymbol '$' = ['$'] := rfl

theorem not_mem_escapeSymbol (symbol : Char) (differs : symbol ≠ '$') :
    '$' ∉ escapeSymbol symbol := by
  unfold escapeSymbol
  split_ifs
  all_goals first | decide | exact fun member => differs (List.mem_singleton.mp member).symm

theorem prefix_of_allowed {pattern : Pattern} {common value rest : Text} {closed : Char}
    (stops : pattern.allows closed = false)
    (allowed : ∀ symbol ∈ common, pattern.allows symbol = true)
    (isPrefix : common <+: value ++ closed :: rest) : common <+: value := by
  rcases List.prefix_or_prefix_of_prefix isPrefix (List.prefix_append value (closed :: rest)) with
    inside | ⟨more, rfl⟩
  · exact inside
  · cases more with
    | nil => exact (List.append_nil value).symm ▸ List.prefix_rfl
    | cons symbol more =>
      obtain rfl := (List.cons_prefix_cons.mp ((List.prefix_append_right_inj value).mp isPrefix)).1
      exact absurd ((allowed symbol (by simp)).symm.trans stops) (by decide)

theorem exists_closing (isTag : slot ≠ .head) :
    ∃ closed rest, slot.pattern.closing = closed :: rest ∧ slot.pattern.allows closed = false := by
  cases slot <;> first | exact ⟨_, _, rfl, rfl⟩ | exact absurd rfl isTag

theorem split_common {common escaped : Text}
    (dollar : common ++ ['$'] <+: slot.pattern.opening ++ (escaped ++ slot.pattern.closing)) :
    ∃ inner, common = slot.pattern.opening ++ inner ∧ inner ++ ['$'] <+: escaped := by
  have opening := dollar_not_mem_head (opening_mem slot)
  have closing := dollar_not_mem_closing slot
  have here : ∀ text : Text, '$' ∈ text ++ ['$'] := fun text =>
    List.mem_append_right text List.mem_cons_self
  obtain ⟨inner, rfl⟩ : slot.pattern.opening <+: common := by
    rcases List.prefix_or_prefix_of_prefix dollar (List.prefix_append _ _) with shorter | longer
    · exact absurd (shorter.subset (here common)) opening
    · rcases List.prefix_concat_iff.mp longer with same | inside
      · exact absurd (same ▸ here common) opening
      · exact inside
  refine ⟨inner, rfl, ?_⟩
  rw [List.append_assoc, List.prefix_append_right_inj] at dollar
  rcases List.prefix_or_prefix_of_prefix dollar (List.prefix_append _ _) with inside | longer
  · exact inside
  · rcases List.prefix_concat_iff.mp longer with same | ⟨more, rfl⟩
    · exact same ▸ List.prefix_rfl
    · rw [List.append_assoc, List.prefix_append_right_inj] at dollar
      exact absurd (dollar.subset (here more)) closing

theorem not_departs (shows' : user.Shows slot written) :
    ¬ Departs (user.replacement slot) written := by
  rintro ⟨common, symbol, rest, more, dollar, differs, same⟩
  have exact_ : user.Shows slot (user.replacement slot) := shows_replacement user slot
  unfold DivineUser.Shows at shows' exact_
  by_cases isHead : slot = .head
  · rw [if_pos isHead] at shows' exact_
    rw [shows', ← exact_] at same
    have begins : common ++ ['$'] <+: common ++ symbol :: rest :=
      same ▸ dollar.trans (List.prefix_append _ _)
    exact differs
      (List.cons_prefix_cons.mp ((List.prefix_append_right_inj common).mp begins)).1.symm
  · rw [if_neg isHead] at shows'
    obtain ⟨value, rfl, -, decoded⟩ := shows'
    rw [replacement_of_ne user isHead, List.append_assoc] at dollar
    obtain ⟨inner, rfl, inside⟩ := split_common dollar
    rw [escapeHtml_eq] at inside
    obtain ⟨first, second, isField, rfl⟩ :=
      exists_split_flatMap escapeSymbol_dollar not_mem_escapeSymbol inside
    rw [← escapeHtml_eq] at same
    obtain ⟨closed, closing, isClosing, stops⟩ := exists_closing isHead
    rw [isClosing] at same
    simp only [List.append_assoc, List.append_cancel_left_eq, List.cons_append] at same
    -- the value begins with what was escaped before the dollar sign
    obtain ⟨remaining, rfl⟩ : escapeHtml first <+: value :=
      prefix_of_allowed stops (fun other member => allows_of_mem_escapeHtml isHead member)
        ⟨symbol :: rest, same.symm⟩
    rw [decode_escapeHtml_append, isField] at decoded
    have decoded : decode remaining = '$' :: second := List.append_cancel_left decoded
    rw [List.append_assoc, List.append_cancel_left_eq] at same
    cases remaining with
    | nil => cases decoded
    | cons other remaining =>
      exact differs ((List.cons.inj same).1 ▸ head_decode decoded)

theorem filled_iff (user : DivineUser) :
    (∀ template : Template Slot.pattern, ∃ written,
        user.page template.text = template.filled written ∧
          ∀ slot, user.Shows slot (written slot)) ↔
      ∀ slot, pairs isRead (user.replacement slot) = false :=
  slots_marking.filled_iff (by decide) slots_complete (begins_replacement user)
    (pairwise_replacement user) (shows_replacement user) fun _ _ shows' => not_departs shows'

theorem closesThere_iff (user : DivineUser) :
    ClosesThere user.commentText ↔ Comment.comment.run user.subdomain ≠ .closed := by
  have split : user.commentText =
      " DIVINE_SUBDOMAIN_PROFILE: ".toList ++ user.subdomain ++ " --".toList ++ ['>'] := by
    have ending : " -->".toList = " --".toList ++ ['>'] := by decide
    unfold DivineUser.commentText
    rw [ending, List.append_assoc, List.append_assoc, List.append_assoc]
  have begun : Comment.start.run " DIVINE_SUBDOMAIN_PROFILE: ".toList = .comment := by decide
  have inner : Comment.start.run (" DIVINE_SUBDOMAIN_PROFILE: ".toList ++ user.subdomain ++
      " --".toList) = (Comment.comment.run user.subdomain).run " --".toList := by
    rw [Comment.run_append, Comment.run_append, begun]
  have ending : ∀ state : Comment, (state.run " --".toList ≠ .closed ∧
      state.run (" --".toList ++ ['>']) = .closed) ↔ state ≠ .closed := by
    intro state
    cases state <;> decide
  rw [← ending, Comment.run_append, ← inner, ← Comment.run_append, ← split]
  constructor
  · rintro ⟨text, same, isOpen, closed⟩
    rw [split] at same
    exact ⟨List.append_inj_left' same rfl ▸ isOpen, closed⟩
  · rintro ⟨isOpen, closed⟩
    exact ⟨_, split, isOpen, closed⟩

end

/-! ### Dollar signs -/

/-- The characters whose escape a dollar sign is read before. -/
def isWritten (symbol : Char) : Bool :=
  isRead symbol || symbol = '"' || symbol = '<' || symbol = '>'

section

variable {user : DivineUser} {slot : Slot}

theorem exists_escapeSymbol (symbol : Char) : ∃ first rest, escapeSymbol symbol = first :: rest ∧
    isRead first = isWritten symbol := by
  unfold escapeSymbol
  split_ifs with ampersand less greater quote apostrophe
  · exact ⟨_, _, rfl, by subst ampersand; rfl⟩
  · exact ⟨_, _, rfl, by subst less; rfl⟩
  · exact ⟨_, _, rfl, by subst greater; rfl⟩
  · exact ⟨_, _, rfl, by subst quote; rfl⟩
  · exact ⟨_, _, rfl, by subst apostrophe; rfl⟩
  · refine ⟨_, _, rfl, ?_⟩
    unfold isWritten
    rw [decide_eq_false quote, decide_eq_false less, decide_eq_false greater]
    simp only [Bool.or_false]

theorem pairs_escapeHtml (str : Text) :
    pairs isRead (escapeHtml str) = pairs isWritten str := by
  rw [escapeHtml_eq]
  exact pairs_flatMap escapeSymbol_dollar not_mem_escapeSymbol exists_escapeSymbol str

theorem pairs_isRead_of_isWritten {text : Text} (inert : pairs isWritten text = false) :
    pairs isRead text = false := by
  induction text with
  | nil => rfl
  | cons symbol text ih =>
    unfold pairs at inert ⊢
    obtain ⟨here, later⟩ := Bool.or_eq_false_iff.mp inert
    rw [ih later, Bool.or_false]
    cases text with
    | nil => exact here
    | cons next text =>
      rcases Bool.and_eq_false_iff.mp here with other | unwritten
      · rw [other, Bool.false_and]
      · have unread : isRead next = false := by
          have unwritten : isWritten next = false := unwritten
          unfold isWritten at unwritten
          simp only [Bool.or_eq_false_iff] at unwritten
          exact unwritten.1.1.1
        show (_ && isRead next) = false
        rw [unread, Bool.and_false]

theorem pairs_tag (isTag : slot ≠ .head) :
    pairs isRead (user.replacement slot) = pairs isWritten (user.field slot) := by
  have opening := dollar_not_mem_head (opening_mem slot)
  have unread := (slot_texts slot).2.2.2 isTag
  rw [replacement_of_ne user isTag, List.append_assoc, pairs_append_of_not_mem opening,
    pairs_append _ unread, pairs_of_not_mem (dollar_not_mem_closing slot), pairs_escapeHtml,
      Bool.or_false]

theorem pairs_head : pairs isRead (user.replacement .head) =
    (pairs isRead user.subdomain || pairs isRead (stringify user.entries)) := by
  have split : user.replacement .head = "<!-- DIVINE_SUBDOMAIN_PROFILE: ".toList ++
      (user.subdomain ++ (" --><script>window.__DIVINE_USER__ = ".toList ++
        (stringify user.entries ++ ";</script></head>".toList))) := by
    have joined : " --><script>window.__DIVINE_USER__ = ".toList =
        " -->".toList ++ "<script>window.__DIVINE_USER__ = ".toList := by decide
    have ending : ";</script></head>".toList = ";</script>".toList ++ "</head>".toList := by decide
    show user.debugComment ++ user.userScript ++ "</head>".toList = _
    unfold DivineUser.debugComment DivineUser.userScript
    rw [joined, ending]
    simp only [List.append_assoc]
  rw [split, pairs_append_of_not_mem (by decide), pairs_append _ rfl,
    pairs_append_of_not_mem (by decide), pairs_append _ rfl,
    @pairs_of_not_mem _ ";</script></head>".toList (by decide), Bool.or_false]

end

section

variable (subdomain pubkey hostname : Text) (profileData : Option ProfileData)

/-- No field has a dollar sign that would be read, and a description without an `about` goes on with
an apostrophe. -/
structure Inert : Prop where
  subdomainInert : pairs isWritten subdomain = false
  nameInert : pairs isWritten (displayName subdomain profileData) = false
  aboutInert : ∀ about ∈ profileField profileData Profile.about, pairs isWritten about = false
  unsaid : profileField profileData Profile.about = none →
    (displayName subdomain profileData).getLast? ≠ some '$'
  pictureInert : ∀ picture ∈ profileField profileData Profile.picture,
    pairs isWritten picture = false
  bannerInert : ∀ banner ∈ profileField profileData Profile.banner, pairs isRead banner = false
  nip05Inert : ∀ nip05 ∈ profileField profileData Profile.nip05, pairs isRead nip05 = false
  pubkeyInert : pairs isRead pubkey = false

/-- The fields are inert, and leave the comment and the script open. -/
structure Harmless : Prop where
  inert : Inert subdomain pubkey profileData
  comment : Comment.comment.run subdomain ≠ .closed
  script : (shownLevel subdomain pubkey hostname profileData).Open

variable {subdomain pubkey hostname profileData}

theorem pairs_ogTitle :
    pairs isWritten (divineUser subdomain pubkey hostname profileData).ogTitle =
      pairs isWritten (displayName subdomain profileData) := by
  show pairs isWritten (displayName subdomain profileData ++ " on diVine".toList) = _
  rw [pairs_append _ rfl, @pairs_of_not_mem _ " on diVine".toList (by decide), Bool.or_false]

theorem pairs_ogUrl :
    pairs isWritten (divineUser subdomain pubkey hostname profileData).ogUrl =
      pairs isWritten subdomain := by
  have apex : '$' ∉ '.' :: apexDomain hostname ++ ['/'] := by
    have free := @not_mem_apexDomain '$' (by decide) hostname
    simpa using free
  show pairs isWritten ("https://".toList ++ subdomain ++ '.' :: apexDomain hostname ++ ['/']) = _
  rw [List.append_assoc, List.append_assoc, pairs_append_of_not_mem (by decide), pairs_append _ rfl,
    pairs_of_not_mem apex, Bool.or_false]

theorem pairs_ogImage :
    pairs isWritten (divineUser subdomain pubkey hostname profileData).ogImage = false ↔
      ∀ picture ∈ profileField profileData Profile.picture, pairs isWritten picture = false := by
  show pairs isWritten ((profileField profileData Profile.picture).getD
    "https://divine.video/og.png".toList) = false ↔ _
  cases profileField profileData Profile.picture with
  | none => exact ⟨fun _ => nofun, fun _ => pairs_of_not_mem (by decide)⟩
  | some picture => exact ⟨fun inert _ member => Option.some.inj member ▸ inert,
      fun inert => inert picture rfl⟩

theorem pairs_ogDescription :
    pairs isWritten (divineUser subdomain pubkey hostname profileData).ogDescription = false ↔
      (∀ about ∈ profileField profileData Profile.about, pairs isWritten about = false) ∧
        (profileField profileData Profile.about = none →
          pairs isWritten (displayName subdomain profileData) = false ∧
            (displayName subdomain profileData).getLast? ≠ some '$') := by
  show pairs isWritten ((profileField profileData Profile.about).getD
    ("Watch ".toList ++ displayName subdomain profileData ++ "'s videos on diVine".toList)) =
      false ↔ _
  cases profileField profileData Profile.about with
  | some about =>
    exact ⟨fun inert => ⟨fun _ member => Option.some.inj member ▸ inert, nofun⟩,
      fun inert => inert.1 about rfl⟩
  | none =>
    have apostrophe : "'s videos on diVine".toList = '\'' :: "s videos on diVine".toList := by
      decide
    have rest : pairs isWritten ('\'' :: "s videos on diVine".toList) = false :=
      pairs_of_not_mem (by decide)
    show pairs isWritten ("Watch ".toList ++ displayName subdomain profileData ++
      "'s videos on diVine".toList) = false ↔ _
    rw [List.append_assoc, pairs_append_of_not_mem (by decide), apostrophe,
      pairs_append_cons _ rfl, rest, Bool.or_false, Bool.or_eq_false_iff, decide_eq_false_iff_not]
    exact ⟨fun inert => ⟨nofun, fun _ => inert⟩, fun inert => inert.2 rfl⟩

theorem pairs_shownStrings (inert : Inert subdomain pubkey profileData) :
    (shownStrings subdomain pubkey hostname profileData).any (pairs isRead) = false := by
  have optional : ∀ value : Option Text, (∀ text ∈ value, pairs isRead text = false) →
      value.toList.any (pairs isRead) = false := fun value each => by
    cases value with
    | none => rfl
    | some text => exact (Bool.or_false _).trans (each text rfl)
  have isNip05 : pairs isRead (nip05 subdomain hostname profileData) = false := by
    unfold nip05
    cases given : profileField profileData Profile.nip05 with
    | some nip05 => exact inert.nip05Inert nip05 given
    | none =>
      have apex : '$' ∉ '@' :: apexDomain hostname := by
        simpa using @not_mem_apexDomain '$' (by decide) hostname
      show pairs isRead (subdomain ++ '@' :: apexDomain hostname) = false
      rw [pairs_append _ rfl, pairs_of_not_mem apex, Bool.or_false]
      exact pairs_isRead_of_isWritten inert.subdomainInert
  unfold shownStrings
  simp only [List.any_append, List.any_cons, List.any_nil, Bool.or_false, Bool.or_eq_false_iff]
  exact ⟨⟨⟨⟨⟨pairs_isRead_of_isWritten inert.subdomainInert, inert.pubkeyInert,
      pairs_isRead_of_isWritten inert.subdomainInert, pairs_isRead_of_isWritten inert.nameInert⟩,
    optional _ fun text member => pairs_isRead_of_isWritten (inert.pictureInert text member)⟩,
    optional _ inert.bannerInert⟩,
    optional _ fun text member =>
      pairs_isRead_of_isWritten (inert.aboutInert text member)⟩, isNip05⟩

theorem replacements_inert_iff :
    (∀ slot, pairs isRead ((divineUser subdomain pubkey hostname profileData).replacement slot) =
        false) ↔ Inert subdomain pubkey profileData := by
  constructor
  · intro unread
    have name := unread .ogTitle
    have description := unread .ogDescription
    have image := unread .ogImage
    have url := unread .ogUrl
    have head := unread .head
    rw [pairs_tag (by decide)] at name description image url
    rw [pairs_head, pairs_entries, Bool.or_eq_false_iff] at head
    have strings : ∀ text ∈ shownStrings subdomain pubkey hostname profileData,
        pairs isRead text = false := fun text member =>
      Bool.eq_false_iff.mpr (List.any_eq_false.mp head.2 text member)
    have description := (@pairs_ogDescription subdomain pubkey hostname profileData).mp description
    unfold shownStrings at strings
    exact
      { subdomainInert := (@pairs_ogUrl subdomain pubkey hostname profileData).symm.trans url
        nameInert := (@pairs_ogTitle subdomain pubkey hostname profileData).symm.trans name
        aboutInert := description.1
        unsaid := fun missing => (description.2 missing).2
        pictureInert := (@pairs_ogImage subdomain pubkey hostname profileData).mp image
        bannerInert := fun banner member => strings banner (by simp [Option.mem_def.mp member])
        nip05Inert := fun given member => strings given (by
          simp [nip05, Option.mem_def.mp member])
        pubkeyInert := strings pubkey (by simp) }
  · intro inert slot
    by_cases isHead : slot = .head
    · rw [isHead, pairs_head, pairs_entries, pairs_shownStrings inert, Bool.or_false]
      exact pairs_isRead_of_isWritten inert.subdomainInert
    · have title := (@pairs_ogTitle subdomain pubkey hostname profileData).trans inert.nameInert
      have description := (@pairs_ogDescription subdomain pubkey hostname profileData).mpr
        ⟨inert.aboutInert, fun missing => ⟨inert.nameInert, inert.unsaid missing⟩⟩
      have image := (@pairs_ogImage subdomain pubkey hostname profileData).mpr inert.pictureInert
      have url := (@pairs_ogUrl subdomain pubkey hostname profileData).trans inert.subdomainInert
      rw [pairs_tag isHead]
      cases slot <;>
        first | exact title | exact description | exact image | exact url | contradiction

/-- A page is free of injected markup for all templates exactly when the fields are harmless. -/
theorem uninjected_page_iff :
    (∀ template : Template Slot.pattern,
        Uninjected (divineUser subdomain pubkey hostname profileData) template
          ((divineUser subdomain pubkey hostname profileData).page template.text)) ↔
      Harmless subdomain pubkey hostname profileData := by
  have closes := closesThere_iff (divineUser subdomain pubkey hostname profileData)
  have ends := @endsThere_userScript subdomain pubkey hostname profileData
  constructor
  · intro uninjected
    have inert := replacements_inert_iff.mp ((filled_iff _).mp fun template =>
      (uninjected template).filled)
    have any := uninjected (slots_marking.template Slot.all (by decide) slots_complete
      (show 'x' ≠ '<' by decide))
    exact ⟨inert, closes.mp any.comment, ends.mp any.script⟩
  · rintro ⟨inert, comment, script⟩ template
    exact
      { filled := (filled_iff _).mpr (replacements_inert_iff.mpr inert) template
        comment := closes.mpr comment
        script := ends.mpr script
        parsed := parse_stringify _ }

end

/-! ### The pages of the worker -/

def servedKey (namesStore : NamesStore) (subdomain pathname : Text) : Option Text :=
  if isAsset pathname then none
  else ((namesStore (userKey subdomain)).join.filter NameRecord.active).bind fun userData =>
    truthy userData.pubkey

section

variable {namesStore : NamesStore} {profiles : Text → Option ProfileData}
  {subdomain pathname hostname pubkey : Text}

theorem handleSubdomainProfile_served
    (served : servedKey namesStore subdomain pathname = some pubkey) (html : Text) :
    handleSubdomainProfile namesStore profiles (some html) subdomain pathname hostname =
      .page ((divineUser subdomain pubkey hostname (profiles pubkey)).page html) := by
  unfold servedKey at served
  unfold handleSubdomainProfile
  cases asset : isAsset pathname with
  | true =>
    rw [if_pos asset] at served
    cases served
  | false =>
    have noAsset : ¬ isAsset pathname = true := Bool.eq_false_iff.mp asset
    rw [if_neg noAsset] at served
    rw [if_neg Bool.false_ne_true]
    cases stored : (namesStore (userKey subdomain)).join with
    | none =>
      rw [stored] at served
      cases served
    | some userData =>
      obtain ⟨kept, isKept, isKey⟩ := Option.bind_eq_some_iff.mp served
      rw [stored] at isKept
      obtain ⟨same, active⟩ := Option.filter_eq_some_iff.mp isKept
      cases same
      dsimp only
      rw [isKey]
      dsimp only
      rw [if_pos active]

/-- No field injects markup in any page exactly when the fields of the profile are harmless. -/
theorem uninjected_iff (served : servedKey namesStore subdomain pathname = some pubkey) :
    ((∀ (template : Template Slot.pattern) (page : Text),
        handleSubdomainProfile namesStore profiles
          (some template.text) subdomain pathname hostname =
            .page page →
          Uninjected (divineUser subdomain pubkey hostname (profiles pubkey)) template page) ∧
      ∀ (result : Option VideoResult) (videoId : Text),
        InPlace (handleVideoOgTags result videoId)) ↔
      Harmless subdomain pubkey hostname (profiles pubkey) := by
  rw [← uninjected_page_iff]
  constructor
  · rintro ⟨pages, -⟩ template
    exact pages template _ (handleSubdomainProfile_served served template.text)
  · intro uninjected
    refine ⟨fun template page isPage => ?_, inPlace_handleVideoOgTags⟩
    rw [handleSubdomainProfile_served served] at isPage
    exact Response.page.inj isPage ▸ uninjected template

def described (name about : String) : Option ProfileData :=
  some ⟨some ⟨some name.toList, none, none, none, some about.toList, none⟩, none, none⟩

def placeholders : Template Slot.pattern :=
  slots_marking.template Slot.all (by decide) slots_complete (show ' ' ≠ '<' by decide)

theorem uninjected_alice :
    Uninjected
      (divineUser "alice".toList "ab12".toList "alice.divine.video".toList
        (described "A \"B\" <c>" "$5 & more </b>"))
      placeholders
      ((divineUser "alice".toList "ab12".toList "alice.divine.video".toList
        (described "A \"B\" <c>" "$5 & more </b>")).page placeholders.text) := by
  have served : servedKey (oneRecord "active") "alice".toList "/".toList = some "ab12".toList := by
    decide +kernel
  have harmless : Harmless "alice".toList "ab12".toList "alice.divine.video".toList
      (described "A \"B\" <c>" "$5 & more </b>") :=
    { inert :=
        { subdomainInert := by decide +kernel
          nameInert := by decide +kernel
          aboutInert := by decide +kernel
          unsaid := by decide +kernel
          pictureInert := nofun
          bannerInert := nofun
          nip05Inert := nofun
          pubkeyInert := by decide +kernel }
      comment := by decide +kernel
      script := .inl (by decide +kernel) }
  exact ((@uninjected_iff (oneRecord "active") (fun _ => described "A \"B\" <c>" "$5 & more </b>")
    "alice".toList "/".toList "alice.divine.video".toList "ab12".toList served).mpr harmless).1
      placeholders _ (handleSubdomainProfile_served served placeholders.text)

/-- An `about` that ends the script, and a name with a dollar sign before another. -/
theorem injects_markup :
    ¬ (∀ (template : Template Slot.pattern) (page : Text),
        handleSubdomainProfile (oneRecord "active")
            (fun _ => described "Alice" "</script><script>alert(1)</script>") (some template.text)
            "alice".toList "/".toList "alice.divine.video".toList = .page page →
          Uninjected (divineUser "alice".toList "ab12".toList "alice.divine.video".toList
            (described "Alice" "</script><script>alert(1)</script>")) template page) ∧
      (divineUser "alice".toList "ab12".toList "alice.divine.video".toList
          (described "A$$B" "text")).page "<title>x</title>".toList =
        "<title>A$B on diVine</title>".toList := by
  constructor
  · intro all
    have served : servedKey (oneRecord "active") "alice".toList "/".toList =
        some "ab12".toList := by decide +kernel
    have uninjected := all placeholders _ (handleSubdomainProfile_served served _)
    exact absurd uninjected.script (by decide +kernel)
  · decide +kernel

end

end Divine.ComputeJs
