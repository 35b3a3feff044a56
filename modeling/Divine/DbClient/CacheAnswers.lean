/-
This file shows when the cache answers a filter as Nostr does.
-/

import Divine.DbClient.NostrEvents

namespace Divine.DbClient

open List Option

open NostrSdk (keyIsValid)
open Patterns Selection

variable {toLowerCase : String → String} {isHexadecimal : String → Bool} {database : Database}
  {filter : Filter} {sortBy : Option String} {event : Event}

/-! ### What should be answered -/

/-- The content has the search text in it, letters of ASCII in either case. -/
def Filter.contentMatches (filter : Filter) (event : Event) : Prop :=
  ∀ search ∈ filter.search, ∃ before part after,
    event.content.toList = before ++ (part ++ after) ∧
      List.Forall₂ (fun character found => sameLetter character found = true) search.toList part

/-- Every event that is answered meets the filter, and below the limit all that meet it are. -/
def Database.AnswersAsNostr (toLowerCase : String → String) (isHexadecimal : String → Bool)
    (database : Database) (filter : Filter) (sortBy : Option String) : Prop :=
  ∀ answer, database.Answers toLowerCase isHexadecimal filter sortBy answer →
    ∃ events, answer = some events ∧ (∀ event ∈ events, filter.checkEvent event = true) ∧
      ((events.length : Int) < filter.rowLimit → ∀ event ∈ database.events,
        filter.checkEvent event = true → filter.contentMatches event → event ∈ events)

/-! ### What the query takes -/

/-- The text shows the name of a tag between quotes and later a value between quotes, as LIKE reads
them. -/
inductive TagTest.Finds (test : TagTest) (value : String) (text : List Char) : Prop where
  | like (operator : test.operator = .like) (before named between part after : List Char)
      (parts : text = before ++ (named ++ (between ++ (part ++ after))))
      (name : Patterns.like (quoted test.name) named = true)
      (shown : Patterns.like (quoted (test.written value)) part = true)
  | glob (operator : test.operator = .glob) (before between rest : List Char)
      (parts : text = before ++ (quoted test.name ++ (between ++ rest)))
      (shown : Patterns.glob (quoted (test.written value) ++ ['*']) rest = true)

structure Filter.Takes (toLowerCase : String → String) (filter : Filter)
    (event : Event) : Prop where
  ids : ∀ ids ∈ filter.ids, ids = [] ∨ event.id ∈ ids
  kinds : ∀ kinds ∈ filter.kinds, kinds = [] ∨ event.kind ∈ kinds
  authors : ∀ authors ∈ filter.authors, authors = [] ∨ event.pubkey ∈ authors
  tags : ∀ test ∈ filter.tagTests toLowerCase, ∀ values ∈ test.field,
    values = [] ∨ ∃ value ∈ values, test.Finds value (jsonEncode event.tags)
  search : ∀ search ∈ filter.search, ∃ before part after,
    event.content.toList = before ++ (part ++ after) ∧ like search.toList part = true
  since : ∀ since ∈ filter.since, since ≤ event.createdAt
  «until» : ∀ latest ∈ filter.«until», event.createdAt ≤ latest

/-- The text of the tags tells as much as the tags: nothing else is found within the limit, and
nothing that meets the filter is missed. -/
structure Database.TextTellsTags (toLowerCase : String → String) (isHexadecimal : String → Bool)
    (database : Database) (filter : Filter) (sortBy : Option String) : Prop where
  taken : ∀ event ∈ database.events, filter.Takes toLowerCase event →
    Within (database.sortKey sortBy) filter.rowLimit (database.passing toLowerCase filter) event →
      keyIsValid isHexadecimal event.pubkey = true ∧ filter.ids ≠ some [] ∧
        filter.kinds ≠ some [] ∧ filter.authors ≠ some [] ∧
        ∀ field ∈ filter.tagFields, event.hasTag field.1 field.2 = true
  shown : ((database.passing toLowerCase filter).length : Int) < filter.rowLimit →
    ∀ event ∈ database.events, filter.checkEvent event = true → filter.contentMatches event →
      ∀ test ∈ filter.tagTests toLowerCase, ∀ values ∈ test.field,
        ∃ value ∈ values, test.Finds value (jsonEncode event.tags)

/-! ### The tests -/

theorem anyOf_iff {Value : Type*} {field : Option (List Value)} {test : Value → Bool} :
    anyOf field test = true ↔
      ∀ values ∈ field, values = [] ∨ ∃ value ∈ values, test value = true := by
  unfold anyOf
  rw [Option.all_eq_true]
  simp only [Bool.or_eq_true, List.isEmpty_iff, List.any_eq_true]
  rfl

theorem noWildcard_of_mem {test : TagTest} (member : test ∈ filter.tagTests toLowerCase)
    (operator : test.operator = .glob) :
    ∀ character ∈ quoted test.name, character ≠ '*' ∧ character ≠ '?' ∧ character ≠ '[' := by
  have checked : ((quoted test.name).all fun character =>
      decide (character ≠ '*' ∧ character ≠ '?' ∧ character ≠ '[')) = true := by
    simp only [Filter.tagTests, mem_cons, not_mem_nil, or_false] at member
    rcases member with rfl | rfl | rfl | rfl | rfl | rfl | rfl
    all_goals cases operator
    all_goals dsimp only
    all_goals decide
  exact fun character inside => of_decide_eq_true (all_eq_true.mp checked character inside)

theorem fits_iff {test : TagTest} {value : String} {text : List Char}
    (member : test ∈ filter.tagTests toLowerCase) :
    test.fits value text = true ↔ test.Finds value text := by
  unfold TagTest.fits
  cases operator : test.operator with
  | like =>
    rw [append_assoc, cons_append, like_percent_cons]
    simp only [like_append, cons_append, like_inside]
    constructor
    · rintro ⟨before, _, rfl, named, _, rfl, name, between, part, after, rfl, shown⟩
      exact .like operator before named between part after rfl name shown
    · intro finds
      cases finds with
      | like _ before named between part after parts name shown =>
        exact ⟨before, _, parts, named, _, rfl, name, between, part, after, rfl, shown⟩
      | glob other => cases operator.symm.trans other
  | glob =>
    dsimp only
    rw [append_assoc, cons_append, glob_star_cons]
    simp only [glob_plain_append (noWildcard_of_mem member operator), cons_append,
      glob_star_cons]
    constructor
    · rintro ⟨before, _, rfl, _, rfl, between, rest, rfl, shown⟩
      exact .glob operator before between rest rfl shown
    · intro finds
      cases finds with
      | like other => cases operator.symm.trans other
      | glob _ before between rest parts shown =>
        exact ⟨before, _, parts, _, rfl, between, rest, rfl, shown⟩

theorem anyOf_eq_iff {Value : Type*} [DecidableEq Value] {field : Option (List Value)}
    {value : Value} : (anyOf field fun other => decide (value = other)) = true ↔
      ∀ values ∈ field, values = [] ∨ value ∈ values := by
  rw [anyOf_iff]
  simp only [decide_eq_true_eq, exists_eq_right']

theorem search_iff {search : String} {content : List Char} :
    (search.isEmpty || like ('%' :: (search.toList ++ ['%'])) content) = true ↔
      ∃ before part after, content = before ++ (part ++ after) ∧
        like search.toList part = true := by
  rw [Bool.or_eq_true, like_inside]
  refine or_iff_right_of_imp fun empty => ⟨[], [], content, rfl, ?_⟩
  rw [String.isEmpty_iff.mp empty]
  rfl

theorem passes_iff : filter.passes toLowerCase event = true ↔ filter.Takes toLowerCase event := by
  have tags : (filter.tagTests toLowerCase).all (fun test =>
      anyOf test.field fun value => test.fits value (jsonEncode event.tags)) = true ↔
      ∀ test ∈ filter.tagTests toLowerCase, ∀ values ∈ test.field,
        values = [] ∨ ∃ value ∈ values, test.Finds value (jsonEncode event.tags) := by
    rw [List.all_eq_true]
    refine forall₂_congr fun test member => anyOf_iff.trans ?_
    simp only [fits_iff member]
  unfold Filter.passes
  simp only [Bool.and_eq_true, tags, anyOf_eq_iff, Option.all_eq_true, search_iff,
    decide_eq_true_eq]
  constructor
  · rintro ⟨⟨⟨⟨⟨⟨ids, kinds⟩, authors⟩, shown⟩, search⟩, since⟩, latest⟩
    exact ⟨ids, kinds, authors, shown, search, since, latest⟩
  · rintro ⟨ids, kinds, authors, shown, search, since, latest⟩
    exact ⟨⟨⟨⟨⟨⟨ids, kinds⟩, authors⟩, shown⟩, search⟩, since⟩, latest⟩

theorem mem_passing : event ∈ database.passing toLowerCase filter ↔
    event ∈ database.events ∧ filter.Takes toLowerCase event := by
  unfold Database.passing
  rw [mem_filter, passes_iff]

/-! ### Rows and events -/

theorem mapM_rowToEvent {rows events : List Event} :
    rows.mapM (Database.rowToEvent isHexadecimal) = some events ↔
      events = rows ∧ ∀ row ∈ rows, keyIsValid isHexadecimal row.pubkey = true := by
  induction rows generalizing events with
  | nil =>
    exact ⟨fun same => ⟨(Option.some.inj same).symm, nofun⟩, fun same => congrArg some same.1.symm⟩
  | cons row rest ih =>
    rw [mapM_cons, forall_mem_cons, bind_eq_bind, bind_eq_some_iff]
    constructor
    · rintro ⟨made, madeRow, rebuilt⟩
      obtain ⟨others, madeOthers, same⟩ := bind_eq_some_iff.mp rebuilt
      obtain ⟨rfl, valid⟩ := ih.mp madeOthers
      obtain ⟨rowValid, sameRow⟩ := ite_none_right_eq_some.mp madeRow
      cases sameRow
      exact ⟨(Option.some.inj same).symm, rowValid, valid⟩
    · rintro ⟨rfl, rowValid, valid⟩
      refine ⟨row, if_pos rowValid, bind_eq_some_iff.mpr ⟨rest, ?_, rfl⟩⟩
      exact ih.mpr ⟨rfl, valid⟩

theorem allows_iff {Value : Type*} [DecidableEq Value] {field : Option (List Value)} {value : Value}
    (taken : ∀ values ∈ field, values = [] ∨ value ∈ values) :
    allows field value = true ↔ field ≠ some [] := by
  unfold allows
  rw [Option.all_eq_true]
  simp only [List.contains_iff_mem]
  constructor
  · rintro held rfl
    exact List.not_mem_nil (held [] rfl)
  · intro given values same
    refine (taken values same).resolve_left ?_
    rintro rfl
    exact given same

theorem checkEvent_iff (takes : filter.Takes toLowerCase event) :
    filter.checkEvent event = true ↔ filter.ids ≠ some [] ∧ filter.kinds ≠ some [] ∧
      filter.authors ≠ some [] ∧ ∀ field ∈ filter.tagFields,
        event.hasTag field.1 field.2 = true := by
  have since : (filter.since.all fun since => decide (since ≤ event.createdAt)) = true :=
    (Option.all_eq_true _ _).mpr fun since same => decide_eq_true (takes.since since same)
  have latest : (filter.«until».all fun latest => decide (event.createdAt ≤ latest)) = true :=
    (Option.all_eq_true _ _).mpr fun latest same => decide_eq_true (takes.«until» latest same)
  unfold Filter.checkEvent
  rw [since, latest, Bool.and_true, Bool.and_true]
  simp only [Bool.and_eq_true, allows_iff takes.ids, allows_iff takes.kinds,
    allows_iff takes.authors, List.all_eq_true]
  constructor
  · rintro ⟨⟨⟨ids, authors⟩, kinds⟩, tags⟩
    exact ⟨ids, kinds, authors, tags⟩
  · rintro ⟨ids, kinds, authors, tags⟩
    exact ⟨⟨⟨ids, authors⟩, kinds⟩, tags⟩

theorem hasTag_of_checkEvent {test : TagTest} (member : test ∈ filter.tagTests toLowerCase)
    (checked : filter.checkEvent event = true) : event.hasTag test.name test.field = true := by
  have field : (test.name, test.field) ∈ filter.tagFields := by
    simp only [Filter.tagTests, mem_cons, not_mem_nil, or_false] at member
    rcases member with rfl | rfl | rfl | rfl | rfl | rfl | rfl
    all_goals simp [Filter.tagFields]
  exact all_eq_true.mp ((Bool.and_eq_true _ _).mp checked).2 _ field

theorem takes_of_checkEvent (checked : filter.checkEvent event = true)
    (content : filter.contentMatches event)
    (shown : ∀ test ∈ filter.tagTests toLowerCase, ∀ values ∈ test.field,
      ∃ value ∈ values, test.Finds value (jsonEncode event.tags)) :
    filter.Takes toLowerCase event := by
  unfold Filter.checkEvent allows at checked
  simp only [Bool.and_eq_true, Option.all_eq_true, List.contains_iff_mem,
    decide_eq_true_eq] at checked
  obtain ⟨⟨⟨⟨⟨ids, authors⟩, kinds⟩, since⟩, latest⟩, -⟩ := checked
  refine ⟨fun values same => .inr (ids values same), fun values same => .inr (kinds values same),
    fun values same => .inr (authors values same),
    fun test member values same => .inr (shown test member values same), ?_, since, latest⟩
  intro search asked
  obtain ⟨before, part, after, parts, spelled⟩ := content search asked
  exact ⟨before, part, after, parts, like_of_forall₂ spelled⟩

/-! ### When it answers as Nostr -/

/-- The cache answers as Nostr does exactly when the text of the tags tells as much as they do. -/
theorem answersAsNostr_iff (toLowerCase : String → String) (isHexadecimal : String → Bool)
    (database : Database) (filter : Filter) (sortBy : Option String) :
    database.AnswersAsNostr toLowerCase isHexadecimal filter sortBy ↔
      database.TextTellsTags toLowerCase isHexadecimal filter sortBy := by
  constructor
  · intro asNostr
    refine ⟨fun event stored takes within => ?_, fun fewer event stored checked content => ?_⟩
    · obtain ⟨rows, selects, member⟩ := exists_selects (mem_passing.mpr ⟨stored, takes⟩) within
      obtain ⟨events, answered, meets, -⟩ := asNostr _ ⟨rows, selects, rfl⟩
      obtain ⟨rfl, valid⟩ := mapM_rowToEvent.mp answered
      exact ⟨valid event member, (checkEvent_iff takes).mp (meets event member)⟩
    · have selects := selects_sortRows (database.sortKey sortBy) filter.rowLimit
        (database.passing toLowerCase filter)
      obtain ⟨events, answered, -, complete⟩ := asNostr _ ⟨_, selects, rfl⟩
      obtain ⟨rfl, -⟩ := mapM_rowToEvent.mp answered
      have found := complete (length_of_selects selects fewer) event stored checked content
      obtain ⟨-, takes⟩ := mem_passing.mp ((perm_of_selects selects
        (length_of_selects selects fewer)).mem_iff.mp found)
      intro test member values same
      refine (takes.tags test member values same).resolve_left ?_
      rintro rfl
      have held := hasTag_of_checkEvent member checked
      obtain ⟨value, -, allowed⟩ :=
        any_eq_true.mp ((all_eq_true _ _).mp held [] same)
      cases allowed
  · intro tells answer
    rintro ⟨rows, selects, rfl⟩
    have taken : ∀ row ∈ rows, row ∈ database.events ∧ filter.Takes toLowerCase row ∧
        Within (database.sortKey sortBy) filter.rowLimit (database.passing toLowerCase filter)
          row := by
      intro row member
      obtain ⟨passed, within⟩ := within_of_selects selects member
      obtain ⟨stored, takes⟩ := mem_passing.mp passed
      exact ⟨stored, takes, within⟩
    refine ⟨rows, mapM_rowToEvent.mpr ⟨rfl, fun row member => ?_⟩, fun row member => ?_,
      fun fewer row stored checked content => ?_⟩
    · obtain ⟨stored, takes, within⟩ := taken row member
      exact (tells.taken row stored takes within).1
    · obtain ⟨stored, takes, within⟩ := taken row member
      exact (checkEvent_iff takes).mpr (tells.taken row stored takes within).2
    · have perm := perm_of_selects selects fewer
      rw [perm.length_eq] at fewer
      have shown := tells.shown fewer row stored checked content
      exact perm.mem_iff.mpr (mem_passing.mpr ⟨stored, takes_of_checkEvent checked content shown⟩)

def noteWith (tags : List (List String)) : Event where
  id := "1"
  pubkey := String.ofList (List.replicate 64 'a')
  createdAt := 0
  kind := 1
  tags := tags
  content := ""
  sig := ""

def storing (event : Event) : Database where
  events := [event]
  videoMetrics := []
  eventKey := List.pairwise_singleton _ _
  metricsKey := List.nodup_nil

theorem answers_storing (passed : filter.passes toLowerCase event = true)
    (limit : filter.limit = none) (valid : keyIsValid isHexadecimal event.pubkey = true) :
    (storing event).Answers toLowerCase isHexadecimal filter sortBy (some [event]) := by
  have passing : (storing event).passing toLowerCase filter = [event] :=
    (filter_cons_of_pos passed).trans rfl
  refine ⟨[event], ⟨[event], ?_, pairwise_singleton _ _, ?_⟩, ?_⟩
  · rw [passing]
  · unfold Filter.rowLimit
    rw [limit]
    rfl
  · refine (mapM_rowToEvent.mpr ⟨rfl, fun row member => ?_⟩).symm
    rw [mem_singleton.mp member]
    exact valid

/-- Another tag's value is found, a field for h tags is not looked at, no ids allow every id, and
quotes are not found. -/
theorem answers_unlike_nostr :
    (¬(storing (noteWith [["e", "x"], ["p", "y"]])).AnswersAsNostr String.toLower (fun _ => true)
      { Filter.empty with e := some ["y"] } none) ∧
    (¬(storing (noteWith [])).AnswersAsNostr String.toLower (fun _ => true)
      { Filter.empty with h := some ["g"] } none) ∧
    (¬(storing (noteWith [])).AnswersAsNostr String.toLower (fun _ => true)
      { Filter.empty with ids := some [] } none) ∧
    ¬(storing (noteWith [["d", "a\"b"]])).AnswersAsNostr String.toLower (fun _ => true)
      { Filter.empty with d := some ["a\"b"] } none := by
  have wrong : ∀ (event : Event) (filter : Filter), filter.passes String.toLower event = true →
      filter.limit = none → keyIsValid (fun _ => true) event.pubkey = true →
      filter.checkEvent event = false →
      ¬(storing event).AnswersAsNostr String.toLower (fun _ => true) filter none := by
    intro event filter passed limit valid unchecked asNostr
    obtain ⟨events, same, meets, -⟩ := asNostr _ (answers_storing passed limit valid)
    have checked := meets event (Option.some.inj same ▸ mem_singleton_self event)
    rw [unchecked] at checked
    cases checked
  refine ⟨wrong _ _ (by decide) rfl (by decide) (by decide),
    wrong _ _ (by decide) rfl (by decide) (by decide),
    wrong _ _ (by decide) rfl (by decide) (by decide), fun asNostr => ?_⟩
  obtain ⟨events, same, -, complete⟩ := asNostr (some [])
    ⟨[], ⟨[], Perm.refl _, Pairwise.nil, rfl⟩, rfl⟩
  cases same
  exact not_mem_nil (complete (by decide) _ mem_cons_self (by decide) nofun)

end Divine.DbClient
