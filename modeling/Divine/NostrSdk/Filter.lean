/-
This file models the filters of subscriptions and which events they accept.
-/

import Divine.Models.NostrVideo

namespace Divine.NostrSdk

/-- A filter. Its times are called after the words, which are keywords in part. -/
structure Filter where
  ids : Option (List String) := none
  authors : Option (List String) := none
  kinds : Option (List Nat) := none
  e : Option (List String) := none
  p : Option (List String) := none
  t : Option (List String) := none
  h : Option (List String) := none
  d : Option (List String) := none
  a : Option (List String) := none
  uppercaseE : Option (List String) := none
  uppercaseA : Option (List String) := none
  uppercaseK : Option (List String) := none
  sinceTime : Option Int := none
  untilTime : Option Int := none
  limit : Option Nat := none
  search : Option String := none
  deriving DecidableEq

def tagValues (event : Models.Event) (name : String) : List String :=
  event.tags.filterMap fun tag =>
    match tag with
    | .list (first :: value :: _) => if first = name then some value else none
    | _ => none

namespace Filter

variable (filter : Filter)

def tagFields : List (String × Option (List String)) :=
  [("e", filter.e), ("p", filter.p), ("t", filter.t), ("h", filter.h), ("d", filter.d),
    ("a", filter.a), ("E", filter.uppercaseE), ("A", filter.uppercaseA), ("K", filter.uppercaseK)]

def checkTag (event : Models.Event) (field : String × Option (List String)) : Bool :=
  field.2.all fun values => (tagValues event field.1).any values.contains

def checkEvent (event : Models.Event) : Bool :=
  filter.ids.all (fun ids => ids.contains event.id) &&
    filter.authors.all (fun authors => authors.contains event.pubkey) &&
    filter.kinds.all (fun kinds => kinds.contains event.kind) &&
    filter.sinceTime.all (fun time => time ≤ event.createdAt) &&
    filter.untilTime.all (fun time => event.createdAt ≤ time) &&
    filter.tagFields.all (checkTag event)

/-! ### What is accepted -/

structure Accepts (event : Models.Event) : Prop where
  ids : ∀ ids ∈ filter.ids, event.id ∈ ids
  authors : ∀ authors ∈ filter.authors, event.pubkey ∈ authors
  kinds : ∀ kinds ∈ filter.kinds, event.kind ∈ kinds
  sinceTime : ∀ time ∈ filter.sinceTime, time ≤ event.createdAt
  untilTime : ∀ time ∈ filter.untilTime, event.createdAt ≤ time
  tags : ∀ field ∈ filter.tagFields, checkTag event field = true

/-- The times are in order, and no field for tags is empty. -/
structure Matchable : Prop where
  times : ∀ first ∈ filter.sinceTime, ∀ last ∈ filter.untilTime, first ≤ last
  tags : ∀ field ∈ filter.tagFields, field.2 ≠ some []

/-- Some event is accepted: the times are in order, and no field is empty. -/
structure Satisfiable : Prop where
  ids : filter.ids ≠ some []
  authors : filter.authors ≠ some []
  kinds : filter.kinds ≠ some []
  matchable : filter.Matchable

/-- An event that has the first value of each field for a tag, and no other tag. -/
def matching (id pubkey : String) (kind : Nat) : Models.Event where
  id := id
  pubkey := pubkey
  createdAt := filter.sinceTime.getD (filter.untilTime.getD 0)
  kind := kind
  tags := filter.tagFields.filterMap fun field =>
    (field.2.bind List.head?).map fun value => .list [field.1, value]
  content := ""

variable {filter} {event : Models.Event} {name : String} {values : List String}

theorem accepts_iff : filter.checkEvent event = true ↔ filter.Accepts event := by
  unfold checkEvent
  simp only [Bool.and_eq_true, List.all_eq_true, Option.all_eq_true, List.contains_iff_mem,
    decide_eq_true_eq]
  constructor
  · rintro ⟨⟨⟨⟨⟨ids, authors⟩, kinds⟩, sinceTime⟩, untilTime⟩, tags⟩
    exact ⟨ids, authors, kinds, sinceTime, untilTime, tags⟩
  · rintro ⟨ids, authors, kinds, sinceTime, untilTime, tags⟩
    exact ⟨⟨⟨⟨⟨ids, authors⟩, kinds⟩, sinceTime⟩, untilTime⟩, tags⟩

theorem checkTag_iff : checkTag event (name, some values) = true ↔
    ∃ value ∈ tagValues event name, value ∈ values := by
  unfold checkTag
  rw [Option.all_some, List.any_eq_true]
  simp only [List.contains_iff_mem]

theorem mem_tagValues {value : String} : value ∈ tagValues event name ↔
    ∃ rest, .list (name :: value :: rest) ∈ event.tags := by
  unfold tagValues
  rw [List.mem_filterMap]
  constructor
  · rintro ⟨tag, member, found⟩
    split at found
    · rename_i first other rest
      split at found
      · rename_i same
        cases found
        exact ⟨rest, same ▸ member⟩
      · cases found
    · cases found
  · rintro ⟨rest, member⟩
    exact ⟨_, member, if_pos rfl⟩

theorem tagFields_inj {field other : String × Option (List String)}
    (member : field ∈ filter.tagFields) (alsoMember : other ∈ filter.tagFields)
    (same : field.1 = other.1) : field = other := by
  have names : (filter.tagFields.map Prod.fst).Nodup := by
    show ["e", "p", "t", "h", "d", "a", "E", "A", "K"].Nodup
    decide
  exact List.inj_on_of_nodup_map names member alsoMember same

theorem accepts_matching (matchable : filter.Matchable) {id pubkey : String} {kind : Nat}
    (ids : ∀ ids ∈ filter.ids, id ∈ ids) (authors : ∀ authors ∈ filter.authors, pubkey ∈ authors)
    (kinds : ∀ kinds ∈ filter.kinds, kind ∈ kinds) :
    filter.Accepts (filter.matching id pubkey kind) where
  ids := ids
  authors := authors
  kinds := kinds
  sinceTime := by
    intro time given
    unfold matching
    rw [Option.mem_def.mp given]
    exact le_refl time
  untilTime := by
    intro time given
    unfold matching
    cases held : filter.sinceTime with
    | none =>
      rw [Option.mem_def.mp given]
      exact le_refl time
    | some first => exact matchable.times first held time given
  tags := by
    rintro ⟨name, held⟩ member
    cases held with
    | none => rfl
    | some values =>
      cases values with
      | nil => exact absurd rfl (matchable.tags _ member)
      | cons value rest =>
        refine checkTag_iff.mpr ⟨value, mem_tagValues.mpr ⟨[], ?_⟩, List.mem_cons_self⟩
        exact List.mem_filterMap.mpr ⟨_, member, rfl⟩

theorem Accepts.matchable (accepts : filter.Accepts event) : filter.Matchable where
  times first given last alsoGiven :=
    (accepts.sinceTime first given).trans (accepts.untilTime last alsoGiven)
  tags := by
    rintro ⟨name, held⟩ member rfl
    obtain ⟨value, -, absent⟩ := checkTag_iff.mp (accepts.tags _ member)
    cases absent

theorem Accepts.satisfiable (accepts : filter.Accepts event) : filter.Satisfiable where
  ids empty := List.not_mem_nil (accepts.ids [] empty)
  authors empty := List.not_mem_nil (accepts.authors [] empty)
  kinds empty := List.not_mem_nil (accepts.kinds [] empty)
  matchable := accepts.matchable

theorem checkTag_matching (absent : (name, none) ∈ filter.tagFields) {id pubkey : String}
    {kind : Nat} : checkTag (filter.matching id pubkey kind) (name, some values) = false := by
  rw [← Bool.not_eq_true, checkTag_iff]
  rintro ⟨value, member, -⟩
  obtain ⟨rest, tagged⟩ := mem_tagValues.mp member
  obtain ⟨⟨other, held⟩, present, made⟩ := List.mem_filterMap.mp tagged
  obtain ⟨first, found, same⟩ := Option.map_eq_some_iff.mp made
  have named : other = name := by
    cases same
    rfl
  obtain rfl := (Prod.mk.inj (tagFields_inj present absent named)).2
  cases found

end Filter

end Divine.NostrSdk
