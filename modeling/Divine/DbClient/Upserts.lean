/-
This file embeds how events are put into the cache.
-/

import Divine.DbClient.NostrEvents
import Divine.Library.Table
import Mathlib.Data.List.MinMax

namespace Divine.DbClient

open Table

/-! ### Versions of an event -/

def isReplaceable (kind : Int) : Bool := kind = 0 || kind = 3 || 10000 ≤ kind && kind < 20000

def isParameterizedReplaceable (kind : Int) : Bool := 30000 ≤ kind && kind < 40000

def dTagValue (tags : List (List String)) : String :=
  match tags.find? fun tag => tag.head? = some "d" with
  | some (_ :: value :: _) => value
  | _ => ""

example : dTagValue [["e", "x"], ["d"], ["d", "y"]] = "" := by decide

/-- What the versions of an event have in common. -/
inductive Address where
  | replaceable (pubkey : String) (kind : Int)
  | parameterized (pubkey : String) (kind : Int) (dTag : String)
  deriving DecidableEq

def Event.address (event : Event) : Option Address :=
  if isReplaceable event.kind then some (.replaceable event.pubkey event.kind)
  else if isParameterizedReplaceable event.kind then
    some (.parameterized event.pubkey event.kind (dTagValue event.tags))
  else none

def versions (address : Address) (events : List Event) : List Event :=
  events.filter fun event => event.address = some address

/-! ### Upserts -/

def insertEvent (rows : List Event) (event : Event) : List Event :=
  delete rows (fun row => row.id = event.id) ++ [event]

def deleteEvent (rows : List Event) (id : String) : List Event :=
  delete rows fun row => row.id = id

/-- An upsert looks for a row by the author and the kind, for a parameterized event also by the d
tag. -/
def Event.replaces (event row : Event) : Bool :=
  if isReplaceable event.kind then row.pubkey = event.pubkey && row.kind = event.kind
  else isParameterizedReplaceable event.kind && row.pubkey = event.pubkey &&
    row.kind = event.kind && dTagValue row.tags = dTagValue event.tags

def upsertEvent (rows : List Event) (event : Event) : List Event :=
  match selectOne rows event.replaces with
  | none => insertEvent rows event
  | some existing =>
      if event.createdAt ≤ existing.createdAt then rows
      else insertEvent (deleteEvent rows existing.id) event

def upsertEvents (rows events : List Event) : List Event := events.foldl upsertEvent rows

def profile (id : String) (createdAt : Int) : Event where
  id := id
  pubkey := "me"
  createdAt := createdAt
  kind := 0
  tags := []
  content := id
  sig := ""

/-! ### What one statement does -/

section

variable {rows events : List Event} {event row : Event} {address : Address}

theorem address_eq_some_iff : row.address = event.address ∧ event.address ≠ none ↔
    event.replaces row = true := by
  unfold Event.address Event.replaces
  by_cases replaceable : isReplaceable event.kind = true
  · rw [if_pos replaceable, if_pos replaceable, Bool.and_eq_true, decide_eq_true_eq,
      decide_eq_true_eq]
    constructor
    · rintro ⟨same, -⟩
      split at same
      · injection same with same
        injection same with pubkey kind
        exact ⟨pubkey, kind⟩
      · split at same <;> cases same
    · rintro ⟨pubkey, kind⟩
      rw [if_pos (kind ▸ replaceable), pubkey, kind]
      exact ⟨rfl, nofun⟩
  · rw [if_neg replaceable, if_neg replaceable]
    by_cases parameterized : isParameterizedReplaceable event.kind = true
    · rw [if_pos parameterized]
      simp only [parameterized, Bool.true_and, Bool.and_eq_true, decide_eq_true_eq]
      constructor
      · rintro ⟨same, -⟩
        split at same
        · cases same
        · split at same
          · injection same with same
            injection same with pubkey kind dTag
            exact ⟨⟨pubkey, kind⟩, dTag⟩
          · cases same
      · rintro ⟨⟨pubkey, kind⟩, dTag⟩
        rw [kind, if_neg replaceable, if_pos parameterized, pubkey, dTag]
        exact ⟨rfl, nofun⟩
    · rw [if_neg parameterized, Bool.eq_false_of_not_eq_true parameterized, Bool.false_and,
        Bool.false_and, Bool.false_and]
      exact iff_of_false (fun given => given.2 rfl) Bool.false_ne_true

theorem mem_versions : event ∈ versions address events ↔
    event ∈ events ∧ event.address = some address := by
  unfold versions
  rw [List.mem_filter, decide_eq_true_eq]

theorem mem_insertEvent :
    row ∈ insertEvent rows event ↔ row ∈ rows ∧ row.id ≠ event.id ∨ row = event := by
  unfold insertEvent
  rw [List.mem_append, mem_delete, List.mem_singleton, decide_eq_false_iff_not]

theorem mem_deleteEvent {id : String} : row ∈ deleteEvent rows id ↔ row ∈ rows ∧ row.id ≠ id := by
  unfold deleteEvent
  rw [mem_delete, decide_eq_false_iff_not]

theorem keyed_insertEvent (keyed : Keyed Event.id rows) :
    Keyed Event.id (insertEvent rows event) := by
  refine (keyed.delete _).insert fun row member => ?_
  exact of_decide_eq_false (mem_delete.mp member).2

theorem keyed_upsertEvent (keyed : Keyed Event.id rows) :
    Keyed Event.id (upsertEvent rows event) := by
  unfold upsertEvent
  split
  · exact keyed_insertEvent keyed
  · split
    · exact keyed
    · exact keyed_insertEvent (keyed.delete _)

end

end Divine.DbClient
