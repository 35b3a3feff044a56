/-
This file models the event cache of the web client: a table in IndexedDB with a time of
caching for every event, a memory cache in front of it, and the calls of both.
-/

import Divine.Library.Selection
import Divine.Library.Table
import Mathlib.Data.String.Basic

namespace Divine.EventCache

open Selection Table

/-! ### Events and filters -/

structure Event where
  id : String
  pubkey : String
  createdAt : Nat
  kind : Nat
  tags : List (List String)
  deriving DecidableEq

/-- A filter, with the values of its tag filters under the tags' names. -/
structure Filter where
  ids : Option (List String)
  authors : Option (List String)
  kinds : Option (List Nat)
  since : Option Nat
  untilTime : Option Nat
  limit : Option Nat
  tags : List (String × List String)

namespace Filter

variable (filter : Filter) (event : Event)

/-- Some value of each tag filter is the value of a tag of that name. -/
def matchesTags : Bool :=
  filter.tags.all fun wanted => wanted.2.any fun value =>
    event.tags.any fun tag => tag[0]? = some wanted.1 && tag[1]? = some value

def matchesFilter : Bool :=
  filter.ids.all (fun ids => event.id ∈ ids) &&
  filter.authors.all (fun authors => event.pubkey ∈ authors) &&
  filter.kinds.all (fun kinds => event.kind ∈ kinds) &&
  filter.since.all (fun since => since = 0 || ¬ event.createdAt < since) &&
  filter.untilTime.all (fun untilTime => untilTime = 0 || ¬ untilTime < event.createdAt) &&
  filter.matchesTags event

def accepts : Bool :=
  filter.ids.all (fun ids => event.id ∈ ids) &&
  filter.authors.all (fun authors => event.pubkey ∈ authors) &&
  filter.kinds.all (fun kinds => event.kind ∈ kinds) &&
  filter.since.all (fun since => since ≤ event.createdAt) &&
  filter.untilTime.all (fun untilTime => event.createdAt ≤ untilTime) &&
  filter.matchesTags event

def inRange : Bool :=
  match filter.authors, filter.kinds with
  | some [author], some [kind] => event.pubkey = author && event.kind = kind
  | some [author], _ => event.pubkey = author
  | _, some [kind] => event.kind = kind
  | _, _ => true

/-- The limit as `LIMIT` writes it, negative when there is none. -/
def limitInt : Int := filter.limit.elim (-1) Int.ofNat

end Filter

/-! ### The table -/

structure CachedEvent where
  event : Event
  cachedAt : Nat
  deriving DecidableEq

def CachedEvent.id (row : CachedEvent) : String := row.event.id

def cacheTtl (kind : Nat) : Nat :=
  if kind = 0 then 30 * 60 * 1000
  else if kind = 3 then 60 * 60 * 1000
  else 2 * 60 * 60 * 1000

def isFresh (now : Nat) (row : CachedEvent) : Bool := now - row.cachedAt < cacheTtl row.event.kind

/-- `put`: the rows stay in the order of their key. -/
def put (row : CachedEvent) (rows : List CachedEvent) : List CachedEvent :=
  let others := rows.filter fun other => other.id ≠ row.id
  others.takeWhile (fun other => other.id < row.id) ++
    row :: others.dropWhile fun other => other.id < row.id

/-- The rows that a cursor finds for a filter, those of one key in the order of their primary key.
-/
def found (filter : Filter) (rows : List CachedEvent) : List CachedEvent :=
  rows.filter fun row => filter.inRange row.event && filter.matchesFilter row.event

/-- The number of found rows that are kept, when there is a limit other than zero. -/
def Filter.cut (filter : Filter) : Option Nat := filter.limit.filter (· ≠ 0)

def queryFilter (rows : List CachedEvent) (filter : Filter) : List CachedEvent :=
  filter.cut.elim (found filter rows) fun limit => (found filter rows).take limit

/-- The values of a `Map` by id: a later event takes the place of an earlier one. -/
def uniqueById (events : List Event) : List Event :=
  events.foldl (fun unique event =>
    if event.id ∈ unique.map Event.id then
      unique.map fun other => if other.id = event.id then event else other
    else unique ++ [event]) []

/-- `IndexedDBStore.query`. -/
def queryRows (rows : List CachedEvent) (now : Nat) (filters : List Filter) : List Event :=
  sortRows Event.createdAt (uniqueById
    (((filters.flatMap (queryFilter rows)).filter (isFresh now)).map CachedEvent.event))

/-- `IndexedDBStore.remove`. -/
def removeRows (rows : List CachedEvent) (now : Nat) (filters : List Filter) :
    List CachedEvent :=
  rows.filter fun row => row.id ∉ (queryRows rows now filters).map Event.id

/-! ### The memory cache -/

/-- A right answer of a store: of each filter's matches the newest up to its limit, in descending
order and none twice. -/
def Answers (events : List Event) (filters : List Filter) (answer : List Event) : Prop :=
  ∃ picks : List (List Event),
    List.Forall₂ (fun filter pick =>
      Selects Event.createdAt filter.limitInt (events.filter filter.accepts) pick) filters picks ∧
    (answer.map Event.id).Nodup ∧ Descending Event.createdAt answer ∧
    ∀ event, event ∈ answer ↔ ∃ pick ∈ picks, event ∈ pick

def acceptedBy (filters : List Filter) (event : Event) : Bool :=
  filters.any fun filter => filter.accepts event

def add (memory : List Event) (event : Event) : List Event :=
  event :: memory.filter fun other => other.id ≠ event.id

/-! ### The cache -/

structure State where
  memory : List Event
  rows : List CachedEvent
  now : Nat

/-- The limit that the memory's answer has to reach, none when it is infinite. -/
def firstLimit (filters : List Filter) : Option Nat := filters.head?.bind Filter.cut

def Enough (filters : List Filter) (memoryResults : List Event) : Prop :=
  ∃ limit ∈ firstLimit filters, limit ≤ memoryResults.length

/-- The calls with what they return, and what happens between them. -/
inductive Call where
  | event (event : Event)
  | query (filters : List Filter) (answer : List Event)
  | remove (filters : List Filter)
  | count (filters : List Filter) (answer : Nat)
  | clear
  | pass (duration : Nat)
  | evict (kept : Event → Bool)

/-- `HybridEventCache`. -/
inductive Step (state : State) : Call → State → Prop where
  | event (event : Event) : Step state (.event event)
      { state with
        memory := add state.memory event
        rows := put ⟨event, state.now⟩ state.rows }
  | fromMemory {filters : List Filter} {memoryResults : List Event}
      (answers : Answers state.memory filters memoryResults)
      (enough : Enough filters memoryResults) : Step state (.query filters memoryResults) state
  | fromRows {filters : List Filter} {memoryResults : List Event}
      (answers : Answers state.memory filters memoryResults)
      (short : ¬ Enough filters memoryResults) :
      Step state (.query filters (queryRows state.rows state.now filters))
        { state with
          memory := (queryRows state.rows state.now filters).foldl add state.memory }
  | remove (filters : List Filter) : Step state (.remove filters)
      { state with
        memory := state.memory.filter fun event => !acceptedBy filters event
        rows := removeRows state.rows state.now filters }
  | count (filters : List Filter) :
      Step state (.count filters (queryRows state.rows state.now filters).length) state
  | clear : Step state .clear { state with memory := [], rows := [] }
  | pass (duration : Nat) : Step state (.pass duration) { state with now := state.now + duration }
  | evict (kept : Event → Bool) : Step state (.evict kept)
      { state with memory := state.memory.filter kept }

/-! ### What is stored -/

/-- The abstract store: the rows that were put and not removed. -/
structure Stored where
  rows : List CachedEvent
  now : Nat

def Stored.record (stored : Stored) : Call → Stored
  | .event event => { stored with rows := put ⟨event, stored.now⟩ stored.rows }
  | .remove filters =>
      { stored with rows := stored.rows.filter fun row => !acceptedBy filters row.event }
  | .clear => { stored with rows := [] }
  | .pass duration => { stored with now := stored.now + duration }
  | _ => stored

def Stored.live (stored : Stored) : List Event :=
  (stored.rows.filter (isFresh stored.now)).map CachedEvent.event

end Divine.EventCache
