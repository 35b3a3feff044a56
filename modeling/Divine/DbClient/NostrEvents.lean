/-
This file embeds the cache of events: the filters of Nostr and how an event is checked
against one, the table of events, and the query that is built for a filter.
-/

import Divine.Library.Patterns
import Divine.Library.Selection
import Divine.NostrSdk.Keys
import Mathlib.Algebra.Order.Ring.Unbundled.Rat
import Mathlib.Data.Prod.Lex

namespace Divine.DbClient

open NostrSdk (keyIsValid)
open Patterns Selection

/-! ### Events and filters -/

structure Event where
  id : String
  pubkey : String
  createdAt : Int
  kind : Int
  tags : List (List String)
  content : String
  sig : String
  deriving DecidableEq

structure Filter where
  ids : Option (List String)
  authors : Option (List String)
  kinds : Option (List Int)
  e : Option (List String)
  p : Option (List String)
  t : Option (List String)
  h : Option (List String)
  d : Option (List String)
  a : Option (List String)
  uppercaseE : Option (List String)
  uppercaseA : Option (List String)
  uppercaseK : Option (List String)
  since : Option Int
  «until» : Option Int
  limit : Option Int
  search : Option String
  deriving DecidableEq

def Event.tagValues (event : Event) (name : String) : List String :=
  event.tags.filterMap fun tag =>
    match tag with
    | key :: value :: _ => if key = name then some value else none
    | _ => none

def allows {Value : Type*} [DecidableEq Value] (field : Option (List Value))
    (value : Value) : Bool :=
  field.all fun values => values.contains value

def Event.hasTag (event : Event) (name : String) (field : Option (List String)) : Bool :=
  field.all fun values => (event.tagValues name).any values.contains

namespace Filter

def empty : Filter where
  ids := none
  authors := none
  kinds := none
  e := none
  p := none
  t := none
  h := none
  d := none
  a := none
  uppercaseE := none
  uppercaseA := none
  uppercaseK := none
  since := none
  «until» := none
  limit := none
  search := none

variable (filter : Filter)

def tagFields : List (String × Option (List String)) :=
  [("e", filter.e), ("p", filter.p), ("t", filter.t), ("h", filter.h), ("d", filter.d),
    ("a", filter.a), ("E", filter.uppercaseE), ("A", filter.uppercaseA), ("K", filter.uppercaseK)]

def checkEvent (event : Event) : Bool :=
  allows filter.ids event.id && allows filter.authors event.pubkey &&
    allows filter.kinds event.kind &&
    (filter.since.all fun since => decide (since ≤ event.createdAt)) &&
    (filter.«until».all fun latest => decide (event.createdAt ≤ latest)) &&
    filter.tagFields.all fun field => event.hasTag field.1 field.2

end Filter

/-! ### The table -/

def jsonCharacter (character : Char) : List Char :=
  if character = '"' then ['\\', '"']
  else if character = '\\' then ['\\', '\\']
  else if character.toNat < 32 then
    match character.toNat with
    | 8 => ['\\', 'b']
    | 9 => ['\\', 't']
    | 10 => ['\\', 'n']
    | 12 => ['\\', 'f']
    | 13 => ['\\', 'r']
    | code => ['\\', 'u', '0', '0', Nat.digitChar (code / 16), Nat.digitChar (code % 16)]
  else [character]

def jsonString (text : String) : List Char := '"' :: (text.toList.flatMap jsonCharacter ++ ['"'])

def jsonArray (items : List (List Char)) : List Char :=
  '[' :: (List.intercalate [','] items ++ [']'])

def jsonEncode (tags : List (List String)) : List Char :=
  jsonArray (tags.map fun tag => jsonArray (tag.map jsonString))

example : jsonEncode [["d", "a\"b"], []] = "[[\"d\",\"a\\\"b\"],[]]".toList := by decide

structure VideoMetrics where
  eventId : String
  loopCount : Option Rat
  likes : Option Rat
  views : Option Rat
  comments : Option Rat
  avgCompletion : Option Rat

inductive SortColumn where
  | loopCount
  | likes
  | views
  | comments
  | avgCompletion
  deriving DecidableEq

def VideoMetrics.column (metrics : VideoMetrics) : SortColumn → Option Rat
  | .loopCount => metrics.loopCount
  | .likes => metrics.likes
  | .views => metrics.views
  | .comments => metrics.comments
  | .avgCompletion => metrics.avgCompletion

/-- The tables `event` and `video_metrics` with their primary keys. -/
structure Database where
  events : List Event
  videoMetrics : List VideoMetrics
  eventKey : (events.map Event.id).Nodup
  metricsKey : (videoMetrics.map VideoMetrics.eventId).Nodup

def sortColumn (sortBy : String) : SortColumn :=
  if sortBy = "loop_count" then .loopCount
  else if sortBy = "likes" then .likes
  else if sortBy = "views" then .views
  else if sortBy = "comments" then .comments
  else if sortBy = "avg_completion" then .avgCompletion
  else .loopCount

/-- The key of `ORDER BY`: the metric, when it is asked for and not `NULL`, and `created_at`. -/
def Database.sortKey (database : Database) (sortBy : Option String) (event : Event) :
    Lex (Rat × Int) :=
  toLex
    ((sortBy.bind fun name =>
        if name = "created_at" then none
        else (database.videoMetrics.find? fun metrics => metrics.eventId = event.id).bind
          fun metrics => metrics.column (sortColumn name)).getD 0,
      event.createdAt)

/-! ### The query -/

inductive TagOperator where
  | like
  | glob
  deriving DecidableEq

/-- The tests of the tags for the values of a field, each as it is written into the pattern. -/
structure TagTest where
  operator : TagOperator
  name : String
  field : Option (List String)
  written : String → String

def quoted (text : String) : List Char := '"' :: (text.toList ++ ['"'])

def TagTest.fits (test : TagTest) (value : String) (tags : List Char) : Bool :=
  match test.operator with
  | .like => like ('%' :: quoted test.name ++ '%' :: quoted (test.written value) ++ ['%']) tags
  | .glob => glob ('*' :: quoted test.name ++ '*' :: quoted (test.written value) ++ ['*']) tags

/-- A condition on a list of values is left out when there are none. -/
def anyOf {Value : Type*} (field : Option (List Value)) (test : Value → Bool) : Bool :=
  field.all fun values => values.isEmpty || values.any test

namespace Filter

variable (toLowerCase : String → String) (filter : Filter)

def tagTests : List TagTest :=
  [⟨.like, "t", filter.t, toLowerCase⟩, ⟨.like, "e", filter.e, id⟩, ⟨.like, "p", filter.p, id⟩,
    ⟨.like, "d", filter.d, id⟩, ⟨.glob, "E", filter.uppercaseE, id⟩,
    ⟨.glob, "A", filter.uppercaseA, id⟩, ⟨.glob, "K", filter.uppercaseK, id⟩]

/-- The WHERE clause of `_buildFilterQuery`. -/
def passes (event : Event) : Bool :=
  anyOf filter.ids (fun id => event.id = id) && anyOf filter.kinds
    (fun kind => event.kind = kind) &&
    anyOf filter.authors (fun author => event.pubkey = author) &&
    ((filter.tagTests toLowerCase).all fun test =>
      anyOf test.field fun value => test.fits value (jsonEncode event.tags)) &&
    (filter.search.all fun search => search.isEmpty ||
      like ('%' :: (search.toList ++ ['%'])) event.content.toList) &&
    (filter.since.all fun since => decide (since ≤ event.createdAt)) &&
    filter.«until».all fun latest => decide (event.createdAt ≤ latest)

def rowLimit : Int := filter.limit.getD 100

end Filter

namespace Database

variable (toLowerCase : String → String) (isHexadecimal : String → Bool) (database : Database)
  (filter : Filter) (sortBy : Option String)

def passing : List Event := database.events.filter (filter.passes toLowerCase)

def rowToEvent (row : Event) : Option Event :=
  if keyIsValid isHexadecimal row.pubkey then some row else none

def getEventsByFilter : Option (List Event) :=
  (limitRows filter.rowLimit (sortRows (database.sortKey sortBy)
    (database.passing toLowerCase filter))).mapM (rowToEvent isHexadecimal)

/-- What `getEventsByFilter` may answer: the order of rows of equal keys is not determined. -/
def Answers (answer : Option (List Event)) : Prop :=
  ∃ rows, Selects (database.sortKey sortBy) filter.rowLimit (database.passing toLowerCase filter)
    rows ∧ answer = rows.mapM (rowToEvent isHexadecimal)

end Database

end Divine.DbClient
