/-
This file embeds what a client does with an event that a relay sent or that it published:
a deletion event deletes the events that it names from the cache, and every other event is
put there.
-/

import Divine.DbClient.CacheAnswers
import Divine.DbClient.Upserts

namespace Divine.DbClient

open NostrSdk (keyIsValid)
open Selection Table

/-! ### Events that are received -/

/-- The event is inserted, because no version of it is as new. -/
def supersedes (rows : List Event) (event : Event) : Bool :=
  (selectOne rows event.replaces).all fun existing => existing.createdAt < event.createdAt

/-- The metrics that a video event has in its tags. -/
structure OriginalMetrics where
  loops : Option Rat
  likes : Option Rat
  comments : Option Rat

def upsertVideoMetrics (rows : List VideoMetrics) (eventId : String) (metrics : OriginalMetrics) :
    List VideoMetrics :=
  delete rows (fun row => row.eventId = eventId) ++ [{
    eventId := eventId
    loopCount := metrics.loops
    likes := metrics.likes
    views := none
    comments := metrics.comments
    avgCompletion := none }]

theorem nodup_upsertVideoMetrics {rows : List VideoMetrics} (eventId : String)
    (metrics : OriginalMetrics) (nodup : (rows.map VideoMetrics.eventId).Nodup) :
    ((upsertVideoMetrics rows eventId metrics).map VideoMetrics.eventId).Nodup := by
  have keyed : Keyed VideoMetrics.eventId rows := nodup
  refine (keyed.delete _).insert fun row member => ?_
  exact of_decide_eq_false (mem_delete.mp member).2

namespace Database

variable (originalMetrics : Event → Option OriginalMetrics) (database : Database) (event : Event)

def storeMetrics : Database :=
  match originalMetrics event with
  | none => database
  | some metrics => { database with
      videoMetrics := upsertVideoMetrics database.videoMetrics event.id metrics
      metricsKey := nodup_upsertVideoMetrics event.id metrics database.metricsKey }

def storeEvent : Database :=
  { database with
    events := upsertEvent database.events event
    eventKey := keyed_upsertEvent database.eventKey }

/-- `upsertEvent` with the metrics that it stores of a video event. -/
def upsert : Database :=
  if supersedes database.events event = true ∧ event.kind = 34236 then
    (database.storeEvent event).storeMetrics originalMetrics event
  else database.storeEvent event

def deleteEventsByIds (eventIds : List String) : Database :=
  { database with
    events := delete database.events fun row => eventIds.contains row.id
    eventKey := Keyed.delete database.eventKey _ }

def handleDeletionEvent : Database := database.deleteEventsByIds (event.tagValues "e")

/-- What a subscription does with an event, and publishing with one that was sent. -/
def receive : Database :=
  if event.kind = 5 then database.handleDeletionEvent event
  else database.upsert originalMetrics event

end Database

/-! ### What is kept of others -/

variable {toLowerCase : String → String} {isHexadecimal : String → Bool}
  {originalMetrics : Event → Option OriginalMetrics} {database before after : Database}
  {event row : Event} {author : String}

/-! ### Rows of others -/

end Divine.DbClient
