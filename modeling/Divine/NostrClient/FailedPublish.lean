/-
This file embeds how a client publishes an event and what it writes to the cache for it:
an event that replaces no other is put there before it is sent, and deleted again by its
id when it is not sent.
-/

import Divine.DbClient.Upserts

namespace Divine.NostrClient

open DbClient Table

/-! ### The table -/

structure EventRow where
  event : Event
  expireAt : Option Int
  deriving DecidableEq

def EventRow.id (row : EventRow) : String := row.event.id

structure EventTable where
  rows : List EventRow
  key : Keyed EventRow.id rows

def insertRow (rows : List EventRow) (row : EventRow) : List EventRow :=
  delete rows (fun other => other.id = row.id) ++ [row]

def upsertRow (rows : List EventRow) (row : EventRow) : List EventRow :=
  match selectOne rows fun other => row.event.replaces other.event with
  | none => insertRow rows row
  | some existing =>
      if row.event.createdAt ≤ existing.event.createdAt then rows
      else insertRow (delete rows fun other => other.id = existing.id) row

def deleteRows (rows : List EventRow) (eventIds : List String) : List EventRow :=
  delete rows fun row => eventIds.contains row.id

inductive CacheWrite where
  | upsertEvent (event : Event) (expireAt : Int)
  | deleteEventsByIds (eventIds : List String)
  deriving DecidableEq

def CacheWrite.apply (rows : List EventRow) : CacheWrite → List EventRow
  | .upsertEvent event expireAt => upsertRow rows ⟨event, some expireAt⟩
  | .deleteEventsByIds eventIds => deleteRows rows eventIds

/-- The rows after writes, in the order in which they were issued. -/
def applyWrites (rows : List EventRow) (writes : List CacheWrite) : List EventRow :=
  writes.foldl CacheWrite.apply rows

/-! ### Publishing -/

/-- What a client has and meets when it publishes: a cache, connected relays, the signer, the
relays' answer, and the default expiry. -/
structure Publisher where
  hasCache : Bool
  connectedRelays : List String
  afterRetry : List String
  signer : Event → Option Event
  send : Event → Bool
  defaultExpireAt : Int

def canOptimisticallyCache (kind : Int) : Bool :=
  if kind = 5 then false
  else if isReplaceable kind then false
  else if isParameterizedReplaceable kind then false
  else true

namespace Publisher

variable (publisher : Publisher)

def cacheEvent (event : Event) : List CacheWrite :=
  if publisher.hasCache then [.upsertEvent event publisher.defaultExpireAt] else []

def rollbackCachedEvent (eventId : String) : List CacheWrite :=
  if publisher.hasCache then [.deleteEventsByIds [eventId]] else []

def handleDeletionEvent (deletionEvent : Event) : List CacheWrite :=
  let targetEventIds := deletionEvent.tagValues "e"
  if targetEventIds.isEmpty then []
  else if publisher.hasCache then [.deleteEventsByIds targetEventIds] else []

def signEvent (event : Event) : Event :=
  match publisher.signer event with
  | some ne => { event with id := ne.id, sig := ne.sig }
  | none => event

def sendEvent (event : Event) : Event × Option Event :=
  let signed := if event.sig = "" then publisher.signEvent event else event
  if signed.sig = "" then (signed, none)
  else if publisher.send signed then (signed, some signed) else (signed, none)

def publishEvent (event : Event) : List CacheWrite × Option Event :=
  let useOptimisticCache := canOptimisticallyCache event.kind
  let cached := if useOptimisticCache then publisher.cacheEvent event else []
  if publisher.connectedRelays.isEmpty && publisher.afterRetry.isEmpty then
    (cached ++ (if useOptimisticCache then publisher.rollbackCachedEvent event.id else []), none)
  else
    let (current, sentEvent) := publisher.sendEvent event
    match sentEvent with
    | none =>
        (cached ++
          (if useOptimisticCache then publisher.rollbackCachedEvent current.id else []), none)
    | some sentEvent =>
        let handled :=
          if sentEvent.kind = 5 then publisher.handleDeletionEvent sentEvent
          else if !useOptimisticCache then publisher.cacheEvent sentEvent
          else []
        (cached ++ handled, some sentEvent)

/-- The id that the event has when it is taken back, which signing may have changed. -/
def idAtRollback (event : Event) : String :=
  if publisher.connectedRelays.isEmpty && publisher.afterRetry.isEmpty then event.id
  else if event.sig = "" then (publisher.signEvent event).id
  else event.id

/-- No row has the id of the event, nor the one that signing changes it to. -/
def Restorable (rows : List EventRow) (event : Event) : Prop :=
  if publisher.idAtRollback event = event.id then ∀ row ∈ rows, row.id ≠ event.id
  else ⟨event, some publisher.defaultExpireAt⟩ ∈ rows ∧
    ∀ row ∈ rows, row.id ≠ publisher.idAtRollback event

end Publisher

/-! ### The cache beside the events alone -/

section Cache

variable {rows : List EventRow} {row : EventRow} {event : Event}

/-! ### Rolling back -/

theorem optimistic_iff {kind : Int} : canOptimisticallyCache kind = true ↔
    kind ≠ 5 ∧ isReplaceable kind = false ∧ isParameterizedReplaceable kind = false := by
  unfold canOptimisticallyCache
  split_ifs <;> simp_all

theorem upsertRow_of_optimistic (optimistic : canOptimisticallyCache row.event.kind = true) :
    upsertRow rows row = insertRow rows row := by
  obtain ⟨-, replaceable, parameterized⟩ := optimistic_iff.mp optimistic
  have none : selectOne rows (fun other => row.event.replaces other.event) = none := by
    refine List.find?_eq_none.mpr fun other _ => ?_
    unfold Event.replaces
    rw [if_neg (by rw [replaceable]; exact Bool.false_ne_true), parameterized]
    exact Bool.false_ne_true
  unfold upsertRow
  rw [none]

theorem mem_rolledBack {id : String} {other : EventRow} :
    other ∈ deleteRows (insertRow rows row) [id] ↔
      (other ∈ rows ∧ other.id ≠ row.id ∨ other = row) ∧ other.id ≠ id := by
  unfold deleteRows insertRow
  rw [mem_delete, List.mem_append, mem_delete, List.mem_singleton, decide_eq_false_iff_not]
  exact and_congr_right fun _ => by simp

theorem keyed_rolledBack (key : Keyed EventRow.id rows) (id : String) :
    Keyed EventRow.id (deleteRows (insertRow rows row) [id]) := by
  refine Keyed.delete (Keyed.insert (key.delete _) fun other member => ?_) _
  exact of_decide_eq_false (mem_delete.mp member).2

theorem rolledBack_perm_iff (key : Keyed EventRow.id rows) (id : String) :
    (deleteRows (insertRow rows row) [id]).Perm rows ↔
      if id = row.id then ∀ other ∈ rows, other.id ≠ row.id
      else row ∈ rows ∧ ∀ other ∈ rows, other.id ≠ id := by
  rw [List.perm_ext_iff_of_nodup (List.Nodup.of_map _ (keyed_rolledBack key id))
    (List.Nodup.of_map _ key)]
  simp only [mem_rolledBack]
  by_cases same : id = row.id
  · rw [if_pos same, same]
    refine ⟨fun members other member => ((members other).mpr member).2, fun absent other => ?_⟩
    constructor
    · rintro ⟨⟨member, -⟩ | rfl, differs⟩
      · exact member
      · exact absurd rfl differs
    · intro member
      exact ⟨.inl ⟨member, absent other member⟩, absent other member⟩
  · rw [if_neg same]
    constructor
    · intro members
      exact ⟨(members row).mp ⟨.inr rfl, Ne.symm same⟩,
        fun other member => ((members other).mpr member).2⟩
    · rintro ⟨present, absent⟩ other
      constructor
      · rintro ⟨⟨member, -⟩ | rfl, -⟩
        · exact member
        · exact present
      · intro member
        refine ⟨?_, absent other member⟩
        by_cases own : other.id = row.id
        · exact .inr (key.eq_of_key member present own)
        · exact .inl ⟨member, own⟩

end Cache

/-! ### Failed publishes -/

section Failures

variable {publisher : Publisher} {event : Event}

theorem sendEvent_fst :
    (publisher.sendEvent event).1 = if event.sig =
      "" then publisher.signEvent event else event := by
  unfold Publisher.sendEvent
  dsimp only
  generalize (if event.sig = "" then publisher.signEvent event else event) = signed
  split
  · rfl
  · split <;> rfl

theorem publishEvent_failed (failed : (publisher.publishEvent event).2 = none) :
    (publisher.publishEvent event).1 =
      if canOptimisticallyCache event.kind then
        publisher.cacheEvent event ++ publisher.rollbackCachedEvent (publisher.idAtRollback event)
      else [] := by
  have rolledBack : ∀ id : String,
      (if canOptimisticallyCache event.kind then publisher.cacheEvent event else []) ++
          (if canOptimisticallyCache event.kind then publisher.rollbackCachedEvent id else []) =
        if canOptimisticallyCache event.kind then
          publisher.cacheEvent event ++ publisher.rollbackCachedEvent id
        else [] := by
    intro id
    split <;> rfl
  unfold Publisher.publishEvent at failed ⊢
  unfold Publisher.idAtRollback
  by_cases offline : (publisher.connectedRelays.isEmpty && publisher.afterRetry.isEmpty) = true
  · rw [if_pos offline, if_pos offline]
    exact rolledBack event.id
  · have current := @sendEvent_fst publisher event
    rw [if_neg offline] at failed ⊢
    rw [if_neg offline, ← apply_ite Event.id, ← current]
    cases sent : publisher.sendEvent event with
    | mk after sentEvent =>
      rw [sent] at failed
      cases sentEvent with
      | none => exact rolledBack after.id
      | some sentEvent => cases failed

/-- The table is as it was exactly when nothing was cached or what was cached can be restored. -/
theorem failedPublish_iff (publisher : Publisher) (table : EventTable) (event : Event)
    (failed : (publisher.publishEvent event).2 = none) :
    (applyWrites table.rows (publisher.publishEvent event).1).Perm table.rows ↔
      (publisher.hasCache = true → canOptimisticallyCache event.kind = true →
        publisher.Restorable table.rows event) := by
  rw [publishEvent_failed failed]
  cases optimistic : canOptimisticallyCache event.kind with
  | false =>
    exact iff_of_true (.refl _) fun _ absurd => (Bool.false_ne_true absurd).elim
  | true =>
    unfold Publisher.cacheEvent Publisher.rollbackCachedEvent
    cases publisher.hasCache with
    | false =>
      exact iff_of_true (.refl _) fun absurd => (Bool.false_ne_true absurd).elim
    | true =>
      rw [if_pos rfl, if_pos rfl, imp_iff_right rfl, imp_iff_right rfl]
      show (deleteRows (upsertRow table.rows ⟨event, some publisher.defaultExpireAt⟩)
        [publisher.idAtRollback event]).Perm table.rows ↔ _
      rw [upsertRow_of_optimistic optimistic, rolledBack_perm_iff table.key]
      rfl

end Failures

/-! ### Samples -/

def note (id : String) : Event where
  id := id
  pubkey := "me"
  createdAt := 1
  kind := 1
  tags := []
  content := "hello"
  sig := "signed"

def offlinePublisher : Publisher where
  hasCache := true
  connectedRelays := []
  afterRetry := []
  signer _ := none
  send _ := false
  defaultExpireAt := 86400

def tableOf (id : String) : EventTable where
  rows := [⟨note id, some 100⟩]
  key := List.nodup_singleton _

/-- A note that was not cached leaves nothing behind. -/
theorem failedPublish_sample : (applyWrites (tableOf "other").rows
    (offlinePublisher.publishEvent (note "own")).1).Perm (tableOf "other").rows := by
  refine (failedPublish_iff offlinePublisher (tableOf "other") (note "own") rfl).mpr fun _ _ => ?_
  intro row member
  rw [List.mem_singleton.mp member]
  decide

def renamingPublisher : Publisher :=
  { offlinePublisher with
    connectedRelays := ["wss://relay"]
    signer := fun event => some { event with id := "signed", sig := "signed" } }

/-- A cached note is lost when it is published again without a relay, and one whose id signing
changes is left behind. -/
theorem failedPublish_changes :
    (offlinePublisher.publishEvent (note "own")).2 = none ∧
      applyWrites (tableOf "own").rows (offlinePublisher.publishEvent (note "own")).1 = [] ∧
    (renamingPublisher.publishEvent { note "own" with sig := "" }).2 = none ∧
      applyWrites [] (renamingPublisher.publishEvent { note "own" with sig := "" }).1 =
        [⟨{ note "own" with sig := "" }, some 86400⟩] := by
  decide +kernel

end Divine.NostrClient
