/-
This file models how the manager of subscriptions leaves out of the filters what its
caches have, before it sends them to the relays.
-/

import Divine.NostrSdk.Filter
import Mathlib.Data.Fintype.EquivFin

namespace Divine.SubscriptionManager

open List Option

open Models (Event)
open NostrSdk (Filter)

/-! ### Filters without cached data -/

structure EventCache where
  getCachedEvent : String → Option Event
  id_of_get : ∀ {id event}, getCachedEvent id = some event → event.id = id

/-- The caches of a manager that is not disposed. -/
structure Manager where
  eventCache : Option EventCache
  hasProfileCached : Option (String → Bool)

section

variable (manager : Manager) (filter : Filter)

def optimizedLimit : Option Nat :=
  filter.limit.map fun limit => if limit > 100 then 100 else limit

def lookedUpIds : Option (EventCache × List String) :=
  match manager.eventCache, filter.ids with
  | some cache, some ids => if ids.isEmpty then none else some (cache, ids)
  | _, _ => none

/-- The authors of a filter that asks for profiles, with the cache, when both are given. -/
def lookedUpAuthors : Option ((String → Bool) × List String) :=
  match manager.hasProfileCached, filter.kinds, filter.authors with
  | some hasProfileCached, some kinds, some authors =>
      if kinds.contains 0 && !authors.isEmpty then some (hasProfileCached, authors) else none
  | _, _, _ => none

/-- The filter without the ids of cached events, and nothing when all are cached. -/
def filterIds : Option (Option Filter) :=
  match lookedUpIds manager filter with
  | none => some none
  | some (cache, ids) =>
      let missingIds := ids.filter fun id => (cache.getCachedEvent id).isNone
      if missingIds.isEmpty then none
      else some (some
        { ids := some missingIds
          kinds := filter.kinds
          authors := filter.authors
          limit := optimizedLimit filter
          sinceTime := filter.sinceTime
          untilTime := filter.untilTime
          search := filter.search
          e := filter.e
          p := filter.p
          t := filter.t
          h := filter.h })

/-- The filter without the authors of cached profiles, and nothing when all are cached. -/
def filterAuthors (modifiedFilter : Option Filter) : Option (Option Filter) :=
  match lookedUpAuthors manager filter with
  | none => some modifiedFilter
  | some (hasProfileCached, given) =>
      let authors := (modifiedFilter.bind Filter.authors).getD given
      let missingAuthors := authors.filter fun author => !hasProfileCached author
      if missingAuthors.isEmpty then none
      else some (some
        { ids := modifiedFilter.bind Filter.ids
          kinds := filter.kinds
          authors := some missingAuthors
          limit := optimizedLimit filter
          sinceTime := filter.sinceTime
          untilTime := filter.untilTime
          search := filter.search
          e := modifiedFilter.bind Filter.e <|> filter.e
          p := modifiedFilter.bind Filter.p <|> filter.p
          t := modifiedFilter.bind Filter.t <|> filter.t
          h := modifiedFilter.bind Filter.h <|> filter.h })

def filterLimit (modifiedFilter : Option Filter) : Filter :=
  match modifiedFilter with
  | some modified => modified
  | none =>
      if filter.limit.any fun limit => limit > 100 then
        { ids := filter.ids
          kinds := filter.kinds
          authors := filter.authors
          limit := some 100
          sinceTime := filter.sinceTime
          untilTime := filter.untilTime
          search := filter.search
          e := filter.e
          p := filter.p
          t := filter.t
          h := filter.h }
      else filter

def filterCached : Option Filter :=
  (filterIds manager filter).bind fun modifiedFilter =>
    (filterAuthors manager filter modifiedFilter).map (filterLimit filter)

def cachedEvents : List Event :=
  match lookedUpIds manager filter with
  | none => []
  | some (cache, ids) => ids.filterMap cache.getCachedEvent

end

/-- What a subscription sends to the relays, and what it delivers from the cache. -/
structure Subscription where
  filters : List Filter
  events : List Event

def createSubscription (manager : Manager) (filters : List Filter) : Subscription where
  filters := filters.filterMap (filterCached manager)
  events := filters.flatMap (cachedEvents manager)

/-! ### What the caller asked -/

section

variable (manager : Manager)

def KnownProfile (event : Event) : Prop :=
  event.kind = 0 ∧ manager.hasProfileCached.any (fun cached => cached event.pubkey) = true

/-- A subscription asks for what its caller asked. An event is known by its id. -/
structure Faithful (filters : List Filter) : Prop where
  asked : ∀ event, (∃ sent ∈ (createSubscription manager filters).filters,
    sent.checkEvent event = true) → ∃ filter ∈ filters, filter.checkEvent event = true
  answered : ∀ event, (∃ filter ∈ filters, filter.checkEvent event = true) →
    (∃ sent ∈ (createSubscription manager filters).filters, sent.checkEvent event = true) ∨
      (∃ cached ∈ (createSubscription manager filters).events, cached.id = event.id) ∨
        KnownProfile manager event
  delivered : ∀ event ∈ (createSubscription manager filters).events,
    ∃ filter ∈ filters, filter.checkEvent event = true

variable (filter : Filter)

/-- An id is missing in the cache, when ids are looked up. -/
def MissesId : Prop :=
  ∀ cache ids, lookedUpIds manager filter = some (cache, ids) →
    ∃ id ∈ ids, cache.getCachedEvent id = none

/-- A profile is missing in the cache, when authors are looked up. -/
def MissesAuthor : Prop :=
  ∀ cached authors, lookedUpAuthors manager filter = some (cached, authors) →
    ∃ author ∈ authors, cached author = false

def Rebuilds : Prop :=
  (lookedUpIds manager filter).isSome = true ∨ (lookedUpAuthors manager filter).isSome = true ∨
    ∃ limit ∈ filter.limit, 100 < limit

/-- The filter without the fields that are lost when it is built again. -/
def kept : Filter :=
  { filter with
    ids := if (lookedUpAuthors manager filter).isSome then none else filter.ids
    d := none, a := none, uppercaseE := none, uppercaseA := none, uppercaseK := none }

/-- The fields that are lost are not given. The ids are lost when only authors are looked up. -/
structure LosesNothing : Prop where
  d : filter.d = none
  a : filter.a = none
  uppercaseE : filter.uppercaseE = none
  uppercaseA : filter.uppercaseA = none
  uppercaseK : filter.uppercaseK = none
  ids : (lookedUpAuthors manager filter).isSome = true → lookedUpIds manager filter = none →
    filter.ids = none

/-- The cached events of a filter pass it, building it again loses nothing, and profiles are not
looked up for a filter with other kinds. -/
structure Condition : Prop where
  cached : ∀ cache ids, lookedUpIds manager filter = some (cache, ids) → ∀ id ∈ ids, ∀ event,
    cache.getCachedEvent id = some event → filter.checkEvent event = true
  kept : MissesId manager filter → MissesAuthor manager filter → Rebuilds manager filter →
    (kept manager filter).Satisfiable → LosesNothing manager filter
  profiles : ∀ cached authors, lookedUpAuthors manager filter = some (cached, authors) →
    MissesId manager filter → filter.Satisfiable →
      (∀ kinds ∈ filter.kinds, ∀ kind ∈ kinds, kind = 0) ∨
        ∀ author ∈ authors, cached author = false

end

/-! ### What is sent -/

section

variable {manager : Manager} {filter sent : Filter} {event : Event}

theorem ids_of_lookedUp {cache : EventCache} {ids : List String}
    (found : lookedUpIds manager filter = some (cache, ids)) :
    filter.ids = some ids ∧ ids ≠ [] := by
  unfold lookedUpIds at found
  split at found
  · rename_i given
    split at found
    · cases found
    · rename_i present
      cases found
      exact ⟨given, mt isEmpty_iff.mpr present⟩
  · cases found

theorem authors_of_lookedUp {cached : String → Bool} {authors : List String}
    (found : lookedUpAuthors manager filter = some (cached, authors)) :
    manager.hasProfileCached = some cached ∧ filter.authors = some authors ∧
      ∃ kinds, filter.kinds = some kinds ∧ 0 ∈ kinds := by
  unfold lookedUpAuthors at found
  split at found
  · rename_i kinds _ given kindsGiven authorsGiven
    split at found
    · rename_i asks
      cases found
      rw [Bool.and_eq_true, contains_iff_mem] at asks
      exact ⟨given, authorsGiven, kinds, kindsGiven, asks.1⟩
    · cases found
  · cases found

/-- What is sent has the missing ids and authors and the fields that are kept. -/
structure IsSent (manager : Manager) (filter sent : Filter) : Prop where
  ids : sent.ids = match lookedUpIds manager filter with
    | some (cache, ids) => some (ids.filter fun id => (cache.getCachedEvent id).isNone)
    | none => if (lookedUpAuthors manager filter).isSome then none else filter.ids
  authors : sent.authors = match lookedUpAuthors manager filter with
    | some (cached, authors) => some (authors.filter fun author => !cached author)
    | none => filter.authors
  kinds : sent.kinds = filter.kinds
  sinceTime : sent.sinceTime = filter.sinceTime
  untilTime : sent.untilTime = filter.untilTime
  tags : sent.tagFields = (kept manager filter).tagFields

theorem missesId_of_none (absent : lookedUpIds manager filter = none) :
    MissesId manager filter := by
  intro cache ids found
  cases absent.symm.trans found

theorem missesId_iff {cache : EventCache} {ids : List String}
    (found : lookedUpIds manager filter = some (cache, ids)) : MissesId manager filter ↔
      (ids.filter fun id => (cache.getCachedEvent id).isNone) ≠ [] := by
  unfold MissesId
  rw [found]
  simp

theorem missesAuthor_of_none (absent : lookedUpAuthors manager filter = none) :
    MissesAuthor manager filter := by
  intro cached authors found
  cases absent.symm.trans found

theorem missesAuthor_iff {cached : String → Bool} {authors : List String}
    (found : lookedUpAuthors manager filter = some (cached, authors)) :
    MissesAuthor manager filter ↔ (authors.filter fun author => !cached author) ≠ [] := by
  unfold MissesAuthor
  rw [found]
  simp

theorem orElse_self {Value : Type} (value : Option Value) : (value <|> value) = value := by
  cases value <;> rfl

theorem filterCached_of_not_rebuilds (same : ¬Rebuilds manager filter) :
    filterCached manager filter = some filter := by
  unfold Rebuilds at same
  push Not at same
  obtain ⟨noIds, noAuthors, small⟩ := same
  have noIds := Option.not_isSome_iff_eq_none.mp noIds
  have noAuthors := Option.not_isSome_iff_eq_none.mp noAuthors
  unfold filterCached filterIds filterAuthors filterLimit
  simp only [noIds, noAuthors, Option.bind_some, Option.map_some]
  rw [if_neg]
  rw [Option.any_eq_true]
  rintro ⟨limit, given, large⟩
  exact absurd (small limit given) (Nat.not_le.mpr (of_decide_eq_true large))

theorem filterCached_of_rebuilds (rebuilds : Rebuilds manager filter)
    (id : MissesId manager filter) (author : MissesAuthor manager filter) :
    ∃ sent, filterCached manager filter = some sent ∧ IsSent manager filter sent := by
  unfold filterCached filterIds filterAuthors
  cases ids : lookedUpIds manager filter with
  | none =>
    cases authors : lookedUpAuthors manager filter with
    | none =>
      have large : (filter.limit.any fun limit => limit > 100) = true := by
        rcases rebuilds with found | found | ⟨limit, given, large⟩
        · rw [ids] at found
          cases found
        · rw [authors] at found
          cases found
        · exact (Option.any_eq_true _ _).mpr ⟨limit, given, decide_eq_true large⟩
      refine ⟨_, rfl, ?_⟩
      unfold filterLimit
      rw [if_pos large]
      exact ⟨by rw [ids, authors]; rfl, by rw [authors], rfl, rfl, rfl, rfl⟩
    | some found =>
      obtain ⟨cached, given⟩ := found
      have missing := (missesAuthor_iff authors).mp author
      simp only [Option.bind_some, Option.bind_none, Option.getD_none,
        if_neg (mt List.isEmpty_iff.mp missing), Option.map_some]
      exact ⟨_, rfl, by rw [ids, authors]; rfl, by rw [authors]; rfl, rfl, rfl, rfl,
        by unfold kept; rw [authors]; rfl⟩
  | some found =>
    obtain ⟨cache, wanted⟩ := found
    have missingIds := (missesId_iff ids).mp id
    simp only [if_neg (mt List.isEmpty_iff.mp missingIds), Option.bind_some]
    cases authors : lookedUpAuthors manager filter with
    | none => exact ⟨_, rfl, by rw [ids]; rfl, by rw [authors]; rfl, rfl, rfl, rfl,
        by unfold kept; rw [authors]; rfl⟩
    | some found =>
      obtain ⟨cached, given⟩ := found
      have missing := (missesAuthor_iff authors).mp author
      have same := (authors_of_lookedUp authors).2.1
      simp only [same, Option.getD_some, if_neg (mt List.isEmpty_iff.mp missing), Option.map_some,
        orElse_self]
      exact ⟨_, rfl, by rw [ids]; rfl, by rw [authors]; rfl, rfl, rfl, rfl,
        by unfold kept; rw [authors]; rfl⟩

theorem misses_of_filterCached (found : filterCached manager filter = some sent) :
    MissesId manager filter ∧ MissesAuthor manager filter := by
  obtain ⟨modified, idsLeft, rest⟩ := bind_eq_some_iff.mp found
  obtain ⟨_, authorsLeft, -⟩ := map_eq_some_iff.mp rest
  unfold filterIds at idsLeft
  unfold filterAuthors at authorsLeft
  cases ids : lookedUpIds manager filter with
  | none =>
    cases authors : lookedUpAuthors manager filter with
    | none => exact ⟨missesId_of_none ids, missesAuthor_of_none authors⟩
    | some found =>
      obtain ⟨cached, given⟩ := found
      rw [ids] at idsLeft
      cases idsLeft
      simp only [authors, bind_none, getD_none] at authorsLeft
      split at authorsLeft
      · cases authorsLeft
      · rename_i missing
        exact ⟨missesId_of_none ids, (missesAuthor_iff authors).mpr (mt isEmpty_iff.mpr missing)⟩
  | some found =>
    obtain ⟨cache, wanted⟩ := found
    simp only [ids] at idsLeft
    split at idsLeft
    · cases idsLeft
    · rename_i missingIds
      cases idsLeft
      refine ⟨(missesId_iff ids).mpr (mt isEmpty_iff.mpr missingIds), ?_⟩
      cases authors : lookedUpAuthors manager filter with
      | none => exact missesAuthor_of_none authors
      | some found =>
        obtain ⟨cached, given⟩ := found
        have same := (authors_of_lookedUp authors).2.1
        simp only [authors, bind_some, same, getD_some] at authorsLeft
        split at authorsLeft
        · cases authorsLeft
        · rename_i missing
          exact (missesAuthor_iff authors).mpr (mt isEmpty_iff.mpr missing)

theorem IsSent.accepts_iff (isSent : IsSent manager filter sent) : sent.Accepts event ↔
    (kept manager filter).Accepts event ∧
      (∀ cache ids, lookedUpIds manager filter = some (cache, ids) →
        event.id ∈ ids ∧ cache.getCachedEvent event.id = none) ∧
      ∀ cached authors, lookedUpAuthors manager filter = some (cached, authors) →
        cached event.pubkey = false := by
  have ids := isSent.ids
  have authors := isSent.authors
  constructor
  · intro accepts
    refine ⟨⟨?_, ?_, ?_, ?_, ?_, ?_⟩, ?_, ?_⟩
    · intro given isGiven
      unfold kept at isGiven
      split at isGiven
      · cases isGiven
      · cases held : lookedUpIds manager filter with
        | none =>
          simp only [held] at ids
          rename_i absent
          rw [if_neg absent] at ids
          exact accepts.ids given (ids ▸ isGiven)
        | some found =>
          obtain ⟨cache, wanted⟩ := found
          simp only [held] at ids
          have member := accepts.ids _ (mem_def.mpr ids)
          cases (ids_of_lookedUp held).1.symm.trans isGiven
          exact mem_of_mem_filter member
    · intro given isGiven
      cases held : lookedUpAuthors manager filter with
      | none =>
        simp only [held] at authors
        exact accepts.authors given (authors ▸ isGiven)
      | some found =>
        obtain ⟨cached, wanted⟩ := found
        simp only [held] at authors
        have member := accepts.authors _ (mem_def.mpr authors)
        cases (authors_of_lookedUp held).2.1.symm.trans isGiven
        exact mem_of_mem_filter member
    · exact fun given isGiven => accepts.kinds given (isSent.kinds ▸ isGiven)
    · exact fun given isGiven => accepts.sinceTime given (isSent.sinceTime ▸ isGiven)
    · exact fun given isGiven => accepts.untilTime given (isSent.untilTime ▸ isGiven)
    · exact fun field member => accepts.tags field (isSent.tags ▸ member)
    · intro cache wanted held
      simp only [held] at ids
      obtain ⟨member, missing⟩ := mem_filter.mp (accepts.ids _ (mem_def.mpr ids))
      exact ⟨member, isNone_iff_eq_none.mp missing⟩
    · intro cached wanted held
      simp only [held] at authors
      obtain ⟨-, missing⟩ := mem_filter.mp (accepts.authors _ (mem_def.mpr authors))
      exact Bool.not_eq_true' _ ▸ missing
  · rintro ⟨accepts, missingId, missingAuthor⟩
    refine ⟨?_, ?_, ?_, ?_, ?_, ?_⟩
    · intro given isGiven
      rw [mem_def, ids] at isGiven
      cases held : lookedUpIds manager filter with
      | none =>
        simp only [held] at isGiven
        exact accepts.ids given isGiven
      | some found =>
        obtain ⟨cache, wanted⟩ := found
        simp only [held] at isGiven
        cases isGiven
        obtain ⟨member, missing⟩ := missingId cache wanted held
        exact mem_filter.mpr ⟨member, isNone_iff_eq_none.mpr missing⟩
    · intro given isGiven
      rw [mem_def, authors] at isGiven
      cases held : lookedUpAuthors manager filter with
      | none =>
        simp only [held] at isGiven
        exact accepts.authors given isGiven
      | some found =>
        obtain ⟨cached, wanted⟩ := found
        simp only [held] at isGiven
        cases isGiven
        refine mem_filter.mpr ⟨accepts.authors _ (authors_of_lookedUp held).2.1, ?_⟩
        rw [missingAuthor cached wanted held]
        rfl
    · exact fun given isGiven => accepts.kinds given (isSent.kinds ▸ isGiven)
    · exact fun given isGiven => accepts.sinceTime given (isSent.sinceTime ▸ isGiven)
    · exact fun given isGiven => accepts.untilTime given (isSent.untilTime ▸ isGiven)
    · exact fun field member => accepts.tags field (isSent.tags ▸ member)

theorem accepts_kept (accepts : filter.Accepts event) : (kept manager filter).Accepts event where
  ids := by
    intro given isGiven
    unfold kept at isGiven
    split at isGiven
    · cases isGiven
    · exact accepts.ids given isGiven
  authors := accepts.authors
  kinds := accepts.kinds
  sinceTime := accepts.sinceTime
  untilTime := accepts.untilTime
  tags := by
    have each := accepts.tags
    simp only [Filter.tagFields, forall_mem_cons] at each ⊢
    obtain ⟨e, p, t, h, -⟩ := each
    exact ⟨e, p, t, h, rfl, rfl, rfl, rfl, rfl, nofun⟩

theorem accepts_of_kept (loses : LosesNothing manager filter)
    (accepts : (kept manager filter).Accepts event)
    (wanted : ∀ cache ids, lookedUpIds manager filter = some (cache, ids) → event.id ∈ ids) :
    filter.Accepts event where
  ids := by
    intro given isGiven
    by_cases looksUp : (lookedUpAuthors manager filter).isSome = true
    · cases held : lookedUpIds manager filter with
      | none =>
        rw [loses.ids looksUp held] at isGiven
        cases isGiven
      | some found =>
        obtain ⟨cache, ids⟩ := found
        obtain rfl := Option.some.inj ((ids_of_lookedUp held).1.symm.trans isGiven)
        exact wanted cache ids held
    · refine accepts.ids given ?_
      show given ∈ if (lookedUpAuthors manager filter).isSome then none else filter.ids
      rw [if_neg looksUp]
      exact isGiven
  authors := accepts.authors
  kinds := accepts.kinds
  sinceTime := accepts.sinceTime
  untilTime := accepts.untilTime
  tags := by
    have each := accepts.tags
    simp only [Filter.tagFields, forall_mem_cons] at each ⊢
    obtain ⟨e, p, t, h, -⟩ := each
    rw [loses.d, loses.a, loses.uppercaseE, loses.uppercaseA, loses.uppercaseK]
    exact ⟨e, p, t, h, rfl, rfl, rfl, rfl, rfl, nofun⟩

end

/-! ### One filter -/

section

variable {manager : Manager} {filter : Filter}

/-- A filter alone is asked for as its caller asked. -/
structure FaithfulTo (manager : Manager) (filter : Filter) : Prop where
  asked : ∀ event, ∀ sent ∈ filterCached manager filter, sent.checkEvent event = true →
    filter.checkEvent event = true
  answered : ∀ event, filter.checkEvent event = true →
    (∃ sent ∈ filterCached manager filter, sent.checkEvent event = true) ∨
      (∃ cached ∈ cachedEvents manager filter, cached.id = event.id) ∨ KnownProfile manager event
  delivered : ∀ event ∈ cachedEvents manager filter, filter.checkEvent event = true

theorem mem_cachedEvents {cache : EventCache} {ids : List String} {event : Event}
    (found : lookedUpIds manager filter = some (cache, ids)) :
    event ∈ cachedEvents manager filter ↔ ∃ id ∈ ids, cache.getCachedEvent id = some event := by
  unfold cachedEvents
  rw [found]
  exact mem_filterMap

theorem exists_id (misses : MissesId manager filter)
    (present : (kept manager filter).ids ≠ some []) :
    ∃ id, (∀ ids ∈ (kept manager filter).ids, id ∈ ids) ∧
      (∀ cache ids, lookedUpIds manager filter = some (cache, ids) →
        id ∈ ids ∧ cache.getCachedEvent id = none) ∧
      ((lookedUpAuthors manager filter).isSome = true → lookedUpIds manager filter = none →
        ∀ ids ∈ filter.ids, id ∉ ids) := by
  cases held : lookedUpIds manager filter with
  | some found =>
    obtain ⟨cache, ids⟩ := found
    obtain ⟨id, member, missing⟩ := misses cache ids held
    refine ⟨id, fun given isGiven => ?_, fun cache' ids' same => ?_, nofun⟩
    · unfold kept at isGiven
      split at isGiven
      · cases isGiven
      · cases (ids_of_lookedUp held).1.symm.trans isGiven
        exact member
    · cases same
      exact ⟨member, missing⟩
  | none =>
    by_cases looksUp : (lookedUpAuthors manager filter).isSome = true
    · obtain ⟨id, fresh⟩ := Infinite.exists_notMem_finset (filter.ids.getD []).toFinset
      refine ⟨id, fun given isGiven => ?_, nofun,
        fun _ _ given isGiven member => fresh ?_⟩
      · unfold kept at isGiven
        rw [if_pos looksUp] at isGiven
        cases isGiven
      · rw [List.mem_toFinset, mem_def.mp isGiven]
        exact member
    · refine ⟨((kept manager filter).ids.getD []).headD "", fun given isGiven => ?_,
        nofun, fun absent => absurd absent looksUp⟩
      rw [mem_def] at isGiven
      rw [isGiven] at present ⊢
      cases given with
      | nil => exact absurd rfl present
      | cons id rest => exact mem_cons_self

theorem exists_value {Value : Type} [Inhabited Value] {field : Option (List Value)}
    (present : field ≠ some []) : ∃ value, ∀ values ∈ field, value ∈ values := by
  cases field with
  | none => exact ⟨default, nofun⟩
  | some values =>
    cases values with
    | nil => exact absurd rfl present
    | cons value rest =>
      refine ⟨value, fun given isGiven => ?_⟩
      cases isGiven
      exact mem_cons_self

theorem exists_sent {event : Event} (accepts : filter.Accepts event)
    (missingId : ∀ cache ids, lookedUpIds manager filter = some (cache, ids) →
      event.id ∈ ids ∧ cache.getCachedEvent event.id = none)
    (missingAuthor : ∀ cached authors, lookedUpAuthors manager filter = some (cached, authors) →
      event.pubkey ∈ authors ∧ cached event.pubkey = false) :
    ∃ sent ∈ filterCached manager filter, sent.checkEvent event = true := by
  by_cases rebuilds : Rebuilds manager filter
  · obtain ⟨sent, found, isSent⟩ := filterCached_of_rebuilds rebuilds
      (fun cache ids held => ⟨event.id, missingId cache ids held⟩)
      (fun cached authors held => ⟨event.pubkey, missingAuthor cached authors held⟩)
    refine ⟨sent, found, Filter.accepts_iff.mpr (isSent.accepts_iff.mpr ⟨accepts_kept accepts,
      missingId, fun cached authors held => (missingAuthor cached authors held).2⟩)⟩
  · exact ⟨filter, filterCached_of_not_rebuilds rebuilds, Filter.accepts_iff.mpr accepts⟩

theorem asked_of_condition (condition : Condition manager filter) {event : Event} {sent : Filter}
    (found : filterCached manager filter = some sent) (accepts : sent.checkEvent event = true) :
    filter.checkEvent event = true := by
  by_cases rebuilds : Rebuilds manager filter
  · obtain ⟨id, author⟩ := misses_of_filterCached found
    obtain ⟨other, alsoFound, isSent⟩ := filterCached_of_rebuilds rebuilds id author
    cases alsoFound.symm.trans found
    obtain ⟨passes, wanted, -⟩ := isSent.accepts_iff.mp (Filter.accepts_iff.mp accepts)
    exact Filter.accepts_iff.mpr (accepts_of_kept
      (condition.kept id author rebuilds passes.satisfiable) passes
      fun cache ids held => (wanted cache ids held).1)
  · cases (filterCached_of_not_rebuilds rebuilds).symm.trans found
    exact accepts

theorem answered_of_condition (condition : Condition manager filter) {event : Event}
    (accepts : filter.checkEvent event = true) :
    (∃ sent ∈ filterCached manager filter, sent.checkEvent event = true) ∨
      (∃ cached ∈ cachedEvents manager filter, cached.id = event.id) ∨
        KnownProfile manager event := by
  have passes := Filter.accepts_iff.mp accepts
  by_cases isCached : ∃ cache ids held, lookedUpIds manager filter = some (cache, ids) ∧
      cache.getCachedEvent event.id = some held
  · obtain ⟨cache, ids, held, looked, stored⟩ := isCached
    refine .inr (.inl ⟨held, (mem_cachedEvents looked).mpr ⟨event.id, ?_, stored⟩,
      cache.id_of_get stored⟩)
    exact passes.ids ids (ids_of_lookedUp looked).1
  · push Not at isCached
    have missingId : ∀ cache ids, lookedUpIds manager filter = some (cache, ids) →
        event.id ∈ ids ∧ cache.getCachedEvent event.id = none := fun cache ids looked =>
      ⟨passes.ids ids (ids_of_lookedUp looked).1,
        eq_none_iff_forall_ne_some.mpr fun held => isCached cache ids held looked⟩
    by_cases isKnown : ∃ cached authors, lookedUpAuthors manager filter = some (cached, authors) ∧
        cached event.pubkey = true
    · obtain ⟨cached, authors, looked, known⟩ := isKnown
      obtain ⟨given, authorsGiven, kinds, kindsGiven, -⟩ := authors_of_lookedUp looked
      rcases condition.profiles cached authors looked
        (fun cache ids held => ⟨event.id, missingId cache ids held⟩) passes.satisfiable with
        profiles | unknown
      · refine .inr
          (.inr ⟨profiles kinds kindsGiven event.kind (passes.kinds kinds kindsGiven), ?_⟩)
        rw [given]
        exact known
      · rw [unknown event.pubkey (passes.authors authors authorsGiven)] at known
        cases known
    · push Not at isKnown
      exact .inl (exists_sent passes missingId fun cached authors looked =>
        ⟨passes.authors authors (authors_of_lookedUp looked).2.1,
          Bool.eq_false_iff.mpr (isKnown cached authors looked)⟩)

theorem losesNothing_of_faithful (faithful : FaithfulTo manager filter)
    (id : MissesId manager filter) (author : MissesAuthor manager filter)
    (rebuilds : Rebuilds manager filter) (satisfiable : (kept manager filter).Satisfiable) :
    LosesNothing manager filter := by
  obtain ⟨wanted, keeps, missingId, unwanted⟩ := exists_id id satisfiable.ids
  obtain ⟨pubkey, isAuthor, missingAuthor⟩ : ∃ pubkey,
      (∀ authors ∈ filter.authors, pubkey ∈ authors) ∧
        ∀ cached authors, lookedUpAuthors manager filter = some (cached, authors) →
          cached pubkey = false := by
    cases held : lookedUpAuthors manager filter with
    | none =>
      obtain ⟨pubkey, isAuthor⟩ := exists_value satisfiable.authors
      exact ⟨pubkey, isAuthor, nofun⟩
    | some found =>
      obtain ⟨cached, authors⟩ := found
      obtain ⟨pubkey, member, missing⟩ := author cached authors held
      refine ⟨pubkey, fun given isGiven => ?_, fun cached' authors' same => ?_⟩
      · cases (authors_of_lookedUp held).2.1.symm.trans isGiven
        exact member
      · cases same
        exact missing
  obtain ⟨kind, isKind⟩ := exists_value satisfiable.kinds
  have passes := Filter.accepts_matching satisfiable.matchable keeps isAuthor isKind
  obtain ⟨sent, found, isSent⟩ := filterCached_of_rebuilds rebuilds id author
  have accepts := Filter.accepts_iff.mp (faithful.asked _ sent found
    (Filter.accepts_iff.mpr (isSent.accepts_iff.mpr ⟨passes, missingId, missingAuthor⟩)))
  have untagged {name : String} {field : Option (List String)}
      (lost : (name, none) ∈ (kept manager filter).tagFields)
      (given : (name, field) ∈ filter.tagFields) : field = none := by
    cases field with
    | none => rfl
    | some values => cases (Filter.checkTag_matching lost).symm.trans (accepts.tags _ given)
  refine ⟨?_, ?_, ?_, ?_, ?_, fun looksUp absent => ?_⟩
  · exact @untagged "d" _ (by simp [Filter.tagFields, kept]) (by simp [Filter.tagFields])
  · exact @untagged "a" _ (by simp [Filter.tagFields, kept]) (by simp [Filter.tagFields])
  · exact @untagged "E" _ (by simp [Filter.tagFields, kept]) (by simp [Filter.tagFields])
  · exact @untagged "A" _ (by simp [Filter.tagFields, kept]) (by simp [Filter.tagFields])
  · exact @untagged "K" _ (by simp [Filter.tagFields, kept]) (by simp [Filter.tagFields])
  · refine eq_none_iff_forall_ne_some.mpr fun ids given => ?_
    exact unwanted looksUp absent ids given (accepts.ids ids given)

theorem profiles_of_faithful (faithful : FaithfulTo manager filter) {cached : String → Bool}
    {authors : List String} (looked : lookedUpAuthors manager filter = some (cached, authors))
    (id : MissesId manager filter) (satisfiable : filter.Satisfiable) :
    (∀ kinds ∈ filter.kinds, ∀ kind ∈ kinds, kind = 0) ∨
      ∀ author ∈ authors, cached author = false := by
  by_contra lost
  push Not at lost
  obtain ⟨⟨kinds, kindsGiven, kind, isKind, other⟩, pubkey, isAuthor, known⟩ := lost
  have known := Bool.eq_true_of_not_eq_false known
  obtain ⟨wanted, isId, missing⟩ : ∃ wanted, (∀ ids ∈ filter.ids, wanted ∈ ids) ∧
      ∀ cache ids, lookedUpIds manager filter = some (cache, ids) →
        cache.getCachedEvent wanted = none := by
    cases held : lookedUpIds manager filter with
    | none =>
      obtain ⟨wanted, isId⟩ := exists_value satisfiable.ids
      exact ⟨wanted, isId, nofun⟩
    | some found =>
      obtain ⟨cache, ids⟩ := found
      obtain ⟨wanted, member, missing⟩ := id cache ids held
      refine ⟨wanted, fun given isGiven => ?_, fun cache' ids' same => ?_⟩
      · cases (ids_of_lookedUp held).1.symm.trans isGiven
        exact member
      · cases same
        exact missing
  have passes : filter.Accepts (filter.matching wanted pubkey kind) := by
    refine Filter.accepts_matching satisfiable.matchable isId (fun given isGiven => ?_)
      fun given isGiven => ?_
    · cases (authors_of_lookedUp looked).2.1.symm.trans isGiven
      exact isAuthor
    · cases (mem_def.mp kindsGiven).symm.trans isGiven
      exact isKind
  rcases faithful.answered _ (Filter.accepts_iff.mpr passes) with
    ⟨sent, found, accepts⟩ | ⟨held, delivered, same⟩ | ⟨isProfile, -⟩
  · obtain ⟨missesId, missesAuthor⟩ := misses_of_filterCached found
    obtain ⟨rebuilt, alsoFound, isSent⟩ := filterCached_of_rebuilds
      (.inr (.inl (by rw [looked]; rfl))) missesId missesAuthor
    cases alsoFound.symm.trans found
    have unknown :=
      (isSent.accepts_iff.mp (Filter.accepts_iff.mp accepts)).2.2 cached authors looked
    cases unknown.symm.trans known
  · cases ids : lookedUpIds manager filter with
    | none =>
      unfold cachedEvents at delivered
      rw [ids] at delivered
      cases delivered
    | some found =>
      obtain ⟨cache, given⟩ := found
      obtain ⟨id, -, stored⟩ := (mem_cachedEvents ids).mp delivered
      have own : id = wanted := (cache.id_of_get stored).symm.trans same
      rw [own, missing cache given ids] at stored
      cases stored
  · exact other isProfile

theorem condition_iff : Condition manager filter ↔ FaithfulTo manager filter := by
  constructor
  · intro condition
    refine ⟨fun event sent => asked_of_condition condition,
      fun event => answered_of_condition condition, fun event member => ?_⟩
    cases held : lookedUpIds manager filter with
    | none =>
      unfold cachedEvents at member
      rw [held] at member
      cases member
    | some found =>
      obtain ⟨cache, ids⟩ := found
      obtain ⟨id, inside, stored⟩ := (mem_cachedEvents held).mp member
      exact condition.cached cache ids held id inside event stored
  · intro faithful
    refine ⟨fun cache ids looked id member event stored => ?_,
      losesNothing_of_faithful faithful, fun cached authors => profiles_of_faithful faithful⟩
    exact faithful.delivered event ((mem_cachedEvents looked).mpr ⟨id, member, stored⟩)

end

/-! ### All filters -/

section

variable (manager : Manager)

/-- A subscription asks for what its caller asked when each filter meets the condition. -/
theorem faithful_of_conditions :
    (∀ filters, (∀ filter ∈ filters, Condition manager filter) → Faithful manager filters) ∧
      ∀ filter, Faithful manager [filter] ↔ Condition manager filter := by
  have each (filters : List Filter)
      (conditions : ∀ filter ∈ filters, Condition manager filter) : Faithful manager filters := by
    refine ⟨?_, ?_, ?_⟩
    · rintro event ⟨sent, member, accepts⟩
      obtain ⟨filter, inside, found⟩ := mem_filterMap.mp member
      exact ⟨filter, inside, asked_of_condition (conditions filter inside) found accepts⟩
    · rintro event ⟨filter, inside, accepts⟩
      rcases answered_of_condition (conditions filter inside) accepts with
        ⟨sent, found, passes⟩ | ⟨held, delivered, same⟩ | known
      · exact .inl ⟨sent, mem_filterMap.mpr ⟨filter, inside, found⟩, passes⟩
      · exact .inr (.inl ⟨held, mem_flatMap.mpr ⟨filter, inside, delivered⟩, same⟩)
      · exact .inr (.inr known)
    · intro event member
      obtain ⟨filter, inside, delivered⟩ := mem_flatMap.mp member
      exact ⟨filter, inside,
        (condition_iff.mp (conditions filter inside)).delivered event delivered⟩
  refine ⟨each, fun filter => ⟨fun faithful => condition_iff.mpr ⟨?_, ?_, ?_⟩, fun condition =>
    each [filter] fun other member => mem_singleton.mp member ▸ condition⟩⟩
  · intro event sent found accepts
    obtain ⟨other, member, passes⟩ := faithful.asked event
      ⟨sent, mem_filterMap.mpr ⟨filter, mem_singleton_self _, found⟩, accepts⟩
    exact mem_singleton.mp member ▸ passes
  · intro event accepts
    rcases faithful.answered event ⟨filter, mem_singleton_self _, accepts⟩ with
      ⟨sent, member, passes⟩ | ⟨held, member, same⟩ | known
    · obtain ⟨other, inside, found⟩ := mem_filterMap.mp member
      exact .inl ⟨sent, mem_singleton.mp inside ▸ found, passes⟩
    · obtain ⟨other, inside, delivered⟩ := mem_flatMap.mp member
      exact .inr (.inl ⟨held, mem_singleton.mp inside ▸ delivered, same⟩)
    · exact .inr (.inr known)
  · intro event delivered
    obtain ⟨other, member, passes⟩ := faithful.delivered event
      (mem_flatMap.mpr ⟨filter, mem_singleton_self _, delivered⟩)
    exact mem_singleton.mp member ▸ passes

end

section

def sampleManager : Manager := ⟨none, some fun pubkey => pubkey = "alice"⟩

/-- A filter for comments loses the tag of the video, and one for profiles and videos the videos of
a cached author. -/
theorem widens :
    ¬Faithful sampleManager
      [{ kinds := some [1111], uppercaseE := some ["video"], limit := some 500 }] ∧
      ¬Faithful sampleManager [{ kinds := some [0, 34236], authors := some ["alice"] }] := by
  constructor
  · intro faithful
    obtain ⟨filter, member, accepts⟩ := faithful.asked ⟨"comment", "bob", 0, 1111, [], ""⟩
      ⟨_, mem_singleton_self _, by decide⟩
    obtain rfl := mem_singleton.mp member
    revert accepts
    decide
  · intro faithful
    rcases faithful.answered ⟨"post", "alice", 0, 34236, [], ""⟩
      ⟨_, mem_singleton_self _, by decide⟩ with
      ⟨sent, member, -⟩ | ⟨held, member, -⟩ | ⟨isProfile, -⟩
    · cases member
    · cases member
    · cases isProfile

end

end Divine.SubscriptionManager
