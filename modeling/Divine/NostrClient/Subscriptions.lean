/-
This file embeds the streams of subscriptions that a client hands out.
-/

import Divine.Library.Dictionary
import Divine.Library.Interleaving

namespace Divine.NostrClient

open Dictionary Interleaving

variable {Filter Callback Event : Type}

/-! ### The client -/

/-- What the pool of relays keeps of a subscription: its handler adds the events to a controller. -/
structure PoolSubscription (Filter Callback : Type) where
  filters : List Filter
  controller : Nat
  onEose : Option Callback

/-- A call of `subscribe` that returned the stream of a controller. -/
structure Consumer (Filter Callback : Type) where
  id : String
  filters : List Filter
  controller : Nat
  onEose : Option Callback

/-- The stream controllers by id, the subscriptions of the pool, the consumers, and the ids that
`closeAllSubscriptions` has left. -/
structure Client (Filter Callback : Type) where
  subscriptionStreams : List (String × Nat)
  controllers : Nat
  closed : List Nat
  poolSubscriptions : List (String × PoolSubscription Filter Callback)
  consumers : List (Consumer Filter Callback)
  closing : List (List String)

namespace Client

def empty : Client Filter Callback where
  subscriptionStreams := []
  controllers := 0
  closed := []
  poolSubscriptions := []
  consumers := []
  closing := []

variable (client : Client Filter Callback)

def openStream (id : String) : Option Nat :=
  (find client.subscriptionStreams id).filter fun controller => controller ∉ client.closed

def join (consumer : Consumer Filter Callback) : Client Filter Callback :=
  { client with consumers := client.consumers ++ [consumer] }

def openController (id : String) : Client Filter Callback :=
  { client with
    subscriptionStreams := put client.subscriptionStreams id client.controllers
    controllers := client.controllers + 1 }

def idOf (filterHash : List Filter → String) (filters : List Filter)
    (subscriptionId : Option String) : String :=
  subscriptionId.getD ("sub_" ++ filterHash filters)

def subscribe (filters : List Filter) (id : String) (onEose : Option Callback) :
    Client Filter Callback :=
  match client.openStream id with
  | some controller => client.join ⟨id, filters, controller, onEose⟩
  | none =>
      let opened := client.openController id
      if filters.isEmpty then opened
      else
        { opened with
          poolSubscriptions :=
            put opened.poolSubscriptions id ⟨filters, client.controllers, onEose⟩ }.join
              ⟨id, filters, client.controllers, onEose⟩

def unsubscribe (id : String) : Client Filter Callback :=
  { client with
    poolSubscriptions := remove client.poolSubscriptions id
    subscriptionStreams := remove client.subscriptionStreams id
    closed := client.closed ++ (find client.subscriptionStreams id).toList }

def leave (position : Nat) (consumer : Consumer Filter Callback) : Client Filter Callback :=
  { client with consumers := client.consumers.eraseIdx position }.unsubscribe consumer.id

def closeId (id : String) : Client Filter Callback :=
  { client with consumers := client.consumers.filter fun consumer => consumer.id ≠ id }.unsubscribe
    id

/-- `closeAllSubscriptions` up to its first await. -/
def closeAll : Client Filter Callback :=
  match client.subscriptionStreams.map Prod.fst with
  | [] => client
  | id :: rest => { client.closeId id with closing := client.closing ++ [rest] }

def closeNext (position : Nat) : List String → Client Filter Callback
  | [] => { client with closing := proceed client.closing position none }
  | id :: rest =>
      { client.closeId id with closing := proceed client.closing position (some rest) }

/-- The controllers that an event is added to which relays send for the subscriptions that ask for
it. -/
def recipients (asks : List Filter → Event → Bool) (event : Event) : List Nat :=
  ((client.poolSubscriptions.filter fun entry => asks entry.2.filters event).map
    fun entry => entry.2.controller).filter fun controller => controller ∉ client.closed

end Client

inductive ClientAction (Filter Callback : Type) where
  | subscribe (filters : List Filter) (subscriptionId : Option String) (onEose : Option Callback)
  | unsubscribe (position : Nat)
  | closeAll
  | closeNext (position : Nat)

def clientStep (filterHash : List Filter → String) (client : Client Filter Callback) :
    ClientAction Filter Callback → Option (Client Filter Callback)
  | .subscribe filters subscriptionId onEose =>
      some (client.subscribe filters (Client.idOf filterHash filters subscriptionId) onEose)
  | .unsubscribe position => client.consumers[position]?.map (client.leave position)
  | .closeAll => some client.closeAll
  | .closeNext position => client.closing[position]?.map (client.closeNext position)

namespace Client

/-- Each consumer gets the events of its filters, its callback is with the pool, and its
subscription is there. -/
structure Serves (asks : List Filter → Event → Bool) (client : Client Filter Callback) : Prop where
  delivers : ∀ consumer ∈ client.consumers, ∀ event,
    consumer.controller ∈ client.recipients asks event ↔ asks consumer.filters event = true
  registered : ∀ consumer ∈ client.consumers, ∀ callback, consumer.onEose = some callback →
    ∃ subscription, find client.poolSubscriptions consumer.id = some subscription ∧
      subscription.onEose = some callback
  used : ∀ id, (find client.poolSubscriptions id).isSome = true ↔
    ∃ consumer ∈ client.consumers, consumer.id = id

/-- A stream found again is of the same filters, for a consumer without a callback, and only the
last consumer unsubscribes. -/
def Compatible (filterHash : List Filter → String) (client : Client Filter Callback) :
    ClientAction Filter Callback → Prop
  | .subscribe filters subscriptionId onEose => ∀ controller,
      client.openStream (idOf filterHash filters subscriptionId) = some controller →
        onEose = none ∧ ∃ subscription,
          find client.poolSubscriptions (idOf filterHash filters subscriptionId) =
            some subscription ∧ subscription.filters = filters
  | .unsubscribe position => ∀ consumer, client.consumers[position]? = some consumer →
      ∀ other ∈ client.consumers.eraseIdx position, other.id ≠ consumer.id
  | .closeAll | .closeNext _ => True

/-! ### What an operation keeps -/

/-- The streams are open and of one id each, and each consumer is served by the subscription of its
id. -/
structure Kept (client : Client Filter Callback) : Prop where
  keyed : (client.poolSubscriptions.map Prod.fst).Nodup
  made : ∀ controller ∈ client.closed, controller < client.controllers
  streams : ∀ id controller, find client.subscriptionStreams id = some controller →
    controller < client.controllers ∧ controller ∉ client.closed
  apart : ∀ id other controller, find client.subscriptionStreams id = some controller →
    find client.subscriptionStreams other = some controller → id = other
  pooled : ∀ id subscription, find client.poolSubscriptions id = some subscription →
    find client.subscriptionStreams id = some subscription.controller
  used : ∀ id subscription, find client.poolSubscriptions id = some subscription →
    ∃ consumer ∈ client.consumers, consumer.id = id
  served : ∀ consumer ∈ client.consumers, ∃ subscription,
    find client.poolSubscriptions consumer.id = some subscription ∧
      subscription.filters = consumer.filters ∧ subscription.controller = consumer.controller ∧
        ∀ callback, consumer.onEose = some callback → subscription.onEose = some callback

theorem kept_empty : Kept (empty : Client Filter Callback) where
  keyed := List.nodup_nil
  made _ member := absurd member List.not_mem_nil
  streams _ _ found := by cases found
  apart _ _ _ found := by cases found
  pooled _ _ found := by cases found
  used _ _ found := by cases found
  served _ member := absurd member List.not_mem_nil

variable {client : Client Filter Callback} {id : String}

section

variable (kept : client.Kept)

include kept

theorem Kept.openStream :
    client.openStream id = find client.subscriptionStreams id := by
  unfold Client.openStream
  cases found : find client.subscriptionStreams id with
  | none => rfl
  | some controller => exact Option.filter_some_pos (decide_eq_true (kept.streams id _ found).2)

theorem Kept.unsubscribe {consumers : List (Consumer Filter Callback)}
    (fewer : consumers ⊆ client.consumers)
    (left : ∀ consumer ∈ client.consumers, consumer.id ≠ id → consumer ∈ consumers)
    (others : ∀ consumer ∈ consumers, consumer.id ≠ id) :
    Kept ({ client with consumers := consumers }.unsubscribe id) where
  keyed := nodup_keys_remove kept.keyed
  made controller member := by
    rcases List.mem_append.mp member with earlier | own
    · exact kept.made controller earlier
    · exact (kept.streams id controller (Option.mem_toList.mp own)).1
  streams other controller found := by
    dsimp only [Client.unsubscribe] at found ⊢
    rw [find_remove] at found
    obtain ⟨differs, found⟩ := Option.ite_none_left_eq_some.mp found
    obtain ⟨older, isOpen⟩ := kept.streams other controller found
    refine ⟨older, fun member => ?_⟩
    rcases List.mem_append.mp member with earlier | own
    · exact isOpen earlier
    · exact differs (kept.apart id other controller (Option.mem_toList.mp own) found)
  apart first second controller found same := by
    dsimp only [Client.unsubscribe] at found same
    rw [find_remove] at found same
    exact kept.apart first second controller (Option.ite_none_left_eq_some.mp found).2
      (Option.ite_none_left_eq_some.mp same).2
  pooled other subscription found := by
    dsimp only [Client.unsubscribe] at found ⊢
    rw [find_remove] at found ⊢
    obtain ⟨differs, found⟩ := Option.ite_none_left_eq_some.mp found
    rw [if_neg differs]
    exact kept.pooled other subscription found
  used other subscription found := by
    dsimp only [Client.unsubscribe] at found ⊢
    rw [find_remove] at found
    obtain ⟨differs, found⟩ := Option.ite_none_left_eq_some.mp found
    obtain ⟨consumer, member, rfl⟩ := kept.used other subscription found
    exact ⟨consumer, left consumer member (Ne.symm differs), rfl⟩
  served consumer member := by
    obtain ⟨subscription, found, rest⟩ := kept.served consumer (fewer member)
    refine ⟨subscription, ?_, rest⟩
    dsimp only [Client.unsubscribe]
    rw [find_remove, if_neg (Ne.symm (others consumer member)), found]

theorem Kept.closeId (id : String) : (client.closeId id).Kept := by
  refine kept.unsubscribe (fun _ => List.mem_of_mem_filter) (fun consumer member differs => ?_)
    (fun consumer member => of_decide_eq_true (List.mem_filter.mp member).2)
  exact List.mem_filter.mpr ⟨member, decide_eq_true differs⟩

theorem Kept.leave {position : Nat} {consumer : Consumer Filter Callback}
    (present : client.consumers[position]? = some consumer)
    (last : ∀ other ∈ client.consumers.eraseIdx position, other.id ≠ consumer.id) :
    (client.leave position consumer).Kept := by
  refine kept.unsubscribe (fun _ => List.mem_of_mem_eraseIdx) (fun other member differs => ?_) last
  rcases mem_proceed_of_mem member position none with same | left
  · exact absurd (congrArg Consumer.id (Option.some.inj (same.symm.trans present))) differs
  · exact left

theorem Kept.join {consumer : Consumer Filter Callback}
    (served : ∃ subscription, find client.poolSubscriptions consumer.id = some subscription ∧
      subscription.filters = consumer.filters ∧ subscription.controller = consumer.controller ∧
        ∀ callback, consumer.onEose = some callback → subscription.onEose = some callback) :
    (client.join consumer).Kept :=
  { kept with
    used := fun id subscription found => by
      obtain ⟨other, member, same⟩ := kept.used id subscription found
      exact ⟨other, List.mem_append_left _ member, same⟩
    served := fun other member => by
      rcases List.mem_append.mp member with earlier | added
      · exact kept.served other earlier
      · rw [List.mem_singleton.mp added]
        exact served }

theorem Kept.openController (absent : find client.subscriptionStreams id = none) :
    (client.openController id).Kept where
  keyed := kept.keyed
  made controller member := Nat.lt_succ_of_lt (kept.made controller member)
  streams other controller found := by
    dsimp only [Client.openController] at found ⊢
    rw [find_put] at found
    by_cases own : id = other
    · rw [if_pos own] at found
      rw [← Option.some.inj found]
      exact ⟨Nat.lt_succ_self _, fun member => Nat.lt_irrefl _ (kept.made _ member)⟩
    · rw [if_neg own] at found
      obtain ⟨older, isOpen⟩ := kept.streams other controller found
      exact ⟨Nat.lt_succ_of_lt older, isOpen⟩
  apart first second controller found same := by
    dsimp only [Client.openController] at found same
    rw [find_put] at found same
    by_cases own : id = first
    · rw [if_pos own] at found
      by_cases also : id = second
      · exact own.symm.trans also
      · rw [if_neg also, ← Option.some.inj found] at same
        exact absurd (kept.streams second _ same).1 (Nat.lt_irrefl _)
    · rw [if_neg own] at found
      by_cases also : id = second
      · rw [if_pos also] at same
        rw [← Option.some.inj same] at found
        exact absurd (kept.streams first _ found).1 (Nat.lt_irrefl _)
      · rw [if_neg also] at same
        exact kept.apart first second controller found same
  pooled other subscription found := by
    dsimp only [Client.openController] at found ⊢
    rw [find_put, if_neg, kept.pooled other subscription found]
    rintro rfl
    cases absent.symm.trans (kept.pooled id subscription found)
  used := kept.used
  served := kept.served

theorem Kept.poolSubscribe (consumer : Consumer Filter Callback)
    (absent : find client.poolSubscriptions consumer.id = none)
    (stream : find client.subscriptionStreams consumer.id = some consumer.controller) :
    Kept ({ client with
      poolSubscriptions := put client.poolSubscriptions consumer.id
        ⟨consumer.filters, consumer.controller, consumer.onEose⟩ }.join consumer) where
  keyed := nodup_keys_put kept.keyed
  made := kept.made
  streams := kept.streams
  apart := kept.apart
  pooled other subscription found := by
    dsimp only [Client.join] at found ⊢
    rw [find_put] at found
    by_cases own : consumer.id = other
    · rw [if_pos own] at found
      rw [← own, ← Option.some.inj found]
      exact stream
    · rw [if_neg own] at found
      exact kept.pooled other subscription found
  used other subscription found := by
    dsimp only [Client.join] at found ⊢
    rw [find_put] at found
    by_cases own : consumer.id = other
    · exact ⟨consumer, List.mem_append_right _ (List.mem_singleton_self _), own⟩
    · rw [if_neg own] at found
      obtain ⟨earlier, member, same⟩ := kept.used other subscription found
      exact ⟨earlier, List.mem_append_left _ member, same⟩
  served other member := by
    dsimp only [Client.join] at member ⊢
    rcases List.mem_append.mp member with earlier | added
    · obtain ⟨subscription, found, rest⟩ := kept.served other earlier
      refine ⟨subscription, ?_, rest⟩
      rw [find_put, if_neg, found]
      rintro same
      rw [same] at absent
      cases absent.symm.trans found
    · rw [List.mem_singleton.mp added, find_put, if_pos rfl]
      exact ⟨_, rfl, rfl, rfl, fun _ same => same⟩

theorem Kept.subscribe {filters : List Filter} {onEose : Option Callback}
    (compatible : ∀ controller, client.openStream id = some controller → onEose = none ∧
      ∃ subscription, find client.poolSubscriptions id = some subscription ∧
        subscription.filters = filters) : (client.subscribe filters id onEose).Kept := by
  unfold Client.subscribe
  rw [kept.openStream] at compatible ⊢
  cases stream : find client.subscriptionStreams id with
  | some controller =>
    obtain ⟨rfl, subscription, found, same⟩ := compatible controller stream
    refine kept.join ⟨subscription, found, same, ?_, nofun⟩
    exact Option.some.inj ((kept.pooled id subscription found).symm.trans stream)
  | none =>
    have opened := kept.openController stream
    have absent : find client.poolSubscriptions id = none := by
      cases found : find client.poolSubscriptions id with
      | none => rfl
      | some subscription => cases stream.symm.trans (kept.pooled id subscription found)
    dsimp only
    split
    · exact opened
    · refine opened.poolSubscribe ⟨id, filters, client.controllers, onEose⟩ absent ?_
      exact (find_put _ id id _).trans (if_pos rfl)

theorem kept_of_step {filterHash : List Filter → String} {action : ClientAction Filter Callback}
    {next : Client Filter Callback} (compatible : client.Compatible filterHash action)
    (stepped : clientStep filterHash client action = some next) : next.Kept := by
  cases action with
  | subscribe filters subscriptionId onEose =>
    cases stepped
    exact kept.subscribe compatible
  | unsubscribe position =>
    obtain ⟨consumer, present, rfl⟩ := Option.map_eq_some_iff.mp stepped
    exact kept.leave present (compatible consumer present)
  | closeAll =>
    cases stepped
    unfold Client.closeAll
    cases client.subscriptionStreams.map Prod.fst with
    | nil => exact kept
    | cons id rest =>
      have closed := kept.closeId id
      exact { closed with }
  | closeNext position =>
    obtain ⟨ids, -, rfl⟩ := Option.map_eq_some_iff.mp stepped
    cases ids with
    | nil => exact { kept with }
    | cons id rest =>
      have closed := kept.closeId id
      exact { closed with }

/-! ### Runs -/

theorem Kept.mem_recipients {subscription : PoolSubscription Filter Callback}
    (found : find client.poolSubscriptions id = some subscription)
    (asks : List Filter → Event → Bool) (event : Event) :
    subscription.controller ∈ client.recipients asks event ↔
      asks subscription.filters event = true := by
  have stream := kept.pooled id subscription found
  constructor
  · intro member
    obtain ⟨entry, inside, same⟩ := List.mem_map.mp (List.mem_of_mem_filter member)
    obtain ⟨present, asked⟩ := List.mem_filter.mp inside
    have entryFound := find_of_mem kept.keyed present
    have entryStream := kept.pooled entry.1 entry.2 entryFound
    rw [same] at entryStream
    rw [kept.apart entry.1 id _ entryStream stream, found] at entryFound
    rw [Option.some.inj entryFound]
    exact asked
  · intro asked
    refine List.mem_filter.mpr ⟨List.mem_map.mpr ⟨(id, subscription), ?_, rfl⟩, ?_⟩
    · exact List.mem_filter.mpr ⟨mem_of_find found, asked⟩
    · exact decide_eq_true (kept.streams id _ stream).2

theorem Kept.serves (asks : List Filter → Event → Bool) :
    client.Serves asks where
  delivers consumer member event := by
    obtain ⟨subscription, found, same, controller, -⟩ := kept.served consumer member
    rw [← same, ← controller]
    exact kept.mem_recipients found asks event
  registered consumer member callback set := by
    obtain ⟨subscription, found, -, -, registered⟩ := kept.served consumer member
    exact ⟨subscription, found, registered callback set⟩
  used id := by
    constructor
    · intro present
      obtain ⟨subscription, found⟩ := Option.isSome_iff_exists.mp present
      exact kept.used id subscription found
    · rintro ⟨consumer, member, rfl⟩
      obtain ⟨subscription, found, -⟩ := kept.served consumer member
      exact Option.isSome_iff_exists.mpr ⟨subscription, found⟩

end

/-- In every run in which consumers are compatible, each of them is served. -/
theorem serves_of_run {filterHash : List Filter → String} (asks : List Filter → Event → Bool)
    {actions : List (ClientAction Filter Callback)} {final : Client Filter Callback}
    (meets : Transition.Meets (clientStep filterHash) (Compatible filterHash) empty actions)
    (ran : Transition.run (clientStep filterHash) empty actions = some final) :
    final.Serves asks :=
  (Transition.invariant_of_meets (clientStep filterHash)
    (fun _ _ _ kept compatible stepped => kept_of_step kept compatible stepped) kept_empty meets
    ran).serves asks

end Client

/-! ### Two consumers -/

/-- Two consumers of the same filters, then others of other filters. -/
def subscriptionsApart : List (ClientAction String Unit) :=
  [.subscribe ["a"] none (some ()), .subscribe ["a"] none none, .subscribe ["b"] (some "x") none,
    .unsubscribe 2]

theorem serves_apart : ∃ final, Transition.run (clientStep fun filters => "".intercalate filters)
    Client.empty subscriptionsApart = some final ∧
      final.Serves (fun filters event => decide (event ∈ filters)) ∧
        final.consumers.map Consumer.filters = [["a"], ["a"]] := by
  suffices meets : Transition.Meets (clientStep fun filters => "".intercalate filters)
      (Client.Compatible fun filters => "".intercalate filters) Client.empty subscriptionsApart from
    ⟨_, rfl, Client.serves_of_run _ meets rfl, rfl⟩
  refine .cons _ (fun _ found => ?_) rfl (.cons _ (fun _ found => ⟨rfl, _, rfl, rfl⟩) rfl
    (.cons _ (fun _ found => ?_) rfl (.cons _ (fun consumer present other member => ?_) rfl
      trivial)))
  · cases found
  · cases found
  · cases present
    have others : ∀ other ∈ ["sub_a", "sub_a"], other ≠ "x" := by decide
    refine others other.id (List.mem_map.mpr ⟨other, member, rfl⟩)

/-- Two consumers of the same filters, the first of which leaves. -/
def firstLeaves : List (ClientAction String Unit) :=
  [.subscribe ["a"] none none, .subscribe ["a"] none none, .unsubscribe 0]

/-- The other gets nothing more. -/
theorem second_unserved : ∃ final, Transition.run (clientStep fun filters => "".intercalate filters)
    Client.empty firstLeaves = some final ∧ final.consumers.map Consumer.filters = [["a"]] ∧
      final.poolSubscriptions.length = 0 ∧
        ¬final.Serves fun filters event => decide (event ∈ filters) := by
  refine ⟨_, rfl, rfl, rfl, fun serves => ?_⟩
  have served := (serves.used "sub_a").mpr ⟨_, List.mem_singleton_self _, rfl⟩
  cases served

end Divine.NostrClient
