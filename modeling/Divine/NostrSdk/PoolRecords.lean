/-
This file says what the operations of the pool do to the queries that its relays have
recorded.
-/

import Divine.NostrSdk.PoolFrames

namespace Divine.NostrSdk

open Dictionary

namespace RelayPool

variable {pool next : RelayPool} {work : PoolWork} {relay : Nat} {object changed : PooledRelay}
  {id : String} {action : PoolAction} {effects : List PoolEffect}

/-! ### What is recorded -/

def recorded (pool : RelayPool) (id : String) : Nat → Bool :=
  pool.satisfies fun object => object.checkQuery id

def readable (pool : RelayPool) : Nat → Bool := pool.satisfies PooledRelay.readAccess

theorem recorded_of_found (found : pool.objects[relay]? = some object) :
    pool.recorded id relay = object.checkQuery id :=
  satisfies_of_found found

theorem recorded_setObject (found : pool.objects[relay]? = some object) (id : String)
    (other : Nat) : (pool.setObject relay changed).recorded id other =
      if relay = other then changed.checkQuery id else pool.recorded id other := by
  unfold recorded satisfies
  rw [getElem?_setObject found]
  by_cases same : relay = other
  · rw [if_pos same, if_pos same]
    rfl
  · rw [if_neg same, if_neg same]

structure SameQueries (pool next : RelayPool) : Prop where
  recorded : ∀ id relay, next.recorded id relay = pool.recorded id relay
  entries : ∀ entry ∈ pool.entries, entry ∈ next.entries

theorem SameQueries.trans {last : RelayPool} (first : pool.SameQueries next)
    (second : next.SameQueries last) : pool.SameQueries last where
  recorded := fun id relay => (second.recorded id relay).trans (first.recorded id relay)
  entries := fun entry member => second.entries entry (first.entries entry member)

theorem SameQueries.of_same (objects : next.objects = pool.objects)
    (entries : next.entries = pool.entries) : pool.SameQueries next where
  recorded := fun id relay => by
    unfold RelayPool.recorded satisfies
    rw [objects]
  entries := fun _ member => entries ▸ member

theorem SameQueries.refl : pool.SameQueries pool := SameQueries.of_same rfl rfl

theorem SameQueries.setObject (found : pool.objects[relay]? = some object)
    (same : changed.queries = object.queries) :
    pool.SameQueries (pool.setObject relay changed) where
  recorded := fun id other => by
    rw [recorded_setObject found]
    split
    · next own =>
      subst own
      unfold PooledRelay.checkQuery
      rw [same]
      exact (recorded_of_found found).symm
    · rfl
  entries := fun _ member => member

theorem SameQueries.of_new {url : String} {readAccess alwaysAuth : Bool}
    (objects : next.objects = pool.objects ++ [.new url readAccess alwaysAuth])
    (entries : ∀ entry ∈ pool.entries, entry ∈ next.entries) : pool.SameQueries next where
  recorded := fun id relay => by
    unfold RelayPool.recorded satisfies
    rw [objects]
    rcases Nat.lt_trichotomy relay pool.objects.length with inside | rfl | outside
    · rw [List.getElem?_append_left inside]
    · rw [List.getElem?_concat_length, List.getElem?_eq_none_iff.mpr (Nat.le_refl _)]
      rfl
    · rw [List.getElem?_eq_none_iff.mpr (Nat.le_of_lt outside), List.getElem?_eq_none_iff.mpr]
      rw [List.length_append]
      exact outside
  entries := entries

theorem sameQueries_withTemp {addr : String} (unknown : find pool.tempRelays addr = none) :
    pool.SameQueries (pool.withTemp addr) := by
  refine SameQueries.of_new rfl fun entry member => mem_entries.mpr ?_
  exact (mem_entries.mp member).imp_right (Or.imp_left (mem_put_of_absent unknown))

theorem sameQueries_relayOrTemp (pool : RelayPool) (addr : String) :
    pool.SameQueries (pool.relayOrTemp addr).1 := by
  rcases relayOrTemp_cases pool addr with same | ⟨unknown, made⟩
  · rw [same]
    exact SameQueries.refl
  · rw [made]
    exact sameQueries_withTemp unknown

/-! ### Operations -/

theorem recorded_closeQuery (id : String) (work : PoolWork) (relay : Nat) (other : String)
    (asked : Nat) : (closeQuery id work relay).1.recorded other asked =
      if other = id ∧ asked = relay then false else work.1.recorded other asked := by
  unfold closeQuery
  split
  · next missing =>
    split
    · next same =>
      obtain ⟨-, rfl⟩ := same
      unfold recorded satisfies
      rw [missing]
      rfl
    · rfl
  next object found =>
  split
  · rw [recorded_setObject found]
    by_cases own : relay = asked
    · subst own
      rw [if_pos rfl]
      unfold PooledRelay.checkQuery
      rw [find_remove]
      by_cases same : id = other
      · rw [if_pos same, if_pos ⟨same.symm, rfl⟩]
        rfl
      · rw [if_neg same, if_neg fun both => same both.1.symm]
        exact (recorded_of_found found).symm
    · rw [if_neg own, if_neg fun both => own both.2.symm]
  · next absent =>
    split
    · next same =>
      obtain ⟨rfl, rfl⟩ := same
      exact (recorded_of_found found).trans (eq_false_of_ne_true absent)
    · rfl

theorem closeQuery_entries (id : String) (work : PoolWork) (relay : Nat) :
    (closeQuery id work relay).1.entries = work.1.entries := by
  unfold closeQuery
  split
  · rfl
  · split <;> rfl

/-- Only one query is taken from relays. -/
structure Forgets (pool next : RelayPool) (id : String) : Prop where
  others : ∀ other relay, other ≠ id → next.recorded other relay = pool.recorded other relay
  fewer : ∀ relay, next.recorded id relay = true → pool.recorded id relay = true
  entries : next.entries = pool.entries

theorem Forgets.of_same (same : pool.SameQueries next) (entries : next.entries = pool.entries) :
    pool.Forgets next id :=
  ⟨fun other relay _ => same.recorded other relay,
    fun relay recorded => (same.recorded id relay).symm.trans recorded, entries⟩

theorem Forgets.closeQuery (forgets : pool.Forgets work.1 id) (relay : Nat) :
    pool.Forgets (closeQuery id work relay).1 id := by
  refine ⟨fun other asked different => ?_, fun asked recorded => ?_, ?_⟩
  · rw [recorded_closeQuery, if_neg fun both => different both.1]
    exact forgets.others other asked different
  · rw [recorded_closeQuery] at recorded
    split at recorded
    · cases recorded
    · exact forgets.fewer asked recorded
  · rw [closeQuery_entries, forgets.entries]

theorem sameQueries_closeSubscription (id : String) (work : PoolWork) (relay : Nat) :
    work.1.SameQueries (closeSubscription id work relay).1 := by
  unfold closeSubscription
  split
  · exact SameQueries.refl
  next object found =>
  split
  · exact SameQueries.setObject found rfl
  · exact SameQueries.refl

theorem unsubscribe_queries (pool : RelayPool) (id : String) :
    ((find pool.subscriptions id).isSome = true ∧ pool.SameQueries (pool.unsubscribe id).1) ∨
      (find pool.subscriptions id).isSome = false ∧ pool.Forgets (pool.unsubscribe id).1 id := by
  have cleared : pool.SameQueries { pool with
      subscriptions := Dictionary.remove pool.subscriptions id
      subscriptionEoseRelays := Dictionary.remove pool.subscriptionEoseRelays id } :=
    SameQueries.of_same rfl rfl
  unfold unsubscribe
  cases (find pool.subscriptions id).isSome with
  | true =>
    exact .inl ⟨rfl, foldl_induction (fun work => pool.SameQueries work.1)
      (fun work relay same => same.trans (sameQueries_closeSubscription id work relay)) _ cleared⟩
  | false =>
    exact .inr ⟨rfl, foldl_induction (fun work => pool.Forgets work.1 id)
      (fun _ relay forgets => forgets.closeQuery relay) _ (Forgets.of_same cleared rfl)⟩

/-! ### Making a query -/

/-- Only one query is recorded at relays, and they are in the pool. -/
structure Asks (pool next : RelayPool) (id : String) : Prop where
  others : ∀ other relay, other ≠ id → next.recorded other relay = pool.recorded other relay
  more : ∀ relay, pool.recorded id relay = true → next.recorded id relay = true
  new : ∀ relay, next.recorded id relay = true →
    pool.recorded id relay = true ∨ ∃ url, (url, relay) ∈ next.entries
  entries : ∀ entry ∈ pool.entries, entry ∈ next.entries

theorem Asks.of_same (same : pool.SameQueries next) : pool.Asks next id :=
  ⟨fun other relay _ => same.recorded other relay,
    fun relay recorded => (same.recorded id relay).trans recorded,
    fun relay recorded => .inl ((same.recorded id relay).symm.trans recorded), same.entries⟩

theorem Asks.trans {last : RelayPool} (first : pool.Asks next id) (second : next.Asks last id) :
    pool.Asks last id := by
  refine ⟨fun other relay different => ?_, fun relay recorded => ?_, fun relay recorded => ?_,
    fun entry member => second.entries entry (first.entries entry member)⟩
  · exact (second.others other relay different).trans (first.others other relay different)
  · exact second.more relay (first.more relay recorded)
  · rcases second.new relay recorded with before | new
    · refine (first.new relay before).imp_right fun ⟨url, member⟩ => ?_
      exact ⟨url, second.entries _ member⟩
    · exact .inr new

theorem checkQuery_saveQuery (object : PooledRelay) (subscription : Subscription) (id : String) :
    (object.saveQuery subscription).checkQuery id =
      (decide (subscription.id = id) || object.checkQuery id) := by
  unfold PooledRelay.checkQuery PooledRelay.saveQuery
  rw [find_put]
  by_cases own : subscription.id = id
  · rw [if_pos own, decide_eq_true own]
    rfl
  · rw [if_neg own, decide_eq_false own, Bool.false_or]

theorem recorded_relayDoQuery (subscription : Subscription) (sendAfterAuth : Bool) (work : PoolWork)
    (relay : Nat) (id : String) (other : Nat) :
    (relayDoQuery subscription sendAfterAuth work relay).1.recorded id other =
      if subscription.id = id ∧ relay = other ∧ work.1.readable relay = true then true
      else work.1.recorded id other := by
  unfold relayDoQuery relayDo
  split
  · next missing =>
    rw [if_neg fun both => ?_]
    obtain ⟨object, found, -⟩ := (Option.any_eq_true _ _).mp both.2.2
    cases missing.symm.trans found
  next object found =>
  have can : work.1.readable relay = object.readAccess := satisfies_of_found found
  have saved : ∀ changed : PooledRelay, changed.checkQuery id =
      (object.saveQuery subscription).checkQuery id →
      (work.1.setObject relay changed).recorded id other =
        if subscription.id = id ∧ relay = other then true else work.1.recorded id other := by
    intro changed same
    rw [recorded_setObject found, same, checkQuery_saveQuery]
    by_cases own : relay = other
    · subst own
      rw [if_pos rfl, recorded_of_found found]
      by_cases asked : subscription.id = id
      · rw [if_pos ⟨asked, rfl⟩, decide_eq_true asked, Bool.true_or]
      · rw [if_neg fun both => asked both.1, decide_eq_false asked, Bool.false_or]
    · rw [if_neg own, if_neg fun both => own both.2]
  rw [can]
  split
  · next readAccess =>
    rw [readAccess]
    simp only [and_true]
    split
    · exact saved _ rfl
    · exact saved _ rfl
  · next closed => exact (if_neg fun both => closed both.2.2).symm

theorem asks_relayDoQuery {subscription : Subscription} {sendAfterAuth : Bool} (work : PoolWork)
    (url : String) (relay : Nat) (member : (url, relay) ∈ work.1.entries) :
    work.1.Asks (relayDoQuery subscription sendAfterAuth work relay).1 subscription.id := by
  refine ⟨fun other asked different => ?_, fun asked recorded => ?_, fun asked recorded => ?_,
    fun entry kept => ?_⟩
  · rw [recorded_relayDoQuery, if_neg fun both => different both.1.symm]
  · rw [recorded_relayDoQuery, recorded, ite_self]
  · rw [recorded_relayDoQuery] at recorded
    split at recorded
    · next same => exact .inr ⟨url, same.2.1 ▸ relayDo_entries work relay ▸ member⟩
    · exact .inl recorded
  · exact relayDo_entries work relay ▸ kept

theorem query_asks (pool : RelayPool) (subscription : Subscription) (onComplete : Bool)
    (choice : RelayChoice) :
    pool.Asks (pool.query subscription onComplete choice).1 subscription.id := by
  have start : pool.Asks { pool with
      queryCompleteCallbacks :=
        if onComplete then pool.queryCompleteCallbacks.insert subscription.id
        else pool.queryCompleteCallbacks } subscription.id :=
    Asks.of_same (SameQueries.of_same rfl rfl)
  exact start.trans (onRelays_induction (fun work => RelayPool.Asks _ work.1 subscription.id)
    (Asks.of_same SameQueries.refl)
    (fun _ _ _ unknown earlier => earlier.trans (Asks.of_same (sameQueries_withTemp unknown)))
    relayDo_entries
    fun work url relay member earlier => earlier.trans (asks_relayDoQuery work url relay member))

/-! ### Reaching a relay -/

def CanAsk (pool : RelayPool) (addr : String) : Prop :=
  ∀ relay, (find pool.relays addr).or (find pool.tempRelays addr) = some relay →
    pool.readable relay = true

/-- A relay that can be read is chosen. -/
inductive Reaches (pool : RelayPool) (choice : RelayChoice) : Prop where
  | temp (asked : .temp ∈ choice.relayTypes) (addr : String) (chosen : addr ∈ choice.tempRelays)
      (canAsk : pool.CanAsk addr)
  | normal (asked : .normal ∈ choice.relayTypes) (entry : String × Nat)
    (known : entry ∈ pool.relays)
      (target : (choice.targetRelays.all fun targets => targets.contains entry.1) = true)
      (readable : pool.readable entry.2 = true)
  | cache (asked : .cache ∈ choice.relayTypes) (entry : String × Nat)
      (known : entry ∈ pool.cacheRelays) (readable : pool.readable entry.2 = true)

theorem readable_setObject {other : Nat} (found : pool.objects[relay]? = some object)
    (same : changed.readAccess = object.readAccess) :
    (pool.setObject relay changed).readable other = pool.readable other := by
  unfold readable satisfies
  rw [getElem?_setObject found]
  by_cases own : relay = other
  · subst own
    rw [if_pos rfl, found]
    exact same
  · rw [if_neg own]

theorem readable_withTemp {addr : String} (readable : pool.readable relay = true) :
    (pool.withTemp addr).readable relay = true := by
  obtain ⟨object, found, can⟩ := (Option.any_eq_true _ _).mp readable
  obtain ⟨inside, -⟩ := List.getElem?_eq_some_iff.mp found
  refine (Option.any_eq_true _ _).mpr ⟨object, ?_, can⟩
  exact (List.getElem?_append_left inside).trans found

/-- What `relayDoQuery` leaves alone. -/
structure SameRelays (pool next : RelayPool) : Prop where
  readable : ∀ relay, next.readable relay = pool.readable relay
  relays : next.relays = pool.relays
  tempRelays : next.tempRelays = pool.tempRelays
  cacheRelays : next.cacheRelays = pool.cacheRelays

theorem sameRelays_relayDoQuery (subscription : Subscription) (sendAfterAuth : Bool)
    (work : PoolWork) (relay : Nat) :
    work.1.SameRelays (relayDoQuery subscription sendAfterAuth work relay).1 := by
  unfold relayDoQuery relayDo
  split
  · exact ⟨fun _ => rfl, rfl, rfl, rfl⟩
  next object found =>
  split
  · split
    · exact ⟨fun _ => readable_setObject found rfl, rfl, rfl, rfl⟩
    · exact ⟨fun _ => readable_setObject found rfl, rfl, rfl, rfl⟩
  · exact ⟨fun _ => rfl, rfl, rfl, rfl⟩

section Asking

variable {subscription : Subscription} {sendAfterAuth : Bool}

def Asked (id : String) (work : PoolWork) : Prop := ∃ relay, work.1.recorded id relay = true

theorem asked_foldl (relays : List Nat) (work : PoolWork)
    (reaches : Asked subscription.id work ∨ ∃ relay ∈ relays, work.1.readable relay = true) :
    Asked subscription.id (relays.foldl (relayDoQuery subscription sendAfterAuth) work) := by
  induction relays generalizing work with
  | nil => exact reaches.resolve_right fun ⟨_, member, _⟩ => List.not_mem_nil member
  | cons head rest ih =>
    refine ih _ ?_
    rcases reaches with ⟨relay, recorded⟩ | ⟨relay, member, readable⟩
    · refine .inl ⟨relay, ?_⟩
      rw [recorded_relayDoQuery, recorded, ite_self]
    · rcases List.mem_cons.mp member with rfl | later
      · refine .inl ⟨relay, ?_⟩
        rw [recorded_relayDoQuery, if_pos ⟨rfl, rfl, readable⟩]
      · exact .inr ⟨relay, later,
          ((sameRelays_relayDoQuery subscription sendAfterAuth work head).readable relay).trans
            readable⟩

theorem CanAsk.relayOrTemp {addr : String} (canAsk : pool.CanAsk addr) (other : String) :
    (pool.relayOrTemp other).1.CanAsk addr := by
  unfold RelayPool.relayOrTemp
  split
  · exact canAsk
  · next unknown =>
    intro relay found
    by_cases same : other = addr
    · subst same
      rw [(Option.or_eq_none_iff.mp unknown).1, find_put, if_pos rfl] at found
      cases found
      refine (Option.any_eq_true _ _).mpr ⟨_, List.getElem?_concat_length, rfl⟩
    · dsimp only at found
      rw [find_put, if_neg same] at found
      exact readable_withTemp (canAsk relay found)

theorem readable_relayOrTemp {addr : String} (canAsk : pool.CanAsk addr) :
    (pool.relayOrTemp addr).1.readable (pool.relayOrTemp addr).2 = true := by
  unfold RelayPool.relayOrTemp
  split
  · next relay found => exact canAsk relay found
  · exact (Option.any_eq_true _ _).mpr ⟨_, List.getElem?_concat_length, rfl⟩

theorem CanAsk.of_same {addr : String} (canAsk : pool.CanAsk addr) (same : pool.SameRelays next) :
    next.CanAsk addr := by
  intro relay found
  rw [same.relays, same.tempRelays] at found
  exact (same.readable relay).trans (canAsk relay found)

def askTemps (subscription : Subscription) (sendAfterAuth : Bool) (addrs : List String)
    (work : PoolWork) : PoolWork :=
  addrs.foldl (fun work addr => relayDoQuery subscription sendAfterAuth
    ((work.1.relayOrTemp addr).1, work.2) (work.1.relayOrTemp addr).2) work

theorem asked_askTemps (addrs : List String) (work : PoolWork)
    (reaches : Asked subscription.id work ∨ ∃ addr ∈ addrs, work.1.CanAsk addr) :
    Asked subscription.id (askTemps subscription sendAfterAuth addrs work) := by
  induction addrs generalizing work with
  | nil => exact reaches.resolve_right fun ⟨_, member, _⟩ => List.not_mem_nil member
  | cons head rest ih =>
    refine ih _ ?_
    rcases reaches with ⟨relay, recorded⟩ | ⟨addr, member, canAsk⟩
    · refine .inl ⟨relay, ?_⟩
      rw [recorded_relayDoQuery, (sameQueries_relayOrTemp work.1 head).recorded, recorded, ite_self]
    · rcases List.mem_cons.mp member with rfl | later
      · refine .inl ⟨(work.1.relayOrTemp addr).2, ?_⟩
        rw [recorded_relayDoQuery, if_pos ⟨rfl, rfl, readable_relayOrTemp canAsk⟩]
      · refine .inr ⟨addr, later, (canAsk.relayOrTemp head).of_same ?_⟩
        exact sameRelays_relayDoQuery subscription sendAfterAuth
          ((work.1.relayOrTemp head).1, work.2) (work.1.relayOrTemp head).2

theorem askTemps_keeps (subscription : Subscription) (sendAfterAuth : Bool) (addrs : List String)
    (work : PoolWork) :
    let after := askTemps subscription sendAfterAuth addrs work
    work.1.relays ⊆ after.1.relays ∧ work.1.cacheRelays ⊆ after.1.cacheRelays ∧
      ∀ relay, work.1.readable relay = true → after.1.readable relay = true := by
  induction addrs generalizing work with
  | nil => exact ⟨List.Subset.refl _, List.Subset.refl _, fun _ => id⟩
  | cons head rest ih =>
    have same := sameRelays_relayDoQuery subscription sendAfterAuth
      ((work.1.relayOrTemp head).1, work.2) (work.1.relayOrTemp head).2
    obtain ⟨relays, cacheRelays, readable⟩ := ih
      (relayDoQuery subscription sendAfterAuth ((work.1.relayOrTemp head).1, work.2)
        (work.1.relayOrTemp head).2)
    have made : (work.1.relayOrTemp head).1.relays = work.1.relays ∧
        (work.1.relayOrTemp head).1.cacheRelays = work.1.cacheRelays ∧
        ∀ relay, work.1.readable relay = true →
          (work.1.relayOrTemp head).1.readable relay = true := by
      rcases relayOrTemp_cases work.1 head with unchanged | ⟨-, made⟩
      · rw [unchanged]
        exact ⟨rfl, rfl, fun _ => id⟩
      · rw [made]
        exact ⟨rfl, rfl, fun _ => readable_withTemp⟩
    rw [same.relays, made.1] at relays
    rw [same.cacheRelays, made.2.1] at cacheRelays
    refine ⟨relays, cacheRelays, fun relay can => readable relay ?_⟩
    exact (same.readable relay).trans (made.2.2 relay can)

theorem query_reaches (subscription : Subscription) (onComplete : Bool) {choice : RelayChoice}
    (reaches : pool.Reaches choice) :
    ∃ relay,
      (pool.query subscription onComplete choice).1.recorded subscription.id relay = true := by
  have kept := askTemps_keeps subscription choice.sendAfterAuth choice.tempRelays ({ pool with
    queryCompleteCallbacks :=
      if onComplete then pool.queryCompleteCallbacks.insert subscription.id
      else pool.queryCompleteCallbacks }, [])
  refine asked_foldl _ _ ?_
  cases reaches with
  | temp asked addr chosen canAsk =>
    rw [if_pos asked]
    exact .inl (asked_askTemps choice.tempRelays _ (.inr ⟨addr, chosen, canAsk⟩))
  | normal asked entry known target readable =>
    refine .inr ⟨entry.2, List.mem_append_left _ ?_, ?_⟩
    · rw [if_pos asked]
      refine List.mem_map.mpr ⟨entry, List.mem_filter.mpr ⟨?_, target⟩, rfl⟩
      split
      · exact kept.1 known
      · exact known
    · split
      · exact kept.2.2 entry.2 readable
      · exact readable
  | cache asked entry known readable =>
    refine .inr ⟨entry.2, List.mem_append_right _ ?_, ?_⟩
    · rw [if_pos asked]
      refine List.mem_map.mpr ⟨entry, ?_, rfl⟩
      split
      · exact kept.2.1 known
      · exact known
    · split
      · exact kept.2.2 entry.2 readable
      · exact readable

end Asking

/-! ### Steps -/

def mapOf (pool : RelayPool) : RelayType → List (String × Nat)
  | .normal => pool.relays
  | .temp => pool.tempRelays
  | .cache => pool.cacheRelays
  | .local => []

theorem mem_remove_of {entries : List (String × Nat)} {url : String} {entry : String × Nat}
    (member : entry ∈ entries) (other : (url, entry.2) ∉ entries) :
    entry ∈ Dictionary.remove entries url := by
  refine List.mem_filter.mpr ⟨member, decide_eq_true fun same => other ?_⟩
  rw [← same]
  exact member

theorem remove_entries {url : String} {relayType : RelayType} {entry : String × Nat}
    (member : entry ∈ pool.entries) (other : (url, entry.2) ∉ pool.mapOf relayType) :
    entry ∈ (pool.remove url relayType).entries := by
  have kinds := mem_entries.mp member
  refine mem_entries.mpr ?_
  cases relayType with
  | normal => exact kinds.imp_left fun known => mem_remove_of known other
  | temp => exact kinds.imp_right (Or.imp_left fun known => mem_remove_of known other)
  | cache => exact kinds.imp_right (Or.imp_right fun known => mem_remove_of known other)
  | «local» => exact kinds

theorem recorded_remove (pool : RelayPool) (url : String) (relayType : RelayType) (id : String)
    (relay : Nat) : (pool.remove url relayType).recorded id relay = pool.recorded id relay := by
  cases relayType <;> rfl

theorem Edit.sameQueries (quiet : touchesQueries action = false) (edit : Edit action pool next) :
    pool.SameQueries next := by
  have untouched : touchesQueries action ≠ true := Bool.eq_false_iff.mp quiet
  cases edit with
  | same objects entries => exact SameQueries.of_same objects entries
  | change found changes queries =>
    exact SameQueries.setObject found (queries.resolve_left untouched)
  | authenticate acknowledged found => exact SameQueries.setObject found rfl
  | make objects kept entries => exact SameQueries.of_new objects kept
  | drop touches objects entries => exact absurd touches untouched

theorem sameQueries_poolStep (quiet : touchesQueries action = false)
    (stepped : poolStep pool action = some (next, effects)) : pool.SameQueries next := by
  have edits := edits_poolStep stepped
  clear stepped
  induction edits with
  | refl => exact SameQueries.refl
  | tail _ edit same => exact same.trans (edit.sameQueries quiet)

end RelayPool

end Divine.NostrSdk
