/-
This file says what the operations of the pool leave alone.
-/

import Divine.NostrSdk.RelayPool

namespace Divine.NostrSdk

open Dictionary

/-- What a step may do to a relay object, apart from authenticating it. -/
inductive ObjectChange (object : PooledRelay) : PooledRelay → Prop where
  | saveSubscription (subscription : Subscription) :
      ObjectChange object (object.saveSubscription subscription)
  | saveQuery (subscription : Subscription) : ObjectChange object (object.saveQuery subscription)
  | queue (messages : List PoolMessage) :
      ObjectChange object { object with pendingAuthedMessages := messages }
  | closeSubscription (id : String) :
      ObjectChange object { object with
        subscriptions := Dictionary.remove object.subscriptions id }
  | closeQuery (id : String) :
      ObjectChange object { object with queries := Dictionary.remove object.queries id }
  | setAlwaysAuth (alwaysAuth : Bool) :
      ObjectChange object { object with alwaysAuth := alwaysAuth }
  | unauthenticate : ObjectChange object { object with authed := false }

namespace RelayPool

variable {pool next : RelayPool} {work : PoolWork} {relay : Nat} {object changed : PooledRelay}

/-! ### Relay objects -/

@[simp] theorem setObject_relays : (pool.setObject relay object).relays = pool.relays := rfl

@[simp] theorem setObject_entries : (pool.setObject relay object).entries = pool.entries := rfl

@[simp] theorem setObject_subscriptions :
    (pool.setObject relay object).subscriptions = pool.subscriptions := rfl

theorem getElem?_setObject (found : pool.objects[relay]? = some object) (other : Nat) :
    (pool.setObject relay changed).objects[other]? =
      if relay = other then some changed else pool.objects[other]? := by
  change (pool.objects.set relay changed)[other]? = _
  rw [List.getElem?_set]
  obtain ⟨inside, -⟩ := List.getElem?_eq_some_iff.mp found
  by_cases same : relay = other
  · rw [if_pos same, if_pos same, if_pos inside]
  · rw [if_neg same, if_neg same]

/-- Every relay object is still there, with its address. -/
def Extends (pool next : RelayPool) : Prop :=
  ∀ (relay : Nat) (object : PooledRelay), pool.objects[relay]? = some object →
    ∃ later : PooledRelay, next.objects[relay]? = some later ∧ later.url = object.url

theorem Extends.refl : pool.Extends pool := fun _ object found => ⟨object, found, rfl⟩

theorem Extends.trans {last : RelayPool} (first : pool.Extends next) (second : next.Extends last) :
    pool.Extends last := by
  intro relay object found
  obtain ⟨later, foundLater, sameLater⟩ := first relay object found
  obtain ⟨final, foundFinal, sameFinal⟩ := second relay later foundLater
  exact ⟨final, foundFinal, sameFinal.trans sameLater⟩

theorem extends_setObject (found : pool.objects[relay]? = some object)
    (same : changed.url = object.url) : pool.Extends (pool.setObject relay changed) := by
  intro other present presentFound
  rw [getElem?_setObject found]
  by_cases equal : relay = other
  · subst equal
    cases found.symm.trans presentFound
    exact ⟨changed, if_pos rfl, same⟩
  · exact ⟨present, (if_neg equal).trans presentFound, rfl⟩

theorem extends_append {objects : List PooledRelay}
    (appended : next.objects = pool.objects ++ objects) : pool.Extends next := by
  intro other present found
  obtain ⟨inside, -⟩ := List.getElem?_eq_some_iff.mp found
  refine ⟨present, ?_, rfl⟩
  rw [appended, List.getElem?_append_left inside]
  exact found

/-- The maps of the pool name relay objects by their addresses. -/
def Keyed (pool : RelayPool) : Prop :=
  ∀ entry ∈ pool.entries, ∃ object : PooledRelay,
    pool.objects[entry.2]? = some object ∧ object.url = entry.1

theorem Keyed.extends (keyed : pool.Keyed) (later : pool.Extends next)
    (entries : ∀ entry ∈ next.entries, entry ∈ pool.entries ∨
      ∃ object : PooledRelay, next.objects[entry.2]? = some object ∧ object.url = entry.1) :
    next.Keyed := by
  intro entry member
  rcases entries entry member with old | new
  · obtain ⟨object, found, same⟩ := keyed entry old
    obtain ⟨object', found', same'⟩ := later entry.2 object found
    exact ⟨object', found', same'.trans same⟩
  · exact new

/-! ### Going over relays -/

theorem mem_entries {entry : String × Nat} :
    entry ∈ pool.entries ↔
      entry ∈ pool.relays ∨ entry ∈ pool.tempRelays ∨ entry ∈ pool.cacheRelays := by
  unfold entries
  rw [List.mem_append, List.mem_append, or_assoc]

def withTemp (pool : RelayPool) (addr : String) : RelayPool :=
  { pool with
    objects := pool.objects ++ [.new addr true false]
    tempRelays := put pool.tempRelays addr pool.objects.length }

theorem relayOrTemp_cases (pool : RelayPool) (addr : String) :
    (pool.relayOrTemp addr).1 = pool ∨
      find pool.tempRelays addr = none ∧ (pool.relayOrTemp addr).1 = pool.withTemp addr := by
  unfold relayOrTemp
  split
  · exact .inl rfl
  · next unknown => exact .inr ⟨(Option.or_eq_none_iff.mp unknown).2, rfl⟩

theorem relayOrTemp_mem (pool : RelayPool) (addr : String) :
    (addr, (pool.relayOrTemp addr).2) ∈ (pool.relayOrTemp addr).1.entries := by
  unfold relayOrTemp
  split
  · next relay found =>
    rcases Option.or_eq_some_iff.mp found with normal | ⟨-, temp⟩
    · exact mem_entries.mpr (.inl (mem_of_find normal))
    · exact mem_entries.mpr (.inr (.inl (mem_of_find temp)))
  · next unknown =>
    refine mem_entries.mpr (.inr (.inl (mem_of_find ?_)))
    rw [find_put, if_pos rfl]

variable {choice : RelayChoice} {save : PooledRelay → PooledRelay} {subscription : Subscription}
  {sendAfterAuth : Bool} {relayType : RelayType} {after : PoolWork} {action : PoolAction}

/-- Going over the chosen relays keeps what making a temporary relay and each act keep, when acts
leave the maps alone. -/
theorem onRelays_induction (property : PoolWork → Prop) {act : PoolWork → Nat → PoolWork}
    (start : property (pool, []))
    (temp : ∀ pool effects addr, find pool.tempRelays addr = none → property (pool, effects) →
      property (RelayPool.withTemp pool addr, effects))
    (stable : ∀ work relay, (act work relay).1.entries = work.1.entries)
    (each : ∀ (work : PoolWork) (url : String) (relay : Nat), (url, relay) ∈ work.1.entries →
      property work → property (act work relay)) :
    property (onRelays pool choice act) := by
  have fold : ∀ (relays : List Nat) (work : PoolWork), property work →
      (∀ relay ∈ relays, ∃ url, (url, relay) ∈ work.1.entries) →
      property (relays.foldl act work) := by
    intro relays
    induction relays with
    | nil => exact fun _ holds _ => holds
    | cons relay rest ih =>
      intro work holds listed
      obtain ⟨url, member⟩ := listed relay List.mem_cons_self
      refine ih _ (each work url relay member holds) fun other later => ?_
      rw [stable]
      exact listed other (List.mem_cons_of_mem _ later)
  have temps : ∀ (addrs : List String) (work : PoolWork), property work →
      property (addrs.foldl (fun work addr =>
        act ((work.1.relayOrTemp addr).1, work.2) (work.1.relayOrTemp addr).2) work) := by
    intro addrs
    induction addrs with
    | nil => exact fun _ holds => holds
    | cons addr rest ih =>
      intro work holds
      refine ih _ (each _ _ _ (relayOrTemp_mem work.1 addr) ?_)
      rcases relayOrTemp_cases work.1 addr with same | ⟨unknown, made⟩
      · rw [same]
        exact holds
      · rw [made]
        exact temp work.1 work.2 addr unknown holds
  refine fold _ _ ?_ fun relay member => ?_
  · split
    · exact temps _ _ start
    · exact start
  · rcases List.mem_append.mp member with normal | cache
    · split at normal
      · obtain ⟨entry, kept, rfl⟩ := List.mem_map.mp normal
        exact ⟨entry.1, mem_entries.mpr (.inl (List.mem_of_mem_filter kept))⟩
      · cases normal
    · split at cache
      · obtain ⟨entry, kept, rfl⟩ := List.mem_map.mp cache
        exact ⟨entry.1, mem_entries.mpr (.inr (.inr kept))⟩
      · cases cache

theorem foldl_induction (property : PoolWork → Prop) {act : PoolWork → Nat → PoolWork}
    (each : ∀ work relay, property work → property (act work relay)) (relays : List Nat)
    (holds : property work) : property (relays.foldl act work) := by
  induction relays generalizing work with
  | nil => exact holds
  | cons relay rest ih => exact ih (each work relay holds)

/-! ### Steps -/

/-- No relay object is lost and the maps still name them by their addresses. -/
structure Grown (pool next : RelayPool) : Prop where
  later : pool.Extends next
  keyed : pool.Keyed → next.Keyed

theorem Grown.refl : pool.Grown pool := ⟨Extends.refl, id⟩

theorem Grown.trans {last : RelayPool} (first : pool.Grown next) (second : next.Grown last) :
    pool.Grown last :=
  ⟨first.later.trans second.later, fun keyed => second.keyed (first.keyed keyed)⟩

theorem Grown.of_entries (objects : next.objects = pool.objects)
    (entries : ∀ entry ∈ next.entries, entry ∈ pool.entries) : pool.Grown next := by
  have later : pool.Extends next := fun relay object found => ⟨object, by rw [objects, found], rfl⟩
  exact ⟨later, fun keyed => keyed.extends later fun entry member => .inl (entries entry member)⟩

theorem Grown.setObject (found : pool.objects[relay]? = some object)
    (same : changed.url = object.url) : pool.Grown (pool.setObject relay changed) :=
  have later := extends_setObject found same
  ⟨later, fun keyed => keyed.extends later fun _ member => .inl member⟩

theorem Grown.of_new {url : String} (made : PooledRelay) (own : made.url = url)
    (objects : next.objects = pool.objects ++ [made])
    (entries : ∀ entry ∈ next.entries, entry ∈ pool.entries ∨ entry = (url, pool.objects.length)) :
    pool.Grown next := by
  have later : pool.Extends next := extends_append objects
  refine ⟨later, fun keyed => keyed.extends later fun entry member => ?_⟩
  rcases entries entry member with old | rfl
  · exact .inl old
  · refine .inr ⟨made, ?_, own⟩
    rw [objects, List.getElem?_concat_length]

theorem relayDo_entries (work : PoolWork) (relay : Nat) :
    (relayDo save subscription sendAfterAuth work relay).1.entries = work.1.entries := by
  unfold relayDo
  split
  · rfl
  split
  · split <;> rfl
  · rfl

theorem resumeAdd_eq_some {index : Nat} {connected : Bool}
    (resumed : pool.resumeAdd index connected = some after) : ∃ relay autoSubscribe,
      pool.suspended[index]? = some (.adding relay autoSubscribe) ∧
      after = (pool.resumed index,
        if connected && autoSubscribe then
          pool.subscriptions.map fun entry => .send relay entry.2.toJson
        else []) := by
  unfold resumeAdd at resumed
  split at resumed
  · next relay autoSubscribe found =>
    exact ⟨relay, autoSubscribe, found, (Option.some.inj resumed).symm⟩
  · cases resumed

theorem resumeEose_eq_some {index : Nat} (resumed : pool.resumeEose index = some after) :
    ∃ relay subId isQuery object,
      pool.suspended[index]? = some (.eose relay subId isQuery) ∧
      pool.objects[relay]? = some object ∧
      after = if isQuery then (pool.resumed index).eoseOfQuery subId
        else (pool.resumed index).eoseOfSubscription subId object.url := by
  unfold resumeEose at resumed
  split at resumed
  · next relay subId isQuery found =>
    obtain ⟨object, present, rfl⟩ := Option.map_eq_some_iff.mp resumed
    exact ⟨relay, subId, isQuery, object, found, present, rfl⟩
  · cases resumed

theorem resumeAuth_eq_some {index : Nat} {eventId : Option String}
    (resumed : pool.resumeAuth index eventId = some after) : ∃ relay challenge object,
      pool.suspended[index]? = some (.signing relay challenge) ∧
      pool.objects[relay]? = some object ∧
      (eventId = none ∧ after = (pool.resumed index, []) ∨
        ∃ signed, eventId = some signed ∧ after = ({ pool.resumed index with
          pendingAuthEvents := put pool.pendingAuthEvents signed object.url },
          [.send relay (.auth signed)])) := by
  unfold resumeAuth at resumed
  split at resumed
  · next relay challenge found =>
    obtain ⟨object, present, rfl⟩ := Option.map_eq_some_iff.mp resumed
    refine ⟨relay, challenge, object, found, present, ?_⟩
    cases eventId with
    | none => exact .inl ⟨rfl, rfl⟩
    | some signed => exact .inr ⟨signed, rfl, rfl⟩
  · cases resumed

theorem setRelayAlwaysAuth_cases (pool : RelayPool) (url : String) (alwaysAuth : Bool) :
    poolStep pool (.setRelayAlwaysAuth url alwaysAuth) = some (pool, []) ∨
      ∃ relay object, pool.objects[relay]? = some object ∧
        poolStep pool (.setRelayAlwaysAuth url alwaysAuth) =
          some (pool.setObject relay { object with alwaysAuth := alwaysAuth }, []) := by
  unfold poolStep
  dsimp only
  cases find pool.relays url with
  | none => exact .inl rfl
  | some relay =>
    cases found : pool.objects[relay]? with
    | none =>
      rw [Option.bind_some, found]
      exact .inl rfl
    | some object =>
      rw [Option.bind_some, found]
      exact .inr ⟨relay, object, found, rfl⟩

theorem ok_eq_some {eventId : String} {success : Bool}
    (handled : pool.ok relay eventId success = some after) : ∃ object,
      pool.objects[relay]? = some object ∧
      (after = (pool, []) ∨ (find pool.pendingAuthEvents eventId).isSome = true ∧
        let cleared := { pool with
          pendingAuthEvents := Dictionary.remove pool.pendingAuthEvents eventId }
        after = if success then
          (cleared.setObject relay { object with authed := true, pendingAuthedMessages := [] },
            object.pendingAuthedMessages.map (.send relay) ++
              object.subscriptions.map fun entry => .send relay entry.2.toJson)
        else (cleared.setObject relay { object with authed := false }, [])) := by
  obtain ⟨object, found, rfl⟩ := Option.map_eq_some_iff.mp handled
  refine ⟨object, found, ?_⟩
  split
  · next pending => exact .inr ⟨pending, rfl⟩
  · exact .inl rfl

theorem changes_keep {property : PooledRelay → Prop}
    (step : ∀ {before after : PooledRelay}, ObjectChange before after → property before →
      property after) (changes : Relation.ReflTransGen ObjectChange object changed)
    (holds : property object) : property changed := by
  induction changes with
  | refl => exact holds
  | tail _ change ih => exact step change ih

def touchesQueries : PoolAction → Bool
  | .query _ _ _ | .unsubscribe _ | .eose _ _ | .remove _ _ => true
  | .add _ _ _ _ _ | .connect _ | .reconnected _ | .disconnected _ | .setRelayAlwaysAuth _ _
  | .subscribe _ _ | .sendTo _ _ | .ok _ _ _ | .auth _ _ | .closed _ _ | .resumeAdd _ _
  | .resumeEose _ | .resumeAuth _ _ => false

/-- What a step does to the relays of the pool, one thing at a time. -/
inductive Edit (action : PoolAction) (pool : RelayPool) : RelayPool → Prop where
  | same {next : RelayPool} (objects : next.objects = pool.objects)
      (entries : next.entries = pool.entries) : Edit action pool next
  | change {relay : Nat} {object changed : PooledRelay} (found : pool.objects[relay]? = some object)
      (changes : Relation.ReflTransGen ObjectChange object changed)
      (queries : touchesQueries action = true ∨ changed.queries = object.queries) :
      Edit action pool (pool.setObject relay changed)
  | authenticate {relay : Nat} {eventId : String} {object : PooledRelay}
      (acknowledged : action = .ok relay eventId true)
      (found : pool.objects[relay]? = some object) : Edit action pool
        (pool.setObject relay { object with authed := true, pendingAuthedMessages := [] })
  | make {next : RelayPool} {url : String} {readAccess alwaysAuth : Bool}
      (objects : next.objects = pool.objects ++ [.new url readAccess alwaysAuth])
      (kept : ∀ entry ∈ pool.entries, entry ∈ next.entries)
      (entries : ∀ entry ∈ next.entries, entry ∈ pool.entries ∨
        entry = (url, pool.objects.length)) : Edit action pool next
  | drop {next : RelayPool} (touches : touchesQueries action = true)
      (objects : next.objects = pool.objects)
      (entries : ∀ entry ∈ next.entries, entry ∈ pool.entries) : Edit action pool next

abbrev Edits (action : PoolAction) : RelayPool → RelayPool → Prop :=
  Relation.ReflTransGen (Edit action)

theorem mem_put_of_absent {entries : List (String × Nat)} {url : String} {entry : String × Nat}
    (absent : find entries url = none) (member : entry ∈ entries) :
    entry ∈ put entries url relay := by
  rw [put_of_absent absent]
  exact List.mem_append_left _ member

theorem edit_withTemp {addr : String} (unknown : find pool.tempRelays addr = none) :
    Edit action pool (pool.withTemp addr) := by
  refine .make rfl (fun entry member => mem_entries.mpr ?_) fun entry member => ?_
  · exact (mem_entries.mp member).imp_right (Or.imp_left (mem_put_of_absent unknown))
  · rcases mem_entries.mp member with normal | temp | cache
    · exact .inl (mem_entries.mpr (.inl normal))
    · exact (mem_put temp).imp_left fun old => mem_entries.mpr (.inr (.inl old))
    · exact .inl (mem_entries.mpr (.inr (.inr cache)))

theorem edits_relayDo (saves : ∀ object, ObjectChange object (save object))
    (queries : touchesQueries action = true ∨ ∀ object, (save object).queries = object.queries)
    (work : PoolWork) (relay : Nat) :
    Edits action work.1 (relayDo save subscription sendAfterAuth work relay).1 := by
  unfold relayDo
  split
  · exact .refl
  next object found =>
  have saved : Relation.ReflTransGen ObjectChange object (save object) := .single (saves object)
  have kept := queries.imp_right fun same => same object
  split
  · split
    · exact .single (.change found (saved.tail (.queue _)) kept)
    · exact .single (.change found saved kept)
  · exact .refl

theorem edits_closeSubscription (id : String) (work : PoolWork) (relay : Nat) :
    Edits action work.1 (closeSubscription id work relay).1 := by
  unfold closeSubscription
  split
  · exact .refl
  next object found =>
  split
  · exact .single (.change found (.single (.closeSubscription id)) (.inr rfl))
  · exact .refl

theorem edits_closeQuery (touches : touchesQueries action = true) (id : String) (work : PoolWork)
    (relay : Nat) : Edits action work.1 (closeQuery id work relay).1 := by
  unfold closeQuery
  split
  · exact .refl
  next object found =>
  split
  · exact .single (.change found (.single (.closeQuery id)) (.inl touches))
  · exact .refl

theorem edits_onRelays (saves : ∀ object, ObjectChange object (save object))
    (queries : touchesQueries action = true ∨ ∀ object, (save object).queries = object.queries) :
    Edits action pool (onRelays pool choice (relayDo save subscription sendAfterAuth)).1 :=
  onRelays_induction (fun work => Edits action pool work.1) .refl
    (fun _ _ _ unknown edits => edits.tail (edit_withTemp unknown)) relayDo_entries
    fun work _ relay _ edits => edits.trans (edits_relayDo saves queries work relay)

theorem edits_add {url : String} {readAccess alwaysAuth autoSubscribe : Bool} :
    Edits action pool (pool.add url relayType readAccess alwaysAuth autoSubscribe) := by
  unfold add
  dsimp only
  split
  · split
    · exact .refl
    next unknown =>
    refine .single (.make rfl (fun entry member => mem_entries.mpr ?_) fun entry member => ?_)
    · have absent := Option.not_isSome_iff_eq_none.mp unknown
      exact (mem_entries.mp member).imp_left (mem_put_of_absent absent)
    · rcases mem_entries.mp member with normal | rest
      · exact (mem_put normal).imp_left fun old => mem_entries.mpr (.inl old)
      · exact .inl (mem_entries.mpr (.inr rest))
  · split
    · exact .refl
    next unknown =>
    refine .single (.make rfl (fun entry member => mem_entries.mpr ?_) fun entry member => ?_)
    · have absent := Option.not_isSome_iff_eq_none.mp unknown
      exact (mem_entries.mp member).imp_right (Or.imp_right (mem_put_of_absent absent))
    · rcases mem_entries.mp member with normal | temp | cache
      · exact .inl (mem_entries.mpr (.inl normal))
      · exact .inl (mem_entries.mpr (.inr (.inl temp)))
      · exact (mem_put cache).imp_left fun old => mem_entries.mpr (.inr (.inr old))
  · exact .single (.make rfl (fun _ => id) fun _ => .inl)
  · exact .single (.make rfl (fun _ => id) fun _ => .inl)

theorem edit_remove {url : String} (touches : touchesQueries action = true) :
    Edit action pool (pool.remove url relayType) := by
  refine .drop touches (by cases relayType <;> rfl) fun entry member => mem_entries.mpr ?_
  have known := mem_entries.mp member
  cases relayType with
  | normal => exact known.imp_left mem_remove
  | temp => exact known.imp_right (Or.imp_left mem_remove)
  | cache => exact known.imp_right (Or.imp_right mem_remove)
  | «local» => exact known

theorem edits_unsubscribe {id : String} :
    Edits (.unsubscribe id) pool (pool.unsubscribe id).1 := by
  refine foldl_induction (fun work => Edits _ pool work.1) (fun work relay edits => ?_) _
    (.single (.same rfl rfl))
  refine edits.trans ?_
  split
  · exact edits_closeSubscription _ _ _
  · exact edits_closeQuery rfl _ _ _

theorem edit_eoseOfSubscription {subId url : String} :
    Edit action pool (pool.eoseOfSubscription subId url).1 := by
  unfold eoseOfSubscription
  split
  · split
    · exact .same rfl rfl
    · exact .same rfl rfl
  · exact .same rfl rfl

theorem edit_eoseOfQuery {subId : String} : Edit action pool (pool.eoseOfQuery subId).1 := by
  unfold eoseOfQuery
  split
  · exact .same rfl rfl
  · exact .same rfl rfl

theorem edits_poolStep {effects : List PoolEffect}
    (stepped : poolStep pool action = some (next, effects)) : Edits action pool next := by
  have inverted : ∀ {work : PoolWork}, some work = some (next, effects) →
      Edits action pool work.1 → Edits action pool next := by
    intro work same edits
    rwa [Option.some.inj same] at edits
  have same : ∀ {next : RelayPool}, next.objects = pool.objects → next.entries = pool.entries →
      Edits action pool next := fun objects entries => .single (.same objects entries)
  cases action with
  | add url relayType readAccess alwaysAuth autoSubscribe => exact inverted stepped edits_add
  | remove url relayType => exact inverted stepped (.single (edit_remove rfl))
  | connect relay =>
    obtain ⟨object, found, isNext⟩ := Option.map_eq_some_iff.mp stepped
    exact inverted (congrArg some isNext)
      (.single (.change found (.single .unauthenticate) (.inr rfl)))
  | reconnected relay | disconnected relay | closed relay subId =>
    obtain ⟨object, found, isNext⟩ := Option.map_eq_some_iff.mp stepped
    exact inverted (congrArg some isNext) .refl
  | setRelayAlwaysAuth url alwaysAuth =>
    rcases setRelayAlwaysAuth_cases pool url alwaysAuth with isNext | ⟨relay, object, found, isNext⟩
    · exact inverted (isNext.symm.trans stepped) .refl
    · exact inverted (isNext.symm.trans stepped)
        (.single (.change found (.single (.setAlwaysAuth alwaysAuth)) (.inr rfl)))
  | subscribe subscription choice =>
    refine inverted stepped (Relation.ReflTransGen.head (.same ?_ ?_)
      (edits_onRelays (fun _ => .saveSubscription subscription) (.inr fun _ => rfl)))
    · exact rfl
    · exact rfl
  | unsubscribe id => exact inverted stepped edits_unsubscribe
  | query subscription onComplete choice =>
    refine inverted stepped (Relation.ReflTransGen.head (.same ?_ ?_)
      (edits_onRelays (fun _ => .saveQuery subscription) (.inl rfl)))
    · exact rfl
    · exact rfl
  | sendTo message relay =>
    obtain ⟨object, found, isNext⟩ := Option.map_eq_some_iff.mp stepped
    refine inverted (congrArg some isNext) ?_
    split
    · exact .single (.change found (.single (.queue _)) (.inr rfl))
    · exact .refl
  | eose relay subId =>
    obtain ⟨object, found, isNext⟩ := Option.map_eq_some_iff.mp stepped
    refine inverted (congrArg some isNext) ?_
    exact (edits_closeQuery rfl subId (pool, []) relay).tail (.same rfl rfl)
  | ok relay eventId success =>
    obtain ⟨object, found, isNext | ⟨-, isNext⟩⟩ := ok_eq_some stepped
    · exact inverted (congrArg some isNext.symm) .refl
    · have cleared : Edits (.ok relay eventId success) pool { pool with
          pendingAuthEvents := Dictionary.remove pool.pendingAuthEvents eventId } := same rfl rfl
      refine inverted (congrArg some isNext.symm) (cleared.trans ?_)
      cases success with
      | true => exact .single (.authenticate rfl found)
      | false => exact .single (.change found (.single .unauthenticate) (.inr rfl))
  | auth relay challenge =>
    obtain ⟨object, found, isNext⟩ := Option.map_eq_some_iff.mp stepped
    refine inverted (congrArg some isNext) ?_
    split
    · exact .refl
    · exact same rfl rfl
  | resumeAdd index connected =>
    obtain ⟨relay, autoSubscribe, -, isNext⟩ := resumeAdd_eq_some stepped
    exact inverted (congrArg some isNext.symm) (same rfl rfl)
  | resumeEose index =>
    obtain ⟨relay, subId, isQuery, object, -, -, isNext⟩ := resumeEose_eq_some stepped
    have resumed : Edits (.resumeEose index) pool (pool.resumed index) := same rfl rfl
    refine inverted (congrArg some isNext.symm) (resumed.trans ?_)
    split
    · exact .single edit_eoseOfQuery
    · exact .single edit_eoseOfSubscription
  | resumeAuth index eventId =>
    obtain ⟨relay, challenge, object, -, -, ⟨-, isNext⟩ | ⟨signed, -, isNext⟩⟩ :=
      resumeAuth_eq_some stepped
    · exact inverted (congrArg some isNext.symm) (same rfl rfl)
    · exact inverted (congrArg some isNext.symm) (same rfl rfl)

theorem url_of_changes (changes : Relation.ReflTransGen ObjectChange object changed) :
    changed.url = object.url := by
  have kept : ∀ {before after : PooledRelay}, ObjectChange before after →
      before.url = object.url → after.url = object.url := by
    intro before after change same
    cases change <;> exact same
  exact changes_keep kept changes rfl

theorem Edit.grown (edit : Edit action pool next) : pool.Grown next := by
  cases edit with
  | same objects entries => exact Grown.of_entries objects fun _ member => entries ▸ member
  | change found changes queries => exact Grown.setObject found (url_of_changes changes)
  | authenticate acknowledged found => exact Grown.setObject found rfl
  | make objects kept entries => exact Grown.of_new (.new _ _ _) rfl objects entries
  | drop touches objects entries => exact Grown.of_entries objects entries

theorem grown_poolStep {effects : List PoolEffect}
    (stepped : poolStep pool action = some (next, effects)) : pool.Grown next := by
  have edits := edits_poolStep stepped
  clear stepped
  induction edits with
  | refl => exact Grown.refl
  | tail _ edit grown => exact grown.trans edit.grown

/-! ### Books and effects -/

structure SameBooks (pool next : RelayPool) : Prop where
  subscriptions : next.subscriptions = pool.subscriptions
  queryCompleteCallbacks : next.queryCompleteCallbacks = pool.queryCompleteCallbacks
  subscriptionEoseRelays : next.subscriptionEoseRelays = pool.subscriptionEoseRelays
  pendingAuthEvents : next.pendingAuthEvents = pool.pendingAuthEvents

theorem SameBooks.refl : pool.SameBooks pool := ⟨rfl, rfl, rfl, rfl⟩

theorem SameBooks.trans {last : RelayPool} (first : pool.SameBooks next)
    (second : next.SameBooks last) : pool.SameBooks last :=
  ⟨second.subscriptions.trans first.subscriptions,
    second.queryCompleteCallbacks.trans first.queryCompleteCallbacks,
    second.subscriptionEoseRelays.trans first.subscriptionEoseRelays,
    second.pendingAuthEvents.trans first.pendingAuthEvents⟩

def OnlySends (effects : List PoolEffect) : Prop :=
  ∀ effect ∈ effects, ∃ relay message, effect = .send relay message

theorem onlySends_nil : OnlySends [] := nofun

theorem onlySends_append {first second : List PoolEffect} (before : OnlySends first)
    (after : OnlySends second) : OnlySends (first ++ second) :=
  fun effect member => (List.mem_append.mp member).elim (before effect) (after effect)

theorem onlySends_send (relay : Nat) (message : PoolMessage) : OnlySends [.send relay message] :=
  fun _ member => ⟨relay, message, List.mem_singleton.mp member⟩

theorem onlySends_map {Item : Type*} (relay : Nat) (message : Item → PoolMessage)
    (items : List Item) : OnlySends (items.map fun item => .send relay (message item)) := by
  intro effect member
  obtain ⟨item, -, rfl⟩ := List.mem_map.mp member
  exact ⟨relay, message item, rfl⟩

/-- Work on relays leaves the books alone and sends messages. -/
structure OnRelaysOnly (pool : RelayPool) (work : PoolWork) : Prop where
  books : pool.SameBooks work.1
  only : OnlySends work.2
  suspended : work.1.suspended = pool.suspended

theorem relayDo_onRelaysOnly {work : PoolWork} (only : OnRelaysOnly pool work) :
    OnRelaysOnly pool (relayDo save subscription sendAfterAuth work relay) := by
  unfold relayDo
  split
  · exact only
  split
  · split
    · exact ⟨only.books.trans ⟨rfl, rfl, rfl, rfl⟩, only.only, only.suspended⟩
    · exact ⟨only.books.trans ⟨rfl, rfl, rfl, rfl⟩,
      onlySends_append only.only (onlySends_send _ _), only.suspended⟩
  · exact only

theorem closeSubscription_onRelaysOnly {id : String} {work : PoolWork}
    (only : OnRelaysOnly pool work) : OnRelaysOnly pool (closeSubscription id work relay) := by
  unfold closeSubscription
  split
  · exact only
  split
  · exact ⟨only.books.trans ⟨rfl, rfl, rfl, rfl⟩,
      onlySends_append only.only (onlySends_send _ _), only.suspended⟩
  · exact only

theorem closeQuery_onRelaysOnly (id : String) (relay : Nat) {work : PoolWork}
    (only : OnRelaysOnly pool work) : OnRelaysOnly pool (closeQuery id work relay) := by
  unfold closeQuery
  split
  · exact only
  split
  · exact ⟨only.books.trans ⟨rfl, rfl, rfl, rfl⟩,
      onlySends_append only.only (onlySends_send _ _), only.suspended⟩
  · exact only

theorem onRelays_onRelaysOnly :
    OnRelaysOnly pool (onRelays pool choice (relayDo save subscription sendAfterAuth)) :=
  onRelays_induction (OnRelaysOnly pool) ⟨SameBooks.refl, onlySends_nil, rfl⟩
    (fun _ _ _ _ only => ⟨only.books.trans ⟨rfl, rfl, rfl, rfl⟩, only.only, only.suspended⟩)
    relayDo_entries fun _ _ _ _ only => relayDo_onRelaysOnly only

theorem subscribe_books (pool : RelayPool) (subscription : Subscription) (choice : RelayChoice) :
    OnRelaysOnly { pool with
      subscriptions := put pool.subscriptions subscription.id subscription }
      (pool.subscribe subscription choice) :=
  onRelays_onRelaysOnly

theorem query_books (pool : RelayPool) (subscription : Subscription) (onComplete : Bool)
    (choice : RelayChoice) :
    OnRelaysOnly { pool with
      queryCompleteCallbacks :=
        if onComplete then pool.queryCompleteCallbacks.insert subscription.id
        else pool.queryCompleteCallbacks } (pool.query subscription onComplete choice) :=
  onRelays_onRelaysOnly

theorem unsubscribe_books (pool : RelayPool) (id : String) :
    OnRelaysOnly { pool with
      subscriptions := Dictionary.remove pool.subscriptions id
      subscriptionEoseRelays := Dictionary.remove pool.subscriptionEoseRelays id }
      (pool.unsubscribe id) := by
  refine foldl_induction (OnRelaysOnly _) (fun work relay only => ?_) _
    ⟨SameBooks.refl, onlySends_nil, rfl⟩
  split
  · exact closeSubscription_onRelaysOnly only
  · exact closeQuery_onRelaysOnly id relay only

theorem add_books {url : String} {readAccess alwaysAuth autoSubscribe : Bool} :
    pool.SameBooks (pool.add url relayType readAccess alwaysAuth autoSubscribe) := by
  unfold add
  split
  · split <;> exact ⟨rfl, rfl, rfl, rfl⟩
  · split <;> exact ⟨rfl, rfl, rfl, rfl⟩
  · exact ⟨rfl, rfl, rfl, rfl⟩
  · exact ⟨rfl, rfl, rfl, rfl⟩

theorem remove_books {url : String} :
    pool.SameBooks (pool.remove url relayType) := by
  cases relayType <;> exact ⟨rfl, rfl, rfl, rfl⟩

/-- The actions that change what the pool knows apart from its relays. -/
def touchesBooks : PoolAction → Bool
  | .subscribe _ _ | .unsubscribe _ | .query _ _ _ | .ok _ _ _ | .resumeEose _
  | .resumeAuth _ _ => true
  | .add _ _ _ _ _ | .remove _ _ | .connect _ | .reconnected _ | .disconnected _
  | .setRelayAlwaysAuth _ _ | .sendTo _ _ | .eose _ _ | .auth _ _ | .closed _ _
  | .resumeAdd _ _ => false

theorem quiet_books {effects : List PoolEffect} (quiet : touchesBooks action = false)
    (stepped : poolStep pool action = some (next, effects)) :
    pool.SameBooks next ∧ OnlySends effects := by
  have inverted : ∀ {work : PoolWork}, some work = some (next, effects) →
      pool.SameBooks work.1 ∧ OnlySends work.2 → pool.SameBooks next ∧ OnlySends effects := by
    intro work same only
    rw [Option.some.inj same] at only
    exact only
  have nothing : pool.SameBooks pool ∧ OnlySends [] := ⟨SameBooks.refl, onlySends_nil⟩
  cases action with
  | subscribe | unsubscribe | query | ok | resumeEose | resumeAuth => cases quiet
  | add url relayType readAccess alwaysAuth autoSubscribe =>
    exact inverted stepped ⟨add_books, onlySends_nil⟩
  | remove url relayType => exact inverted stepped ⟨remove_books, onlySends_nil⟩
  | connect relay =>
    obtain ⟨object, found, same⟩ := Option.map_eq_some_iff.mp stepped
    exact inverted (congrArg some same) ⟨⟨rfl, rfl, rfl, rfl⟩, onlySends_nil⟩
  | reconnected relay | disconnected relay | closed relay subId =>
    obtain ⟨object, found, same⟩ := Option.map_eq_some_iff.mp stepped
    exact inverted (congrArg some same) nothing
  | setRelayAlwaysAuth url alwaysAuth =>
    rcases setRelayAlwaysAuth_cases pool url alwaysAuth with same | ⟨relay, object, found, same⟩
    · exact inverted (same.symm.trans stepped) nothing
    · exact inverted (same.symm.trans stepped) ⟨⟨rfl, rfl, rfl, rfl⟩, onlySends_nil⟩
  | sendTo message relay =>
    obtain ⟨object, found, same⟩ := Option.map_eq_some_iff.mp stepped
    refine inverted (congrArg some same) ?_
    split
    · exact ⟨⟨rfl, rfl, rfl, rfl⟩, onlySends_nil⟩
    · exact ⟨SameBooks.refl, onlySends_send relay message⟩
  | eose relay subId =>
    obtain ⟨object, found, same⟩ := Option.map_eq_some_iff.mp stepped
    obtain ⟨books, only, -⟩ := closeQuery_onRelaysOnly subId relay
      (⟨SameBooks.refl, onlySends_nil, rfl⟩ : OnRelaysOnly pool (pool, []))
    exact inverted (congrArg some same) ⟨books.trans ⟨rfl, rfl, rfl, rfl⟩, only⟩
  | auth relay challenge =>
    obtain ⟨object, found, same⟩ := Option.map_eq_some_iff.mp stepped
    refine inverted (congrArg some same) ?_
    split
    · exact nothing
    · exact ⟨⟨rfl, rfl, rfl, rfl⟩, onlySends_nil⟩
  | resumeAdd index connected =>
    obtain ⟨relay, autoSubscribe, -, same⟩ := resumeAdd_eq_some stepped
    refine inverted (congrArg some same.symm) ⟨⟨rfl, rfl, rfl, rfl⟩, ?_⟩
    split
    · exact onlySends_map relay (fun entry : String × Subscription => entry.2.toJson) _
    · exact onlySends_nil

/-! ### What waits -/

theorem satisfies_of_found {predicate : PooledRelay → Bool}
    (found : pool.objects[relay]? = some object) :
    pool.satisfies predicate relay = predicate object := by
  unfold satisfies
  rw [found]
  rfl

def newlySuspended (pool : RelayPool) : PoolAction → List Suspended
  | .add _ _ _ _ autoSubscribe => [.adding pool.objects.length autoSubscribe]
  | .eose relay subId =>
      [.eose relay subId (pool.satisfies (fun object => object.checkQuery subId) relay)]
  | .auth relay challenge => [.signing relay challenge]
  | _ => []

def resumedIndex : PoolAction → Option Nat
  | .resumeAdd index _ | .resumeEose index | .resumeAuth index _ => some index
  | _ => none

theorem suspended_poolStep {effects : List PoolEffect}
    (stepped : poolStep pool action = some (next, effects)) :
    (∃ index, resumedIndex action = some index ∧ next.suspended = pool.suspended.eraseIdx index) ∨
      resumedIndex action = none ∧ (next.suspended = pool.suspended ∨
        next.suspended = pool.suspended ++ pool.newlySuspended action) := by
  cases action with
  | add url relayType readAccess alwaysAuth autoSubscribe =>
    obtain rfl : _ = next := congrArg Prod.fst (Option.some.inj stepped)
    refine .inr ⟨rfl, ?_⟩
    unfold add
    split
    · split
      · exact .inl rfl
      · exact .inr rfl
    · split
      · exact .inl rfl
      · exact .inr rfl
    · exact .inr rfl
    · exact .inr rfl
  | remove url relayType =>
    obtain rfl : _ = next := congrArg Prod.fst (Option.some.inj stepped)
    refine .inr ⟨rfl, .inl ?_⟩
    cases relayType <;> rfl
  | connect relay | reconnected relay | disconnected relay | closed relay subId =>
    obtain ⟨object, found, same⟩ := Option.map_eq_some_iff.mp stepped
    cases same
    exact .inr ⟨rfl, .inl rfl⟩
  | setRelayAlwaysAuth url alwaysAuth =>
    rcases setRelayAlwaysAuth_cases pool url alwaysAuth with same | ⟨relay, object, found, same⟩
    · cases same.symm.trans stepped
      exact .inr ⟨rfl, .inl rfl⟩
    · cases same.symm.trans stepped
      exact .inr ⟨rfl, .inl rfl⟩
  | subscribe subscription choice =>
    have books := subscribe_books pool subscription choice
    rw [Option.some.inj stepped] at books
    exact .inr ⟨rfl, .inl books.suspended⟩
  | unsubscribe id =>
    have books := unsubscribe_books pool id
    rw [Option.some.inj stepped] at books
    exact .inr ⟨rfl, .inl books.suspended⟩
  | query subscription onComplete choice =>
    have books := query_books pool subscription onComplete choice
    rw [Option.some.inj stepped] at books
    exact .inr ⟨rfl, .inl books.suspended⟩
  | sendTo message relay =>
    obtain ⟨object, found, same⟩ := Option.map_eq_some_iff.mp stepped
    obtain rfl : _ = next := congrArg Prod.fst same
    refine .inr ⟨rfl, .inl ?_⟩
    split <;> rfl
  | eose relay subId =>
    obtain ⟨object, found, same⟩ := Option.map_eq_some_iff.mp stepped
    cases same
    refine .inr ⟨rfl, .inr ?_⟩
    change _ = _ ++ [Suspended.eose relay subId
      (pool.satisfies (fun object => object.checkQuery subId) relay)]
    rw [satisfies_of_found found]
  | ok relay eventId success =>
    obtain ⟨object, found, same | ⟨-, same⟩⟩ := ok_eq_some stepped
    · cases same
      exact .inr ⟨rfl, .inl rfl⟩
    · obtain rfl : next = _ := congrArg Prod.fst same
      refine .inr ⟨rfl, .inl ?_⟩
      split <;> rfl
  | auth relay challenge =>
    obtain ⟨object, found, same⟩ := Option.map_eq_some_iff.mp stepped
    obtain rfl : _ = next := congrArg Prod.fst same
    refine .inr ⟨rfl, ?_⟩
    split
    · exact .inl rfl
    · exact .inr rfl
  | resumeAdd index connected =>
    obtain ⟨relay, autoSubscribe, -, same⟩ := resumeAdd_eq_some stepped
    cases same
    exact .inl ⟨index, rfl, rfl⟩
  | resumeEose index =>
    obtain ⟨relay, subId, isQuery, object, -, -, same⟩ := resumeEose_eq_some stepped
    obtain rfl : next = _ := congrArg Prod.fst same
    refine .inl ⟨index, rfl, ?_⟩
    split
    · unfold eoseOfQuery
      split <;> rfl
    · unfold eoseOfSubscription
      split
      · split <;> rfl
      · rfl
  | resumeAuth index eventId =>
    obtain ⟨relay, challenge, object, -, -, ⟨-, same⟩ | ⟨signed, -, same⟩⟩ :=
      resumeAuth_eq_some stepped
    · cases same
      exact .inl ⟨index, rfl, rfl⟩
    · cases same
      exact .inl ⟨index, rfl, rfl⟩

theorem mem_suspended_poolStep {effects : List PoolEffect} {waiting : Suspended}
    (stepped : poolStep pool action = some (next, effects)) (member : waiting ∈ next.suspended) :
    waiting ∈ pool.suspended ∨ waiting ∈ pool.newlySuspended action := by
  rcases suspended_poolStep stepped with ⟨index, -, erased⟩ | ⟨-, same | added⟩
  · exact .inl (List.mem_of_mem_eraseIdx (erased ▸ member))
  · exact .inl (same ▸ member)
  · exact List.mem_append.mp (added ▸ member)

end RelayPool

end Divine.NostrSdk
