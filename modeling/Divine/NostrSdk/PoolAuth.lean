/-
This file shows when a relay becomes authenticated only by its own acknowledgement.
-/

import Divine.NostrSdk.PoolFrames

namespace Divine.NostrSdk

open Dictionary Observer Transition

/-! ### What is authenticated -/

structure AuthSent where
  eventId : String
  relay : Nat
  challenge : String
  connection : Nat
  deriving DecidableEq

/-- A relay that became authenticated: by which OK on which connection, what was kept back, what it
was sent, and the AUTH events and the challenges before. -/
structure Turned where
  relay : Nat
  connection : Nat
  eventId : Option String
  queued : List PoolMessage
  subscriptions : List Subscription
  sent : List PoolMessage
  authSent : List AuthSent
  challenges : List (Nat × String)
  deriving DecidableEq

/-- The number of the connection of each relay, the challenges and the AUTH events, and the relays
that became authenticated. -/
structure AuthHistory where
  connections : List (Nat × Nat)
  challenges : List (Nat × String)
  authSent : List AuthSent
  turned : List Turned
  deriving DecidableEq

namespace AuthHistory

def empty : AuthHistory where
  connections := []
  challenges := []
  authSent := []
  turned := []

def connection (history : AuthHistory) (relay : Nat) : Nat :=
  (find history.connections relay).getD 0

end AuthHistory

def PoolEffect.sentTo (relay : Nat) : PoolEffect → Option PoolMessage
  | .send other message => if other = relay then some message else none
  | .onEose _ | .onComplete _ => none

def PoolAction.acknowledges (relay : Nat) : PoolAction → Option String
  | .ok other eventId true => if other = relay then some eventId else none
  | _ => none

def RelayPool.sendsAuth (pool : RelayPool) (history : AuthHistory) : PoolAction → Option AuthSent
  | .resumeAuth index (some eventId) =>
      match pool.suspended[index]? with
      | some (.signing relay challenge) =>
          some ⟨eventId, relay, challenge, history.connection relay⟩
      | _ => none
  | _ => none

/-- The relay is authenticated after a step and was not before. -/
def turns (pool next : RelayPool) (relay : Nat) : Bool :=
  pool.satisfies (fun object => !object.authed) relay && next.satisfies PooledRelay.authed relay

def observeAuth : Observe RelayPool PoolAction (List PoolEffect) AuthHistory :=
  fun history pool action next effects => {
    connections :=
      match action with
      | .connect relay | .reconnected relay =>
          put history.connections relay (history.connection relay + 1)
      | _ => history.connections
    challenges :=
      match action with
      | .auth relay challenge => (relay, challenge) :: history.challenges
      | _ => history.challenges
    authSent := (pool.sendsAuth history action).toList ++ history.authSent
    turned := history.turned ++
      ((List.range pool.objects.length).filter (turns pool next)).filterMap fun relay =>
        pool.objects[relay]?.map fun object => {
          relay := relay
          connection := history.connection relay
          eventId := action.acknowledges relay
          queued := object.pendingAuthedMessages
          subscriptions := object.subscriptions.map Prod.snd
          sent := effects.filterMap (PoolEffect.sentTo relay)
          authSent := history.authSent
          challenges := history.challenges } }

/-- A relay became authenticated by its own OK for an event made for its challenge on that
connection, and was sent what was kept back and its subscriptions once. -/
def Turned.Own (turned : Turned) : Prop :=
  (∃ eventId challenge, turned.eventId = some eventId ∧
    ⟨eventId, turned.relay, challenge, turned.connection⟩ ∈ turned.authSent ∧
    (turned.relay, challenge) ∈ turned.challenges) ∧
  (∀ message ∈ turned.queued, turned.sent.count message = turned.queued.count message) ∧
  ∀ subscription ∈ turned.subscriptions, turned.sent.count subscription.toJson = 1

/-- When a relay sends OK for an AUTH event that waits, the newest one was sent to it on its
connection, and no subscription was kept back. -/
def Acknowledged (seen : RelayPool × AuthHistory) (action : PoolAction) : Prop :=
  match action with
  | .ok relay eventId true =>
      ∀ object ∈ seen.1.objects[relay]?, object.authed = false →
        (find seen.1.pendingAuthEvents eventId).isSome = true →
          (∀ sent ∈ seen.2.authSent.find? fun sent => sent.eventId = eventId,
            sent.relay = relay ∧ sent.connection = seen.2.connection relay) ∧
          ∀ entry ∈ object.subscriptions, entry.2.toJson ∉ object.pendingAuthedMessages
  | _ => True

/-! ### Relay objects -/

namespace RelayPool

/-- No relay object is lost, and each comes from the same one or is new. -/
structure ObjectsFrom (pool next : RelayPool) : Prop where
  kept : ∀ relay : Nat, next.objects[relay]? = none → pool.objects[relay]? = none
  source : ∀ (relay : Nat) (object : PooledRelay), next.objects[relay]? = some object →
    ∃ before : PooledRelay, Relation.ReflTransGen ObjectChange before object ∧
      (pool.objects[relay]? = some before ∨
        pool.objects[relay]? = none ∧ ∃ url readAccess alwaysAuth,
          before = .new url readAccess alwaysAuth)

variable {pool next : RelayPool} {relay : Nat} {object changed : PooledRelay}
  {action : PoolAction} {effects : List PoolEffect} {history : AuthHistory}

theorem ObjectsFrom.of_same (objects : next.objects = pool.objects) : ObjectsFrom pool next where
  kept := fun relay none => by rwa [objects] at none
  source := fun relay object found => ⟨object, .refl, .inl (objects ▸ found)⟩

theorem ObjectsFrom.trans {last : RelayPool} (first : ObjectsFrom pool next)
    (second : ObjectsFrom next last) : ObjectsFrom pool last := by
  refine ⟨fun relay none => first.kept relay (second.kept relay none), ?_⟩
  intro relay object found
  obtain ⟨middle, later, middleFound | ⟨none, made⟩⟩ := second.source relay object found
  · obtain ⟨before, earlier, origin⟩ := first.source relay middle middleFound
    exact ⟨before, earlier.trans later, origin⟩
  · exact ⟨middle, later, .inr ⟨first.kept relay none, made⟩⟩

theorem ObjectsFrom.setObject (found : pool.objects[relay]? = some object)
    (change : Relation.ReflTransGen ObjectChange object changed) :
    ObjectsFrom pool (pool.setObject relay changed) := by
  constructor
  · intro other none
    rw [getElem?_setObject found] at none
    split at none
    · cases none
    · exact none
  · intro other present presentFound
    rw [getElem?_setObject found] at presentFound
    split at presentFound
    · next same =>
      subst same
      cases presentFound
      exact ⟨object, change, .inl found⟩
    · exact ⟨present, .refl, .inl presentFound⟩

theorem ObjectsFrom.of_new {url : String} {readAccess alwaysAuth : Bool}
    (objects : next.objects = pool.objects ++ [.new url readAccess alwaysAuth]) :
    ObjectsFrom pool next := by
  constructor
  · intro other none
    rw [objects, List.getElem?_eq_none_iff, List.length_append] at none
    exact List.getElem?_eq_none_iff.mpr (Nat.le_of_add_right_le none)
  · intro other present presentFound
    rw [objects, List.getElem?_append] at presentFound
    split at presentFound
    · exact ⟨present, .refl, .inl presentFound⟩
    · next outside =>
      refine ⟨present, .refl, .inr ⟨List.getElem?_eq_none_iff.mpr (Nat.le_of_not_lt outside), ?_⟩⟩
      have made := List.mem_singleton.mp (List.mem_of_getElem? presentFound)
      exact ⟨url, readAccess, alwaysAuth, made⟩

theorem Edit.objectsFrom (unacknowledged : ∀ relay eventId, action ≠ .ok relay eventId true)
    (edit : Edit action pool next) : ObjectsFrom pool next := by
  cases edit with
  | same objects entries => exact ObjectsFrom.of_same objects
  | change found changes queries => exact ObjectsFrom.setObject found changes
  | authenticate acknowledged found => exact absurd acknowledged (unacknowledged _ _)
  | make objects kept entries => exact ObjectsFrom.of_new objects
  | drop touches objects entries => exact ObjectsFrom.of_same objects

theorem getElem?_acknowledge {eventId : String} (found : pool.objects[relay]? = some object)
    (other : Nat) :
    (RelayPool.setObject { pool with
      pendingAuthEvents := Dictionary.remove pool.pendingAuthEvents eventId } relay
        changed).objects[other]? = if relay = other then some changed else pool.objects[other]? :=
  getElem?_setObject found other

theorem objectsFrom_poolStep (stepped : poolStep pool action = some (next, effects)) :
    ObjectsFrom pool next ∨ ∃ relay eventId object, action = .ok relay eventId true ∧
      pool.objects[relay]? = some object ∧
      (find pool.pendingAuthEvents eventId).isSome = true ∧
      next = { pool with
        pendingAuthEvents := Dictionary.remove pool.pendingAuthEvents eventId }.setObject relay
          { object with authed := true, pendingAuthedMessages := [] } ∧
      effects = object.pendingAuthedMessages.map (.send relay) ++
        object.subscriptions.map fun entry => .send relay entry.2.toJson := by
  by_cases acknowledged : ∃ relay eventId, action = .ok relay eventId true
  · obtain ⟨relay, eventId, rfl⟩ := acknowledged
    obtain ⟨object, found, same | ⟨pending, same⟩⟩ := ok_eq_some stepped
    · cases same
      exact .inl (ObjectsFrom.of_same rfl)
    · obtain ⟨same, sends⟩ := Prod.mk.inj same
      exact .inr ⟨relay, eventId, object, rfl, found, pending, same, sends⟩
  · have edits := edits_poolStep stepped
    clear stepped
    refine .inl ?_
    induction edits with
    | refl => exact ObjectsFrom.of_same rfl
    | tail _ edit earlier =>
      exact earlier.trans
        (edit.objectsFrom fun relay eventId own => acknowledged ⟨relay, eventId, own⟩)

/-! ### Subscriptions of a relay -/

/-- The subscriptions of a relay object are kept by their ids. -/
def KeyedById (object : PooledRelay) : Prop :=
  (object.subscriptions.map Prod.fst).Nodup ∧
    ∀ entry ∈ object.subscriptions, entry.2.id = entry.1

theorem ObjectChange.keyedById (change : ObjectChange object changed) (keyed : KeyedById object) :
    KeyedById changed := by
  cases change with
  | saveSubscription subscription =>
    refine ⟨nodup_keys_put keyed.1, fun entry member => ?_⟩
    rcases mem_put member with old | rfl
    · exact keyed.2 entry old
    · rfl
  | closeSubscription id =>
    exact ⟨nodup_keys_remove keyed.1, fun entry member => keyed.2 entry (mem_remove member)⟩
  | saveQuery | queue | closeQuery | setAlwaysAuth | unauthenticate => exact keyed

theorem ObjectChange.unauthed (change : ObjectChange object changed)
    (unauthed : object.authed = false) : changed.authed = false := by
  cases change with
  | unauthenticate => rfl
  | saveSubscription | saveQuery | queue | closeSubscription | closeQuery | setAlwaysAuth =>
    exact unauthed

theorem keyedById_objects (from_ : ObjectsFrom pool next)
    (keyed : ∀ (relay : Nat) (object : PooledRelay), pool.objects[relay]? = some object →
      KeyedById object) (found : next.objects[relay]? = some object) : KeyedById object := by
  obtain ⟨before, changes, same | ⟨-, url, readAccess, alwaysAuth, rfl⟩⟩ :=
    from_.source relay object found
  · exact changes_keep ObjectChange.keyedById changes (keyed relay before same)
  · exact changes_keep ObjectChange.keyedById changes ⟨List.nodup_nil, nofun⟩

theorem nodup_requests (keyed : KeyedById object) :
    (object.subscriptions.map fun entry => entry.2.toJson).Nodup := by
  refine (List.nodup_map_iff_inj_on (List.Nodup.of_map _ keyed.1)).mpr ?_
  intro first firstIn second secondIn same
  have ids : first.2.id = second.2.id := (PoolMessage.req.inj same).1
  rw [keyed.2 first firstIn, keyed.2 second secondIn] at ids
  exact List.inj_on_of_nodup_map keyed.1 firstIn secondIn ids

/-- What is kept back is sent as often, and each subscription once, when none was kept back. -/
theorem counts_of_disjoint (keyed : KeyedById object)
    (apart : ∀ entry ∈ object.subscriptions, entry.2.toJson ∉ object.pendingAuthedMessages) :
    (∀ message ∈ object.pendingAuthedMessages,
      (object.pendingAuthedMessages ++ object.subscriptions.map fun entry => entry.2.toJson).count
        message = object.pendingAuthedMessages.count message) ∧
    ∀ subscription ∈ object.subscriptions.map Prod.snd,
      (object.pendingAuthedMessages ++ object.subscriptions.map fun entry => entry.2.toJson).count
        subscription.toJson = 1 := by
  constructor
  · intro message queued
    rw [List.count_append, Nat.add_eq_left, List.count_eq_zero]
    intro requested
    obtain ⟨entry, member, rfl⟩ := List.mem_map.mp requested
    exact apart entry member queued
  · intro subscription held
    obtain ⟨entry, member, rfl⟩ := List.mem_map.mp held
    rw [List.count_append, List.count_eq_zero.mpr (apart entry member), Nat.zero_add]
    exact List.count_eq_one_of_mem (nodup_requests keyed) (List.mem_map.mpr ⟨entry, member, rfl⟩)

/-! ### The invariant -/

/-- Every signature and every AUTH event that is waited for is of a challenge. -/
structure AuthInv (pool : RelayPool) (history : AuthHistory) : Prop where
  keyed : ∀ (relay : Nat) (object : PooledRelay), pool.objects[relay]? = some object →
    KeyedById object
  signing : ∀ relay challenge, Suspended.signing relay challenge ∈ pool.suspended →
    (relay, challenge) ∈ history.challenges
  pending : ∀ eventId, (find pool.pendingAuthEvents eventId).isSome = true →
    ∃ sent, history.authSent.find? (fun sent => sent.eventId = eventId) = some sent ∧
      (sent.relay, sent.challenge) ∈ history.challenges
  owned : ∀ turned ∈ history.turned, turned.Own

theorem authInv_empty : AuthInv empty .empty where
  keyed := nofun
  signing := nofun
  pending := nofun
  owned := nofun

theorem signing_poolStep {challenge : String}
    (stepped : poolStep pool action = some (next, effects))
    (waiting : Suspended.signing relay challenge ∈ next.suspended) :
    Suspended.signing relay challenge ∈ pool.suspended ∨ action = .auth relay challenge := by
  rcases mem_suspended_poolStep stepped waiting with before | new
  · exact .inl before
  · cases action with
    | auth other received =>
      obtain ⟨rfl, rfl⟩ := Suspended.signing.inj (List.mem_singleton.mp new)
      exact .inr rfl
    | add | eose => cases List.mem_singleton.mp new
    | _ => cases new

theorem pending_poolStep (history : AuthHistory)
    (stepped : poolStep pool action = some (next, effects)) :
    (pool.sendsAuth history action = none ∧
      ∀ eventId, (find next.pendingAuthEvents eventId).isSome = true →
        (find pool.pendingAuthEvents eventId).isSome = true) ∨
    ∃ eventId relay challenge url,
      pool.sendsAuth history action =
        some ⟨eventId, relay, challenge, history.connection relay⟩ ∧
      Suspended.signing relay challenge ∈ pool.suspended ∧
      next.pendingAuthEvents = put pool.pendingAuthEvents eventId url := by
  cases quiet : touchesBooks action with
  | false =>
    have same := (quiet_books quiet stepped).1.pendingAuthEvents
    refine .inl ⟨?_, fun eventId pending => same ▸ pending⟩
    cases action with
    | resumeAuth => cases quiet
    | _ => rfl
  | true =>
    cases action with
    | subscribe subscription choice =>
      have books := subscribe_books pool subscription choice
      rw [Option.some.inj stepped] at books
      exact .inl ⟨rfl, fun eventId pending => books.books.pendingAuthEvents ▸ pending⟩
    | unsubscribe id =>
      have books := unsubscribe_books pool id
      rw [Option.some.inj stepped] at books
      exact .inl ⟨rfl, fun eventId pending => books.books.pendingAuthEvents ▸ pending⟩
    | query subscription onComplete choice =>
      have books := query_books pool subscription onComplete choice
      rw [Option.some.inj stepped] at books
      exact .inl ⟨rfl, fun eventId pending => books.books.pendingAuthEvents ▸ pending⟩
    | ok relay eventId success =>
      refine .inl ⟨rfl, fun other pending => ?_⟩
      obtain ⟨object, found, same | ⟨-, same⟩⟩ := ok_eq_some stepped
      · obtain rfl : next = pool := congrArg Prod.fst same
        exact pending
      · have cleared : next.pendingAuthEvents =
            Dictionary.remove pool.pendingAuthEvents eventId := by
          obtain rfl : next = _ := congrArg Prod.fst same
          split <;> rfl
        rw [cleared, find_remove] at pending
        split at pending
        · cases pending
        · exact pending
    | resumeEose index =>
      obtain ⟨relay, subId, isQuery, object, -, -, same⟩ := resumeEose_eq_some stepped
      have kept : next.pendingAuthEvents = pool.pendingAuthEvents := by
        obtain rfl : next = _ := congrArg Prod.fst same
        split
        · unfold eoseOfQuery
          split <;> rfl
        · unfold eoseOfSubscription
          split
          · split <;> rfl
          · rfl
      exact .inl ⟨rfl, fun eventId pending => kept ▸ pending⟩
    | resumeAuth index eventId =>
      obtain ⟨relay, challenge, object, waiting, -, ⟨rfl, same⟩ | ⟨signed, rfl, same⟩⟩ :=
        resumeAuth_eq_some stepped
      · cases same
        exact .inl ⟨rfl, fun _ pending => pending⟩
      · cases same
        refine .inr ⟨signed, relay, challenge, object.url, ?_, List.mem_of_getElem? waiting, rfl⟩
        unfold sendsAuth
        dsimp only
        rw [waiting]
    | _ => cases quiet

theorem turned_poolStep {other : Nat} (stepped : poolStep pool action = some (next, effects))
    (turned : turns pool next other = true) : ∃ eventId object,
      action = .ok other eventId true ∧ pool.objects[other]? = some object ∧
      object.authed = false ∧ (find pool.pendingAuthEvents eventId).isSome = true ∧
      effects = object.pendingAuthedMessages.map (.send other) ++
        object.subscriptions.map fun entry => .send other entry.2.toJson := by
  obtain ⟨was, is⟩ := (Bool.and_eq_true _ _).mp turned
  obtain ⟨later, laterFound, authed⟩ := (Option.any_eq_true _ _).mp is
  obtain ⟨earlier, earlierFound, unauthed⟩ := (Option.any_eq_true _ _).mp was
  rw [Bool.not_eq_true'] at unauthed
  rcases objectsFrom_poolStep stepped with from_ |
    ⟨relay, eventId, object, rfl, found, pending, rfl, sends⟩
  · obtain ⟨before, changes, same | ⟨none, -⟩⟩ := from_.source other later laterFound
    · cases earlierFound.symm.trans same
      have still := changes_keep ObjectChange.unauthed changes unauthed
      rw [authed] at still
      cases still
    · rw [none] at earlierFound
      cases earlierFound
  · by_cases same : relay = other
    · subst same
      cases earlierFound.symm.trans found
      exact ⟨eventId, earlier, rfl, found, unauthed, pending, sends⟩
    · rw [getElem?_acknowledge found, if_neg same] at laterFound
      cases earlierFound.symm.trans laterFound
      rw [authed] at unauthed
      cases unauthed

theorem sentTo_sends (relay : Nat) (messages : List PoolMessage) :
    (messages.map (PoolEffect.send relay)).filterMap (PoolEffect.sentTo relay) = messages := by
  rw [List.filterMap_map]
  have each : (PoolEffect.sentTo relay ∘ PoolEffect.send relay) = some := by
    funext message
    exact if_pos rfl
  rw [each, List.filterMap_some]

theorem watched_authInv {seen after : RelayPool × AuthHistory}
    (inv : AuthInv seen.1 seen.2) (acknowledged : Acknowledged seen action)
    (stepped : watched poolStep observeAuth seen action = some after) :
    AuthInv after.1 after.2 := by
  obtain ⟨effects, ended, recorded⟩ := watched_eq_some.mp stepped
  obtain ⟨pool, history⟩ := seen
  obtain ⟨next, later⟩ := after
  dsimp only at inv ended recorded ⊢
  subst recorded
  have grow : ∀ challenge ∈ history.challenges,
      challenge ∈ (observeAuth history pool action next effects).challenges := by
    intro challenge member
    cases action with
    | auth => exact List.mem_cons_of_mem _ member
    | _ => exact member
  refine ⟨?_, ?_, ?_, ?_⟩
  · intro relay object found
    rcases objectsFrom_poolStep ended with from_ |
      ⟨other, eventId, before, rfl, foundBefore, pending, rfl, sends⟩
    · exact keyedById_objects from_ inv.keyed found
    · rw [getElem?_acknowledge foundBefore] at found
      split at found
      · cases found
        exact inv.keyed other before foundBefore
      · exact inv.keyed relay object found
  · intro relay challenge waiting
    rcases signing_poolStep ended waiting with before | rfl
    · exact grow _ (inv.signing relay challenge before)
    · exact List.mem_cons_self
  · intro eventId pending
    change ∃ sent, ((pool.sendsAuth history action).toList ++ history.authSent).find? _ = _ ∧ _
    rcases pending_poolStep history ended with
      ⟨none, fewer⟩ | ⟨signed, relay, challenge, url, sends, waiting, added⟩
    · obtain ⟨sent, newest, known⟩ := inv.pending eventId (fewer eventId pending)
      rw [none]
      exact ⟨sent, newest, grow _ known⟩
    · rw [sends]
      change ∃ sent, (_ :: history.authSent).find? _ = _ ∧ _
      by_cases same : signed = eventId
      · refine ⟨_, List.find?_cons_of_pos (by exact decide_eq_true same), ?_⟩
        exact grow _ (inv.signing relay challenge waiting)
      · rw [added, find_put, if_neg same] at pending
        obtain ⟨sent, newest, known⟩ := inv.pending eventId pending
        refine ⟨sent, ?_, grow _ known⟩
        rw [List.find?_cons_of_neg (by simpa using same)]
        exact newest
  · intro turned member
    rcases List.mem_append.mp member with old | new
    · exact inv.owned turned old
    · obtain ⟨relay, inside, made⟩ := List.mem_filterMap.mp new
      obtain ⟨object, found, rfl⟩ := Option.map_eq_some_iff.mp made
      obtain ⟨eventId, same, rfl, sameFound, unauthed, pending, rfl⟩ :=
        turned_poolStep ended (List.mem_filter.mp inside).2
      cases found.symm.trans sameFound
      obtain ⟨own, apart⟩ := acknowledged object found unauthed pending
      obtain ⟨sent, newest, known⟩ := inv.pending eventId pending
      obtain ⟨sameRelay, sameConnection⟩ := own sent newest
      refine ⟨⟨eventId, sent.challenge, if_pos rfl, ?_, ?_⟩, ?_⟩
      · have named := List.find?_some newest
        have same : sent = ⟨eventId, relay, sent.challenge, history.connection relay⟩ := by
          rw [← of_decide_eq_true named, ← sameRelay]
          exact congrArg (AuthSent.mk _ _ _) (sameConnection.trans (by rw [sameRelay]))
        exact same ▸ List.mem_of_find?_eq_some newest
      · rw [← sameRelay]
        exact known
      · have sends : (object.pendingAuthedMessages.map (PoolEffect.send relay) ++
            object.subscriptions.map fun entry => PoolEffect.send relay entry.2.toJson).filterMap
              (PoolEffect.sentTo relay) =
            object.pendingAuthedMessages ++ object.subscriptions.map fun entry =>
              entry.2.toJson := by
          rw [List.filterMap_append, sentTo_sends,
            ← sentTo_sends relay (object.subscriptions.map _),
            List.map_map]
          rfl
        rw [sends]
        exact counts_of_disjoint (inv.keyed relay object found) apart

/-- A relay becomes authenticated only by its own OK when each OK that is taken is its own. -/
theorem run_owned (actions : List PoolAction) (reached : RelayPool × AuthHistory)
    (ran : run (watched poolStep observeAuth) (empty, .empty) actions = some reached)
    (acknowledged : Meets (watched poolStep observeAuth) Acknowledged (empty, .empty) actions) :
    ∀ turned ∈ reached.2.turned, turned.Own := by
  have inv : AuthInv reached.1 reached.2 := invariant_of_meets _
    (fun _ _ _ inv meets stepped =>
      watched_authInv inv meets stepped) authInv_empty acknowledged ran
  exact inv.owned

/-- A relay with a subscription and a message that was kept back is authenticated by its own OK. -/
theorem run_owned_sample : ∃ reached,
    run (watched poolStep observeAuth) (empty, .empty)
      [.add "a" .normal true false false, .subscribe ⟨"s", [], true⟩ allRelays,
        .setRelayAlwaysAuth "a" true, .sendTo (.event "m") 0, .auth 0 "0123456789abcdef",
        .resumeAuth 1 (some "e"), .ok 0 "e" true] = some reached ∧
      reached.2.turned.map Turned.sent = [[.event "m", .req "s" []]] ∧
      ∀ turned ∈ reached.2.turned, turned.Own := by
  refine ⟨_, rfl, rfl, run_owned
    [.add "a" .normal true false false, .subscribe ⟨"s", [], true⟩ allRelays,
      .setRelayAlwaysAuth "a" true, .sendTo (.event "m") 0, .auth 0 "0123456789abcdef",
      .resumeAuth 1 (some "e"), .ok 0 "e" true] _ rfl ?_⟩
  refine Meets.cons _ trivial rfl (Meets.cons _ trivial rfl (Meets.cons _ trivial rfl
    (Meets.cons _ trivial rfl (Meets.cons _ trivial rfl (Meets.cons _ trivial rfl
      (Meets.cons _ ?_ rfl trivial))))))
  intro object found _ _
  cases found
  exact ⟨by decide, by decide⟩

/-- OK for another relay's AUTH authenticates the sender, and a kept subscription is sent twice. -/
theorem auth_disowned :
    (∃ reached, run (watched poolStep observeAuth) (empty, .empty)
        [.add "a" .normal true true false, .add "b" .normal true true false,
          .auth 0 "0123456789abcdef", .resumeAuth 2 (some "e"), .ok 1 "e" true] = some reached ∧
      reached.2.turned.map Turned.relay = [1] ∧ ¬∀ turned ∈ reached.2.turned, turned.Own) ∧
    ∃ reached, run (watched poolStep observeAuth) (empty, .empty)
        [.add "a" .normal true true false, .subscribe ⟨"s", [], true⟩ allRelays,
          .auth 0 "0123456789abcdef", .resumeAuth 1 (some "e"), .ok 0 "e" true] = some reached ∧
      reached.2.turned.map Turned.sent = [[.req "s" [], .req "s" []]] ∧
      ¬∀ turned ∈ reached.2.turned, turned.Own := by
  refine ⟨⟨_, rfl, rfl, fun owned => ?_⟩, ⟨_, rfl, rfl, fun owned => ?_⟩⟩
  · obtain ⟨⟨eventId, challenge, -, -, received⟩, -⟩ := owned _ (List.mem_singleton_self _)
    have mine := List.mem_singleton.mp received
    cases mine
  · obtain ⟨-, -, once⟩ := owned _ (List.mem_singleton_self _)
    exact absurd (once ⟨"s", [], true⟩ (by decide)) (by decide)

end RelayPool

end Divine.NostrSdk
