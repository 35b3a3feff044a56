/-
This file shows when the pool reports the end of stored events exactly when it is true.
-/

import Divine.NostrSdk.PoolFrames
import Mathlib.Data.List.Perm.Subperm

namespace Divine.NostrSdk

open Dictionary Observer Transition

/-! ### What is due -/

/-- The relays whose EOSE was handled, the subscriptions, those whose `onEose` was called, and on
each step those it was due for. -/
structure EoseHistory where
  sent : List (Nat × String)
  subscribed : List String
  called : List String
  calls : List (List String × List String)
  deriving DecidableEq

namespace EoseHistory

def empty : EoseHistory where
  sent := []
  subscribed := []
  called := []
  calls := []

end EoseHistory

def PoolEffect.eoseId : PoolEffect → Option String
  | .onEose id => some id
  | .send _ _ | .onComplete _ => none

namespace RelayPool

/-- Every relay that holds a subscription has sent EOSE for it. -/
def AllSent (pool : RelayPool) (sent : List (Nat × String)) (subId : String) : Prop :=
  ∀ entry ∈ pool.entries, pool.satisfies (fun object => object.holds subId) entry.2 = true →
    (entry.2, subId) ∈ sent

instance (pool : RelayPool) (sent : List (Nat × String)) (subId : String) :
    Decidable (pool.AllSent sent subId) :=
  inferInstanceAs (Decidable (∀ entry ∈ pool.entries, _ → _))

def handledEose (pool : RelayPool) : PoolAction → Option (Nat × String)
  | .resumeEose index =>
      match pool.suspended[index]? with
      | some (.eose relay subId false) =>
          if (find pool.subscriptions subId).any Subscription.onEose then some (relay, subId)
          else none
      | _ => none
  | _ => none

end RelayPool

/-- A callback is due when every relay with the subscription has sent EOSE, and it was not called
before. -/
def EoseHistory.due (history : EoseHistory) (pool : RelayPool) (action : PoolAction) :
    List String :=
  match pool.handledEose action with
  | some (relay, subId) =>
      if pool.AllSent ((relay, subId) :: history.sent) subId ∧ subId ∉ history.called then [subId]
      else []
  | none => []

def observeEose : Observe RelayPool PoolAction (List PoolEffect) EoseHistory :=
  fun history pool action _ effects => {
    sent := (pool.handledEose action).toList ++ history.sent
    subscribed :=
      match action with
      | .subscribe subscription _ => subscription.id :: history.subscribed
      | _ => history.subscribed
    called := history.called ++ effects.filterMap PoolEffect.eoseId
    calls := history.calls ++ [(effects.filterMap PoolEffect.eoseId, history.due pool action)] }

/-- Each callback was called exactly when it was due, and none twice. -/
def EoseHistory.Punctual (history : EoseHistory) : Prop :=
  (∀ call ∈ history.calls, call.1 = call.2) ∧ history.called.Nodup

/-! ### When it is called -/

structure CountsRight (history : EoseHistory) (pool : RelayPool) (relay : Nat)
    (subId url : String) : Prop where
  again : subId ∈ history.called →
    (pool.tracked subId url).length < pool.relaysWithSubscription.length
  complete : subId ∉ history.called → pool.AllSent ((relay, subId) :: history.sent) subId →
    ∀ entry ∈ pool.entries, pool.satisfies PooledRelay.hasSubscription entry.2 = true →
      (entry.2, subId) ∈ (relay, subId) :: history.sent
  waiting : subId ∉ history.called → ¬pool.AllSent ((relay, subId) :: history.sent) subId →
    (∀ tracked ∈ pool.tracked subId url, tracked ∈ pool.relaysWithSubscription) ∧
      ∀ entry ∈ pool.entries, pool.satisfies (fun object => object.holds subId) entry.2 = true →
        entry.1 ∈ pool.tracked subId url → (entry.2, subId) ∈ (relay, subId) :: history.sent

/-- Subscriptions have different ids, and the counts are right when an EOSE is handled. -/
def EoseCounted (seen : RelayPool × EoseHistory) (action : PoolAction) : Prop :=
  match action with
  | .subscribe subscription _ => subscription.id ∉ seen.2.subscribed
  | _ => ∀ relay subId, seen.1.handledEose action = some (relay, subId) →
      ∀ object ∈ seen.1.objects[relay]?, CountsRight seen.2 seen.1 relay subId object.url

namespace RelayPool

variable {pool next : RelayPool} {history : EoseHistory} {action : PoolAction}
  {effects : List PoolEffect} {relay : Nat} {object : PooledRelay} {subId : String}

/-! ### Steps -/

theorem eoseIds_of_onlySends (only : OnlySends effects) :
    effects.filterMap PoolEffect.eoseId = [] := by
  rw [List.filterMap_eq_nil_iff]
  intro effect member
  obtain ⟨relay, message, rfl⟩ := only effect member
  rfl

/-- What is known of a subscription is unchanged. -/
structure SameTracking (pool next : RelayPool) (effects : List PoolEffect) : Prop where
  subscriptions : next.subscriptions = pool.subscriptions
  subscriptionEoseRelays : next.subscriptionEoseRelays = pool.subscriptionEoseRelays
  silent : effects.filterMap PoolEffect.eoseId = []

theorem SameTracking.of_books (books : pool.SameBooks next) (only : OnlySends effects) :
    pool.SameTracking next effects :=
  ⟨books.subscriptions, books.subscriptionEoseRelays, eoseIds_of_onlySends only⟩

/-- How a step changes what is known of subscriptions: one is made, ended, or sends EOSE. -/
inductive TrackingStep (pool next : RelayPool) (effects : List PoolEffect) : PoolAction → Prop where
  | same {action : PoolAction} (unhandled : pool.handledEose action = none)
      (others : ∀ subscription choice, action ≠ .subscribe subscription choice)
      (tracking : pool.SameTracking next effects) : TrackingStep pool next effects action
  | subscribed (subscription : Subscription) (choice : RelayChoice)
      (tracking : RelayPool.SameTracking { pool with
        subscriptions := put pool.subscriptions subscription.id subscription } next effects) :
      TrackingStep pool next effects (.subscribe subscription choice)
  | unsubscribed (id : String)
      (tracking : RelayPool.SameTracking { pool with
        subscriptions := Dictionary.remove pool.subscriptions id
        subscriptionEoseRelays := Dictionary.remove pool.subscriptionEoseRelays id } next effects) :
      TrackingStep pool next effects (.unsubscribe id)
  | handled (index relay : Nat) (subId : String) (object : PooledRelay)
      (handledNow : pool.handledEose (.resumeEose index) = some (relay, subId))
      (found : pool.objects[relay]? = some object)
      (present : ((find pool.subscriptions subId).any Subscription.onEose) = true)
      (after : (next, effects) = (pool.resumed index).eoseOfSubscription subId object.url) :
      TrackingStep pool next effects (.resumeEose index)

theorem handledEose_of_quiet (quiet : touchesBooks action = false) :
    pool.handledEose action = none := by
  cases action with
  | resumeEose index => cases quiet
  | _ => rfl

theorem poolStep_tracking (stepped : poolStep pool action = some (next, effects)) :
    TrackingStep pool next effects action := by
  cases quiet : touchesBooks action with
  | false =>
    obtain ⟨books, only⟩ := quiet_books quiet stepped
    refine .same (handledEose_of_quiet quiet) ?_ (SameTracking.of_books books only)
    rintro subscription choice rfl
    cases quiet
  | true =>
    cases action with
    | subscribe subscription choice =>
      have books := subscribe_books pool subscription choice
      rw [Option.some.inj stepped] at books
      exact .subscribed subscription choice (SameTracking.of_books books.books books.only)
    | unsubscribe id =>
      have books := unsubscribe_books pool id
      rw [Option.some.inj stepped] at books
      exact .unsubscribed id (SameTracking.of_books books.books books.only)
    | query subscription onComplete choice =>
      have books := query_books pool subscription onComplete choice
      rw [Option.some.inj stepped] at books
      exact .same rfl nofun ⟨books.books.subscriptions, books.books.subscriptionEoseRelays,
        eoseIds_of_onlySends books.only⟩
    | ok relay eventId success =>
      obtain ⟨object, found, same | ⟨-, same⟩⟩ := ok_eq_some stepped
      · cases same
        exact .same rfl nofun ⟨rfl, rfl, rfl⟩
      · cases success with
        | true =>
          cases same
          refine .same rfl nofun ⟨rfl, rfl, eoseIds_of_onlySends (onlySends_append ?_ ?_)⟩
          · exact onlySends_map relay id _
          · exact onlySends_map relay (fun entry : String × Subscription => entry.2.toJson) _
        | false =>
          cases same
          exact .same rfl nofun ⟨rfl, rfl, rfl⟩
    | resumeEose index =>
      obtain ⟨relay, subId, isQuery, object, waiting, found, same⟩ := resumeEose_eq_some stepped
      cases isQuery with
      | true =>
        have unhandled : pool.handledEose (.resumeEose index) = none := by
          unfold handledEose
          dsimp only
          rw [waiting]
        rw [if_pos rfl] at same
        unfold eoseOfQuery at same
        split at same
        · cases same
          exact .same unhandled nofun ⟨rfl, rfl, rfl⟩
        · cases same
          exact .same unhandled nofun ⟨rfl, rfl, rfl⟩
      | false =>
        have handled : pool.handledEose (.resumeEose index) =
            if (find pool.subscriptions subId).any Subscription.onEose then some (relay, subId)
            else none := by
          unfold handledEose
          dsimp only
          rw [waiting]
        by_cases present : (find pool.subscriptions subId).any Subscription.onEose = true
        · rw [if_pos present] at handled
          exact .handled index relay subId object handled found present same
        · rw [if_neg present] at handled
          unfold eoseOfSubscription at same
          rw [if_neg (show ¬(find (pool.resumed index).subscriptions subId).any
            Subscription.onEose = true from present)] at same
          cases same
          exact .same handled nofun ⟨rfl, rfl, rfl⟩
    | resumeAuth index eventId =>
      obtain ⟨relay, challenge, object, -, -, ⟨-, same⟩ | ⟨signed, -, same⟩⟩ :=
        resumeAuth_eq_some stepped
      · cases same
        exact .same rfl nofun ⟨rfl, rfl, rfl⟩
      · cases same
        exact .same rfl nofun ⟨rfl, rfl, rfl⟩
    | _ => cases quiet

/-! ### The decision -/

/-- The relays whose EOSE was handled are counted by their addresses until the callback is called.
-/
structure EoseInv (pool : RelayPool) (history : EoseHistory) : Prop where
  keyed : pool.Keyed
  counted : ∀ relay subId, (relay, subId) ∈ history.sent → subId ∉ history.called →
    (find pool.subscriptions subId).isSome = true → ∃ object, pool.objects[relay]? = some object ∧
      object.url ∈ (find pool.subscriptionEoseRelays subId).getD []
  distinct : ∀ subId, ((find pool.subscriptionEoseRelays subId).getD []).Nodup
  known : ∀ subId, (find pool.subscriptions subId).isSome = true → subId ∈ history.subscribed
  sentKnown : ∀ relay subId, (relay, subId) ∈ history.sent → subId ∈ history.subscribed
  punctual : history.Punctual

theorem mem_relaysWithSubscription {url : String} :
    url ∈ pool.relaysWithSubscription ↔ ∃ relay, (url, relay) ∈ pool.entries ∧
      pool.satisfies PooledRelay.hasSubscription relay = true := by
  unfold relaysWithSubscription
  rw [List.mem_dedup, List.mem_map]
  constructor
  · rintro ⟨⟨url, relay⟩, member, rfl⟩
    exact ⟨relay, (List.mem_filter.mp member).1, (List.mem_filter.mp member).2⟩
  · rintro ⟨relay, member, has⟩
    exact ⟨(url, relay), List.mem_filter.mpr ⟨member, has⟩, rfl⟩

theorem satisfies_mono {first second : PooledRelay → Bool}
    (implies : ∀ object, first object = true → second object = true)
    (holds : pool.satisfies first relay = true) : pool.satisfies second relay = true := by
  unfold satisfies at holds ⊢
  cases found : pool.objects[relay]? with
  | none =>
    rw [found] at holds
    cases holds
  | some object =>
    rw [found] at holds
    exact implies object holds

theorem hasSubscription_of_holds (object : PooledRelay) (holds : object.holds subId = true) :
    object.hasSubscription = true := by
  unfold PooledRelay.hasSubscription
  rw [Bool.not_eq_true', List.isEmpty_eq_false_iff]
  intro none
  unfold PooledRelay.holds at holds
  rw [none] at holds
  cases holds

theorem called_iff_due (inv : EoseInv pool history) (found : pool.objects[relay]? = some object)
    (present : (find pool.subscriptions subId).isSome = true)
    (right : CountsRight history pool relay subId object.url) :
    pool.relaysWithSubscription.length ≤ (pool.tracked subId object.url).length ↔
      pool.AllSent ((relay, subId) :: history.sent) subId ∧ subId ∉ history.called := by
  by_cases called : subId ∈ history.called
  · exact iff_of_false (Nat.not_le.mpr (right.again called)) fun both => both.2 called
  by_cases all : pool.AllSent ((relay, subId) :: history.sent) subId
  · have right := right.complete called all
    refine iff_of_true ?_ ⟨all, called⟩
    refine (List.subperm_of_subset (List.nodup_dedup _) fun url member => ?_).length_le
    obtain ⟨other, entry, has⟩ := mem_relaysWithSubscription.mp member
    obtain ⟨otherObject, otherFound, rfl⟩ := inv.keyed _ entry
    unfold tracked
    rw [List.mem_insert_iff]
    rcases List.mem_cons.mp (right _ entry has) with own | before
    · cases own
      exact .inl (congrArg PooledRelay.url (Option.some.inj (otherFound.symm.trans found)))
    · obtain ⟨sender, senderFound, listed⟩ := inv.counted _ _ before called present
      cases otherFound.symm.trans senderFound
      exact .inr listed
  · have right := right.waiting called all
    refine iff_of_false (fun enough => all fun entry member holds => ?_) fun both => all both.1
    have within : (pool.tracked subId object.url).Nodup := (inv.distinct subId).insert
    have same := (List.subperm_of_subset within right.1).perm_of_length_le enough
    refine right.2 entry member holds (same.mem_iff.mpr (mem_relaysWithSubscription.mpr
      ⟨entry.2, member, satisfies_mono (fun object => hasSubscription_of_holds object) holds⟩))

/-! ### The invariant -/

theorem eoseInv_empty : EoseInv empty .empty where
  keyed := nofun
  counted := nofun
  distinct := fun _ => List.nodup_nil
  known := nofun
  sentKnown := nofun
  punctual := ⟨nofun, List.nodup_nil⟩

theorem due_of_unhandled (unhandled : pool.handledEose action = none) :
    history.due pool action = [] := by
  unfold EoseHistory.due
  rw [unhandled]

theorem punctual_of_unhandled (punctual : history.Punctual)
    (silent : effects.filterMap PoolEffect.eoseId = [])
    (unhandled : pool.handledEose action = none) :
    (observeEose history pool action next effects).Punctual := by
  refine ⟨fun call member => ?_, ?_⟩
  · rcases List.mem_append.mp member with old | new
    · exact punctual.1 call old
    · rw [List.mem_singleton.mp new, silent, due_of_unhandled unhandled]
  · change (history.called ++ effects.filterMap PoolEffect.eoseId).Nodup
    rw [silent, List.append_nil]
    exact punctual.2

section

variable (inv : EoseInv pool history)

include inv

theorem EoseInv.found (grown : pool.Grown next)
    (sent : (relay, subId) ∈ history.sent) (uncalled : subId ∉ history.called)
    (present : (find pool.subscriptions subId).isSome = true) : ∃ object : PooledRelay,
      next.objects[relay]? = some object ∧
        object.url ∈ (find pool.subscriptionEoseRelays subId).getD [] := by
  obtain ⟨object, found, listed⟩ := inv.counted relay subId sent uncalled present
  obtain ⟨later, foundLater, same⟩ := grown.later relay object found
  exact ⟨later, foundLater, same ▸ listed⟩

theorem eoseInv_same (grown : pool.Grown next) (unhandled : pool.handledEose action = none)
    (others : ∀ subscription choice, action ≠ .subscribe subscription choice)
    (tracking : pool.SameTracking next effects) :
    EoseInv next (observeEose history pool action next effects) := by
  have sent : (observeEose history pool action next effects).sent = history.sent := by
    change (pool.handledEose action).toList ++ history.sent = _
    rw [unhandled]
    rfl
  have called : (observeEose history pool action next effects).called = history.called := by
    change history.called ++ effects.filterMap PoolEffect.eoseId = _
    rw [tracking.silent, List.append_nil]
  have subscribed : (observeEose history pool action next effects).subscribed =
      history.subscribed := by
    cases action with
    | subscribe subscription choice => exact absurd rfl (others subscription choice)
    | _ => rfl
  refine ⟨grown.keyed inv.keyed, ?_, ?_, ?_, ?_,
    punctual_of_unhandled inv.punctual tracking.silent unhandled⟩
  · rw [sent, called, tracking.subscriptions, tracking.subscriptionEoseRelays]
    exact fun relay subId was uncalled present => inv.found grown was uncalled present
  · rw [tracking.subscriptionEoseRelays]
    exact inv.distinct
  · rw [tracking.subscriptions, subscribed]
    exact inv.known
  · rw [sent, subscribed]
    exact inv.sentKnown

theorem eoseInv_subscribed {subscription : Subscription} {choice : RelayChoice}
    (grown : pool.Grown next) (fresh : subscription.id ∉ history.subscribed)
    (tracking : RelayPool.SameTracking { pool with
      subscriptions := put pool.subscriptions subscription.id subscription } next effects) :
    EoseInv next (observeEose history pool (.subscribe subscription choice) next effects) := by
  have called : (observeEose history pool (.subscribe subscription choice) next effects).called =
      history.called := by
    change history.called ++ effects.filterMap PoolEffect.eoseId = _
    rw [tracking.silent, List.append_nil]
  have subscriptions : next.subscriptions =
      put pool.subscriptions subscription.id subscription := tracking.subscriptions
  have eoseRelays : next.subscriptionEoseRelays = pool.subscriptionEoseRelays :=
    tracking.subscriptionEoseRelays
  refine ⟨grown.keyed inv.keyed, ?_, ?_, ?_, ?_,
    punctual_of_unhandled inv.punctual tracking.silent rfl⟩
  · rw [called, subscriptions, eoseRelays]
    intro relay subId was uncalled present
    have other : subscription.id ≠ subId := fun same =>
      fresh (same ▸ inv.sentKnown relay subId was)
    rw [find_put, if_neg other] at present
    exact inv.found grown was uncalled present
  · rw [eoseRelays]
    exact inv.distinct
  · rw [subscriptions]
    intro subId present
    by_cases same : subscription.id = subId
    · exact List.mem_cons.mpr (.inl same.symm)
    · rw [find_put, if_neg same] at present
      exact List.mem_cons_of_mem _ (inv.known subId present)
  · exact fun relay subId was => List.mem_cons_of_mem _ (inv.sentKnown relay subId was)

theorem eoseInv_unsubscribed {id : String} (grown : pool.Grown next)
    (tracking : RelayPool.SameTracking { pool with
      subscriptions := Dictionary.remove pool.subscriptions id
      subscriptionEoseRelays := Dictionary.remove pool.subscriptionEoseRelays id } next effects) :
    EoseInv next (observeEose history pool (.unsubscribe id) next effects) := by
  have called : (observeEose history pool (.unsubscribe id) next effects).called =
      history.called := by
    change history.called ++ effects.filterMap PoolEffect.eoseId = _
    rw [tracking.silent, List.append_nil]
  have subscriptions : next.subscriptions = Dictionary.remove pool.subscriptions id :=
    tracking.subscriptions
  have eoseRelays : next.subscriptionEoseRelays =
      Dictionary.remove pool.subscriptionEoseRelays id := tracking.subscriptionEoseRelays
  refine ⟨grown.keyed inv.keyed, ?_, ?_, ?_, inv.sentKnown,
    punctual_of_unhandled inv.punctual tracking.silent rfl⟩
  · rw [called, subscriptions, eoseRelays]
    intro relay subId was uncalled present
    rw [find_remove] at present
    by_cases same : id = subId
    · rw [if_pos same] at present
      cases present
    · rw [if_neg same] at present
      rw [find_remove, if_neg same]
      exact inv.found grown was uncalled present
  · rw [eoseRelays]
    intro subId
    rw [find_remove]
    split
    · exact List.nodup_nil
    · exact inv.distinct subId
  · rw [subscriptions]
    intro subId present
    rw [find_remove] at present
    split at present
    · cases present
    · exact inv.known subId present

end

theorem due_of_handled (history : EoseHistory)
    (handled : pool.handledEose action = some (relay, subId)) :
    history.due pool action =
      if pool.AllSent ((relay, subId) :: history.sent) subId ∧ subId ∉ history.called then [subId]
      else [] := by
  unfold EoseHistory.due
  rw [handled]

theorem isSome_of_any {subscription : Option Subscription}
    (present : subscription.any Subscription.onEose = true) : subscription.isSome = true := by
  cases subscription with
  | none => cases present
  | some _ => rfl

theorem eoseInv_handled {index : Nat} (inv : EoseInv pool history)
    (handled : pool.handledEose (.resumeEose index) = some (relay, subId))
    (found : pool.objects[relay]? = some object)
    (present : (find pool.subscriptions subId).any Subscription.onEose = true)
    (right : CountsRight history pool relay subId object.url)
    (after : (next, effects) = (pool.resumed index).eoseOfSubscription subId object.url) :
    EoseInv next (observeEose history pool (.resumeEose index) next effects) := by
  have isPresent := isSome_of_any present
  have decision := called_iff_due inv found isPresent right
  have due := due_of_handled history handled
  have sentNow : ((pool.handledEose (.resumeEose index)).toList ++ history.sent) =
      (relay, subId) :: history.sent := by
    rw [handled]
    rfl
  have known : ∀ other id, (other, id) ∈ (relay, subId) :: history.sent →
    id ∈ history.subscribed := by
    intro other id member
    rcases List.mem_cons.mp member with same | before
    · obtain ⟨-, rfl⟩ := Prod.mk.inj same
      exact inv.known id isPresent
    · exact inv.sentKnown other id before
  have grown : pool.Grown next := by
    rw [(Prod.mk.inj after).1]
    have resumed : Edit (.resumeEose index) pool (pool.resumed index) := .same rfl rfl
    have ended : Edit (.resumeEose index) (pool.resumed index)
        ((pool.resumed index).eoseOfSubscription subId object.url).1 := edit_eoseOfSubscription
    exact resumed.grown.trans ended.grown
  unfold eoseOfSubscription at after
  rw [if_pos (show (find (pool.resumed index).subscriptions subId).any Subscription.onEose = true
    from present)] at after
  by_cases enough : pool.relaysWithSubscription.length ≤ (pool.tracked subId object.url).length
  · rw [if_pos (show (pool.resumed index).relaysWithSubscription.length ≤
      ((pool.resumed index).tracked subId object.url).length from enough)] at after
    cases after
    have isDue := decision.mp enough
    rw [if_pos isDue] at due
    refine ⟨grown.keyed inv.keyed, ?_, ?_, inv.known, ?_, ?_, ?_⟩
    · intro other id member uncalled presentId
      have member : (other, id) ∈ (relay, subId) :: history.sent := sentNow ▸ member
      have uncalled : id ∉ history.called ++ [subId] := uncalled
      rw [List.mem_append, List.mem_singleton, not_or] at uncalled
      have before : (other, id) ∈ history.sent :=
        (List.mem_cons.mp member).resolve_left fun same => uncalled.2 (Prod.mk.inj same).2
      rw [find_remove, if_neg fun same => uncalled.2 same.symm]
      exact inv.found grown before uncalled.1 presentId
    · intro id
      rw [find_remove]
      split
      · exact List.nodup_nil
      · exact inv.distinct id
    · exact fun other id member => known other id (sentNow ▸ member)
    · intro call member
      rcases List.mem_append.mp member with old | new
      · exact inv.punctual.1 call old
      · rw [List.mem_singleton.mp new, due]
        rfl
    · change (history.called ++ [subId]).Nodup
      rw [← List.concat_eq_append]
      exact inv.punctual.2.concat isDue.2
  · rw [if_neg (show ¬(pool.resumed index).relaysWithSubscription.length ≤
      ((pool.resumed index).tracked subId object.url).length from enough)] at after
    cases after
    rw [if_neg fun isDue => enough (decision.mpr isDue)] at due
    refine ⟨grown.keyed inv.keyed, ?_, ?_, inv.known, ?_, ?_, ?_⟩
    · intro other id member uncalled presentId
      have member : (other, id) ∈ (relay, subId) :: history.sent := sentNow ▸ member
      have uncalled : id ∉ history.called := fun called =>
        uncalled (List.mem_append.mpr (.inl called))
      rw [find_put]
      rcases List.mem_cons.mp member with same | before
      · cases same
        rw [if_pos rfl]
        exact ⟨object, found, List.mem_insert_iff.mpr (.inl rfl)⟩
      · obtain ⟨sender, senderFound, listed⟩ := inv.found grown before uncalled presentId
        refine ⟨sender, senderFound, ?_⟩
        split
        · next same =>
          subst same
          exact List.mem_insert_iff.mpr (.inr listed)
        · exact listed
    · intro id
      rw [find_put]
      split
      · exact (inv.distinct subId).insert
      · exact inv.distinct id
    · exact fun other id member => known other id (sentNow ▸ member)
    · intro call member
      rcases List.mem_append.mp member with old | new
      · exact inv.punctual.1 call old
      · rw [List.mem_singleton.mp new, due]
        rfl
    · change (history.called ++ []).Nodup
      rw [List.append_nil]
      exact inv.punctual.2

theorem watched_eoseInv {seen after : RelayPool × EoseHistory} {action : PoolAction}
    (inv : EoseInv seen.1 seen.2) (counted : EoseCounted seen action)
    (stepped : watched poolStep observeEose seen action = some after) :
    EoseInv after.1 after.2 := by
  obtain ⟨effects, ended, recorded⟩ := watched_eq_some.mp stepped
  rw [recorded]
  have grown := grown_poolStep ended
  cases poolStep_tracking ended with
  | same unhandled others tracking => exact eoseInv_same inv grown unhandled others tracking
  | subscribed subscription choice tracking =>
    exact eoseInv_subscribed inv grown counted tracking
  | unsubscribed id tracking => exact eoseInv_unsubscribed inv grown tracking
  | handled index relay subId object handled found present eosed =>
    exact eoseInv_handled inv handled found present (counted relay subId handled object found) eosed

/-- Each `onEose` is called exactly when it is due, and at most once, when the counts are right at
every EOSE. -/
theorem run_punctual (actions : List PoolAction) (reached : RelayPool × EoseHistory)
    (ran : run (watched poolStep observeEose) (empty, .empty) actions = some reached)
    (counted : Meets (watched poolStep observeEose) EoseCounted (empty, .empty) actions) :
    reached.2.Punctual := by
  have inv : EoseInv reached.1 reached.2 := invariant_of_meets _
    (fun _ _ _ inv meets stepped => watched_eoseInv inv meets stepped) eoseInv_empty counted ran
  exact inv.punctual

/-- Two relays with one subscription send EOSE, and the callback is called after the second. -/
theorem run_punctual_sample : ∃ reached,
    run (watched poolStep observeEose) (empty, .empty)
      [.add "a" .normal true false false, .add "b" .normal true false false,
        .subscribe ⟨"s", [], true⟩ allRelays, .eose 0 "s", .resumeEose 2, .eose 1 "s",
        .resumeEose 2] = some reached ∧ reached.2.called = ["s"] ∧ reached.2.Punctual := by
  refine ⟨_, rfl, rfl, run_punctual
    [.add "a" .normal true false false, .add "b" .normal true false false,
      .subscribe ⟨"s", [], true⟩ allRelays, .eose 0 "s", .resumeEose 2, .eose 1 "s",
      .resumeEose 2] _ rfl ?_⟩
  refine Meets.cons _ nofun rfl (Meets.cons _ nofun rfl (Meets.cons _ List.not_mem_nil rfl
    (Meets.cons _ nofun rfl (Meets.cons _ ?_ rfl (Meets.cons _ nofun rfl
      (Meets.cons _ ?_ rfl trivial))))))
  · intro relay subId handled object found
    cases handled
    cases found
    exact ⟨by decide, by decide, by decide⟩
  · intro relay subId handled object found
    cases handled
    cases found
    exact ⟨by decide, by decide, by decide⟩

/-- A relay with another subscription is waited for, and EOSE of an unasked relay counts. -/
theorem eose_miscounted :
    (∃ reached, run (watched poolStep observeEose) (empty, .empty)
        [.add "a" .normal true false false, .add "b" .normal true false false,
          .subscribe ⟨"s", [], true⟩ (onlyRelay "a"), .subscribe ⟨"t", [], true⟩ (onlyRelay "b"),
          .eose 0 "s", .resumeEose 2] = some reached ∧
      reached.2.calls.getLast? = some ([], ["s"]) ∧ ¬reached.2.Punctual) ∧
    ∃ reached, run (watched poolStep observeEose) (empty, .empty)
        [.add "a" .normal true false false, .subscribe ⟨"s", [], true⟩ allRelays,
          .add "b" .normal true false true, .resumeAdd 1 true, .eose 1 "s", .resumeEose 1] =
        some reached ∧
      reached.2.calls.getLast? = some (["s"], []) ∧ ¬reached.2.Punctual := by
  refine ⟨⟨_, rfl, rfl, fun punctual => ?_⟩, ⟨_, rfl, rfl, fun punctual => ?_⟩⟩
  · exact absurd (punctual.1 ([], ["s"]) (by decide)) (by decide)
  · exact absurd (punctual.1 (["s"], []) (by decide)) (by decide)

end RelayPool

end Divine.NostrSdk
