/-
This file shows when a query completes once, after its last answer and never without it.
-/

import Divine.NostrSdk.PoolRecords

namespace Divine.NostrSdk

open Dictionary Observer Transition

/-! ### What is outstanding -/

/-- The ids of the queries and of those with a callback, the relays that have not answered, and the
callbacks that ran, with whether a relay had not answered then. -/
structure QueryHistory where
  ids : List String
  queried : List String
  outstanding : List (Nat × String)
  completed : List (String × Bool)
  deriving DecidableEq

namespace QueryHistory

def empty : QueryHistory where
  ids := []
  queried := []
  outstanding := []
  completed := []

variable (history : QueryHistory)

def awaited : List String := history.outstanding.map Prod.snd

def completedIds : List String := history.completed.map Prod.fst

end QueryHistory

def PoolEffect.completedId : PoolEffect → Option String
  | .onComplete id => some id
  | .send _ _ | .onEose _ => none

def Suspended.answered : Suspended → Option String
  | .eose _ subId true => some subId
  | .eose _ _ false | .adding _ _ | .signing _ _ => none

namespace RelayPool

variable (pool : RelayPool)

def handling : List String := pool.suspended.filterMap Suspended.answered

def answeredNow : PoolAction → Option String
  | .resumeEose index => pool.suspended[index]?.bind Suspended.answered
  | _ => none

def ends (relay : Nat) (id : String) : PoolAction → Bool
  | .eose other subId | .closed other subId => other = relay && subId = id
  | .disconnected other => other = relay
  | .remove url relayType => decide ((url, relay) ∈ pool.mapOf relayType)
  | .unsubscribe subId => subId = id && (find pool.subscriptions id).isNone
  | _ => false

def asks : PoolAction → List (Nat × String)
  | .query subscription _ _ =>
      ((List.range pool.objects.length).filter (pool.recorded subscription.id)).map
        fun relay => (relay, subscription.id)
  | _ => []

end RelayPool

def QueryHistory.remaining (history : QueryHistory) (pool : RelayPool) (action : PoolAction) :
    List (Nat × String) :=
  history.outstanding.filter fun entry => !pool.ends entry.1 entry.2 action

def observeQueries : Observe RelayPool PoolAction (List PoolEffect) QueryHistory :=
  fun history pool action next effects =>
    let outstanding := history.remaining pool action ++ next.asks action
    { ids :=
        match action with
        | .query subscription _ _ => subscription.id :: history.ids
        | _ => history.ids
      queried :=
        match action with
        | .query subscription true _ => subscription.id :: history.queried
        | _ => history.queried
      outstanding := outstanding
      completed := history.completed ++ (effects.filterMap PoolEffect.completedId).map
        fun id => (id, decide (id ∈ outstanding.map Prod.snd)) }

/-- Each callback ran at most once, when no relay had the query outstanding, and has run when none
has. -/
structure CompletesInTime (pool : RelayPool) (history : QueryHistory) : Prop where
  once : history.completedIds.Nodup
  late : ∀ completion ∈ history.completed, completion.2 = false
  ran : ∀ id ∈ history.queried, id ∉ history.awaited → id ∉ pool.handling →
    id ∈ history.completedIds

/-! ### When it completes -/

/-- When an EOSE was handled, no cache relay is the only one that has not answered, and no relay is
the only one that is waited for when it did. -/
structure ScanRight (pool : RelayPool) (history : QueryHistory) (index : Nat) (id : String) :
    Prop where
  cache : ∀ entry ∈ pool.cacheRelays, (entry.2, id) ∈ history.outstanding →
    ∃ other ∈ pool.relays ++ pool.tempRelays, pool.recorded id other.2 = true
  answered : ∀ entry ∈ pool.relays ++ pool.tempRelays, pool.recorded id entry.2 = true →
    id ∈ history.awaited ∨ id ∈ (pool.resumed index).handling

def AnswersLast (seen : RelayPool × QueryHistory) (action : PoolAction) : Prop :=
  match action with
  | .query subscription onComplete choice =>
      subscription.id ∉ seen.2.ids ∧ (onComplete = true → seen.1.Reaches choice)
  | .resumeEose index => ∀ id ∈ seen.1.answeredNow (.resumeEose index),
      id ∈ seen.1.queryCompleteCallbacks → ScanRight seen.1 seen.2 index id
  | .eose _ _ => True
  | action => ∀ id ∈ seen.1.queryCompleteCallbacks, id ∈ seen.2.awaited →
      id ∈ seen.1.handling ∨ id ∈ (seen.2.remaining seen.1 action).map Prod.snd

namespace RelayPool

variable {pool next : RelayPool} {history : QueryHistory} {action : PoolAction}
  {effects : List PoolEffect} {id : String} {relay : Nat}

/-! ### Steps -/

theorem completedIds_of_onlySends (only : OnlySends effects) :
    effects.filterMap PoolEffect.completedId = [] := by
  rw [List.filterMap_eq_nil_iff]
  intro effect member
  obtain ⟨relay, message, rfl⟩ := only effect member
  rfl

def makesQuery : PoolAction → Bool
  | .query _ _ _ => true
  | _ => false

/-- The callbacks change not at all, by a query, or by an EOSE of a query that was handled. -/
inductive CallbackStep (pool next : RelayPool) (effects : List PoolEffect) : PoolAction → Prop where
  | same {action : PoolAction} (unanswered : pool.answeredNow action = none)
      (others : makesQuery action = false)
      (callbacks : next.queryCompleteCallbacks = pool.queryCompleteCallbacks)
      (silent : effects.filterMap PoolEffect.completedId = []) :
      CallbackStep pool next effects action
  | queried (subscription : Subscription) (onComplete : Bool) (choice : RelayChoice)
      (callbacks : next.queryCompleteCallbacks =
        if onComplete then pool.queryCompleteCallbacks.insert subscription.id
        else pool.queryCompleteCallbacks)
      (silent : effects.filterMap PoolEffect.completedId = []) :
      CallbackStep pool next effects (.query subscription onComplete choice)
  | handled (index : Nat) (id : String)
      (answered : pool.answeredNow (.resumeEose index) = some id)
      (after : (next, effects) = (pool.resumed index).eoseOfQuery id) :
      CallbackStep pool next effects (.resumeEose index)

theorem poolStep_callbacks (stepped : poolStep pool action = some (next, effects)) :
    CallbackStep pool next effects action := by
  cases quiet : touchesBooks action with
  | false =>
    obtain ⟨books, only⟩ := quiet_books quiet stepped
    refine .same ?_ ?_ books.queryCompleteCallbacks (completedIds_of_onlySends only)
    · cases action with
      | resumeEose => cases quiet
      | _ => rfl
    · cases action with
      | query => cases quiet
      | _ => rfl
  | true =>
    cases action with
    | subscribe subscription choice =>
      have books := subscribe_books pool subscription choice
      rw [Option.some.inj stepped] at books
      exact .same rfl rfl books.books.queryCompleteCallbacks
        (completedIds_of_onlySends books.only)
    | unsubscribe id =>
      have books := unsubscribe_books pool id
      rw [Option.some.inj stepped] at books
      exact .same rfl rfl books.books.queryCompleteCallbacks
        (completedIds_of_onlySends books.only)
    | query subscription onComplete choice =>
      have books := query_books pool subscription onComplete choice
      rw [Option.some.inj stepped] at books
      exact .queried subscription onComplete choice books.books.queryCompleteCallbacks
        (completedIds_of_onlySends books.only)
    | ok relay eventId success =>
      obtain ⟨object, found, same | ⟨-, same⟩⟩ := ok_eq_some stepped
      · cases same
        exact .same rfl rfl rfl rfl
      · cases success with
        | true =>
          cases same
          refine .same rfl rfl rfl (completedIds_of_onlySends (onlySends_append ?_ ?_))
          · exact onlySends_map relay (fun message => message) _
          · exact onlySends_map relay (fun entry : String × Subscription => entry.2.toJson) _
        | false =>
          cases same
          exact .same rfl rfl rfl rfl
    | resumeEose index =>
      obtain ⟨relay, subId, isQuery, object, waiting, -, same⟩ := resumeEose_eq_some stepped
      have answered : pool.answeredNow (.resumeEose index) =
          (Suspended.eose relay subId isQuery).answered :=
        congrArg (fun held => held.bind Suspended.answered) waiting
      cases isQuery with
      | true => exact .handled index subId answered same
      | false =>
        change (next, effects) = (pool.resumed index).eoseOfSubscription subId object.url at same
        unfold eoseOfSubscription at same
        split at same
        · split at same
          · cases same
            exact .same answered rfl rfl rfl
          · cases same
            exact .same answered rfl rfl rfl
        · cases same
          exact .same answered rfl rfl rfl
    | resumeAuth index eventId =>
      obtain ⟨relay, challenge, object, -, -, ⟨-, same⟩ | ⟨signed, -, same⟩⟩ :=
        resumeAuth_eq_some stepped
      · cases same
        exact .same rfl rfl rfl rfl
      · cases same
        exact .same rfl rfl rfl rfl
    | _ => cases quiet

theorem mem_handling : id ∈ pool.handling ↔ ∃ relay, .eose relay id true ∈ pool.suspended := by
  unfold handling
  rw [List.mem_filterMap]
  constructor
  · rintro ⟨waiting, member, answered⟩
    cases waiting with
    | eose relay subId isQuery =>
      cases isQuery with
      | true => exact ⟨relay, Option.some.inj answered ▸ member⟩
      | false => cases answered
    | adding | signing => cases answered
  · rintro ⟨relay, member⟩
    exact ⟨_, member, rfl⟩

theorem mem_eraseIdx_of_ne {held : List Suspended} {waiting other : Suspended} {index : Nat}
    (member : waiting ∈ held) (there : held[index]? = some other) (different : waiting ≠ other) :
    waiting ∈ held.eraseIdx index := by
  obtain ⟨place, found⟩ := List.mem_iff_getElem?.mp member
  refine List.mem_eraseIdx_iff_getElem?.mpr ⟨place, ?_, found⟩
  rintro rfl
  exact different (Option.some.inj (found.symm.trans there))

section

variable (stepped : poolStep pool action = some (next, effects))

include stepped

theorem handling_poolStep (handled : id ∈ pool.handling) : id ∈ next.handling ∨
    pool.answeredNow action = some id := by
  obtain ⟨relay, member⟩ := mem_handling.mp handled
  rcases suspended_poolStep stepped with ⟨index, resumes, erased⟩ | ⟨-, same | added⟩
  · have stays : ∀ other : Suspended, pool.suspended[index]? = some other →
        .eose relay id true ≠ other → id ∈ next.handling := fun other there different =>
      mem_handling.mpr ⟨relay, erased ▸ mem_eraseIdx_of_ne member there different⟩
    cases action with
    | resumeAdd place connected =>
      cases resumes
      obtain ⟨added, autoSubscribe, there, -⟩ := resumeAdd_eq_some stepped
      exact .inl (stays _ there nofun)
    | resumeAuth place eventId =>
      cases resumes
      obtain ⟨asked, challenge, object, there, -⟩ := resumeAuth_eq_some stepped
      exact .inl (stays _ there nofun)
    | resumeEose place =>
      cases resumes
      obtain ⟨sender, subId, isQuery, object, there, -⟩ := resumeEose_eq_some stepped
      by_cases own : Suspended.eose relay id true = .eose sender subId isQuery
      · rw [← own] at there
        exact .inr (congrArg (fun held => held.bind Suspended.answered) there)
      · exact .inl (stays _ there own)
    | _ => cases resumes
  · exact .inl (mem_handling.mpr ⟨relay, same ▸ member⟩)
  · exact .inl (mem_handling.mpr ⟨relay, added ▸ List.mem_append_left _ member⟩)

theorem recorded_poolStep (recorded : pool.recorded id relay = true)
    (kept : pool.ends relay id action = false) :
    next.recorded id relay = true := by
  cases quiet : touchesQueries action with
  | false => exact ((sameQueries_poolStep quiet stepped).recorded id relay).trans recorded
  | true =>
    cases action with
    | query subscription onComplete choice =>
      have asks := query_asks pool subscription onComplete choice
      rw [Option.some.inj stepped] at asks
      by_cases own : id = subscription.id
      · exact own ▸ asks.more relay (own ▸ recorded)
      · exact (asks.others id relay own).trans recorded
    | remove url relayType =>
      cases stepped
      exact (recorded_remove pool url relayType id relay).trans recorded
    | eose other subId =>
      obtain ⟨object, found, same⟩ := Option.map_eq_some_iff.mp stepped
      cases same
      change (closeQuery subId (pool, []) other).1.recorded id relay = true
      rw [recorded_closeQuery, if_neg]
      · exact recorded
      · rintro ⟨rfl, rfl⟩
        exact absurd kept (by simp [ends])
    | unsubscribe subId =>
      rcases unsubscribe_queries pool subId with ⟨held, same⟩ | ⟨free, forgets⟩
      · rw [Option.some.inj stepped] at same
        exact (same.recorded id relay).trans recorded
      · rw [Option.some.inj stepped] at forgets
        refine (forgets.others id relay ?_).trans recorded
        rintro rfl
        exact absurd kept (by simp [ends, ← Option.not_isSome, free])
    | _ => cases quiet

theorem entries_poolStep {entry : String × Nat} (member : entry ∈ pool.entries)
    (kept : pool.ends entry.2 id action = false) : entry ∈ next.entries := by
  cases quiet : touchesQueries action with
  | false => exact (sameQueries_poolStep quiet stepped).entries entry member
  | true =>
    cases action with
    | query subscription onComplete choice =>
      have asks := query_asks pool subscription onComplete choice
      rw [Option.some.inj stepped] at asks
      exact asks.entries entry member
    | remove url relayType =>
      cases stepped
      exact remove_entries member (of_decide_eq_false kept)
    | eose other subId =>
      obtain ⟨object, found, same⟩ := Option.map_eq_some_iff.mp stepped
      cases same
      exact closeQuery_entries subId (pool, []) other ▸ member
    | unsubscribe subId =>
      rcases unsubscribe_queries pool subId with ⟨-, same⟩ | ⟨-, forgets⟩
      · rw [Option.some.inj stepped] at same
        exact same.entries entry member
      · rw [Option.some.inj stepped] at forgets
        exact forgets.entries ▸ member
    | _ => cases quiet

theorem recorded_before (recorded : next.recorded id relay = true) : pool.recorded id relay = true ∨
      ∃ subscription onComplete choice, action = .query subscription onComplete choice ∧
        id = subscription.id ∧ ∃ url, (url, relay) ∈ next.entries := by
  cases quiet : touchesQueries action with
  | false =>
    exact .inl (((sameQueries_poolStep quiet stepped).recorded id relay).symm.trans recorded)
  | true =>
    cases action with
    | query subscription onComplete choice =>
      have asks := query_asks pool subscription onComplete choice
      rw [Option.some.inj stepped] at asks
      by_cases own : id = subscription.id
      · refine (asks.new relay (own ▸ recorded)).imp (fun before => own ▸ before) fun known => ?_
        exact ⟨subscription, onComplete, choice, rfl, own, known⟩
      · exact .inl ((asks.others id relay own).symm.trans recorded)
    | remove url relayType =>
      cases stepped
      exact .inl ((recorded_remove pool url relayType id relay).symm.trans recorded)
    | eose other subId =>
      obtain ⟨object, found, same⟩ := Option.map_eq_some_iff.mp stepped
      cases same
      change (closeQuery subId (pool, []) other).1.recorded id relay = true at recorded
      rw [recorded_closeQuery] at recorded
      split at recorded
      · cases recorded
      · exact .inl recorded
    | unsubscribe subId =>
      rcases unsubscribe_queries pool subId with ⟨-, same⟩ | ⟨-, forgets⟩
      · rw [Option.some.inj stepped] at same
        exact .inl ((same.recorded id relay).symm.trans recorded)
      · rw [Option.some.inj stepped] at forgets
        by_cases own : id = subId
        · exact .inl (own ▸ forgets.fewer relay (own ▸ recorded))
        · exact .inl ((forgets.others id relay own).symm.trans recorded)
    | _ => cases quiet

end

theorem handling_eose {other : Nat} {subId : String}
    (stepped : poolStep pool (.eose other subId) = some (next, effects))
    (recorded : pool.recorded id relay = true)
      (ended : pool.ends relay id (.eose other subId) = true) :
    id ∈ next.handling := by
  obtain ⟨object, found, same⟩ := Option.map_eq_some_iff.mp stepped
  cases same
  obtain ⟨own, asked⟩ := (Bool.and_eq_true _ _).mp ended
  obtain rfl := of_decide_eq_true own
  obtain rfl := of_decide_eq_true asked
  refine mem_handling.mpr ⟨other, List.mem_append_right _ (List.mem_singleton.mpr ?_)⟩
  rw [← recorded_of_found found, recorded]

/-! ### The invariant -/

/-- Outstanding queries are recorded at relays of the pool, and each callback that did not run is
there while one is outstanding. -/
structure QueryInv (pool : RelayPool) (history : QueryHistory) : Prop where
  outstanding : ∀ relay id, (relay, id) ∈ history.outstanding →
    pool.recorded id relay = true ∧ ∃ url, (url, relay) ∈ pool.entries
  recorded : ∀ relay id, pool.recorded id relay = true → id ∈ history.ids
  nodup : pool.queryCompleteCallbacks.Nodup
  callbacks : ∀ id ∈ pool.queryCompleteCallbacks, id ∈ history.ids ∧ id ∉ history.completedIds
  completed : ∀ id ∈ history.completedIds, id ∈ history.ids
  once : history.completedIds.Nodup
  late : ∀ completion ∈ history.completed, completion.2 = false
  waiting : ∀ id ∈ history.queried, id ∈ history.completedIds ∨
    id ∈ pool.queryCompleteCallbacks ∧ (id ∈ history.awaited ∨ id ∈ pool.handling)

theorem queryInv_empty : QueryInv empty .empty where
  outstanding := nofun
  recorded := fun _ _ recorded => absurd recorded Bool.false_ne_true
  nodup := List.nodup_nil
  callbacks := nofun
  completed := nofun
  once := List.nodup_nil
  late := nofun
  waiting := nofun

theorem QueryInv.completesInTime (inv : QueryInv pool history) : CompletesInTime pool history where
  once := inv.once
  late := inv.late
  ran := fun id queried answered unhandled => (inv.waiting id queried).resolve_right
    fun waits => waits.2.elim answered unhandled

theorem mem_remaining {entry : Nat × String} : entry ∈ history.remaining pool action ↔
    entry ∈ history.outstanding ∧ pool.ends entry.1 entry.2 action = false := by
  unfold QueryHistory.remaining
  rw [List.mem_filter, Bool.not_eq_true']

theorem awaited_of_remaining (remains : id ∈ (history.remaining pool action).map Prod.snd) :
    id ∈ (observeQueries history pool action next effects).awaited := by
  obtain ⟨entry, member, rfl⟩ := List.mem_map.mp remains
  exact List.mem_map_of_mem (List.mem_append_left _ member)

section

variable (inv : QueryInv pool history)

include inv

theorem outstanding_poolStep
    (fresh : ∀ subscription onComplete choice, action = .query subscription onComplete choice →
      subscription.id ∉ history.ids) (stepped : poolStep pool action = some (next, effects))
    (member : (relay, id) ∈ history.remaining pool action ++ next.asks action) :
    next.recorded id relay = true ∧ ∃ url, (url, relay) ∈ next.entries := by
  rcases List.mem_append.mp member with old | new
  · obtain ⟨outstanding, kept⟩ := mem_remaining.mp old
    obtain ⟨recorded, url, known⟩ := inv.outstanding relay id outstanding
    exact ⟨recorded_poolStep stepped recorded kept, url, entries_poolStep stepped known kept⟩
  · cases action with
    | query subscription onComplete choice =>
      obtain ⟨asked, inside, same⟩ := List.mem_map.mp new
      cases same
      have recorded := (List.mem_filter.mp inside).2
      rcases recorded_before stepped recorded with before | ⟨_, _, _, -, -, known⟩
      · exact absurd (inv.recorded _ _ before) (fresh _ _ _ rfl)
      · exact ⟨recorded, known⟩
    | _ => cases new

theorem recorded_observed (stepped : poolStep pool action = some (next, effects))
    (recorded : next.recorded id relay = true) :
    id ∈ (observeQueries history pool action next effects).ids := by
  rcases recorded_before stepped recorded with before | ⟨subscription, _, _, rfl, rfl, -⟩
  · have known := inv.recorded relay id before
    cases action with
    | query => exact List.mem_cons_of_mem _ known
    | _ => exact known
  · exact List.mem_cons_self

theorem awaited_poolStep (last : AnswersLast (pool, history) action)
    (stepped : poolStep pool action = some (next, effects))
    (unanswered : pool.answeredNow action = none) (others : makesQuery action = false)
    (called : id ∈ pool.queryCompleteCallbacks) (waits : id ∈ history.awaited) :
    id ∈ next.handling ∨ id ∈ (history.remaining pool action).map Prod.snd := by
  have persists : id ∈ pool.handling → id ∈ next.handling := fun handled =>
    (handling_poolStep stepped handled).resolve_right (by rw [unanswered]; nofun)
  cases action with
  | query => cases others
  | eose other subId =>
    obtain ⟨⟨relay, id⟩, member, rfl⟩ := List.mem_map.mp waits
    cases ended : pool.ends relay id (.eose other subId) with
    | true => exact .inl (handling_eose stepped (inv.outstanding relay id member).1 ended)
    | false => exact .inr (List.mem_map_of_mem (mem_remaining.mpr ⟨member, ended⟩))
  | resumeEose index =>
    obtain ⟨entry, member, rfl⟩ := List.mem_map.mp waits
    exact .inr (List.mem_map_of_mem (mem_remaining.mpr ⟨member, rfl⟩))
  | _ => exact (last id called waits).imp_left persists

theorem queryInv_same (last : AnswersLast (pool, history) action)
    (stepped : poolStep pool action = some (next, effects))
    (unanswered : pool.answeredNow action = none) (others : makesQuery action = false)
    (callbacks : next.queryCompleteCallbacks = pool.queryCompleteCallbacks)
    (silent : effects.filterMap PoolEffect.completedId = []) :
    QueryInv next (observeQueries history pool action next effects) := by
  have ids : (observeQueries history pool action next effects).ids = history.ids := by
    cases action with
    | query => cases others
    | _ => rfl
  have queried : (observeQueries history pool action next effects).queried = history.queried := by
    cases action with
    | query => cases others
    | _ => rfl
  have completed :
      (observeQueries history pool action next effects).completed = history.completed := by
    change history.completed ++ _ = _
    rw [silent, List.map_nil, List.append_nil]
  have completedIds : (observeQueries history pool action next effects).completedIds =
      history.completedIds := congrArg (List.map Prod.fst) completed
  refine ⟨fun relay id member => ?_, fun relay id recorded =>
    recorded_observed inv stepped recorded,
    callbacks ▸ inv.nodup, ?_, ?_, completedIds ▸ inv.once, completed ▸ inv.late, ?_⟩
  · refine outstanding_poolStep inv ?_ stepped member
    rintro subscription onComplete choice rfl
    cases others
  · rw [callbacks, ids, completedIds]
    exact inv.callbacks
  · rw [ids, completedIds]
    exact inv.completed
  · rw [queried, completedIds, callbacks]
    intro id asked
    refine (inv.waiting id asked).imp_right fun ⟨called, waits⟩ => ⟨called, ?_⟩
    rcases waits with waits | handled
    · exact (awaited_poolStep inv last stepped unanswered others called waits).symm.imp_left
        awaited_of_remaining
    · refine .inr ((handling_poolStep stepped handled).resolve_right ?_)
      rw [unanswered]
      nofun

end

theorem remaining_of_kept (kept : ∀ relay id, pool.ends relay id action = false) :
    history.remaining pool action = history.outstanding :=
  List.filter_eq_self.mpr fun entry _ => by rw [kept, Bool.not_false]

theorem queryInv_queried {subscription : Subscription} {onComplete : Bool} {choice : RelayChoice}
    (inv : QueryInv pool history) (fresh : subscription.id ∉ history.ids)
    (reaches : onComplete = true → pool.Reaches choice)
    (stepped : poolStep pool (.query subscription onComplete choice) = some (next, effects))
    (callbacks : next.queryCompleteCallbacks =
      if onComplete then pool.queryCompleteCallbacks.insert subscription.id
      else pool.queryCompleteCallbacks)
    (silent : effects.filterMap PoolEffect.completedId = []) :
    QueryInv next (observeQueries history pool (.query subscription onComplete choice) next
      effects) := by
  have completed : (observeQueries history pool (.query subscription onComplete choice) next
      effects).completed = history.completed := by
    change history.completed ++ _ = _
    rw [silent, List.map_nil, List.append_nil]
  have completedIds : (observeQueries history pool (.query subscription onComplete choice) next
      effects).completedIds = history.completedIds := congrArg (List.map Prod.fst) completed
  have stays : ∀ id ∈ history.awaited, id ∈ (observeQueries history pool
      (.query subscription onComplete choice) next effects).awaited := by
    intro id waits
    refine awaited_of_remaining ?_
    rw [remaining_of_kept fun _ _ => rfl]
    exact waits
  have unchanged : ∀ id ∈ history.queried, id ∈ history.completedIds ∨
      id ∈ next.queryCompleteCallbacks ∧ (id ∈ (observeQueries history pool
        (.query subscription onComplete choice) next effects).awaited ∨ id ∈ next.handling) := by
    intro id asked
    refine (inv.waiting id asked).imp_right fun ⟨called, waits⟩ => ⟨?_, ?_⟩
    · rw [callbacks]
      split
      · exact List.mem_insert_of_mem called
      · exact called
    · exact waits.imp (stays id) fun handled =>
        (handling_poolStep stepped handled).resolve_right nofun
  refine ⟨fun relay id member => ?_, fun relay id recorded =>
    recorded_observed inv stepped recorded,
    ?_, ?_, ?_, completedIds ▸ inv.once, completed ▸ inv.late, ?_⟩
  · refine outstanding_poolStep inv (fun other _ _ same => ?_) stepped member
    obtain ⟨rfl, -⟩ := PoolAction.query.inj same
    exact fresh
  · rw [callbacks]
    split
    · exact inv.nodup.insert
    · exact inv.nodup
  · rw [callbacks, completedIds]
    have old : ∀ id ∈ pool.queryCompleteCallbacks,
        id ∈ subscription.id :: history.ids ∧ id ∉ history.completedIds := fun id called =>
      (inv.callbacks id called).imp_left (List.mem_cons_of_mem _)
    split
    · intro id called
      rcases List.mem_insert_iff.mp called with rfl | before
      · exact ⟨List.mem_cons_self, fun done => fresh (inv.completed _ done)⟩
      · exact old id before
    · exact old
  · rw [completedIds]
    exact fun id done => List.mem_cons_of_mem _ (inv.completed id done)
  · rw [completedIds]
    cases onComplete with
    | false => exact unchanged
    | true =>
      intro id asked
      rcases List.mem_cons.mp asked with rfl | before
      · refine .inr ⟨?_, .inl ?_⟩
        · rw [callbacks, if_pos rfl]
          exact List.mem_insert_self
        · have reached := query_reaches subscription true (reaches rfl)
          rw [Option.some.inj stepped] at reached
          obtain ⟨relay, recorded⟩ := reached
          obtain ⟨object, found, -⟩ := (Option.any_eq_true _ _).mp recorded
          obtain ⟨inside, -⟩ := List.getElem?_eq_some_iff.mp found
          refine List.mem_map.mpr ⟨(relay, subscription.id), List.mem_append_right _ ?_, rfl⟩
          refine List.mem_map.mpr ⟨relay, List.mem_filter.mpr ⟨?_, recorded⟩, rfl⟩
          exact List.mem_range.mpr inside
      · exact unchanged id before

theorem queryOutstanding_iff : pool.queryOutstanding id = true ↔
    ∃ entry ∈ pool.relays ++ pool.tempRelays, pool.recorded id entry.2 = true :=
  List.any_eq_true

theorem not_awaited_of_scanRight {index : Nat} (inv : QueryInv pool history)
    (right : ScanRight pool history index id) (done : pool.queryOutstanding id = false) :
    id ∉ history.awaited := by
  intro waits
  obtain ⟨⟨relay, id⟩, member, rfl⟩ := List.mem_map.mp waits
  obtain ⟨recorded, url, known⟩ := inv.outstanding relay id member
  have scanned : pool.queryOutstanding id = true := by
    rcases mem_entries.mp known with normal | temp | cache
    · exact queryOutstanding_iff.mpr ⟨(url, relay), List.mem_append_left _ normal, recorded⟩
    · exact queryOutstanding_iff.mpr ⟨(url, relay), List.mem_append_right _ temp, recorded⟩
    · exact queryOutstanding_iff.mpr (right.cache (url, relay) cache member)
  rw [scanned] at done
  cases done

theorem queryInv_handled {index : Nat} (inv : QueryInv pool history)
    (answered : pool.answeredNow (.resumeEose index) = some id)
    (right : id ∈ pool.queryCompleteCallbacks → ScanRight pool history index id)
    (stepped : poolStep pool (.resumeEose index) = some (next, effects))
    (after : (next, effects) = (pool.resumed index).eoseOfQuery id) :
    QueryInv next (observeQueries history pool (.resumeEose index) next effects) := by
  have outstanding : ∀ relay asked, (relay, asked) ∈
      (observeQueries history pool (.resumeEose index) next effects).outstanding →
      next.recorded asked relay = true ∧ ∃ url, (url, relay) ∈ next.entries := fun relay asked =>
    outstanding_poolStep inv nofun stepped
  have stays : (observeQueries history pool (.resumeEose index) next effects).awaited =
      history.awaited := by
    change ((history.remaining pool (.resumeEose index)) ++ []).map Prod.snd = _
    rw [remaining_of_kept fun _ _ => rfl, List.append_nil]
    rfl
  have others : ∀ other ∈ history.queried, other ≠ id → other ∈ history.completedIds ∨
      other ∈ pool.queryCompleteCallbacks ∧ (other ∈ history.awaited ∨ other ∈ next.handling) := by
    intro other asked different
    refine (inv.waiting other asked).imp_right fun ⟨called, waits⟩ => ⟨called, ?_⟩
    refine waits.imp_right fun handled => (handling_poolStep stepped handled).resolve_right ?_
    rw [answered]
    exact fun same => different (Option.some.inj same).symm
  have recorded : ∀ relay asked, next.recorded asked relay = true →
      asked ∈ (observeQueries history pool (.resumeEose index) next effects).ids :=
    fun relay asked => recorded_observed inv stepped
  unfold eoseOfQuery at after
  split at after
  · next completes =>
    obtain ⟨called, done⟩ := completes
    have unawaited := not_awaited_of_scanRight inv (right called) done
    rw [← stays] at unawaited
    obtain ⟨nextIs, rfl⟩ := Prod.mk.inj after
    have callbacks : next.queryCompleteCallbacks = pool.queryCompleteCallbacks.erase id :=
      congrArg queryCompleteCallbacks nextIs
    have completed : (observeQueries history pool (.resumeEose index) next
        [.onComplete id]).completed = history.completed ++ [(id, false)] := by
      exact congrArg (fun late => history.completed ++ [(id, late)]) (decide_eq_false unawaited)
    have completedIds : (observeQueries history pool (.resumeEose index) next
        [.onComplete id]).completedIds = history.completedIds ++ [id] := by
      unfold QueryHistory.completedIds
      rw [completed, List.map_append]
      rfl
    refine ⟨outstanding, recorded, callbacks ▸ inv.nodup.erase id, ?_, ?_, ?_, ?_, ?_⟩
    · rw [callbacks]
      intro other member
      obtain ⟨different, before⟩ := (inv.nodup.mem_erase_iff).mp member
      rw [completedIds, List.mem_append, List.mem_singleton]
      exact ⟨(inv.callbacks other before).1, not_or.mpr ⟨(inv.callbacks other before).2, different⟩⟩
    · rw [completedIds]
      intro other member
      rcases List.mem_append.mp member with before | now
      · exact inv.completed other before
      · rw [List.mem_singleton.mp now]
        exact (inv.callbacks id called).1
    · rw [completedIds]
      refine List.nodup_append.mpr ⟨inv.once, List.pairwise_singleton _ _, ?_⟩
      rintro other before _ now rfl
      rw [List.mem_singleton.mp now] at before
      exact (inv.callbacks id called).2 before
    · rw [completed]
      intro completion member
      rcases List.mem_append.mp member with before | now
      · exact inv.late completion before
      · rw [List.mem_singleton.mp now]
    · rw [completedIds, stays, callbacks]
      intro other asked
      by_cases own : other = id
      · exact .inl (List.mem_append_right _ (List.mem_singleton.mpr own))
      · refine (others other asked own).imp (List.mem_append_left _) ?_
        exact And.imp_left (inv.nodup.mem_erase_iff.mpr ⟨own, ·⟩)
  · next waits =>
    obtain ⟨nextIs, rfl⟩ := Prod.mk.inj after
    have callbacks : next.queryCompleteCallbacks = pool.queryCompleteCallbacks :=
      (congrArg queryCompleteCallbacks nextIs).trans rfl
    have completed : (observeQueries history pool (.resumeEose index) next []).completed =
        history.completed := List.append_nil _
    have completedIds : (observeQueries history pool (.resumeEose index) next []).completedIds =
        history.completedIds := congrArg (List.map Prod.fst) completed
    refine ⟨outstanding, recorded, callbacks ▸ inv.nodup, ?_, ?_, completedIds ▸ inv.once,
      completed ▸ inv.late, ?_⟩
    · rw [completedIds, callbacks]
      exact inv.callbacks
    · rw [completedIds]
      exact inv.completed
    · rw [completedIds, stays, callbacks]
      intro other asked
      by_cases own : other = id
      · subst own
        refine (inv.waiting other asked).imp_right fun ⟨called, _⟩ => ⟨called, ?_⟩
        have scanned := Bool.of_not_eq_false fun done => waits ⟨called, done⟩
        obtain ⟨entry, member, records⟩ := queryOutstanding_iff.mp scanned
        rw [congrArg handling nextIs]
        exact (right called).answered entry member records
      · exact others other asked own

theorem watched_queryInv {seen after : RelayPool × QueryHistory} (inv : QueryInv seen.1 seen.2)
    (last : AnswersLast seen action)
    (stepped : watched poolStep observeQueries seen action = some after) :
    QueryInv after.1 after.2 := by
  obtain ⟨effects, ended, recorded⟩ := watched_eq_some.mp stepped
  rw [recorded]
  cases poolStep_callbacks ended with
  | same unanswered others callbacks silent =>
    exact queryInv_same inv last ended unanswered others callbacks silent
  | queried subscription onComplete choice callbacks silent =>
    exact queryInv_queried inv last.1 last.2 ended callbacks silent
  | handled index id answered after =>
    exact queryInv_handled inv answered (last id answered) ended after

/-- The callback of a query runs once, after the last answer, when that is an EOSE that no cache
relay comes after. -/
theorem run_completes (actions : List PoolAction) (reached : RelayPool × QueryHistory)
    (ran : run (watched poolStep observeQueries) (empty, .empty) actions = some reached)
    (last : Meets (watched poolStep observeQueries) AnswersLast (empty, .empty) actions) :
    CompletesInTime reached.1 reached.2 := by
  have inv : QueryInv reached.1 reached.2 := invariant_of_meets _
    (fun _ _ _ inv meets stepped => watched_queryInv inv meets stepped) queryInv_empty last ran
  exact inv.completesInTime

/-- A cache relay and then a normal one answer a query with EOSE, and its callback runs. -/
theorem run_completes_sample : ∃ reached,
    run (watched poolStep observeQueries) (empty, .empty)
      [.add "a" .normal true false false, .add "c" .cache true false false,
        .query ⟨"q", [], false⟩ true allRelays, .eose 1 "q", .resumeEose 2, .eose 0 "q",
        .resumeEose 2] = some reached ∧
      reached.2.completed = [("q", false)] ∧ CompletesInTime reached.1 reached.2 := by
  refine ⟨_, rfl, rfl, run_completes
    [.add "a" .normal true false false, .add "c" .cache true false false,
      .query ⟨"q", [], false⟩ true allRelays, .eose 1 "q", .resumeEose 2, .eose 0 "q",
      .resumeEose 2] _ rfl ?_⟩
  refine Meets.cons _ nofun rfl (Meets.cons _ nofun rfl (Meets.cons _ ⟨List.not_mem_nil, ?_⟩ rfl
    (Meets.cons _ trivial rfl (Meets.cons _ ?_ rfl (Meets.cons _ trivial rfl
      (Meets.cons _ ?_ rfl trivial))))))
  · exact fun _ => .normal (by decide) ("a", 0) (by decide) rfl (by decide)
  · intro id answered _
    cases answered
    exact ⟨by decide, by decide⟩
  · intro id answered _
    cases answered
    exact ⟨by decide, by decide⟩

/-- A query completes while a cache relay has it outstanding, and never after CLOSED. -/
theorem query_miscompletes :
    (∃ reached, run (watched poolStep observeQueries) (empty, .empty)
        [.add "a" .normal true false false, .add "c" .cache true false false,
          .query ⟨"q", [], false⟩ true allRelays, .eose 0 "q", .resumeEose 2] = some reached ∧
      reached.2.outstanding = [(1, "q")] ∧ reached.2.completedIds = ["q"] ∧
      ¬CompletesInTime reached.1 reached.2) ∧
    ∃ reached, run (watched poolStep observeQueries) (empty, .empty)
        [.add "a" .normal true false false, .query ⟨"q", [], false⟩ true allRelays,
          .closed 0 "q"] = some reached ∧
      reached.2.outstanding = [] ∧ reached.2.completedIds = [] ∧
      ¬CompletesInTime reached.1 reached.2 := by
  refine ⟨⟨_, rfl, rfl, rfl, fun inTime => ?_⟩, ⟨_, rfl, rfl, rfl, fun inTime => ?_⟩⟩
  · exact absurd (inTime.late ("q", true) (by decide)) (by decide)
  · exact absurd (inTime.ran "q" (by decide) (by decide) (by decide)) (by decide)

end RelayPool

end Divine.NostrSdk
