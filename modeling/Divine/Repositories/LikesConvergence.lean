/-
This file settles when the relays end up with the reactions the records name.
-/

import Divine.Repositories.OfflineLikes
import Divine.Library.Fallible
import Divine.Library.Transition

namespace Divine.Repositories.LikesClient

open List Option Dictionary LikesRepository

variable {client : LikesClient} {target : String}

/-! ### The property and the condition -/

def Live (client : LikesClient) (target id : String) : Prop :=
  ∃ event ∈ client.relays.reactions, event.id = id ∧ extractTargetEventId event = some target ∧
    event.content = likeContent ∧ id ∉ client.relays.deletions

/-- The id of the reaction that the record of the target names. -/
def held (client : LikesClient) (target : String) : Option String :=
  (find client.repository.likeRecords target).map LikeRecord.reactionEventId

/-- The likes of the target that the relays hold undeleted are those its record names. -/
def Converged (client : LikesClient) (target : String) : Prop :=
  ∀ id, client.Live target id ↔ client.held target = some id

def Drained (client : LikesClient) : Prop :=
  ∀ action ∈ client.service.actions, action.status ≠ .pending

/-- The records match the relays: they are stored, nothing is queued, and an id belongs to one
event. -/
structure Matched (client : LikesClient) : Prop where
  converged : ∀ target, client.Converged target
  stored : ∀ rows, client.repository.localStorage = some rows → ∀ target,
    (find rows target).map LikeRecord.reactionEventId = client.held target
  actions : client.service.actions = []
  events : ∀ first ∈ client.relays.reactions, ∀ second ∈ client.relays.reactions,
    first.id = second.id → first = second

/-- The relays know neither a reaction with the id nor a deletion of it. -/
def New (client : LikesClient) (id : String) : Prop :=
  (∀ event ∈ client.relays.reactions, event.id ≠ id) ∧ id ∉ client.relays.deletions

/-- An unlike is made offline of a placeholder and online else, and a published like has a new id.
-/
def Traceable (client : LikesClient) : LikesAction → Prop
  | .likeEvent request online signing _ =>
      online = true → client.held request.eventId = none →
        ∀ signed, signing = some signed → client.New signed.id
  | .unlikeEvent eventId online _ =>
      ∀ id, client.held eventId = some id → (isPlaceholder id = true ↔ online = false)
  | .syncAction _ signing _ => ∀ signed, signing = some signed → client.New signed.id

/-! ### The invariant -/

def isPendingOn (target : String) (action : PendingAction) : Bool :=
  action.status = .pending && action.targetId = target

def pendingOn (service : PendingActionService) (target : String) : List PendingAction :=
  service.actions.filter (isPendingOn target)

def queued (client : LikesClient) (target : String) : List PendingActionType :=
  (pendingOn client.service target).map PendingAction.type

/-- The reaction a record names is the live one, and a like is queued when it is a placeholder. -/
structure Tracked (client : LikesClient) (target : String) : Prop where
  queue : client.queued target =
    if (client.held target).any isPlaceholder then [.like] else []
  live : ∀ id, client.Live target id ↔
    client.held target = some id ∧ isPlaceholder id = false

/-- What holds of every state in a traceable run. -/
structure Sound (client : LikesClient) : Prop where
  tracked : ∀ target, client.Tracked target
  stored : ∀ rows, client.repository.localStorage = some rows → ∀ target,
    (find rows target).map LikeRecord.reactionEventId = client.held target
  created : ∀ action ∈ client.service.actions, action.id < client.service.created
  actions : ∀ first ∈ client.service.actions, ∀ second ∈ client.service.actions,
    first.id = second.id → first = second
  events : ∀ first ∈ client.relays.reactions, ∀ second ∈ client.relays.reactions,
    first.id = second.id → first = second

theorem Live.published {id : String} (live : client.Live target id) : isPlaceholder id = false := by
  obtain ⟨event, -, rfl, -⟩ := live
  exact event.published

theorem Matched.sound (matched : client.Matched) : client.Sound := by
  obtain ⟨converged, stored, actions, events⟩ := matched
  have nothing : ∀ action, action ∉ client.service.actions := by
    rw [actions]
    exact fun _ => not_mem_nil
  refine ⟨fun target => ⟨?_, fun id => ?_⟩, stored, fun action member =>
    (nothing action member).elim,
    fun action member => (nothing action member).elim, events⟩
  · have published : (client.held target).any isPlaceholder = false := by
      cases holds : client.held target with
      | none => rfl
      | some id => exact ((converged target id).mpr holds).published
    rw [published, if_neg Bool.false_ne_true]
    unfold queued pendingOn
    rw [actions]
    rfl
  · rw [← converged target id]
    exact ⟨fun live => ⟨live, live.published⟩, And.left⟩

theorem Sound.converged (sound : client.Sound) (drained : client.Drained) (target : String) :
    client.Converged target := by
  obtain ⟨queue, live⟩ := sound.tracked target
  have empty : client.queued target = [] := by
    unfold queued pendingOn
    rw [map_eq_nil_iff, filter_eq_nil_iff]
    intro action member pending
    exact drained action member (of_decide_eq_true (Bool.and_eq_true_iff.mp pending).1)
  intro id
  refine (live id).trans (and_iff_left_of_imp fun holds => ?_)
  rw [holds, empty, any_some] at queue
  by_contra placeholder
  rw [Bool.not_eq_false] at placeholder
  rw [placeholder, if_pos rfl] at queue
  cases queue

/-! ### Records -/

theorem held_save (repository : LikesRepository) (service : PendingActionService) (relays : Relays)
    (record : LikeRecord) (target : String) :
    held ⟨repository.saveLikeRecord record, service, relays⟩ target =
      if record.targetEventId = target then some record.reactionEventId
      else (find repository.likeRecords target).map LikeRecord.reactionEventId := by
  unfold held saveLikeRecord
  rw [find_put]
  split <;> rfl

theorem held_delete (repository : LikesRepository) (service : PendingActionService)
    (relays : Relays) (eventId target : String) :
    held ⟨repository.deleteLikeRecord eventId, service, relays⟩ target =
      if eventId = target then none
      else (find repository.likeRecords target).map LikeRecord.reactionEventId := by
  unfold held deleteLikeRecord
  rw [find_remove]
  split <;> rfl

def Stored (repository : LikesRepository) : Prop :=
  ∀ rows, repository.localStorage = some rows → ∀ target,
    (find rows target).map LikeRecord.reactionEventId =
      (find repository.likeRecords target).map LikeRecord.reactionEventId

theorem stored_save {repository : LikesRepository} (stored : Stored repository)
    (record : LikeRecord) : Stored (repository.saveLikeRecord record) := by
  rintro saved same target
  obtain ⟨rows, old, rfl⟩ := map_eq_some_iff.mp same
  unfold saveLikeRecord
  rw [find_put, find_put]
  split
  · rfl
  · exact stored rows old target

theorem stored_delete {repository : LikesRepository} (stored : Stored repository)
    (eventId : String) : Stored (repository.deleteLikeRecord eventId) := by
  rintro saved same target
  obtain ⟨rows, old, rfl⟩ := map_eq_some_iff.mp same
  unfold deleteLikeRecord
  rw [find_remove, find_remove]
  split
  · rfl
  · exact stored rows old target

theorem getRecord_held (sound : client.Sound) (target : String) :
    (client.repository.getRecord target).map LikeRecord.reactionEventId = client.held target := by
  unfold getRecord held
  cases memory : find client.repository.likeRecords target with
  | some record => rfl
  | none =>
    cases storage : client.repository.localStorage with
    | none => rfl
    | some rows =>
      have same := sound.stored rows storage target
      unfold held at same
      rw [memory] at same
      exact same

theorem isPlaceholder_placeholderId (eventId : String) :
    isPlaceholder (placeholderId eventId) = true := by
  unfold isPlaceholder placeholderId
  rw [String.toList_append]
  rfl

/-! ### Relays -/

theorem live_publish {request : LikeRequest} {signing : Signing} (new : client.New signing.id)
    (repository : LikesRepository) (service : PendingActionService) (target id : String) :
    Live ⟨repository, service, { client.relays with
        reactions := client.relays.reactions ++ [sendLike request signing] }⟩ target id ↔
      client.Live target id ∨ request.eventId = target ∧ id = signing.id := by
  constructor
  · rintro ⟨event, member, rfl, extracted, content, alive⟩
    rcases mem_append.mp member with before | added
    · exact .inl ⟨event, before, rfl, extracted, content, alive⟩
    · rw [mem_singleton.mp added] at extracted ⊢
      exact .inr ⟨Option.some.inj extracted, rfl⟩
  · rintro (⟨event, member, rest⟩ | ⟨rfl, rfl⟩)
    · exact ⟨event, mem_append_left _ member, rest⟩
    · exact ⟨_, mem_append_right _ mem_cons_self, rfl, rfl, rfl, new.2⟩

theorem live_delete (repository : LikesRepository) (service : PendingActionService)
    (deleted target id : String) :
    Live ⟨repository, service, { client.relays with
        deletions := client.relays.deletions ++ [deleted] }⟩ target id ↔
      client.Live target id ∧ id ≠ deleted := by
  constructor
  · rintro ⟨event, member, same, extracted, content, alive⟩
    rw [mem_append, mem_singleton, not_or] at alive
    exact ⟨⟨event, member, same, extracted, content, alive.1⟩, alive.2⟩
  · rintro ⟨⟨event, member, same, extracted, content, alive⟩, different⟩
    refine ⟨event, member, same, extracted, content, ?_⟩
    rw [mem_append, mem_singleton, not_or]
    exact ⟨alive, different⟩

theorem Sound.target_unique (sound : client.Sound) {other id : String}
    (live : client.Live target id) (alive : client.Live other id) : target = other := by
  obtain ⟨first, firstMember, firstId, firstTarget, -⟩ := live
  obtain ⟨second, secondMember, secondId, secondTarget, -⟩ := alive
  have same := sound.events first firstMember second secondMember (firstId.trans secondId.symm)
  rw [same, secondTarget] at firstTarget
  exact (Option.some.inj firstTarget).symm

theorem events_publish (sound : client.Sound) {request : LikeRequest} {signing : Signing}
    (new : client.New signing.id) :
    ∀ first ∈ client.relays.reactions ++ [sendLike request signing],
      ∀ second ∈ client.relays.reactions ++ [sendLike request signing],
        first.id = second.id → first = second := by
  intro first firstMember second secondMember same
  rcases mem_append.mp firstMember with before | added
  · rcases mem_append.mp secondMember with before' | added'
    · exact sound.events first before second before' same
    · rw [mem_singleton.mp added'] at same
      exact (new.1 first before same).elim
  · rcases mem_append.mp secondMember with before' | added'
    · rw [mem_singleton.mp added] at same
      exact (new.1 second before' same.symm).elim
    · rw [mem_singleton.mp added, mem_singleton.mp added']

/-! ### The queue -/

variable {service : PendingActionService} {type : PendingActionType}

theorem mem_pendingOn {action : PendingAction} :
    action ∈ pendingOn service target ↔
      action ∈ service.actions ∧ action.status = .pending ∧ action.targetId = target := by
  unfold pendingOn isPendingOn
  rw [mem_filter, Bool.and_eq_true, decide_eq_true_eq, decide_eq_true_eq]

theorem filter_isPending :
    (service.actions.filter fun action => action.isPending type target) =
      (pendingOn service target).filter fun action => action.type = type := by
  unfold pendingOn
  rw [List.filter_filter]
  refine List.filter_congr fun action _ => ?_
  unfold PendingAction.isPending isPendingOn
  rw [Bool.and_assoc, Bool.and_comm (decide (action.targetId = target))]

theorem pendingOn_deleteAction (service : PendingActionService) (id : Nat) (target : String) :
    pendingOn (service.deleteAction id) target =
      (pendingOn service target).filter fun action => action.id ≠ id := by
  unfold pendingOn PendingActionService.deleteAction
  rw [List.filter_filter, List.filter_filter]
  exact List.filter_congr fun action _ => Bool.and_comm _ _

theorem pendingOn_updateStatus (service : PendingActionService) (id : Nat) (target : String) :
    pendingOn (service.updateStatus id .completed) target =
      (pendingOn service target).filter fun action => action.id ≠ id := by
  unfold pendingOn PendingActionService.updateStatus
  induction service.actions with
  | nil => rfl
  | cons action rest ih =>
    rw [map_cons]
    by_cases own : action.id = id
    · rw [if_pos own, filter_cons_of_neg (by simp [isPendingOn]), ih]
      by_cases pending : isPendingOn target action = true
      · rw [filter_cons_of_pos pending, filter_cons_of_neg (by simpa using own)]
      · rw [filter_cons_of_neg pending]
    · rw [if_neg own]
      by_cases pending : isPendingOn target action = true
      · rw [filter_cons_of_pos pending, filter_cons_of_pos pending,
          filter_cons_of_pos (by simpa using own), ih]
      · rw [filter_cons_of_neg pending, filter_cons_of_neg pending, ih]

theorem filter_pendingOn
    (actions : ∀ first ∈ service.actions, ∀ second ∈ service.actions,
      first.id = second.id → first = second)
    {action : PendingAction} (only : pendingOn service action.targetId = [action])
    (target : String) :
    (pendingOn service target).filter (fun other => other.id ≠ action.id) =
      if action.targetId = target then [] else pendingOn service target := by
  have member := mem_pendingOn.mp (only ▸ mem_cons_self : action ∈ pendingOn service _)
  by_cases own : action.targetId = target
  · rw [if_pos own, ← own, only]
    exact filter_cons_of_neg (by simp)
  · rw [if_neg own, filter_eq_self]
    intro other present
    obtain ⟨kept, -, onTarget⟩ := mem_pendingOn.mp present
    refine decide_eq_true fun same => own ?_
    rw [← actions other kept action member.1 same]
    exact onTarget

theorem queueAction_like (nothing : pendingOn service target = []) (authorPubkey addressableId)
    (targetKind) : service.queueAction .like target authorPubkey addressableId targetKind =
      .ok ⟨service.actions ++ [⟨service.created, .like, target, authorPubkey, addressableId,
        targetKind, .pending⟩], service.created + 1⟩ := by
  unfold PendingActionService.queueAction PendingActionService.findConflictingAction
  rw [filter_isPending, nothing]
  rfl

theorem queueAction_unlike {action : PendingAction} (only : pendingOn service target = [action])
    (like : action.type = .like) (authorPubkey addressableId) (targetKind) :
    service.queueAction .unlike target authorPubkey addressableId targetKind =
      .ok (service.deleteAction action.id) := by
  unfold PendingActionService.queueAction PendingActionService.findConflictingAction
  have kept : ([action].filter fun action => action.type = PendingActionType.unlike.opposite) =
      [action] := filter_cons_of_pos (decide_eq_true like)
  rw [filter_isPending, only, kept]
  rfl

/-! ### Calls -/

theorem Tracked.congr {next : LikesClient} (tracked : client.Tracked target)
    (queued : next.queued target = client.queued target)
    (held : next.held target = client.held target)
    (live : ∀ id, next.Live target id ↔ client.Live target id) : next.Tracked target := by
  refine ⟨?_, fun id => ?_⟩
  · rw [queued, held]
    exact tracked.queue
  · rw [live, held]
    exact tracked.live id

section

variable (sound : client.Sound)

include sound

theorem Sound.queued_of_none (none : client.held target = none) :
    pendingOn client.service target = [] := by
  have queue := (sound.tracked target).queue
  rw [none] at queue
  exact map_eq_nil_iff.mp queue

theorem Sound.queued_of_placeholder {id : String}
    (holds : client.held target = some id) (placeholder : isPlaceholder id = true) :
    ∃ action, pendingOn client.service target = [action] ∧ action.type = .like := by
  have queue := (sound.tracked target).queue
  rw [holds, any_some, placeholder, if_pos rfl] at queue
  obtain ⟨action, only, like⟩ := map_eq_singleton_iff.mp queue
  exact ⟨action, only, like⟩

theorem publish_sound {request : LikeRequest} {signing : Signing}
    (new : client.New signing.id) (none : client.held request.eventId = none) (now : Nat) :
    Sound ⟨client.repository.saveLikeRecord ⟨request.eventId, signing.id, now⟩, client.service,
      { client.relays with
        reactions := client.relays.reactions ++ [sendLike request signing] }⟩ := by
  refine ⟨fun target => ?_, stored_save sound.stored _, sound.created, sound.actions,
    events_publish sound new⟩
  by_cases own : request.eventId = target
  · obtain rfl := own
    refine ⟨?_, fun id => ?_⟩
    · rw [held_save, if_pos rfl, any_some, signing.published, if_neg Bool.false_ne_true]
      exact map_eq_nil_iff.mpr (sound.queued_of_none none)
    · rw [held_save, if_pos rfl, live_publish new, (sound.tracked request.eventId).live id, none,
        Option.some.injEq]
      constructor
      · rintro (⟨absent, -⟩ | ⟨-, rfl⟩)
        · cases absent
        · exact ⟨rfl, signing.published⟩
      · rintro ⟨rfl, -⟩
        exact .inr ⟨rfl, rfl⟩
  · refine (sound.tracked target).congr rfl ?_ fun id => ?_
    · rw [held_save, if_neg own]
      rfl
    · rw [live_publish new]
      exact or_iff_left fun both => own both.1

theorem queueLike_sound {eventId : String}
    (none : client.held eventId = none) (now : Nat) (authorPubkey addressableId : Option String)
    (targetKind : Option Nat) :
    Sound ⟨client.repository.saveLikeRecord ⟨eventId, placeholderId eventId, now⟩,
      ⟨client.service.actions ++ [⟨client.service.created, .like, eventId, authorPubkey,
        addressableId, targetKind, .pending⟩], client.service.created + 1⟩, client.relays⟩ := by
  refine ⟨fun target => ?_, stored_save sound.stored _, fun action member => ?_,
    fun first firstMember second secondMember same => ?_, sound.events⟩
  · by_cases own : eventId = target
    · obtain rfl := own
      refine ⟨?_, fun id => ?_⟩
      · rw [held_save, if_pos rfl, any_some, isPlaceholder_placeholderId, if_pos rfl]
        have before := sound.queued_of_none none
        unfold pendingOn at before
        unfold queued pendingOn
        rw [filter_append, before, nil_append,
          filter_cons_of_pos (by simp [isPendingOn])]
        rfl
      · rw [held_save, if_pos rfl, Option.some.injEq]
        refine ((sound.tracked eventId).live id).trans (iff_of_false ?_ ?_)
        · rw [none]
          exact fun both => some_ne_none id both.1.symm
        · rintro ⟨rfl, published⟩
          rw [isPlaceholder_placeholderId] at published
          cases published
    · refine (sound.tracked target).congr ?_ ?_ fun _ => Iff.rfl
      · unfold queued pendingOn
        rw [filter_append, filter_cons_of_neg (by simpa [isPendingOn] using own),
          filter_nil, append_nil]
      · rw [held_save, if_neg own]
        rfl
  · rcases mem_append.mp member with before | added
    · exact Nat.lt_succ_of_lt (sound.created action before)
    · rw [mem_singleton.mp added]
      exact Nat.lt_succ_self _
  · rcases mem_append.mp firstMember with before | added
    · rcases mem_append.mp secondMember with before' | added'
      · exact sound.actions first before second before' same
      · rw [mem_singleton.mp added'] at same
        exact absurd same (Nat.ne_of_lt (sound.created first before))
    · rcases mem_append.mp secondMember with before' | added'
      · rw [mem_singleton.mp added] at same
        exact absurd same.symm (Nat.ne_of_lt (sound.created second before'))
      · rw [mem_singleton.mp added, mem_singleton.mp added']

theorem likeEvent_sound {request : LikeRequest} {online : Bool}
    {signing : Option Signing} {now : Nat} {next : LikesClient}
    (new : online = true → client.held request.eventId = none →
      ∀ signed, signing = some signed → client.New signed.id)
    (liked : client.likeEvent request online signing now = .ok next) : next.Sound := by
  unfold likeEvent at liked
  by_cases recorded : (find client.repository.likeRecords request.eventId).isSome = true
  · rw [if_pos recorded] at liked
    cases liked
  · rw [if_neg recorded] at liked
    have none : client.held request.eventId = none := by
      unfold held
      rw [map_eq_none_iff]
      exact not_isSome_iff_eq_none.mp recorded
    cases online with
    | true =>
      cases signing with
      | none => cases liked
      | some signing =>
        rw [← Except.ok.inj liked]
        exact publish_sound sound (new rfl none signing rfl) none now
    | false =>
      unfold queueOfflineAction at liked
      rw [queueAction_like (sound.queued_of_none none)] at liked
      rw [← Except.ok.inj liked]
      exact queueLike_sound sound none now _ _ _

theorem delete_sound {eventId id : String}
    (holds : client.held eventId = some id) (published : isPlaceholder id = false) :
    Sound ⟨client.repository.deleteLikeRecord eventId, client.service,
      { client.relays with deletions := client.relays.deletions ++ [id] }⟩ := by
  have alive : client.Live eventId id := ((sound.tracked eventId).live id).mpr ⟨holds, published⟩
  refine ⟨fun target => ?_, stored_delete sound.stored _, sound.created, sound.actions,
    sound.events⟩
  by_cases own : eventId = target
  · obtain rfl := own
    have queue := (sound.tracked eventId).queue
    rw [holds, any_some, published, if_neg Bool.false_ne_true] at queue
    refine ⟨?_, fun other => ?_⟩
    · rw [held_delete, if_pos rfl]
      exact queue
    · rw [held_delete, if_pos rfl, live_delete, (sound.tracked eventId).live other, holds,
        Option.some.injEq]
      refine iff_of_false ?_ fun both => some_ne_none other both.1.symm
      rintro ⟨⟨rfl, -⟩, different⟩
      exact different rfl
  · refine (sound.tracked target).congr rfl ?_ fun other => ?_
    · rw [held_delete, if_neg own]
      rfl
    · rw [live_delete]
      refine and_iff_left_of_imp fun live same => own ?_
      exact sound.target_unique alive (same ▸ live)

/-- Taking out the action that is queued for a placeholder, whose record is deleted or replaced. -/
theorem queued_taken {action : PendingAction}
    (only : pendingOn client.service action.targetId = [action]) {next : LikesClient}
    (taken : pendingOn next.service target =
      (pendingOn client.service target).filter fun other => other.id ≠ action.id) :
    next.queued target = if action.targetId = target then [] else client.queued target := by
  unfold queued
  rw [taken, filter_pendingOn sound.actions only]
  split <;> rfl

theorem cancel_sound {action : PendingAction} {id : String}
    (only : pendingOn client.service action.targetId = [action])
    (holds : client.held action.targetId = some id) (placeholder : isPlaceholder id = true) :
    Sound ⟨client.repository.deleteLikeRecord action.targetId,
      client.service.deleteAction action.id, client.relays⟩ := by
  refine ⟨fun target => ?_, stored_delete sound.stored _,
    fun other member => sound.created other (mem_of_mem_filter member),
    fun first firstMember second secondMember => sound.actions first
      (mem_of_mem_filter firstMember) second (mem_of_mem_filter secondMember),
    sound.events⟩
  have taken := pendingOn_deleteAction client.service action.id target
  have queue :=
    @queued_taken _ target sound _ only ⟨client.repository.deleteLikeRecord action.targetId,
    client.service.deleteAction action.id, client.relays⟩ taken
  by_cases own : action.targetId = target
  · rw [if_pos own] at queue
    obtain rfl := own
    refine ⟨?_, fun other => ?_⟩
    · rw [held_delete, if_pos rfl, queue]
      rfl
    · rw [held_delete, if_pos rfl]
      refine ((sound.tracked action.targetId).live other).trans (iff_of_false ?_ ?_)
      · rw [holds, Option.some.injEq]
        rintro ⟨rfl, published⟩
        rw [placeholder] at published
        cases published
      · exact fun both => some_ne_none other both.1.symm
  · rw [if_neg own] at queue
    refine (sound.tracked target).congr queue ?_ fun _ => Iff.rfl
    rw [held_delete, if_neg own]
    rfl

theorem unlikeEvent_sound {eventId : String} {online accepted : Bool} {next : LikesClient}
    (traceable : ∀ id, client.held eventId = some id → (isPlaceholder id = true ↔ online = false))
    (unliked : client.unlikeEvent eventId online accepted = .ok next) : next.Sound := by
  unfold unlikeEvent at unliked
  have same := getRecord_held sound eventId
  cases found : client.repository.getRecord eventId with
  | none =>
    rw [found] at unliked
    cases unliked
  | some record =>
    rw [found] at unliked same
    dsimp only at unliked
    have choice := traceable record.reactionEventId same.symm
    cases online with
    | true =>
      have published : isPlaceholder record.reactionEventId = false :=
        Bool.eq_false_iff.mpr fun placeholder => Bool.noConfusion (choice.mp placeholder)
      rw [if_pos rfl, published, if_neg Bool.false_ne_true] at unliked
      cases accepted with
      | true =>
        rw [← Except.ok.inj unliked]
        exact delete_sound sound same.symm published
      | false => cases unliked
    | false =>
      obtain ⟨action, only, like⟩ := sound.queued_of_placeholder same.symm (choice.mpr rfl)
      have onTarget := (mem_pendingOn.mp (only ▸ mem_cons_self : action ∈ pendingOn _ _)).2.2
      unfold queueOfflineAction at unliked
      rw [queueAction_unlike only like] at unliked
      rw [← Except.ok.inj unliked]
      obtain rfl := onTarget
      exact cancel_sound sound only same.symm (choice.mpr rfl)

end

/-! ### Queued actions -/

theorem updateStatus_actions {id : Nat} {status : PendingActionStatus}
    (actions : ∀ first ∈ service.actions, ∀ second ∈ service.actions,
      first.id = second.id → first = second) :
    ∀ first ∈ (service.updateStatus id status).actions,
      ∀ second ∈ (service.updateStatus id status).actions, first.id = second.id →
        first = second := by
  have kept : ∀ action : PendingAction,
      (if action.id = id then { action with status := status } else action).id = action.id := by
    intro action
    split <;> rfl
  intro first firstMember second secondMember same
  obtain ⟨old, oldMember, rfl⟩ := mem_map.mp firstMember
  obtain ⟨other, otherMember, rfl⟩ := mem_map.mp secondMember
  rw [kept, kept] at same
  rw [actions old oldMember other otherMember same]

theorem executeLike_sound (sound : client.Sound) {action : PendingAction} {id : String}
    (only : pendingOn client.service action.targetId = [action])
    (holds : client.held action.targetId = some id) (placeholder : isPlaceholder id = true)
    {request : LikeRequest} (target : request.eventId = action.targetId) {signing : Signing}
    (new : client.New signing.id) (createdAt : Nat) :
    Sound ⟨client.repository.saveLikeRecord ⟨request.eventId, signing.id, createdAt⟩,
      client.service.updateStatus action.id .completed, { client.relays with
        reactions := client.relays.reactions ++ [sendLike request signing] }⟩ := by
  refine ⟨fun other => ?_, stored_save sound.stored _, fun changed member => ?_,
    updateStatus_actions sound.actions, events_publish sound new⟩
  · have queue := @queued_taken _ other sound _ only
      ⟨client.repository.saveLikeRecord ⟨request.eventId, signing.id, createdAt⟩,
        client.service.updateStatus action.id .completed, { client.relays with
          reactions := client.relays.reactions ++ [sendLike request signing] }⟩
      (pendingOn_updateStatus client.service action.id other)
    by_cases own : action.targetId = other
    · rw [if_pos own] at queue
      obtain rfl := own
      refine ⟨?_, fun live => ?_⟩
      · rw [held_save, if_pos target, any_some, signing.published,
          if_neg Bool.false_ne_true, queue]
      · rw [held_save, if_pos target, live_publish new,
          (sound.tracked action.targetId).live live, holds, Option.some.injEq, Option.some.injEq]
        constructor
        · rintro (⟨rfl, published⟩ | ⟨-, rfl⟩)
          · rw [placeholder] at published
            cases published
          · exact ⟨rfl, signing.published⟩
        · rintro ⟨rfl, -⟩
          exact .inr ⟨target, rfl⟩
    · rw [if_neg own] at queue
      refine (sound.tracked other).congr queue ?_ fun live => ?_
      · rw [held_save, if_neg (target ▸ own)]
        rfl
      · rw [live_publish new]
        exact or_iff_left fun both => own (target ▸ both.1)
  · obtain ⟨old, oldMember, rfl⟩ := mem_map.mp member
    have below := sound.created old oldMember
    split <;> exact below

theorem syncAction_sound (sound : client.Sound) {action : PendingAction} {signing : Option Signing}
    {accepted : Bool} {executed : LikesClient} (member : action ∈ client.service.actions)
    (pending : action.status = .pending)
    (new : ∀ signed, signing = some signed → client.New signed.id)
    (ran : client.execute action signing accepted = .ok executed) :
    Sound { executed with service := executed.service.updateStatus action.id .completed } := by
  have present := mem_pendingOn.mpr ⟨member, pending, rfl⟩
  have queue := (sound.tracked action.targetId).queue
  -- a pending action is on a placeholder, so that it is its like
  cases holds : client.held action.targetId with
  | none =>
    rw [sound.queued_of_none holds] at present
    cases present
  | some id =>
    cases placeholder : isPlaceholder id with
    | false =>
      rw [holds, any_some, placeholder, if_neg Bool.false_ne_true] at queue
      rw [map_eq_nil_iff.mp queue] at present
      cases present
    | true =>
      obtain ⟨queuedAction, only, like⟩ := sound.queued_of_placeholder holds placeholder
      rw [only] at present
      obtain rfl := mem_singleton.mp present
      obtain ⟨record, found, rfl⟩ := map_eq_some_iff.mp holds
      unfold execute executeLikeAction publishLike at ran
      rw [like] at ran
      cases signing with
      | none => cases ran
      | some signing =>
        dsimp only [bind, Except.bind] at ran
        rw [found] at ran
        dsimp only at ran
        rw [if_pos placeholder] at ran
        rw [← Except.ok.inj ran]
        have target : LikeRequest.eventId ⟨action.targetId, action.authorPubkey.getD "",
          action.addressableId, action.targetKind⟩ = action.targetId := rfl
        exact executeLike_sound sound only holds placeholder target (new signing rfl)
          record.createdAt

theorem likesStep_sound {action : LikesAction} {next : LikesClient} (sound : client.Sound)
    (traceable : client.Traceable action) (stepped : likesStep client action = some next) :
    next.Sound := by
  cases action with
  | likeEvent request online signing now =>
    rw [← Option.some.inj stepped]
    cases liked : client.likeEvent request online signing now with
    | error _ => exact sound
    | ok changed => exact likeEvent_sound sound traceable liked
  | unlikeEvent eventId online accepted =>
    rw [← Option.some.inj stepped]
    cases unliked : client.unlikeEvent eventId online accepted with
    | error _ => exact sound
    | ok changed => exact unlikeEvent_sound sound traceable unliked
  | syncAction place signing accepted =>
    dsimp only [likesStep] at stepped
    cases found : client.service.actions[place]? with
    | none =>
      rw [found] at stepped
      cases stepped
    | some action =>
      rw [found] at stepped
      obtain ⟨pending, ran⟩ := ite_none_right_eq_some.mp stepped
      obtain ⟨executed, succeeded, completed⟩ := map_eq_some_iff.mp ran
      rw [← completed]
      exact syncAction_sound sound (mem_of_getElem? found) pending traceable
        (Fallible.toOption_eq_some.mp succeeded)

/-! ### Runs -/

/-- The relays hold what the records name once no action waits, in every traceable run from matching
records. -/
theorem run_converged (start reached : LikesClient) (actions : List LikesAction)
    (matched : start.Matched) (traceable : Transition.Meets likesStep Traceable start actions)
    (ran : Transition.run likesStep start actions = some reached) :
    reached.Drained → ∀ target, reached.Converged target :=
  (Transition.invariant_of_meets likesStep
    (fun _ _ _ sound meets stepped => likesStep_sound sound meets stepped)
    matched.sound traceable ran).converged

/-! ### Samples -/

def noLikes : LikesClient where
  repository := ⟨[], some []⟩
  service := ⟨[], 0⟩
  relays := ⟨[], []⟩

theorem noLikes_matched : noLikes.Matched := by
  refine ⟨fun target id => iff_of_false ?_ nofun, ?_, rfl, nofun⟩
  · rintro ⟨event, member, -⟩
    cases member
  · rintro rows same target
    rw [← Option.some.inj same]
    rfl

def sampleRequest (eventId : String) : LikeRequest := ⟨eventId, "author", none, none⟩

def sampleSigning (id : String) (published : isPlaceholder id = false) : Signing :=
  ⟨id, 1, published⟩

/-- Two likes made offline, one of them unliked again offline, and the other published later. -/
theorem run_converged_sample : ∃ reached,
    Transition.run likesStep noLikes
      [.likeEvent (sampleRequest "a") false none 5, .likeEvent (sampleRequest "b") false none 6,
        .unlikeEvent "a" false true, .syncAction 0 (some (sampleSigning "r" (by decide))) true] =
        some reached ∧
      reached.held "b" = some "r" ∧ ∀ target, reached.Converged target := by
  refine ⟨_, rfl, by decide, run_converged noLikes _
    [.likeEvent (sampleRequest "a") false none 5, .likeEvent (sampleRequest "b") false none 6,
      .unlikeEvent "a" false true, .syncAction 0 (some (sampleSigning "r" (by decide))) true]
    noLikes_matched ?_ rfl ?_⟩
  · refine Transition.Meets.cons _ nofun rfl ?_
    refine Transition.Meets.cons _ nofun rfl ?_
    refine Transition.Meets.cons _ (fun id holds => ?_) rfl ?_
    · have placeholder : some "pending_like_a" = some id := by
        rw [← holds]
        decide
      rw [← Option.some.inj placeholder]
      decide
    · refine Transition.Meets.cons _ (fun signed same => ?_) rfl trivial
      exact ⟨nofun, nofun⟩
  · unfold Drained
    decide

/-- An unlike made offline of a published like never deletes it, nor does one made online of a
queued like. -/
theorem unlike_lost :
    (∃ reached, Transition.run likesStep noLikes
        [.likeEvent (sampleRequest "a") true (some (sampleSigning "r" (by decide))) 5,
          .unlikeEvent "a" false true, .syncAction 0 none true] = some reached ∧
      reached.Drained ∧ reached.held "a" = none ∧ reached.Live "a" "r") ∧
    ∃ reached, Transition.run likesStep noLikes
        [.likeEvent (sampleRequest "a") false none 5, .unlikeEvent "a" true true,
          .syncAction 0 (some (sampleSigning "r" (by decide))) true] = some reached ∧
      reached.Drained ∧ reached.held "a" = none ∧ reached.Live "a" "r" := by
  refine ⟨⟨_, rfl, ?_, by decide, ?_⟩, ⟨_, rfl, ?_, by decide, ?_⟩⟩
  · unfold Drained
    decide
  · exact ⟨_, mem_cons_self, rfl, rfl, rfl, nofun⟩
  · unfold Drained
    decide
  · exact ⟨_, mem_cons_self, rfl, rfl, rfl, nofun⟩

end Divine.Repositories.LikesClient
