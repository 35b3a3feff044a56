/-
This file proves what queueing leaves pending.
-/

import Divine.Repositories.ActionSync

namespace Divine.Repositories

open Interleaving Transition

/-! ### The net effect -/

def NetEffect (types : List PendingActionType) (type : PendingActionType) : Prop :=
  types.count type.opposite < types.count type

theorem PendingActionType.opposite_opposite (type : PendingActionType) :
    type.opposite.opposite = type := by
  cases type <;> rfl

theorem PendingActionType.opposite_ne (type : PendingActionType) : type.opposite ≠ type := by
  cases type <;> decide

def Balanced (types : List PendingActionType) (held : Option PendingActionType) : Prop :=
  ∀ type, types.count type + (if held = some type.opposite then 1 else 0) =
    types.count type.opposite + if held = some type then 1 else 0

theorem balanced_nil : Balanced [] none := fun _ => rfl
variable {types : List PendingActionType}


theorem Balanced.netEffect {held : Option PendingActionType} (balanced : Balanced types held)
    (type : PendingActionType) :
    NetEffect types type ↔ held = some type := by
  have equal := balanced type
  unfold NetEffect
  by_cases own : held = some type
  · have apart : held ≠ some type.opposite := fun same =>
      type.opposite_ne (Option.some.inj (same.symm.trans own))
    rw [if_pos own, if_neg apart] at equal
    exact ⟨fun _ => own, fun _ => by omega⟩
  · rw [if_neg own] at equal
    refine ⟨fun more => ?_, fun same => absurd same own⟩
    split at equal <;> omega

theorem Balanced.add (balanced : Balanced types none) (type : PendingActionType) :
    Balanced (types ++ [type]) (some type) := by
  intro other
  have equal := balanced other
  rw [if_neg (Option.some_ne_none _).symm, if_neg (Option.some_ne_none _).symm] at equal
  by_cases own : type = other
  · subst own
    simp [Ne.symm type.opposite_ne]
    omega
  · by_cases against : type = other.opposite
    · subst against
      simp [other.opposite_ne]
      omega
    · simp [own, against]
      omega

theorem Balanced.cancel {type : PendingActionType}
    (balanced : Balanced types (some type.opposite)) :
    Balanced (types ++ [type]) none := by
  intro other
  have equal := balanced other
  by_cases own : type = other
  · subst own
    simp [type.opposite_ne, Ne.symm type.opposite_ne] at equal ⊢
    omega
  · by_cases against : type = other.opposite
    · subst against
      simp [other.opposite_opposite, other.opposite_ne, Ne.symm other.opposite_ne] at equal ⊢
      omega
    · have apart : type.opposite ≠ other.opposite := fun same => own (by
        rw [← type.opposite_opposite, same, other.opposite_opposite])
      have apart' : type.opposite ≠ other := fun same => against (by
        rw [← same, type.opposite_opposite])
      simp [own, against, apart, apart'] at equal ⊢
      omega

/-! ### What is pending -/

def ActionCall.queues : ActionCall → Option String
  | .finding arguments | .deleting arguments _ | .inserting arguments => some arguments.targetId
  | _ => none

def ActionCall.requeues : ActionCall → ActionRow → Bool
  | .resetting, row => row.status = .syncing
  | .failing action _, row => row.id = action.id && action.retryCount + 1 < maxRetries
  | _, _ => false

def ActionClient.queuedOn (client : ActionClient) (target : String) : List PendingActionType :=
  (client.queued.filter fun entry => entry.1 = target).map Prod.snd

namespace ActionPool

structure PendsNetEffect (pool : ActionPool) : Prop where
  returns : pool.shared.thrown = 0
  single : ∀ row ∈ pool.shared.rows, ∀ other ∈ pool.shared.rows, row.status = .pending →
    other.status = .pending → row.targetId = other.targetId → row = other
  net : ∀ target ∉ pool.shared.touched, ∀ type,
    (∃ row ∈ pool.shared.rows, row.isPending type target = true) ↔
      NetEffect (pool.shared.queuedOn target) type

/-- A call of `queueAction` comes after the earlier ones on its target, while what is pending is of
the opposite type, and none makes an action pending next to another. -/
def QueuesInTurn (pool : ActionPool) : ActionStep → Prop
  | .queueAction arguments => pool.shared.isInitialized = true ∧
      (∀ call ∈ pool.calls, call.queues ≠ some arguments.targetId) ∧
        ∀ row ∈ pool.shared.rows, row.status = .pending → row.targetId = arguments.targetId →
          row.type = arguments.type.opposite
  | .advance position _ => ∀ call ∈ pool.calls[position]?, ∀ row ∈ pool.shared.rows,
      call.requeues row = true → (∀ other ∈ pool.calls, other.queues ≠ some row.targetId) ∧
        ∀ other ∈ pool.shared.rows, other.targetId = row.targetId →
          other.status = .pending ∨ call.requeues other = true → other = row
  | _ => True

instance (pool : ActionPool) : ∀ action, Decidable (QueuesInTurn pool action)
  | .queueAction _ => inferInstanceAs (Decidable (_ ∧ _ ∧ _))
  | .advance position _ => inferInstanceAs (Decidable (∀ call ∈ pool.calls[position]?, _))
  | .startInitialize | .syncPendingActions | .connectivityChange _ | .watchPendingActions =>
      inferInstanceAs (Decidable True)

/-! ### What a call keeps -/

def Relies (client : ActionClient) : ActionCall → Prop
  | .finding arguments => ∀ row ∈ client.rows, row.status = .pending →
      row.targetId = arguments.targetId → row.type = arguments.type.opposite
  | .deleting arguments id => id < client.created ∧
      (∀ row ∈ client.rows, row.id = id → row.targetId = arguments.targetId) ∧
        (∀ row ∈ client.rows, row.status = .pending → row.targetId = arguments.targetId →
          row.id = id ∧ row.type = arguments.type.opposite) ∧
          (arguments.targetId ∉ client.touched →
            ∃ row ∈ client.rows, row.id = id ∧ row.status = .pending)
  | .inserting arguments => ∀ row ∈ client.rows, row.status = .pending →
      row.targetId ≠ arguments.targetId
  | _ => True

def Holds (rows : List ActionRow) (target : String) (held : Option PendingActionType) : Prop :=
  ∀ type, (∃ row ∈ rows, row.isPending type target = true) ↔ held = some type

def queueing (target : String) (call : ActionCall) : Nat :=
  if call.queues = some target then 1 else 0

structure InTurn (pool : ActionPool) : Prop where
  stored : Stored pool.shared.rows pool.shared.created
  returns : pool.shared.thrown = 0
  single : ∀ row ∈ pool.shared.rows, ∀ other ∈ pool.shared.rows, row.status = .pending →
    other.status = .pending → row.targetId = other.targetId → row = other
  net : ∀ target ∉ pool.shared.touched, ∃ held,
    Holds pool.shared.rows target held ∧ Balanced (pool.shared.queuedOn target) held
  apart : ∀ target, total (queueing target) pool.calls ≤ 1
  calls : ∀ call ∈ pool.calls, Relies pool.shared call

theorem InTurn.pendsNetEffect {pool : ActionPool} (inTurn : InTurn pool) : PendsNetEffect pool where
  returns := inTurn.returns
  single := inTurn.single
  net target untouched type := by
    obtain ⟨held, holds, balanced⟩ := inTurn.net target untouched
    rw [holds type, balanced.netEffect]

theorem isPending_iff {row : ActionRow} {type : PendingActionType} {target : String} :
    row.isPending type target = true ↔
      row.type = type ∧ row.targetId = target ∧ row.status = .pending := by
  unfold PendingAction.isPending
  rw [Bool.and_eq_true, Bool.and_eq_true, decide_eq_true_eq, decide_eq_true_eq,
    decide_eq_true_eq, and_assoc]

variable {client next : ActionClient} {calls : List ActionCall}

theorem InTurn.congr (inTurn : InTurn ⟨client, calls⟩) (rows : next.rows = client.rows)
    (created : next.created = client.created) (queued : next.queued = client.queued)
    (thrown : next.thrown = client.thrown) (touched : next.touched = client.touched) :
    InTurn ⟨next, calls⟩ := by
  obtain ⟨_, _, _, _, _, _, _, _, _, _, _⟩ := next
  obtain ⟨_, _, _, _, _, _, _, _, _, _, _⟩ := client
  obtain rfl := rows
  obtain rfl := created
  obtain rfl := queued
  obtain rfl := thrown
  obtain rfl := touched
  exact ⟨inTurn.stored, inTurn.returns, inTurn.single, inTurn.net, inTurn.apart,
    fun call member => by
      have relies := inTurn.calls call member
      cases call <;> exact relies⟩

variable {stages : List ActionCall}

theorem InTurn.proceed (inTurn : InTurn ⟨client, calls⟩) {position : Nat} {call : ActionCall}
    (present : calls[position]? = some call) (relies : ∀ stage ∈ stages, Relies client stage)
    (queues : ∀ target, total (queueing target) stages ≤ queueing target call) :
    InTurn ⟨client, calls.eraseIdx position ++ stages⟩ where
  stored := inTurn.stored
  returns := inTurn.returns
  single := inTurn.single
  net := inTurn.net
  apart target := by
    have whole := total_eraseIdx (queueing target) present
    have before : total (queueing target) calls ≤ 1 := inTurn.apart target
    have less := queues target
    rw [total_append]
    omega
  calls other member := by
    rcases List.mem_append.mp member with left | stage
    · exact inTurn.calls other (List.mem_of_mem_eraseIdx left)
    · exact relies other stage

theorem relies_of_quiet {call : ActionCall} (quiet : call.queues = none) : Relies client call := by
  cases call <;> trivial

theorem quiet_singleton {call : ActionCall} (quiet : call.queues = none) :
    ∀ stage ∈ [call], stage.queues = none :=
  fun _ member => List.mem_singleton.mp member ▸ quiet

theorem total_queueing_of_quiet (quiet : ∀ stage ∈ stages, stage.queues = none) (target : String) :
    total (queueing target) stages = 0 :=
  total_eq_zero fun stage member => by
    unfold queueing
    rw [quiet stage member]
    rfl

theorem InTurn.proceed_quiet (inTurn : InTurn ⟨client, calls⟩) {position : Nat} {call : ActionCall}
    (present : calls[position]? = some call) (quiet : ∀ stage ∈ stages, stage.queues = none) :
    InTurn ⟨client, calls.eraseIdx position ++ stages⟩ :=
  inTurn.proceed present (fun stage member => relies_of_quiet (quiet stage member)) fun target => by
    rw [total_queueing_of_quiet quiet]
    exact Nat.zero_le _

theorem InTurn.start (inTurn : InTurn ⟨client, calls⟩)
    (relies : ∀ stage ∈ stages, Relies client stage)
    (apart : ∀ target, total (queueing target) calls + total (queueing target) stages ≤ 1) :
    InTurn ⟨client, calls ++ stages⟩ where
  stored := inTurn.stored
  returns := inTurn.returns
  single := inTurn.single
  net := inTurn.net
  apart target := by
    rw [total_append]
    exact apart target
  calls call member := by
    rcases List.mem_append.mp member with earlier | added
    · exact inTurn.calls call earlier
    · exact relies call added

theorem InTurn.start_quiet (inTurn : InTurn ⟨client, calls⟩)
    (quiet : ∀ stage ∈ stages, stage.queues = none) : InTurn ⟨client, calls ++ stages⟩ :=
  inTurn.start (fun stage member => relies_of_quiet (quiet stage member)) fun target => by
    rw [total_queueing_of_quiet quiet]
    exact inTurn.apart target

/-! ### Writing a status -/

section WriteStatus

variable {chosen : ActionRow → Bool} {status : PendingActionStatus} {retryCount : Option Nat}

theorem not_chosen_of_untouched {target : String}
    (untouched : target ∉ (client.writeStatus chosen status retryCount).touched) {row : ActionRow}
    (member : row ∈ client.rows) (own : row.targetId = target) : chosen row = false := by
  refine Bool.eq_false_iff.mpr fun choice => untouched (List.mem_append_right _ ?_)
  exact List.mem_map.mpr ⟨row, List.mem_filter.mpr ⟨member, choice⟩, own⟩

/-- An update keeps the invariant when the actions that it makes pending are alone on their targets.
-/
theorem InTurn.writeStatus (inTurn : InTurn ⟨client, calls⟩)
    (requeued : status = .pending → ∀ row ∈ client.rows, chosen row = true →
      (∀ call ∈ calls, call.queues ≠ some row.targetId) ∧
        ∀ other ∈ client.rows, other.targetId = row.targetId →
          other.status = .pending ∨ chosen other = true → other = row) :
    InTurn ⟨client.writeStatus chosen status retryCount, calls⟩ := by
  -- what is pending on the target of a call was pending before
  have older : ∀ call ∈ calls, ∀ target, call.queues = some target →
      ∀ row ∈ (client.writeStatus chosen status retryCount).rows, row.status = .pending →
        row.targetId = target → row ∈ client.rows := by
    intro call under target queues row member pending own
    rcases ActionClient.mem_writeStatus member with ⟨before, present, choice, rfl⟩ | ⟨present, -⟩
    · exact absurd (queues.trans (congrArg some own.symm))
        ((requeued pending before present choice).1 call under)
    · exact present
  refine ⟨inTurn.stored.writeStatus, inTurn.returns,
    fun row member other also pending pendingToo same => ?_, fun target untouched => ?_,
    inTurn.apart, fun call under => ?_⟩
  · rcases ActionClient.mem_writeStatus member with ⟨before, present, choice, rfl⟩ | ⟨present, kept⟩
    · rcases ActionClient.mem_writeStatus also with ⟨second, presentToo, choiceToo,
        rfl⟩ | ⟨presentToo, keptToo⟩
      · rw [(requeued pending before present choice).2 second presentToo same.symm (.inr choiceToo)]
      · have equal := (requeued pending before present choice).2 other presentToo same.symm
          (.inl pendingToo)
        rw [equal, choice] at keptToo
        cases keptToo
    · rcases ActionClient.mem_writeStatus also with ⟨second, presentToo, choiceToo,
        rfl⟩ | ⟨presentToo, -⟩
      · have equal := (requeued pendingToo second presentToo choiceToo).2 row present same
          (.inl pending)
        rw [equal, choiceToo] at kept
        cases kept
      · exact inTurn.single row present other presentToo pending pendingToo same
  · obtain ⟨held, holds, balanced⟩ := inTurn.net target
      fun earlier => untouched (List.mem_append_left _ earlier)
    refine ⟨held, fun type => (Iff.trans ?_ (holds type)), balanced⟩
    constructor
    · rintro ⟨row, member, pending⟩
      rcases ActionClient.mem_writeStatus member with ⟨before, present, choice, rfl⟩ | ⟨present, -⟩
      · rw [not_chosen_of_untouched untouched present (isPending_iff.mp pending).2.1] at choice
        cases choice
      · exact ⟨row, present, pending⟩
    · rintro ⟨row, present, pending⟩
      exact ⟨row, ActionClient.mem_writeStatus_of_not_chosen present
        (not_chosen_of_untouched untouched present (isPending_iff.mp pending).2.1), pending⟩
  · have relies := inTurn.calls call under
    have before := older call under
    cases call with
    | finding arguments =>
      exact fun row member pending own =>
        relies row (before _ rfl row member pending own) pending own
    | deleting arguments id =>
      obtain ⟨made, frame, only, found⟩ := relies
      refine ⟨made, fun row member same => ?_, fun row member pending own =>
        only row (before _ rfl row member pending own) pending own, fun untouched => ?_⟩
      · rcases ActionClient.mem_writeStatus member with ⟨before, present, -, rfl⟩ | ⟨present, -⟩
        · exact frame before present same
        · exact frame row present same
      · obtain ⟨row, present, same, pending⟩ := found
          fun earlier => untouched (List.mem_append_left _ earlier)
        exact ⟨row, ActionClient.mem_writeStatus_of_not_chosen present
          (not_chosen_of_untouched untouched present (frame row present same)), same, pending⟩
    | inserting arguments =>
      exact fun row member pending own =>
        relies row (before _ rfl row member pending own) pending own
    | _ => trivial

theorem InTurn.updateStatus (inTurn : InTurn ⟨client, calls⟩) (written : status ≠ .pending)
    {id : Nat} : InTurn ⟨client.updateStatus id status retryCount, calls⟩ :=
  inTurn.writeStatus fun pending => absurd pending written

end WriteStatus

/-! ### Taking effect -/

theorem queuedOn_record (arguments : QueueArguments) (target : String) :
    (client.record arguments).queuedOn target =
      if arguments.targetId = target then client.queuedOn target ++ [arguments.type]
      else client.queuedOn target := by
  unfold ActionClient.queuedOn ActionClient.record
  by_cases own : arguments.targetId = target <;> simp [own]

theorem InTurn.deleteAction (inTurn : InTurn ⟨client, calls⟩)
    {arguments : QueueArguments} {id : Nat}
    (relies : Relies client (.deleting arguments id))
    (quiet : ∀ call ∈ calls, call.queues ≠ some arguments.targetId) :
    InTurn ⟨(client.deleteAction id).record arguments, calls⟩ := by
  obtain ⟨-, frame, only, found⟩ := relies
  have kept : ∀ row, row ∈ ((client.deleteAction id).record arguments).rows ↔
      row ∈ client.rows ∧ row.id ≠ id := fun _ => ActionClient.mem_deleteAction
  refine ⟨inTurn.stored.deleteAction id, inTurn.returns, fun row member other also =>
    inTurn.single row ((kept row).mp member).1 other ((kept other).mp also).1,
    fun target untouched => ?_, inTurn.apart, fun call under => ?_⟩
  · obtain ⟨held, holds, balanced⟩ := inTurn.net target untouched
    rw [queuedOn_record]
    by_cases own : arguments.targetId = target
    · obtain ⟨row, member, same, pending⟩ := found (own.symm ▸ untouched)
      have opposite : held = some arguments.type.opposite := (holds _).mp ⟨row, member,
        isPending_iff.mpr ⟨(only row member pending (frame row member same)).2,
          (frame row member same).trans own, pending⟩⟩
      rw [if_pos own]
      refine ⟨none, fun type => ⟨?_, fun held => absurd held.symm (Option.some_ne_none type)⟩, ?_⟩
      · rintro ⟨other, also, isPending⟩
        obtain ⟨-, onTarget, pendingToo⟩ := isPending_iff.mp isPending
        obtain ⟨present, differs⟩ := (kept other).mp also
        exact absurd (only other present pendingToo (onTarget.trans own.symm)).1 differs
      · exact Balanced.cancel (opposite ▸ balanced)
    · rw [if_neg own]
      refine ⟨held, fun type => Iff.trans ?_ (holds type), balanced⟩
      constructor
      · rintro ⟨row, member, pending⟩
        exact ⟨row, ((kept row).mp member).1, pending⟩
      · rintro ⟨row, member, pending⟩
        refine ⟨row, (kept row).mpr ⟨member, fun same => own ?_⟩, pending⟩
        exact (frame row member same).symm.trans (isPending_iff.mp pending).2.1
  · have relies := inTurn.calls call under
    cases call with
    | finding other => exact fun row member => relies row ((kept row).mp member).1
    | deleting other second =>
      obtain ⟨made, frameToo, onlyToo, foundToo⟩ := relies
      refine ⟨made, fun row member => frameToo row ((kept row).mp member).1,
        fun row member => onlyToo row ((kept row).mp member).1, fun untouched => ?_⟩
      obtain ⟨row, member, same, pending⟩ := foundToo untouched
      refine ⟨row, (kept row).mpr ⟨member, fun equal => quiet _ under ?_⟩, same, pending⟩
      exact congrArg some ((frameToo row member same).symm.trans (frame row member equal))
    | inserting other => exact fun row member => relies row ((kept row).mp member).1
    | _ => trivial

theorem InTurn.upsertAction (inTurn : InTurn ⟨client, calls⟩) {arguments : QueueArguments}
    (relies : Relies client (.inserting arguments))
    (quiet : ∀ call ∈ calls, call.queues ≠ some arguments.targetId) :
    InTurn ⟨(client.upsertAction arguments).record arguments, calls⟩ := by
  have mem : ∀ row, row ∈ ((client.upsertAction arguments).record arguments).rows →
      row ∈ client.rows ∨ row = client.create arguments :=
    fun _ => ActionClient.mem_upsertAction.mp
  refine ⟨inTurn.stored.upsertAction arguments, inTurn.returns,
    fun row member other also pending pendingToo same => ?_, fun target untouched => ?_,
    inTurn.apart, fun call under => ?_⟩
  · rcases mem row member with present | rfl
    · rcases mem other also with presentToo | rfl
      · exact inTurn.single row present other presentToo pending pendingToo same
      · exact absurd same (relies row present pending)
    · rcases mem other also with presentToo | rfl
      · exact absurd same.symm (relies other presentToo pendingToo)
      · rfl
  · obtain ⟨held, holds, balanced⟩ := inTurn.net target untouched
    rw [queuedOn_record]
    by_cases own : arguments.targetId = target
    · have nothing : held = none := by
        refine Option.eq_none_iff_forall_ne_some.mpr fun type some => ?_
        obtain ⟨row, member, isPending⟩ := (holds type).mpr some
        obtain ⟨-, onTarget, pending⟩ := isPending_iff.mp isPending
        exact relies row member pending (onTarget.trans own.symm)
      rw [if_pos own]
      refine ⟨some arguments.type, fun type => ⟨?_, fun same => ?_⟩, (nothing ▸ balanced).add _⟩
      · rintro ⟨row, member, isPending⟩
        rcases mem row member with present | rfl
        · obtain ⟨-, onTarget, pending⟩ := isPending_iff.mp isPending
          exact absurd (onTarget.trans own.symm) (relies row present pending)
        · exact congrArg some (isPending_iff.mp isPending).1
      · exact ⟨client.create arguments, List.mem_append_right _ List.mem_cons_self,
          isPending_iff.mpr ⟨Option.some.inj same, own, rfl⟩⟩
    · rw [if_neg own]
      refine ⟨held, fun type => Iff.trans ?_ (holds type), balanced⟩
      constructor
      · rintro ⟨row, member, isPending⟩
        rcases mem row member with present | rfl
        · exact ⟨row, present, isPending⟩
        · exact absurd (isPending_iff.mp isPending).2.1 own
      · rintro ⟨row, member, isPending⟩
        exact ⟨row, List.mem_append_left _ member, isPending⟩
  · have reliesToo := inTurn.calls call under
    have apart := quiet call under
    cases call with
    | finding other =>
      intro row member pending onTarget
      rcases mem row member with present | rfl
      · exact reliesToo row present pending onTarget
      · exact absurd (congrArg some onTarget.symm) apart
    | deleting other id =>
      obtain ⟨made, frame, only, found⟩ := reliesToo
      refine ⟨Nat.lt_succ_of_lt made, fun row member same => ?_,
        fun row member pending onTarget => ?_, fun untouched => ?_⟩
      · rcases mem row member with present | rfl
        · exact frame row present same
        · exact absurd same (Nat.ne_of_gt made)
      · rcases mem row member with present | rfl
        · exact only row present pending onTarget
        · exact absurd (congrArg some onTarget.symm) apart
      · obtain ⟨row, present, same, pending⟩ := found untouched
        exact ⟨row, List.mem_append_left _ present, same, pending⟩
    | inserting other =>
      intro row member pending onTarget
      rcases mem row member with present | rfl
      · exact reliesToo row present pending onTarget
      · exact absurd (congrArg some onTarget.symm) apart
    | _ => trivial

/-! ### Steps -/

theorem queues_syncPendingActions : ∀ call ∈ client.syncPendingActions, call.queues = none := by
  intro call member
  rcases client.syncPendingActions_cases with nothing | ⟨-, listing⟩
  · rw [nothing] at member
    cases member
  · rw [listing, List.mem_singleton] at member
    exact member ▸ rfl

theorem queues_onConnectivityChange : ∀ call ∈ client.onConnectivityChange, call.queues = none := by
  intro call member
  rcases client.onConnectivityChange_cases with nothing | ⟨-, listing⟩
  · rw [nothing] at member
    cases member
  · rw [listing, List.mem_singleton] at member
    exact member ▸ rfl

variable {config : ActionConfig} {position : Nat}

section

variable (inTurn : InTurn ⟨client, calls⟩)

include inTurn

theorem InTurn.loop {call : ActionCall}
    (present : calls[position]? = some call) (actions : List ActionRow) :
    InTurn ⟨(client.loop config actions).1,
      calls.eraseIdx position ++ (client.loop config actions).2⟩ := by
  rcases client.loop_cases config actions with ended | ⟨action, rest, -, marks | skips⟩
  · rw [ended]
    exact (inTurn.proceed_quiet present (quiet_singleton rfl)).congr rfl rfl rfl rfl rfl
  · rw [marks]
    exact inTurn.proceed_quiet present (quiet_singleton rfl)
  · rw [skips]
    exact inTurn.proceed_quiet present (quiet_singleton rfl)

theorem InTurn.findConflictingAction (target : String) (type : PendingActionType) :
    (client.service.findConflictingAction target type = .ok none ∧
        ∀ row ∈ client.rows, row.isPending type target ≠ true) ∨
      ∃ row ∈ client.rows, row.isPending type target = true ∧
        client.service.findConflictingAction target type = .ok (some row.toPendingAction) := by
  have nodup : (client.rows.filter fun row => row.isPending type target).Nodup :=
    (List.Nodup.of_map _ inTurn.stored.ids).filter _
  have found : (client.service.actions.filter fun action => action.isPending type target) =
      (client.rows.filter fun row => row.isPending type target).map ActionRow.toPendingAction :=
    List.filter_map
  unfold PendingActionService.findConflictingAction
  rw [found]
  cases filtered : client.rows.filter fun row => row.isPending type target with
  | nil =>
    exact .inl ⟨rfl, fun row member => List.filter_eq_nil_iff.mp filtered row member⟩
  | cons row rest =>
    obtain ⟨member, pending⟩ := List.mem_filter.mp (filtered ▸ List.mem_cons_self :
      row ∈ client.rows.filter fun row => row.isPending type target)
    cases rest with
    | nil => exact .inr ⟨row, member, pending, rfl⟩
    | cons other _ =>
      obtain ⟨also, pendingToo⟩ := List.mem_filter.mp (filtered ▸ List.mem_cons_of_mem _
        List.mem_cons_self : other ∈ client.rows.filter fun row => row.isPending type target)
      obtain ⟨-, own, isPending⟩ := isPending_iff.mp pending
      obtain ⟨-, ownToo, isPendingToo⟩ := isPending_iff.mp pendingToo
      have same :=
        inTurn.single row member other also isPending isPendingToo (own.trans ownToo.symm)
      rw [filtered, same] at nodup
      exact absurd List.mem_cons_self (List.nodup_cons.mp nodup).1

theorem InTurn.find {arguments : QueueArguments}
    (present : calls[position]? = some (.finding arguments)) (ending : Execution) :
    InTurn ⟨(client.advance config ending (.finding arguments)).1,
      calls.eraseIdx position ++ (client.advance config ending (.finding arguments)).2⟩ := by
  have relies := inTurn.calls _ (List.mem_of_getElem? present)
  rcases inTurn.findConflictingAction arguments.targetId arguments.type.opposite with
    ⟨nothing, none⟩ | ⟨row, member, isPending, found⟩
  · have moved : client.advance config ending (.finding arguments) =
        (client, [.inserting arguments]) := by
      simp only [ActionClient.advance, nothing]
    rw [moved]
    refine inTurn.proceed present (fun stage member => ?_) fun target => le_rfl
    rw [List.mem_singleton.mp member]
    intro row present pending onTarget
    exact none row present
      (isPending_iff.mpr ⟨relies row present pending onTarget, onTarget, pending⟩)
  · have moved : client.advance config ending (.finding arguments) =
        (client, [.deleting arguments row.id]) := by
      simp only [ActionClient.advance, found]
    rw [moved]
    refine inTurn.proceed present (fun stage member => ?_) fun target => le_rfl
    rw [List.mem_singleton.mp member]
    obtain ⟨-, own, pending⟩ := isPending_iff.mp isPending
    refine ⟨inTurn.stored.made row ‹_›, fun other also same => ?_,
      fun other also pendingToo onTarget =>
      ⟨?_, relies other also pendingToo onTarget⟩, fun _ => ⟨row, ‹_›, rfl, pending⟩⟩
    · rw [inTurn.stored.eq_of_id also ‹row ∈ client.rows› same]
      exact own
    · rw [inTurn.single other also row ‹_› pendingToo pending (onTarget.trans own.symm)]

theorem InTurn.quiet {call : ActionCall}
    (present : calls[position]? = some call) {target : String} (own : call.queues = some target) :
    ∀ other ∈ calls.eraseIdx position ++ [.refreshing], other.queues ≠ some target := by
  intro other member same
  rcases List.mem_append.mp member with left | refreshing
  · have heavy : 0 < queueing target call := by
      unfold queueing
      rw [if_pos own]
      exact Nat.one_pos
    have light := weight_eq_zero_of_mem_eraseIdx (inTurn.apart target) present heavy left
    unfold queueing at light
    rw [if_pos same] at light
    cases light
  · rw [List.mem_singleton.mp refreshing] at same
    cases same

theorem InTurn.advance {call : ActionCall} (present : calls[position]? = some call)
    (alone : ∀ row ∈ client.rows, call.requeues row = true →
      (∀ other ∈ calls, other.queues ≠ some row.targetId) ∧
        ∀ other ∈ client.rows, other.targetId = row.targetId →
          other.status = .pending ∨ call.requeues other = true → other = row) (ending : Execution) :
    InTurn ⟨(client.advance config ending call).1,
      calls.eraseIdx position ++ (client.advance config ending call).2⟩ := by
  have relies := inTurn.calls call (List.mem_of_getElem? present)
  cases call with
  | resetting =>
    exact (inTurn.writeStatus fun _ => alone).proceed_quiet present (quiet_singleton rfl)
  | loadingPending =>
    exact (inTurn.proceed_quiet present (quiet_singleton rfl)).congr rfl rfl rfl rfl rfl
  | loadingAll =>
    exact (inTurn.proceed_quiet present queues_onConnectivityChange).congr rfl rfl rfl rfl rfl
  | finding arguments => exact inTurn.find present ending
  | deleting arguments id =>
    exact (inTurn.proceed_quiet present (quiet_singleton rfl)).deleteAction relies
      (inTurn.quiet present rfl)
  | inserting arguments =>
    exact (inTurn.proceed_quiet present (quiet_singleton rfl)).upsertAction relies
      (inTurn.quiet present rfl)
  | listing => exact inTurn.proceed_quiet present (quiet_singleton rfl)
  | listed actions =>
    have syncing : InTurn ⟨{ client with isSyncing := true }, calls⟩ :=
      inTurn.congr rfl rfl rfl rfl rfl
    by_cases empty : actions.isEmpty = true
    · have ended : client.advance config ending (.listed actions) = (client, []) := if_pos empty
      rw [ended]
      exact inTurn.proceed_quiet present fun _ => nofun
    · have looped : client.advance config ending (.listed actions) =
          { client with isSyncing := true }.loop config actions := if_neg empty
      rw [looped]
      exact syncing.loop present actions
  | looping actions => exact inTurn.loop present actions
  | marking action rest =>
    have marked : InTurn ⟨client.updateStatus action.id .syncing none, calls⟩ :=
      inTurn.updateStatus (by decide)
    exact marked.proceed_quiet present (quiet_singleton rfl)
  | executing action attempts rest =>
    cases ending with
    | succeeded =>
      exact (inTurn.proceed_quiet present (quiet_singleton rfl)).congr rfl rfl rfl rfl rfl
    | failed isRetriable =>
      by_cases again : (isRetriable && attempts + 1 ≤ config.maxRetries) = true
      · have delayed : client.advance config (.failed isRetriable)
            (.executing action attempts rest) = (client, [.delaying action (attempts + 1) rest]) :=
          if_pos again
        rw [delayed]
        exact inTurn.proceed_quiet present (quiet_singleton rfl)
      · have failed : client.advance config (.failed isRetriable)
            (.executing action attempts rest) = (client, [.failing action rest]) := if_neg again
        rw [failed]
        exact inTurn.proceed_quiet present (quiet_singleton rfl)
  | delaying action attempts rest => exact inTurn.proceed_quiet present (quiet_singleton rfl)
  | completing action rest =>
    have completed : InTurn ⟨client.updateStatus action.id .completed none, calls⟩ :=
      inTurn.updateStatus (by decide)
    exact completed.proceed_quiet present (quiet_singleton rfl)
  | failing action rest =>
    by_cases exhausted : action.retryCount + 1 ≥ maxRetries
    · have failed : client.advance config ending (.failing action rest) =
          (client.updateStatus action.id .failed (some (action.retryCount + 1)),
            [.looping rest]) := by
        simp only [ActionClient.advance, if_pos exhausted]
      have final : InTurn ⟨client.updateStatus action.id .failed (some (action.retryCount + 1)),
          calls⟩ := inTurn.updateStatus (by decide)
      rw [failed]
      exact final.proceed_quiet present (quiet_singleton rfl)
    · have requeued : client.advance config ending (.failing action rest) =
          (client.updateStatus action.id .pending (some (action.retryCount + 1)),
            [.looping rest]) := by
        simp only [ActionClient.advance, if_neg exhausted]
      have returns : ∀ row : ActionRow, ActionCall.requeues (.failing action rest) row =
          decide (row.id = action.id) := fun row => by
        simp only [ActionCall.requeues, Nat.lt_of_not_le exhausted, decide_true, Bool.and_true]
      simp only [returns] at alone
      exact (inTurn.writeStatus fun _ => alone).proceed_quiet present (quiet_singleton rfl)
  | refreshing =>
    exact (inTurn.proceed_quiet present (fun _ member => absurd member List.not_mem_nil)).congr
      rfl rfl rfl rfl rfl

end

theorem InTurn.step {pool next : ActionPool} {action : ActionStep} (inTurn : InTurn pool)
    (inOrder : pool.QueuesInTurn action) (stepped : pool.step config action = some next) :
    InTurn next := by
  obtain ⟨rfl, advances⟩ := step_eq_some stepped
  cases action with
  | startInitialize =>
    refine inTurn.start_quiet fun call member => ?_
    dsimp only [react] at member
    split at member
    · cases member
    · exact quiet_singleton rfl call member
  | queueAction arguments =>
    obtain ⟨isInitialized, alone, opposite⟩ := inOrder
    have reacted : pool.react config (.queueAction arguments) =
        (pool.shared, [.finding arguments]) := by
      simp only [react, isInitialized, Bool.not_true, Bool.false_eq_true, if_false]
    rw [reacted]
    refine inTurn.start (fun call member => ?_) fun target => ?_
    · rw [List.mem_singleton.mp member]
      exact opposite
    · by_cases own : arguments.targetId = target
      · have light : total (queueing target) pool.calls = 0 := total_eq_zero fun call member =>
          if_neg (own ▸ alone call member)
        rw [light]
        simp [queueing, ActionCall.queues, own]
      · have apart : total (queueing target) pool.calls ≤ 1 := inTurn.apart target
        simpa [queueing, ActionCall.queues, own] using apart
  | syncPendingActions => exact inTurn.start_quiet queues_syncPendingActions
  | connectivityChange isOnline =>
    have changed : InTurn ⟨{ pool.shared with isOnline := isOnline }, pool.calls⟩ :=
      inTurn.congr rfl rfl rfl rfl rfl
    refine changed.start_quiet fun call member => ?_
    obtain ⟨started, listed, own⟩ := List.mem_flatten.mp member
    rw [List.eq_of_mem_replicate listed] at own
    exact queues_onConnectivityChange call own
  | watchPendingActions =>
    have watched : InTurn ⟨(pool.react config .watchPendingActions).1, pool.calls⟩ := by
      unfold react
      dsimp only
      split
      · exact inTurn
      · exact inTurn.congr rfl rfl rfl rfl rfl
    exact watched.start_quiet fun _ => nofun
  | advance position ending =>
    obtain ⟨call, present, reacted⟩ := advances position ending rfl
    rw [reacted]
    exact inTurn.advance present (inOrder call present) ending

theorem inTurn_opened {rows : List ActionRow} {created : Nat} (stored : Stored rows created)
    (single : ∀ row ∈ rows, ∀ other ∈ rows, row.status = .pending → other.status = .pending →
      row.targetId = other.targetId → row = other) (isOnline : Bool) :
    InTurn (Pool.idle (.opened rows created isOnline)) where
  stored := stored
  returns := rfl
  single := single
  net target untouched := by
    refine ⟨none, fun type => ⟨?_, fun same => absurd same.symm (Option.some_ne_none type)⟩,
      balanced_nil⟩
    rintro ⟨row, member, isPending⟩
    obtain ⟨-, own, pending⟩ := isPending_iff.mp isPending
    refine absurd (List.mem_map.mpr ⟨row, List.mem_filter.mpr ⟨member, ?_⟩, own⟩) untouched
    exact decide_eq_true pending
  apart _ := Nat.zero_le _
  calls _ member := absurd member List.not_mem_nil

end ActionPool

end Divine.Repositories
