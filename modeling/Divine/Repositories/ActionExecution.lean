/-
This file proves that an action is executed once per attempt.
-/

import Divine.Repositories.ActionQueueing

namespace Divine.Repositories

open Interleaving Transition

/-! ### Executions -/

def ActionCall.executes : ActionCall → Option Nat
  | .executing action _ _ => some action.id
  | _ => none

/-- A sync has yet to take its list of pending actions. -/
def ActionCall.waits : ActionCall → Bool
  | .listing | .listed _ => true
  | _ => false

namespace ActionPool

/-- No action has two executions under way, or one after another succeeded. -/
structure ExecutesOnce (pool : ActionPool) : Prop where
  alone : ∀ (first second : Nat) (call other : ActionCall) (id : Nat),
    pool.calls[first]? = some call → pool.calls[second]? = some other →
      call.executes = some id → other.executes = some id → first = second
  once : ∀ call ∈ pool.calls, ∀ id, call.executes = some id → id ∉ pool.shared.succeeded

/-- A step starts a sync only as long as no other waits for its list, and one at a time. -/
def SyncsApart (config : ActionConfig) (pool : ActionPool) (action : ActionStep) : Prop :=
  .listing ∈ (pool.react config action).2 →
    (pool.react config action).2.length = 1 ∧ ∀ call ∈ pool.calls, call.waits = false

instance (config : ActionConfig) (pool : ActionPool) (action : ActionStep) :
    Decidable (SyncsApart config pool action) :=
  inferInstanceAs (Decidable (_ → _ ∧ _))

/-! ### One sync at a time -/

def loops : ActionCall → Bool
  | .looping _ | .marking _ _ | .executing _ _ _ | .delaying _ _ _ | .completing _ _
  | .failing _ _ => true
  | _ => false

def syncing (call : ActionCall) : Nat :=
  if call.waits || loops call then 1 else 0

/-- The actions that a sync has yet to execute to their end. -/
def remaining : ActionCall → List ActionRow
  | .listed actions | .looping actions | .completing _ actions => actions
  | .marking action rest | .executing action _ rest | .delaying action _ rest
  | .failing action rest => action :: rest
  | _ => []

/-- The action whose execution succeeded, which has yet to be written. -/
def completes : ActionCall → Option Nat
  | .completing action _ => some action.id
  | _ => none

structure Exclusive (pool : ActionPool) : Prop where
  stored : Stored pool.shared.rows pool.shared.created
  older : ∀ id ∈ pool.shared.succeeded, id < pool.shared.created
  one : total syncing pool.calls ≤ 1
  flagged : ∀ call ∈ pool.calls, loops call = true → pool.shared.isSyncing = true
  settled : ∀ row ∈ pool.shared.rows, row.id ∈ pool.shared.succeeded →
    row.status = .completed ∨ ∃ call ∈ pool.calls, completes call = some row.id
  distinct : ∀ call ∈ pool.calls, ((remaining call).map fun action => action.id).Nodup
  unexecuted : ∀ call ∈ pool.calls, ∀ action ∈ remaining call,
    action.id < pool.shared.created ∧ action.id ∉ pool.shared.succeeded

theorem remaining_of_executes {call : ActionCall} {id : Nat} (executes : call.executes = some id) :
    ∃ action ∈ remaining call, action.id = id := by
  cases call with
  | executing action attempts rest => exact ⟨action, List.mem_cons_self, Option.some.inj executes⟩
  | _ => cases executes

theorem syncing_of_executes {call : ActionCall} {id : Nat} (executes : call.executes = some id) :
    syncing call = 1 := by
  cases call with
  | executing action attempts rest => rfl
  | _ => cases executes

theorem syncing_eq_zero {call : ActionCall} (light : syncing call = 0) :
    call.waits = false ∧ loops call = false ∧ remaining call = [] ∧ completes call = none := by
  cases call <;> first | exact ⟨rfl, rfl, rfl, rfl⟩ | cases light

theorem Exclusive.executesOnce {pool : ActionPool} (exclusive : Exclusive pool) :
    ExecutesOnce pool where
  alone first second call other id present presentToo executes executesToo := by
    by_contra differs
    have member : other ∈ pool.calls.eraseIdx first :=
      List.mem_eraseIdx_iff_getElem?.mpr ⟨second, Ne.symm differs, presentToo⟩
    have light := weight_eq_zero_of_mem_eraseIdx exclusive.one present
      (syncing_of_executes executes ▸ Nat.one_pos) member
    rw [syncing_of_executes executesToo] at light
    cases light
  once call member id executes := by
    obtain ⟨action, present, rfl⟩ := remaining_of_executes executes
    exact (exclusive.unexecuted call member action present).2

variable {client next : ActionClient} {calls : List ActionCall} {position : Nat}

/-! ### Calls beside a sync -/

section

variable (exclusive : Exclusive ⟨client, calls⟩)

include exclusive

theorem Exclusive.congr (stored : Stored next.rows next.created)
    (created : client.created ≤ next.created)
    (succeeded : next.succeeded = client.succeeded) (isSyncing : next.isSyncing = client.isSyncing)
    (rows : ∀ row ∈ next.rows, row.id < client.created → ∃ before ∈ client.rows,
      before.id = row.id ∧ (before.status = .completed → row.status = .completed)) :
    Exclusive ⟨next, calls⟩ where
  stored := stored
  older id member := Nat.lt_of_lt_of_le (exclusive.older id (succeeded ▸ member)) created
  one := exclusive.one
  flagged call member under := isSyncing.trans (exclusive.flagged call member under)
  settled row member done := by
    have earlier : row.id ∈ client.succeeded := succeeded ▸ done
    obtain ⟨before, present, same, kept⟩ := rows row member (exclusive.older _ earlier)
    rcases exclusive.settled before present (same ▸ earlier) with completed | completing
    · exact .inl (kept completed)
    · exact .inr (same ▸ completing)
  distinct := exclusive.distinct
  unexecuted call member action present := by
    obtain ⟨made, unexecuted⟩ := exclusive.unexecuted call member action present
    exact ⟨Nat.lt_of_lt_of_le made created, succeeded ▸ unexecuted⟩

theorem Exclusive.proceed {call : ActionCall}
    (present : calls[position]? = some call) (writing : completes call = none)
    {stages : List ActionCall} (quiet : ∀ stage ∈ stages, syncing stage = 0) :
    Exclusive ⟨client, calls.eraseIdx position ++ stages⟩ where
  stored := exclusive.stored
  older := exclusive.older
  one := by
    have whole := total_eraseIdx syncing present
    have before : total syncing calls ≤ 1 := exclusive.one
    rw [total_append, total_eq_zero quiet]
    omega
  flagged other member under := by
    rcases List.mem_append.mp member with left | stage
    · exact exclusive.flagged other (List.mem_of_mem_eraseIdx left) under
    · rw [(syncing_eq_zero (quiet other stage)).2.1] at under
      cases under
  settled row member done := by
    refine (exclusive.settled row member done).imp_right ?_
    rintro ⟨other, under, completes⟩
    rcases mem_proceed_of_mem under position none with own | left
    · rw [← Option.some.inj (present.symm.trans own), writing] at completes
      cases completes
    · exact ⟨other, List.mem_append_left _ left, completes⟩
  distinct other member := by
    rcases List.mem_append.mp member with left | stage
    · exact exclusive.distinct other (List.mem_of_mem_eraseIdx left)
    · rw [(syncing_eq_zero (quiet other stage)).2.2.1]
      exact List.nodup_nil
  unexecuted other member action under := by
    rcases List.mem_append.mp member with left | stage
    · exact exclusive.unexecuted other (List.mem_of_mem_eraseIdx left) action under
    · rw [(syncing_eq_zero (quiet other stage)).2.2.1] at under
      cases under

theorem Exclusive.start {call : ActionCall}
    (one : total syncing calls + syncing call ≤ 1) (idle : loops call = false)
    (nothing : remaining call = []) : Exclusive ⟨client, calls ++ [call]⟩ where
  stored := exclusive.stored
  older := exclusive.older
  one := by
    rwa [total_append, total_cons, total_nil, Nat.add_zero]
  flagged other member under := by
    rcases List.mem_append.mp member with earlier | added
    · exact exclusive.flagged other earlier under
    · rw [List.mem_singleton.mp added, idle] at under
      cases under
  settled row member done := by
    refine (exclusive.settled row member done).imp_right ?_
    rintro ⟨other, under, completes⟩
    exact ⟨other, List.mem_append_left _ under, completes⟩
  distinct other member := by
    rcases List.mem_append.mp member with earlier | added
    · exact exclusive.distinct other earlier
    · rw [List.mem_singleton.mp added, nothing]
      exact List.nodup_nil
  unexecuted other member action under := by
    rcases List.mem_append.mp member with earlier | added
    · exact exclusive.unexecuted other earlier action under
    · rw [List.mem_singleton.mp added, nothing] at under
      cases under

theorem Exclusive.startSync (idle : client.isSyncing = false)
    (apart : ∀ call ∈ calls, call.waits = false) :
    Exclusive ⟨client, calls ++ [.listing]⟩ := by
  have light : total syncing calls = 0 := total_eq_zero fun call member => by
    have rests : loops call = false := Bool.eq_false_iff.mpr fun under => by
      have flagged : client.isSyncing = true := exclusive.flagged call member under
      rw [idle] at flagged
      cases flagged
    unfold syncing
    rw [apart call member, rests]
    rfl
  exact exclusive.start (by rw [light]; exact le_rfl) rfl rfl

end

/-! ### The sync itself -/

section Sync

variable {call : ActionCall}

theorem Exclusive.completed (exclusive : Exclusive ⟨client, calls⟩)
    (present : calls[position]? = some call) (active : syncing call = 1)
    (writing : completes call = none) : ∀ row ∈ client.rows, row.id ∈ client.succeeded →
      row.status = .completed := by
  intro row member done
  refine (exclusive.settled row member done).resolve_right ?_
  rintro ⟨other, under, completing⟩
  rcases mem_proceed_of_mem under position none with own | left
  · rw [← Option.some.inj (present.symm.trans own), writing] at completing
    cases completing
  · have light := weight_eq_zero_of_mem_eraseIdx exclusive.one present (active ▸ Nat.one_pos) left
    rw [(syncing_eq_zero light).2.2.2] at completing
    cases completing

theorem Exclusive.sync (exclusive : Exclusive ⟨client, calls⟩)
    (present : calls[position]? = some call) (active : syncing call = 1) (stage : ActionCall)
    (stored : Stored next.rows next.created) (older : ∀ id ∈ next.succeeded, id < next.created)
    (flagged : loops stage = true → next.isSyncing = true)
    (settled : ∀ row ∈ next.rows, row.id ∈ next.succeeded →
      row.status = .completed ∨ completes stage = some row.id)
    (distinct : ((remaining stage).map fun action => action.id).Nodup)
    (unexecuted : ∀ action ∈ remaining stage,
      action.id < next.created ∧ action.id ∉ next.succeeded) :
    Exclusive ⟨next, calls.eraseIdx position ++ [stage]⟩ := by
  have others : ∀ other ∈ calls.eraseIdx position, syncing other = 0 := fun other left =>
    weight_eq_zero_of_mem_eraseIdx exclusive.one present (active ▸ Nat.one_pos) left
  have either : ∀ other ∈ calls.eraseIdx position ++ [stage],
      syncing other = 0 ∨ other = stage := fun other member =>
    (List.mem_append.mp member).imp (others other) List.mem_singleton.mp
  refine ⟨stored, older, ?_, fun other member under => ?_, fun row member done => ?_,
    fun other member => ?_, fun other member action under => ?_⟩
  · show total syncing (calls.eraseIdx position ++ [stage]) ≤ 1
    rw [total_append, total_eq_zero others, total_cons, total_nil]
    unfold syncing
    split <;> decide
  · rcases either other member with light | rfl
    · rw [(syncing_eq_zero light).2.1] at under
      cases under
    · exact flagged under
  · refine (settled row member done).imp_right fun completing => ?_
    exact ⟨stage, List.mem_append_right _ List.mem_cons_self, completing⟩
  · rcases either other member with light | rfl
    · rw [(syncing_eq_zero light).2.2.1]
      exact List.nodup_nil
    · exact distinct
  · rcases either other member with light | rfl
    · rw [(syncing_eq_zero light).2.2.1] at under
      cases under
    · exact unexecuted action under

theorem Exclusive.loop (exclusive : Exclusive ⟨client, calls⟩)
    (present : calls[position]? = some call) (active : syncing call = 1)
    (writing : completes call = none) (config : ActionConfig) (flagged : client.isSyncing = true)
    {actions : List ActionRow} (remains : remaining call = actions) :
    Exclusive ⟨(client.loop config actions).1,
      calls.eraseIdx position ++ (client.loop config actions).2⟩ := by
  have member := List.mem_of_getElem? present
  have completed := exclusive.completed present active writing
  have distinct := exclusive.distinct call member
  have unexecuted := exclusive.unexecuted call member
  rw [remains] at distinct unexecuted
  rcases client.loop_cases config actions with ended | ⟨action, rest, rfl, marks | skips⟩
  · rw [ended]
    exact exclusive.sync present active _ exclusive.stored exclusive.older nofun
      (fun row under done => .inl (completed row under done)) List.nodup_nil
      nofun
  · rw [marks]
    exact exclusive.sync present active _ exclusive.stored exclusive.older (fun _ => flagged)
      (fun row under done => .inl (completed row under done)) distinct unexecuted
  · rw [skips]
    exact exclusive.sync present active _ exclusive.stored exclusive.older (fun _ => flagged)
      (fun row under done => .inl (completed row under done)) (List.nodup_cons.mp distinct).2
      fun other under => unexecuted other (List.mem_cons_of_mem _ under)

theorem Exclusive.updateStatus (exclusive : Exclusive ⟨client, calls⟩)
    (present : calls[position]? = some call) (active : syncing call = 1)
    (writing : completes call = none) {action : ActionRow} (mine : action ∈ remaining call)
    (status : PendingActionStatus) (retryCount : Option Nat) {stage : ActionCall}
    (flagged : client.isSyncing = true)
    (fewer : (remaining stage).Sublist (remaining call)) :
    Exclusive ⟨client.updateStatus action.id status retryCount,
      calls.eraseIdx position ++ [stage]⟩ := by
  have member := List.mem_of_getElem? present
  have unexecuted := exclusive.unexecuted call member
  refine exclusive.sync present active stage exclusive.stored.writeStatus exclusive.older
    (fun _ => flagged) (fun row under done => .inl ?_)
    ((exclusive.distinct call member).sublist (fewer.map _))
    fun other under => unexecuted other (fewer.subset under)
  rcases ActionClient.mem_writeStatus under with ⟨before, -, chosen, rfl⟩ | ⟨earlier, -⟩
  · exact absurd (of_decide_eq_true chosen ▸ done) (unexecuted action mine).2
  · exact exclusive.completed present active writing row earlier done

end Sync

/-! ### Steps -/

theorem singleton_quiet {call : ActionCall} (light : syncing call = 0) :
    ∀ stage ∈ [call], syncing stage = 0 :=
  fun _ member => List.mem_singleton.mp member ▸ light

variable {config : ActionConfig}

section

variable (exclusive : Exclusive ⟨client, calls⟩)

include exclusive

theorem Exclusive.execute {action : ActionRow} {attempts : Nat} {rest : List ActionRow}
    (present : calls[position]? = some (.executing action attempts rest)) (ending : Execution) :
    Exclusive ⟨(client.advance config ending (.executing action attempts rest)).1,
      calls.eraseIdx position ++
        (client.advance config ending (.executing action attempts rest)).2⟩ := by
  have member := List.mem_of_getElem? present
  have flagged : client.isSyncing = true := exclusive.flagged _ member rfl
  have completed := exclusive.completed present rfl rfl
  have distinct := exclusive.distinct _ member
  have unexecuted := exclusive.unexecuted _ member
  cases ending with
  | succeeded =>
    refine exclusive.sync present rfl _ exclusive.stored (fun id done => ?_) (fun _ => flagged)
      (fun row under done => ?_) (List.nodup_cons.mp distinct).2 fun other under => ?_
    · rcases List.mem_append.mp done with earlier | own
      · exact exclusive.older id earlier
      · rw [List.mem_singleton.mp own]
        exact (unexecuted action List.mem_cons_self).1
    · rcases List.mem_append.mp done with earlier | own
      · exact .inl (completed row under earlier)
      · exact .inr (congrArg some (List.mem_singleton.mp own).symm)
    · obtain ⟨made, fresh⟩ := unexecuted other (List.mem_cons_of_mem _ under)
      refine ⟨made, fun done => ?_⟩
      rcases List.mem_append.mp done with earlier | own
      · exact fresh earlier
      · exact (List.nodup_cons.mp distinct).1
          (List.mem_map.mpr ⟨other, under, List.mem_singleton.mp own⟩)
  | failed isRetriable =>
    by_cases again : (isRetriable && attempts + 1 ≤ config.maxRetries) = true
    · have delayed : client.advance config (.failed isRetriable)
          (.executing action attempts rest) = (client, [.delaying action (attempts + 1) rest]) :=
        if_pos again
      rw [delayed]
      exact exclusive.sync present rfl _ exclusive.stored exclusive.older (fun _ => flagged)
        (fun row under done => .inl (completed row under done)) distinct unexecuted
    · have failed : client.advance config (.failed isRetriable)
          (.executing action attempts rest) = (client, [.failing action rest]) := if_neg again
      rw [failed]
      exact exclusive.sync present rfl _ exclusive.stored exclusive.older (fun _ => flagged)
        (fun row under done => .inl (completed row under done)) distinct unexecuted

theorem Exclusive.complete {action : ActionRow}
    {rest : List ActionRow} (present : calls[position]? = some (.completing action rest)) :
    Exclusive ⟨client.updateStatus action.id .completed none,
      calls.eraseIdx position ++ [.looping rest]⟩ := by
  have member := List.mem_of_getElem? present
  have distinct := exclusive.distinct _ member
  have unexecuted := exclusive.unexecuted _ member
  refine exclusive.sync present rfl _ exclusive.stored.writeStatus exclusive.older
    (fun _ => exclusive.flagged _ member rfl) (fun row under done => .inl ?_) distinct unexecuted
  rcases ActionClient.mem_writeStatus under with ⟨before, -, -, rfl⟩ | ⟨earlier, differs⟩
  · rfl
  · refine (exclusive.settled row earlier done).resolve_right ?_
    rintro ⟨other, under, completing⟩
    rcases mem_proceed_of_mem under position none with own | left
    · rw [← Option.some.inj (present.symm.trans own)] at completing
      exact of_decide_eq_false differs (Option.some.inj completing).symm
    · have light := weight_eq_zero_of_mem_eraseIdx exclusive.one present Nat.one_pos left
      rw [(syncing_eq_zero light).2.2.2] at completing
      cases completing

theorem Exclusive.advance {call : ActionCall}
    (present : calls[position]? = some call) (ending : Execution)
    (apart : .listing ∈ (client.advance config ending call).2 →
      ∀ other ∈ calls, other.waits = false) :
    Exclusive ⟨(client.advance config ending call).1,
      calls.eraseIdx position ++ (client.advance config ending call).2⟩ := by
  have member := List.mem_of_getElem? present
  have same : ∀ row ∈ client.rows, row.id < client.created → ∃ before ∈ client.rows,
      before.id = row.id ∧ (before.status = .completed → row.status = .completed) :=
    fun row present _ => ⟨row, present, rfl, id⟩
  cases call with
  | resetting =>
    refine (exclusive.proceed present rfl (singleton_quiet rfl)).congr exclusive.stored.writeStatus
      le_rfl rfl rfl fun row under _ => ?_
    rcases ActionClient.mem_writeStatus under with ⟨before, earlier, chosen, rfl⟩ | ⟨earlier, -⟩
    · refine ⟨before, earlier, rfl, fun completed => ?_⟩
      cases completed.symm.trans (of_decide_eq_true chosen)
    · exact ⟨row, earlier, rfl, id⟩
  | loadingPending =>
    exact (exclusive.proceed present rfl (singleton_quiet rfl)).congr exclusive.stored le_rfl rfl
      rfl same
  | loadingAll =>
    have ended : Exclusive ⟨client, calls.eraseIdx position ++ []⟩ :=
      exclusive.proceed present rfl (fun _ => nofun)
    rw [List.append_nil] at ended
    rcases client.onConnectivityChange_cases with nothing | ⟨idle, started⟩
    · have moved : (client.advance config ending .loadingAll).2 = [] := nothing
      rw [moved, List.append_nil]
      exact ended.congr exclusive.stored le_rfl rfl rfl same
    · have moved : (client.advance config ending .loadingAll).2 = [.listing] := started
      rw [moved] at apart ⊢
      exact (ended.startSync idle fun other left =>
        apart List.mem_cons_self other (List.mem_of_mem_eraseIdx left)).congr exclusive.stored
          le_rfl rfl rfl same
  | finding arguments =>
    unfold ActionClient.advance
    dsimp only
    split
    · exact exclusive.proceed present rfl (singleton_quiet rfl)
    · exact exclusive.proceed present rfl (singleton_quiet rfl)
    · exact (exclusive.proceed present rfl fun _ under => absurd under List.not_mem_nil).congr
        exclusive.stored le_rfl rfl rfl same
  | deleting arguments id =>
    refine (exclusive.proceed present rfl (singleton_quiet rfl)).congr
      (exclusive.stored.deleteAction id) le_rfl rfl rfl fun row under _ => ?_
    exact ⟨row, (ActionClient.mem_deleteAction.mp under).1, rfl, fun completed => completed⟩
  | inserting arguments =>
    refine (exclusive.proceed present rfl (singleton_quiet rfl)).congr
      (exclusive.stored.upsertAction arguments) (Nat.le_succ _) rfl rfl fun row under older => ?_
    rcases ActionClient.mem_upsertAction.mp under with earlier | rfl
    · exact ⟨row, earlier, rfl, id⟩
    · exact absurd older (Nat.lt_irrefl _)
  | listing =>
    refine exclusive.sync present rfl _ exclusive.stored exclusive.older nofun
      (fun row under done => .inl (exclusive.completed present rfl rfl row under done))
      (exclusive.stored.ids.sublist (List.filter_sublist.map _)) fun row under => ?_
    obtain ⟨earlier, pending⟩ := List.mem_filter.mp under
    refine ⟨exclusive.stored.made row earlier, fun done => ?_⟩
    cases (exclusive.completed present rfl rfl row earlier done).symm.trans
      (of_decide_eq_true pending)
  | listed actions =>
    by_cases empty : actions.isEmpty = true
    · have ended : client.advance config ending (.listed actions) = (client, []) := if_pos empty
      rw [ended]
      exact exclusive.proceed present rfl (fun _ => nofun)
    · have looped : client.advance config ending (.listed actions) =
          { client with isSyncing := true }.loop config actions := if_neg empty
      have flagged : Exclusive ⟨{ client with isSyncing := true }, calls⟩ :=
        ⟨exclusive.stored, exclusive.older, exclusive.one, fun _ _ _ => rfl, exclusive.settled,
          exclusive.distinct, exclusive.unexecuted⟩
      rw [looped]
      exact flagged.loop present rfl rfl config rfl rfl
  | looping actions =>
    exact exclusive.loop present rfl rfl config (exclusive.flagged _ member rfl) rfl
  | marking action rest =>
    exact exclusive.updateStatus present rfl rfl List.mem_cons_self _ _
      (exclusive.flagged _ member rfl) (List.Sublist.refl _)
  | executing action attempts rest => exact exclusive.execute present ending
  | delaying action attempts rest =>
    have distinct := exclusive.distinct _ member
    have unexecuted := exclusive.unexecuted _ member
    exact exclusive.sync present rfl _ exclusive.stored exclusive.older
      (fun _ => exclusive.flagged _ member rfl)
      (fun row under done => .inl (exclusive.completed present rfl rfl row under done))
      distinct unexecuted
  | completing action rest => exact exclusive.complete present
  | failing action rest =>
    exact exclusive.updateStatus present rfl rfl List.mem_cons_self _ _
      (exclusive.flagged _ member rfl) (List.sublist_cons_self _ _)
  | refreshing =>
    exact (exclusive.proceed present rfl fun _ under => absurd under List.not_mem_nil).congr
      exclusive.stored le_rfl rfl rfl same

end

theorem Exclusive.step {pool next : ActionPool} {action : ActionStep} (exclusive : Exclusive pool)
    (apart : SyncsApart config pool action) (stepped : pool.step config action = some next) :
    Exclusive next := by
  obtain ⟨rfl, advances⟩ := step_eq_some stepped
  have light : ∀ call, syncing call = 0 → total syncing pool.calls + syncing call ≤ 1 :=
    fun call none => none ▸ exclusive.one
  have same : ∀ row ∈ pool.shared.rows, row.id < pool.shared.created →
      ∃ before ∈ pool.shared.rows, before.id = row.id ∧
        (before.status = .completed → row.status = .completed) :=
    fun row present _ => ⟨row, present, rfl, id⟩
  have unmoved : ∀ {shared : ActionClient}, Exclusive ⟨shared, pool.calls⟩ →
      Exclusive ⟨shared, pool.calls ++ []⟩ := fun kept => (List.append_nil pool.calls).symm ▸ kept
  cases action with
  | startInitialize =>
    cases ready : pool.shared.isInitialized with
    | true =>
      have reacted : pool.react config .startInitialize = (pool.shared, []) := by
        simp only [react, ready, if_true]
      rw [reacted]
      exact unmoved exclusive
    | false =>
      have reacted : pool.react config .startInitialize = (pool.shared, [.resetting]) := by
        simp only [react, ready, Bool.false_eq_true, if_false]
      rw [reacted]
      exact exclusive.start (light _ rfl) rfl rfl
  | queueAction arguments =>
    cases ready : pool.shared.isInitialized with
    | true =>
      have reacted : pool.react config (.queueAction arguments) =
          (pool.shared, [.finding arguments]) := by
        simp only [react, ready, Bool.not_true, Bool.false_eq_true, if_false]
      rw [reacted]
      exact exclusive.start (light _ rfl) rfl rfl
    | false =>
      have reacted : pool.react config (.queueAction arguments) =
          ({ pool.shared with thrown := pool.shared.thrown + 1 }, []) := by
        simp only [react, ready, Bool.not_false, if_true]
      rw [reacted]
      exact unmoved (exclusive.congr exclusive.stored le_rfl rfl rfl same)
  | syncPendingActions =>
    rcases pool.shared.syncPendingActions_cases with nothing | ⟨idle, started⟩
    · have reacted : pool.react config .syncPendingActions = (pool.shared, []) :=
        congrArg (Prod.mk pool.shared) nothing
      rw [reacted]
      exact unmoved exclusive
    · have reacted : pool.react config .syncPendingActions = (pool.shared, [.listing]) :=
        congrArg (Prod.mk pool.shared) started
      unfold SyncsApart at apart
      rw [reacted] at apart ⊢
      exact exclusive.startSync idle (apart List.mem_cons_self).2
  | connectivityChange isOnline =>
    have changed : Exclusive ⟨{ pool.shared with isOnline := isOnline }, pool.calls⟩ :=
      exclusive.congr exclusive.stored le_rfl rfl rfl same
    unfold SyncsApart react at apart
    show Exclusive ⟨_, pool.calls ++ (List.replicate _ _).flatten⟩
    rcases ({ pool.shared with isOnline := isOnline } :
      ActionClient).onConnectivityChange_cases with
      nothing | ⟨idle, started⟩
    · rw [nothing, List.flatten_replicate_nil]
      exact unmoved changed
    · dsimp only at apart ⊢
      rw [started] at apart ⊢
      cases listeners : pool.shared.listeners with
      | zero => exact unmoved changed
      | succ more =>
        rw [listeners, List.replicate_succ] at apart
        obtain ⟨single, waits⟩ := apart List.mem_cons_self
        have none : more = 0 := by simpa using single
        subst none
        exact changed.startSync idle waits
  | watchPendingActions =>
    have watched : Exclusive ⟨(pool.react config .watchPendingActions).1, pool.calls⟩ := by
      unfold react
      dsimp only
      split
      · exact exclusive
      · exact exclusive.congr exclusive.stored le_rfl rfl rfl same
    exact unmoved watched
  | advance position ending =>
    obtain ⟨call, present, reacted⟩ := advances position ending rfl
    unfold SyncsApart at apart
    rw [reacted] at apart ⊢
    exact exclusive.advance present ending fun listing => (apart listing).2

theorem exclusive_opened {rows : List ActionRow} {created : Nat} (stored : Stored rows created)
    (isOnline : Bool) : Exclusive (Pool.idle (.opened rows created isOnline)) where
  stored := stored
  older _ member := absurd member List.not_mem_nil
  one := Nat.zero_le _
  flagged _ member := absurd member List.not_mem_nil
  settled _ _ done := absurd done List.not_mem_nil
  distinct _ member := absurd member List.not_mem_nil
  unexecuted _ member := absurd member List.not_mem_nil

/-! ### Runs -/

/-- An action is executed once per attempt unless a sync starts while another waits for its list;
and where the calls on a target take turns, what is pending is their net effect. -/
theorem served_of_run {rows : List ActionRow} {created : Nat} (stored : Stored rows created)
    {isOnline : Bool} {actions : List ActionStep} {final : ActionPool}
    (ran : run (ActionPool.step config) (Pool.idle (.opened rows created isOnline)) actions =
      some final) :
    (Meets (ActionPool.step config) (SyncsApart config)
      (Pool.idle (.opened rows created isOnline)) actions → final.ExecutesOnce) ∧
    ((∀ row ∈ rows, ∀ other ∈ rows, row.status = .pending → other.status = .pending →
        row.targetId = other.targetId → row = other) →
      Meets (ActionPool.step config) QueuesInTurn
        (Pool.idle (.opened rows created isOnline)) actions → final.PendsNetEffect) := by
  refine ⟨fun apart => ?_, fun single inTurn => ?_⟩
  · have exclusive := invariant_of_meets (ActionPool.step config)
      (fun _ _ _ (kept : Exclusive _) apart stepped => kept.step apart stepped)
      (exclusive_opened stored isOnline) apart ran
    exact exclusive.executesOnce
  · have queued := invariant_of_meets (ActionPool.step config)
      (fun _ _ _ (kept : InTurn _) inOrder stepped => kept.step inOrder stepped)
      (inTurn_opened stored single isOnline) inTurn ran
    exact queued.pendsNetEffect

open ActionStep in
/-- An action of an earlier session fails once, its opposite is queued, and both are executed. -/
theorem served_retried :
    ∃ final, run (ActionPool.step ⟨fun _ => true, 5⟩) (Pool.idle (.opened
        [⟨⟨0, .follow, "a", none, none, none, .pending⟩, 0⟩] 1 true))
        ([startInitialize] ++ List.replicate 6 (advance 0 .succeeded) ++
          [advance 0 (.failed true), queueAction ⟨.unfollow, "a", none, none, none⟩,
            .connectivityChange true] ++ List.replicate 8 (advance 0 .succeeded) ++
          [syncPendingActions] ++ List.replicate 7 (advance 0 .succeeded)) = some final ∧
      final.ExecutesOnce ∧ final.PendsNetEffect := by
  have stored : Stored [⟨⟨0, .follow, "a", none, none, none, .pending⟩, 0⟩] 1 :=
    ⟨by decide, by decide⟩
  refine exists_of_isSome (by decide +kernel) fun final ran => ?_
  obtain ⟨executes, pends⟩ := served_of_run stored ran
  exact ⟨executes (by decide), pends (by decide) (by decide)⟩

open ActionStep in
/-- Two syncs with the same list execute an action twice, and an action that is queued twice is
pending twice. -/
theorem executed_twice :
    (∃ final, run (ActionPool.step ⟨fun _ => true, 5⟩) (Pool.idle (.opened
        [⟨⟨0, .follow, "a", none, none, none, .pending⟩, 0⟩] 1 true))
        ([startInitialize] ++ List.replicate 3 (advance 0 .succeeded) ++ [syncPendingActions] ++
          List.replicate 6 (advance 0 .succeeded)) = some final ∧
      ∃ first second, final.calls = [first, second] ∧ first.executes = some 0 ∧
        second.executes = some 0) ∧
    (∃ final, run (ActionPool.step ⟨fun _ => true, 5⟩) (Pool.idle (.opened
        [⟨⟨0, .follow, "a", none, none, none, .pending⟩, 0⟩] 1 true))
        ([startInitialize] ++ List.replicate 3 (advance 0 .succeeded) ++ [syncPendingActions] ++
          List.replicate 3 (advance 0 .succeeded) ++ List.replicate 4 (advance 1 .succeeded) ++
          [advance 0 .succeeded, .advance 1 .succeeded]) = some final ∧
      ∃ call ∈ final.calls, call.executes = some 0 ∧ 0 ∈ final.shared.succeeded) ∧
    ∃ final, run (ActionPool.step ⟨fun _ => true, 5⟩) (Pool.idle (.opened [] 0 false))
        ([startInitialize] ++ List.replicate 3 (advance 0 .succeeded) ++
          [queueAction ⟨.follow, "a", none, none, none⟩] ++
          List.replicate 3 (advance 0 .succeeded) ++
          [queueAction ⟨.follow, "a", none, none, none⟩] ++
          List.replicate 3 (advance 0 .succeeded) ++
          [queueAction ⟨.unfollow, "a", none, none, none⟩, advance 0 .succeeded]) = some final ∧
      final.calls = [] ∧ final.shared.thrown = 1 ∧
      (final.shared.rows.filter fun row => row.isPending .follow "a").length = 2 := by
  have together : (run (ActionPool.step ⟨fun _ => true, 5⟩) (Pool.idle (.opened
      [⟨⟨0, .follow, "a", none, none, none, .pending⟩, 0⟩] 1 true))
      ([startInitialize] ++ List.replicate 3 (advance 0 .succeeded) ++ [syncPendingActions] ++
        List.replicate 6 (advance 0 .succeeded))).map (fun pool =>
          pool.calls.map ActionCall.executes) = some [some 0, some 0] := by decide +kernel
  refine ⟨?_, ?_, ?_⟩
  · obtain ⟨final, ran, executed⟩ := Option.map_eq_some_iff.mp together
    obtain ⟨first, others, calls, firstRuns, rest⟩ := List.map_eq_cons_iff.mp executed
    obtain ⟨second, none, rfl, secondRuns, ended⟩ := List.map_eq_cons_iff.mp rest
    obtain rfl := List.map_eq_nil_iff.mp ended
    exact ⟨final, ran, first, second, calls, firstRuns, secondRuns⟩
  · exact exists_of_any (fun final : ActionPool => ∃ call ∈ final.calls, call.executes = some 0 ∧
      0 ∈ final.shared.succeeded) (by decide +kernel)
  · exact exists_of_any (fun final : ActionPool => final.calls = [] ∧ final.shared.thrown = 1 ∧
      (final.shared.rows.filter fun row => row.isPending .follow "a").length = 2)
      (by decide +kernel)

end ActionPool

end Divine.Repositories
