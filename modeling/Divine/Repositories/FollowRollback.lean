/-
This file shows when a follow or an unfollow that fails undoes only itself.
-/

import Divine.Repositories.ContactLists
import Divine.Repositories.FollowCalls

namespace Divine.Repositories

open Edits Transition

variable {isHexadecimal : String → Bool}

namespace FollowClient

variable {client next : FollowClient} {calls : List FollowCall} {call : FollowCall}
  {stage : FollowStage} {index : Nat}

/-! ### The calls that no newer list replaced -/

def changesOf (calls : List FollowCall) : List (Edit String) :=
  (calls.filter fun call => !call.superseded).map FollowCall.change

def liveOf (calls : List FollowCall) : List (Edit String) :=
  (calls.filter fun call => !call.superseded && call.stage != .failed).map FollowCall.change

theorem changesOf_append (first second : List FollowCall) :
    changesOf (first ++ second) = changesOf first ++ changesOf second := by
  unfold changesOf
  rw [List.filter_append, List.map_append]

theorem liveOf_append (first second : List FollowCall) :
    liveOf (first ++ second) = liveOf first ++ liveOf second := by
  unfold liveOf
  rw [List.filter_append, List.map_append]

theorem liveOf_sublist (calls : List FollowCall) : (liveOf calls).Sublist (changesOf calls) := by
  refine List.Sublist.map _ ?_
  have both : (calls.filter fun call => !call.superseded && call.stage != .failed) =
      (calls.filter fun call => !call.superseded).filter fun call => call.stage != .failed := by
    rw [List.filter_filter]
    exact List.filter_congr fun call _ => Bool.and_comm _ _
  rw [both]
  exact List.filter_sublist

theorem mem_liveOf (member : call ∈ calls) (current : call.superseded = false)
    (alive : call.stage ≠ .failed) : call.change ∈ liveOf calls :=
  List.mem_map_of_mem (List.mem_filter.mpr ⟨member, by
    rw [current, Bool.not_false, Bool.true_and, bne_iff_ne]
    exact alive⟩)

theorem exists_split (found : calls[index]? = some call) : ∃ before after,
    calls = before ++ call :: after ∧
      ∀ stage, calls.set index { call with stage := stage } =
        before ++ { call with stage := stage } :: after := by
  obtain ⟨inside, rfl⟩ := List.getElem?_eq_some_iff.mp found
  refine ⟨calls.take index, calls.drop (index + 1), ?_, fun stage => ?_⟩
  · rw [List.getElem_cons_drop, List.take_append_drop]
  · rw [List.set_eq_take_append_cons_drop, if_pos inside]

/-! ### The invariant -/

def Undoable (newest : List String) (calls : List FollowCall) (call : FollowCall) : Prop :=
  ∃ before : List (Edit String), (before ++ [call.change]).Sublist (changesOf calls) ∧
    (∀ other ∈ calls, other.superseded = false → Held newest other.change →
      other.change ∈ before) ∧
    call.previousFollowList = applied newest before

/-- The list is the newest one with the changes of the calls that did not fail. -/
structure Inv (client : FollowClient) : Prop where
  list : client.repository.followingPubkeys = applied client.newest (liveOf client.calls)
  distinct : ((changesOf client.calls).map Edit.key).Nodup
  current : ∀ call ∈ client.calls, call.stage.isWaiting = true → call.superseded = false
  kept : ∀ call ∈ client.calls, call.superseded = false → Held client.newest call.change →
    call.stage ≠ .failed
  undo : ∀ call ∈ client.calls, call.stage.isWaiting = true → ¬Held client.newest call.change →
    Undoable client.newest client.calls call

theorem idle_inv (repository : FollowRepository) : (idle repository).Inv where
  list := rfl
  distinct := List.nodup_nil
  current := nofun
  kept := nofun
  undo := nofun

/-! ### Calls that begin -/
variable {change : Edit String}


theorem checkChange_eq_true {repository : FollowRepository}
    (checked : repository.checkChange change = .ok true) :
    ¬Held repository.followingPubkeys change := by
  unfold FollowRepository.checkChange at checked
  split at checked
  · cases checked
  split at checked
  · cases checked
  intro held
  rw [contains_eq_iff.mpr held] at checked
  cases checked

theorem makeChange_eq_apply (repository : FollowRepository)
    (effective : ¬Held repository.followingPubkeys change) :
    (repository.makeChange change).followingPubkeys =
      apply repository.followingPubkeys change := by
  change (if change.present then _ else _) = _
  unfold apply
  by_cases present : change.present = true
  · rw [if_pos present, if_pos present, if_neg fun member => effective (iff_of_true member present)]
  · rw [if_neg present, if_neg present]

theorem Undoable.append {newest : List String} {added : FollowCall}
    (undoable : Undoable newest calls call) (effective : ¬Held newest added.change) :
    Undoable newest (calls ++ [added]) call := by
  obtain ⟨before, within, held, found⟩ := undoable
  refine ⟨before, ?_, ?_, found⟩
  · rw [changesOf_append]
    exact within.trans (List.sublist_append_left _ _)
  · intro other member current heldOther
    rcases List.mem_append.mp member with old | new
    · exact held other old current heldOther
    · rw [List.mem_singleton.mp new] at heldOther
      exact absurd heldOther effective

theorem append_inv {repository : FollowRepository} {added : FollowCall} (inv : client.Inv)
    (effective : ¬Held client.repository.followingPubkeys added.change)
    (listed : repository.followingPubkeys =
      apply client.repository.followingPubkeys added.change)
    (found : added.previousFollowList = client.repository.followingPubkeys)
    (current : added.superseded = false) (alive : added.stage ≠ .failed)
    (fresh : added.change.key ∉ (changesOf client.calls).map Edit.key) :
    ({ client with
      repository := repository
      calls := client.calls ++ [added] } : FollowClient).Inv := by
  have effectiveNow : ¬Held client.newest added.change := by
    intro held
    have outside : added.change.key ∉ (liveOf client.calls).map Edit.key :=
      fun member => fresh (((liveOf_sublist client.calls).map _).subset member)
    unfold Held at held
    rw [← mem_applied_of_not_mem outside, ← inv.list] at held
    exact effective held
  have addedChanges : changesOf [added] = [added.change] := by
    unfold changesOf
    rw [List.filter_cons_of_pos (by rw [current]; rfl)]
    rfl
  have addedLive : liveOf [added] = [added.change] := by
    unfold liveOf
    rw [List.filter_cons_of_pos (by rw [current]; simpa using alive)]
    rfl
  refine ⟨?_, ?_, ?_, ?_, ?_⟩
  · rw [listed, liveOf_append, addedLive, applied_concat, inv.list]
  · rw [changesOf_append, addedChanges, List.map_append]
    change ((changesOf client.calls).map Edit.key ++ [added.change.key]).Nodup
    rw [← List.concat_eq_append]
    exact inv.distinct.concat fresh
  · intro call member waiting
    rcases List.mem_append.mp member with old | new
    · exact inv.current call old waiting
    · rw [List.mem_singleton.mp new, current]
  · intro call member notSuperseded held
    rcases List.mem_append.mp member with old | new
    · exact inv.kept call old notSuperseded held
    · rw [List.mem_singleton.mp new]
      exact alive
  · intro call member waiting notHeld
    rcases List.mem_append.mp member with old | new
    · exact (inv.undo call old waiting notHeld).append effectiveNow
    · obtain rfl := List.mem_singleton.mp new
      refine ⟨liveOf client.calls, ?_, ?_, found.trans inv.list⟩
      · rw [changesOf_append, addedChanges]
        exact (liveOf_sublist client.calls).append (List.Sublist.refl _)
      · intro other member notSuperseded held
        rcases List.mem_append.mp member with old | new
        · exact mem_liveOf old notSuperseded (inv.kept other old notSuperseded held)
        · rw [List.mem_singleton.mp new] at held
          exact absurd held effectiveNow

theorem startChange_inv {offline : Bool} (inv : client.Inv)
    (checked : client.repository.checkChange change = .ok true)
    (fresh : change.key ∉ client.changes.map Edit.key) :
    (client.startChange isHexadecimal change offline).Inv := by
  have effective := checkChange_eq_true checked
  refine append_inv inv effective (makeChange_eq_apply _ effective) rfl rfl ?_ fresh
  split
  · nofun
  · split <;> nofun

/-! ### Calls that go on -/

theorem changesOf_update {before after : List FollowCall} {call : FollowCall}
    {stage : FollowStage} :
    changesOf (before ++ { call with stage := stage } :: after) =
      changesOf (before ++ call :: after) := by
  unfold changesOf
  rw [List.filter_append, List.filter_append, List.filter_cons, List.filter_cons, List.map_append,
    List.map_append]
  congr 1
  split <;> rfl

theorem Undoable.update {newest : List String} {before after : List FollowCall}
    {updated found : FollowCall} {stage : FollowStage}
    (undoable : Undoable newest (before ++ updated :: after) found) :
    Undoable newest (before ++ { updated with stage := stage } :: after) found := by
  obtain ⟨changes, within, held, list⟩ := undoable
  refine ⟨changes, ?_, ?_, list⟩
  · rw [changesOf_update]
    exact within
  · intro call member current heldCall
    rcases List.mem_append.mp member with early | late
    · exact held call (List.mem_append.mpr (.inl early)) current heldCall
    · rcases List.mem_cons.mp late with rfl | later
      · exact held updated (List.mem_append.mpr (.inr List.mem_cons_self)) current heldCall
      · exact held call (List.mem_append.mpr (.inr (List.mem_cons_of_mem _ later))) current heldCall

theorem setStage_inv {repository : FollowRepository} (inv : client.Inv)
    (found : client.calls[index]? = some call) (decided : stage.isWaiting = false)
    (failing : stage = .failed → call.superseded = false → ¬Held client.newest call.change)
    (listed : repository.followingPubkeys =
      applied client.newest (liveOf (client.setStage index call stage).calls)) :
    ({ client.setStage index call stage with repository := repository } : FollowClient).Inv := by
  obtain ⟨before, after, calls, updated⟩ := exists_split found
  have callsNow : (client.setStage index call stage).calls =
      before ++ { call with stage := stage } :: after := updated stage
  have members : ∀ other ∈ (client.setStage index call stage).calls,
      other = { call with stage := stage } ∨ other ∈ client.calls := by
    intro other member
    rw [callsNow] at member
    rw [calls]
    rcases List.mem_append.mp member with early | late
    · exact .inr (List.mem_append.mpr (.inl early))
    · rcases List.mem_cons.mp late with rfl | later
      · exact .inl rfl
      · exact .inr (List.mem_append.mpr (.inr (List.mem_cons_of_mem _ later)))
  refine ⟨listed, ?_, ?_, ?_, ?_⟩
  · change ((changesOf (client.setStage index call stage).calls).map Edit.key).Nodup
    rw [callsNow, changesOf_update, ← calls]
    exact inv.distinct
  · intro other otherMember waiting
    rcases members other otherMember with rfl | old
    · exact absurd waiting (Bool.eq_false_iff.mp decided)
    · exact inv.current other old waiting
  · intro other otherMember current held
    rcases members other otherMember with rfl | old
    · exact fun failed => failing failed current held
    · exact inv.kept other old current held
  · intro other otherMember waiting notHeld
    rcases members other otherMember with rfl | old
    · exact absurd waiting (Bool.eq_false_iff.mp decided)
    · have undoable := inv.undo other old waiting notHeld
      rw [callsNow]
      rw [calls] at undoable
      exact undoable.update

theorem liveOf_update {before after : List FollowCall} (alive : call.stage ≠ .failed)
    (stageAlive : stage ≠ .failed) :
    liveOf (before ++ { call with stage := stage } :: after) =
      liveOf (before ++ call :: after) := by
  unfold liveOf
  rw [List.filter_append, List.filter_append, List.filter_cons, List.filter_cons, List.map_append,
    List.map_append, bne_iff_ne.mpr alive, bne_iff_ne.mpr stageAlive]
  congr 1
  split <;> rfl

theorem advance_inv {repository : FollowRepository} (inv : client.Inv)
    (found : client.calls[index]? = some call) (alive : call.stage ≠ .failed)
    (decided : stage.isWaiting = false) (stageAlive : stage ≠ .failed)
    (same : repository.followingPubkeys = client.repository.followingPubkeys) :
    ({ client.setStage index call stage with repository := repository } : FollowClient).Inv := by
  refine setStage_inv inv found decided (fun failed => absurd failed stageAlive) ?_
  obtain ⟨before, after, calls, updated⟩ := exists_split found
  change _ = applied client.newest (liveOf (client.calls.set index { call with stage := stage }))
  rw [updated, liveOf_update alive stageAlive, ← calls, same, inv.list]

theorem liveOf_cons_waiting {rest : List FollowCall} (waiting : call.stage.isWaiting = true)
    (current : call.superseded = false) : liveOf (call :: rest) = call.change :: liveOf rest := by
  have alive : call.stage ≠ .failed := by
    rintro failed
    rw [failed] at waiting
    cases waiting
  unfold liveOf
  rw [List.filter_cons_of_pos (by rw [current, bne_iff_ne.mpr alive]; rfl)]
  rfl

theorem liveOf_cons_failed {rest : List FollowCall} :
    liveOf ({ call with stage := .failed } :: rest) = liveOf rest := by
  unfold liveOf
  rw [List.filter_cons_of_neg (by simp)]

theorem live_eq_of_leftBy (inv : client.Inv) (member : call ∈ client.calls)
    (waiting : call.stage.isWaiting = true) (left : client.LeftBy call)
    (notHeld : ¬Held client.newest call.change) :
    ∃ before, liveOf client.calls = before ++ [call.change] ∧ call.change ∉ before ∧
      call.previousFollowList = applied client.newest before := by
  obtain ⟨before, within, held, list⟩ := inv.undo call member waiting notHeld
  have keys := inv.distinct.sublist (within.map Edit.key)
  rw [List.map_append] at keys
  have outside : call.change.key ∉ before.map Edit.key := fun inside =>
    (List.nodup_append.mp keys).2.2 _ inside _ (List.mem_singleton.mpr rfl) rfl
  have effective : ¬Held call.previousFollowList call.change := by
    rw [list]
    unfold Held
    rw [mem_applied_of_not_mem outside]
    exact notHeld
  have same : applied client.newest (liveOf client.calls) =
      applied client.newest (before ++ [call.change]) := by
    rw [applied_concat, ← list, ← inv.list]
    exact left.trans (makeChange_eq_apply
      (client.repository.rollback call.previousFollowList) effective)
  refine ⟨before, ?_, fun inside => outside (List.mem_map_of_mem inside), list⟩
  refine eq_of_applied_eq inv.distinct (liveOf_sublist client.calls) within same ?_
  intro change inChanges heldChange
  obtain ⟨other, inCalls, rfl⟩ := List.mem_map.mp inChanges
  obtain ⟨inCalls, current⟩ := List.mem_filter.mp inCalls
  have current : other.superseded = false := (Bool.not_eq_true' _).mp current
  exact ⟨mem_liveOf inCalls current (inv.kept other inCalls current heldChange),
    List.mem_append.mpr (.inl (held other inCalls current heldChange))⟩

theorem fail_inv {repository : FollowRepository} (inv : client.Inv)
    (found : client.calls[index]? = some call) (waiting : call.stage.isWaiting = true)
    (left : client.LeftBy call) (notHeld : ¬Held client.newest call.change)
    (restored : repository.followingPubkeys = call.previousFollowList) :
    ({ client.setStage index call .failed with repository := repository } : FollowClient).Inv := by
  refine setStage_inv inv found rfl (fun _ _ => notHeld) ?_
  have member : call ∈ client.calls := List.mem_of_getElem? found
  obtain ⟨front, live, fresh, list⟩ := live_eq_of_leftBy inv member waiting left notHeld
  obtain ⟨before, after, calls, updated⟩ := exists_split found
  rw [calls, liveOf_append, liveOf_cons_waiting waiting (inv.current call member waiting)] at live
  obtain ⟨same, -, none⟩ := (List.append_cons_inj_of_notMem fresh List.not_mem_nil).mp live.symm
  change _ = applied client.newest (liveOf (client.calls.set index { call with stage := .failed }))
  rw [updated, liveOf_append, liveOf_cons_failed, ← none, List.append_nil, ← same, restored, list]

/-! ### Contact lists that arrive -/

def marked (calls : List FollowCall) : List FollowCall :=
  calls.map fun call => { call with superseded := call.superseded || !call.stage.isWaiting }

theorem mem_marked {other : FollowCall} (member : other ∈ marked calls) : ∃ call ∈ calls,
    other.change = call.change ∧ other.stage = call.stage ∧
      (other.superseded = false ↔ call.superseded = false ∧ call.stage.isWaiting = true) := by
  obtain ⟨call, inside, rfl⟩ := List.mem_map.mp member
  refine ⟨call, inside, rfl, rfl, ?_⟩
  rw [Bool.or_eq_false_iff, Bool.not_eq_false']

theorem changesOf_marked (calls : List FollowCall) :
    (changesOf (marked calls)).Sublist (changesOf calls) := by
  unfold changesOf marked
  rw [List.filter_map, List.map_map]
  refine (List.monotone_filter_right calls fun call kept => ?_).map _
  rw [Function.comp_apply, Bool.not_or, Bool.and_eq_true] at kept
  exact kept.1

theorem receive_inv {event : ContactListEvent} (inv : client.Inv)
    (held : client.repository.isNewer event = true → ∀ call ∈ client.calls,
      call.stage.isWaiting = true → Held event.followedPubkeys call.change) :
    (client.receive event).Inv := by
  unfold receive
  split
  · next newer =>
    have replaced : (client.repository.processContactListEvent event).followingPubkeys =
        event.followedPubkeys := by
      unfold FollowRepository.processContactListEvent
      rw [if_pos newer]
    refine ⟨?_, ?_, ?_, ?_, ?_⟩
    · rw [replaced]
      refine (applied_of_held fun change inLive => ?_).symm
      obtain ⟨other, inMarked, rfl⟩ := List.mem_map.mp inLive
      obtain ⟨inMarked, alive⟩ := List.mem_filter.mp inMarked
      obtain ⟨call, member, change, -, current⟩ := mem_marked inMarked
      rw [change]
      rw [Bool.and_eq_true, Bool.not_eq_true'] at alive
      exact held newer call member (current.mp alive.1).2
    · exact inv.distinct.sublist ((changesOf_marked client.calls).map _)
    · intro other inMarked waiting
      obtain ⟨call, member, -, stage, current⟩ := mem_marked inMarked
      rw [stage] at waiting
      exact current.mpr ⟨inv.current call member waiting, waiting⟩
    · intro other inMarked notSuperseded _
      obtain ⟨call, -, -, stage, current⟩ := mem_marked inMarked
      have waiting := (current.mp notSuperseded).2
      rintro failed
      rw [← stage, failed] at waiting
      cases waiting
    · intro other inMarked waiting notHeld
      obtain ⟨call, member, change, stage, -⟩ := mem_marked inMarked
      rw [stage] at waiting
      rw [change] at notHeld
      exact absurd (held newer call member waiting) notHeld
  · exact inv

/-! ### Runs -/

theorem resumeQueue_eq_some {queued : Bool}
    (resumed : client.resumeQueue index call queued call.stage = some next) :
    call.stage = .queueing ∧
      next = client.setStage index call (if queued then .saving else .failed) := by
  unfold resumeQueue at resumed
  split at resumed
  · next waiting => exact ⟨waiting, (Option.some.inj resumed).symm⟩
  · cases resumed

theorem resumeSave_eq_some {available : Bool}
    (resumed : client.resumeSave index call available call.stage = some next) :
    call.stage = .saving ∧ next = { client.setStage index call .succeeded with
      repository :=
        if available then client.repository.saveToLocalStorage else client.repository } := by
  unfold resumeSave at resumed
  split at resumed
  · next saving => exact ⟨saving, (Option.some.inj resumed).symm⟩
  · cases resumed

theorem resumeBroadcast_eq_some {accepted : Option Nat}
    (resumed : client.resumeBroadcast index call call.stage accepted = some next) :
    call.stage.isWaiting = true ∧
      ((∃ event, next = { client.setStage index call .saving with
          repository := client.repository.contactListSent event }) ∨
        accepted = none ∧ next = { client.setStage index call .failed with
          repository := client.repository.rollback call.previousFollowList }) := by
  unfold resumeBroadcast at resumed
  split at resumed
  · next tags content createdAt waiting =>
    rw [waiting]
    exact ⟨rfl, .inl ⟨_, (Option.some.inj resumed).symm⟩⟩
  · next waiting =>
    rw [waiting]
    exact ⟨rfl, .inr ⟨rfl, (Option.some.inj resumed).symm⟩⟩
  · next waiting =>
    rw [waiting]
    exact ⟨rfl, .inr ⟨rfl, (Option.some.inj resumed).symm⟩⟩
  · cases resumed

theorem ne_failed_of_isWaiting (waiting : stage.isWaiting = true) : stage ≠ .failed := by
  rintro rfl
  cases waiting

theorem followStep_inv {action : FollowAction} (inv : client.Inv)
    (undisturbed : client.Undisturbed action)
    (stepped : followStep isHexadecimal client action = some next) : next.Inv := by
  cases action with
  | call change offline =>
    unfold followStep at stepped
    dsimp only at stepped
    split at stepped
    · next checked =>
      rw [← Option.some.inj stepped]
      exact startChange_inv inv checked undisturbed
    · rw [← Option.some.inj stepped]
      exact inv
  | queued index queued =>
    obtain ⟨call, found, resumed⟩ := Option.bind_eq_some_iff.mp stepped
    obtain ⟨waiting, rfl⟩ := resumeQueue_eq_some resumed
    have queued : queued = true := undisturbed
    rw [queued, if_pos rfl]
    exact advance_inv inv found (by rw [waiting]; nofun) rfl nofun rfl
  | broadcasted index accepted =>
    obtain ⟨call, found, resumed⟩ := Option.bind_eq_some_iff.mp stepped
    obtain ⟨waiting, ⟨event, rfl⟩ | ⟨refused, rfl⟩⟩ := resumeBroadcast_eq_some resumed
    · exact advance_inv inv found (ne_failed_of_isWaiting waiting) rfl nofun rfl
    · obtain ⟨left, notHeld⟩ := undisturbed refused call found
      exact fail_inv inv found waiting left notHeld rfl
  | saved index available =>
    obtain ⟨call, found, resumed⟩ := Option.bind_eq_some_iff.mp stepped
    obtain ⟨saving, rfl⟩ := resumeSave_eq_some resumed
    exact advance_inv inv found (by rw [saving]; nofun) rfl nofun (by split <;> rfl)
  | receivedSaved available =>
    obtain ⟨-, stepped⟩ := Option.ite_none_left_eq_some.mp stepped
    rw [← Option.some.inj stepped]
    exact ⟨by rw [← inv.list]; split <;> rfl, inv.distinct, inv.current, inv.kept, inv.undo⟩
  | received event =>
    rw [← Option.some.inj stepped]
    exact receive_inv inv undisturbed

theorem liveOf_eq_succeeded (finished : client.Finished) :
    liveOf client.calls = client.succeeded := by
  unfold liveOf succeeded
  congr 1
  refine List.filter_congr fun call member => ?_
  have ended := finished call member
  cases stage : call.stage with
  | queueing | broadcasting | rejected | saving =>
    rw [stage] at ended
    cases ended
  | succeeded | failed => rfl

/-- In every undisturbed run the list is the newest contact list with exactly the calls that
succeeded. -/
theorem run_undoes_itself (isHexadecimal : String → Bool) (repository : FollowRepository)
    (actions : List FollowAction) (reached : FollowClient)
    (ran : run (followStep isHexadecimal) (idle repository) actions = some reached)
    (undisturbed : Meets (followStep isHexadecimal) Undisturbed (idle repository) actions)
    (finished : reached.Finished) :
    reached.repository.followingPubkeys = applied reached.newest reached.succeeded := by
  have inv : reached.Inv := invariant_of_meets (followStep isHexadecimal)
    (fun _ _ _ inv meets stepped => followStep_inv inv meets stepped) (idle_inv repository)
    undisturbed ran
  rw [← liveOf_eq_succeeded finished]
  exact inv.list

/-- A follow whose broadcast fails after an earlier one succeeded takes back itself alone. -/
theorem run_undoes_itself_sample : ∃ reached,
    run (followStep FollowRepository.hexadecimal) (idle FollowRepository.newRepository)
      [.call ⟨FollowRepository.sampleKey 'b', true⟩ false,
        .call ⟨FollowRepository.sampleKey 'c', true⟩ false,
        .broadcasted 0 (some 2), .broadcasted 1 none, .saved 0 true] = some reached ∧
      reached.repository.followingPubkeys = applied reached.newest reached.succeeded := by
  refine ⟨_, rfl, run_undoes_itself FollowRepository.hexadecimal FollowRepository.newRepository
    [.call ⟨FollowRepository.sampleKey 'b', true⟩ false,
      .call ⟨FollowRepository.sampleKey 'c', true⟩ false,
      .broadcasted 0 (some 2), .broadcasted 1 none, .saved 0 true] _ rfl ?_ ?_⟩
  · have different : FollowRepository.sampleKey 'c' ≠ FollowRepository.sampleKey 'b' := by
      decide +kernel
    refine Meets.cons _ List.not_mem_nil rfl (Meets.cons _ ?_ rfl
      (Meets.cons _ nofun rfl (Meets.cons _ ?_ rfl (Meets.cons _ trivial rfl trivial))))
    · exact fun member => different (List.mem_singleton.mp member)
    · intro _ call member
      cases member
      exact ⟨rfl, fun held => List.not_mem_nil (held.mpr rfl)⟩
  · decide +kernel

/-- A follow that fails takes a later one back too, or discards a newer contact list. -/
theorem rollback_discards :
    (∃ reached, run (followStep FollowRepository.hexadecimal) (idle FollowRepository.newRepository)
        [.call ⟨FollowRepository.sampleKey 'b', true⟩ false,
          .call ⟨FollowRepository.sampleKey 'c', true⟩ false,
          .broadcasted 1 (some 2), .saved 1 true, .broadcasted 0 none] = some reached ∧
      reached.Finished ∧ reached.succeeded = [⟨FollowRepository.sampleKey 'c', true⟩] ∧
      reached.repository.followingPubkeys = []) ∧
    ∃ reached, run (followStep FollowRepository.hexadecimal) (idle FollowRepository.newRepository)
        [.call ⟨FollowRepository.sampleKey 'c', true⟩ false,
          .received FollowRepository.bareEvent, .broadcasted 0 none] = some reached ∧
      reached.Finished ∧ reached.newest = [FollowRepository.sampleKey 'b'] ∧
      reached.repository.followingPubkeys = [] := by
  exact ⟨exists_of_any _ (by decide +kernel), exists_of_any _ (by decide +kernel)⟩

end FollowClient

end Divine.Repositories
