/-
This file embeds the service that keeps social actions for later and executes them once
there is a connection.
-/

import Divine.Library.Interleaving
import Divine.Repositories.PendingActions
import Mathlib.Data.List.Nodup

namespace Divine.Repositories

open Interleaving

/-! ### The table -/

structure ActionRow extends PendingAction where
  retryCount : Nat
  deriving DecidableEq

/-- What `queueAction` is called with. -/
structure QueueArguments where
  type : PendingActionType
  targetId : String
  authorPubkey : Option String
  addressableId : Option String
  targetKind : Option Nat
  deriving DecidableEq

/-- The service and the rows of its user, with the actions that succeeded, the calls that took
effect or threw, and the targets whose status was written. -/
structure ActionClient where
  rows : List ActionRow
  created : Nat
  isInitialized : Bool
  isSyncing : Bool
  isOnline : Bool
  cachedPendingActions : List ActionRow
  listeners : Nat
  succeeded : List Nat
  queued : List (String × PendingActionType)
  thrown : Nat
  touched : List String
  deriving DecidableEq

def maxRetries : Nat := 5

namespace ActionClient

def getPendingActions (rows : List ActionRow) : List ActionRow :=
  rows.filter fun row => row.status = .pending

def opened (rows : List ActionRow) (created : Nat) (isOnline : Bool) : ActionClient where
  rows := rows
  created := created
  isInitialized := false
  isSyncing := false
  isOnline := isOnline
  cachedPendingActions := []
  listeners := 0
  succeeded := []
  queued := []
  thrown := 0
  touched := (getPendingActions rows).map fun row => row.targetId

variable (client : ActionClient)

def service : PendingActionService where
  actions := client.rows.map ActionRow.toPendingAction
  created := client.created

def writeStatus (chosen : ActionRow → Bool) (status : PendingActionStatus)
    (retryCount : Option Nat) : ActionClient :=
  { client with
    rows := client.rows.map fun row =>
      if chosen row then
        { row with status := status, retryCount := retryCount.getD row.retryCount }
      else row
    touched := client.touched ++ (client.rows.filter chosen).map fun row => row.targetId }

def updateStatus (id : Nat) (status : PendingActionStatus) (retryCount : Option Nat) :
    ActionClient :=
  client.writeStatus (fun row => row.id = id) status retryCount

def resetSyncingToPending : ActionClient :=
  client.writeStatus (fun row => row.status = .syncing) .pending none

def deleteAction (id : Nat) : ActionClient :=
  { client with rows := client.rows.filter fun row => row.id ≠ id }

def create (arguments : QueueArguments) : ActionRow where
  id := client.created
  type := arguments.type
  targetId := arguments.targetId
  authorPubkey := arguments.authorPubkey
  addressableId := arguments.addressableId
  targetKind := arguments.targetKind
  status := .pending
  retryCount := 0

def upsertAction (arguments : QueueArguments) : ActionClient :=
  { client with
    rows := client.rows ++ [client.create arguments]
    created := client.created + 1 }

def record (arguments : QueueArguments) : ActionClient :=
  { client with queued := client.queued ++ [(arguments.targetId, arguments.type)] }

def refreshCache : ActionClient :=
  { client with cachedPendingActions := getPendingActions client.rows }

end ActionClient

/-! ### What the table keeps -/

/-- The ids are those of the actions created so far. -/
structure Stored (rows : List ActionRow) (created : Nat) : Prop where
  ids : (rows.map fun row => row.id).Nodup
  made : ∀ row ∈ rows, row.id < created

section Stored

variable {client : ActionClient} {chosen : ActionRow → Bool} {status : PendingActionStatus}
  {retryCount : Option Nat}

theorem Stored.eq_of_id {rows : List ActionRow} {created : Nat} (stored : Stored rows created)
    {row other : ActionRow} (member : row ∈ rows) (also : other ∈ rows) (same : row.id = other.id) :
    row = other :=
  List.inj_on_of_nodup_map stored.ids member also same
variable {row : ActionRow}


theorem ActionClient.mem_writeStatus
    (member : row ∈ (client.writeStatus chosen status retryCount).rows) :
    (∃ before ∈ client.rows, chosen before = true ∧
        row = { before with status := status, retryCount := retryCount.getD before.retryCount }) ∨
      row ∈ client.rows ∧ chosen row = false := by
  obtain ⟨before, present, rfl⟩ := List.mem_map.mp member
  cases choice : chosen before with
  | true => exact .inl ⟨before, present, choice, if_pos rfl⟩
  | false => exact .inr ⟨present, choice⟩

theorem ActionClient.mem_writeStatus_of_not_chosen (member : row ∈ client.rows)
    (kept : chosen row = false) : row ∈ (client.writeStatus chosen status retryCount).rows := by
  refine List.mem_map.mpr ⟨row, member, ?_⟩
  rw [if_neg (by simp [kept])]

theorem Stored.writeStatus (stored : Stored client.rows client.created) :
    Stored (client.writeStatus chosen status retryCount).rows client.created := by
  have ids : ((client.writeStatus chosen status retryCount).rows.map fun row => row.id) =
      client.rows.map fun row => row.id := by
    unfold ActionClient.writeStatus
    rw [List.map_map]
    refine List.map_congr_left fun row _ => ?_
    show (if chosen row = true then { row with
      status := status, retryCount := retryCount.getD row.retryCount } else row).id = row.id
    split <;> rfl
  refine ⟨ids ▸ stored.ids, fun row member => ?_⟩
  rcases ActionClient.mem_writeStatus member with ⟨before, present, -, rfl⟩ | ⟨present, -⟩
  · exact stored.made before present
  · exact stored.made row present

theorem ActionClient.mem_deleteAction {id : Nat} :
    row ∈ (client.deleteAction id).rows ↔ row ∈ client.rows ∧ row.id ≠ id := by
  unfold ActionClient.deleteAction
  rw [List.mem_filter, decide_eq_true_eq]

theorem Stored.deleteAction (stored : Stored client.rows client.created) (id : Nat) :
    Stored (client.deleteAction id).rows client.created where
  ids := stored.ids.sublist (List.filter_sublist.map _)
  made row member := stored.made row (ActionClient.mem_deleteAction.mp member).1

theorem ActionClient.mem_upsertAction {arguments : QueueArguments} :
    row ∈ (client.upsertAction arguments).rows ↔
      row ∈ client.rows ∨ row = client.create arguments := by
  rw [← List.mem_singleton]
  exact List.mem_append

theorem Stored.upsertAction (stored : Stored client.rows client.created)
    (arguments : QueueArguments) :
    Stored (client.upsertAction arguments).rows (client.created + 1) := by
  refine ⟨?_, fun row member => ?_⟩
  · show ((client.rows ++ [client.create arguments]).map fun row => row.id).Nodup
    rw [List.map_append, List.nodup_append]
    refine ⟨stored.ids, List.pairwise_singleton _ _, fun id member other also => ?_⟩
    obtain ⟨row, present, rfl⟩ := List.mem_map.mp member
    rw [List.mem_singleton.mp also]
    exact Nat.ne_of_lt (stored.made row present)
  · rcases ActionClient.mem_upsertAction.mp member with present | rfl
    · exact Nat.lt_succ_of_lt (stored.made row present)
    · exact Nat.lt_succ_self _

end Stored

/-! ### Calls -/

/-- Where a call waits: for a reset, a list, an update of the queue, or, in the loop of a sync, for
a mark, an execution, a delay or the record of how it ended. -/
inductive ActionCall where
  | resetting
  | loadingPending
  | loadingAll
  | finding (arguments : QueueArguments)
  | deleting (arguments : QueueArguments) (id : Nat)
  | inserting (arguments : QueueArguments)
  | listing
  | listed (actions : List ActionRow)
  | looping (actions : List ActionRow)
  | marking (action : ActionRow) (rest : List ActionRow)
  | executing (action : ActionRow) (attempts : Nat) (rest : List ActionRow)
  | delaying (action : ActionRow) (attempts : Nat) (rest : List ActionRow)
  | completing (action : ActionRow) (rest : List ActionRow)
  | failing (action : ActionRow) (rest : List ActionRow)
  | refreshing
  deriving DecidableEq

/-- How an execution ends, in a failure that `_isRetriableError` accepts or not. -/
inductive Execution where
  | succeeded
  | failed (isRetriable : Bool)
  deriving DecidableEq

/-- The types that have an executor, and `maxRetries` of the retry configuration. -/
structure ActionConfig where
  hasExecutor : PendingActionType → Bool
  maxRetries : Nat

namespace ActionClient

variable (client : ActionClient)

def syncPendingActions : List ActionCall :=
  if client.isSyncing then []
  else if !client.isOnline then []
  else [.listing]

def onConnectivityChange : List ActionCall :=
  if client.isOnline && !client.cachedPendingActions.isEmpty then client.syncPendingActions
  else []

/-- The loop of `syncPendingActions` up to its next await. -/
def loop (config : ActionConfig) : List ActionRow → ActionClient × List ActionCall
  | [] => ({ client with isSyncing := false }, [.refreshing])
  | action :: rest =>
      if !client.isOnline then ({ client with isSyncing := false }, [.refreshing])
      else if config.hasExecutor action.type then (client, [.marking action rest])
      else (client, [.looping rest])

theorem loop_cases (config : ActionConfig) (actions : List ActionRow) :
    client.loop config actions = ({ client with isSyncing := false }, [.refreshing]) ∨
      ∃ action rest, actions = action :: rest ∧
        (client.loop config actions = (client, [.marking action rest]) ∨
          client.loop config actions = (client, [.looping rest])) := by
  cases actions with
  | nil => exact .inl rfl
  | cons action rest =>
    by_cases isOffline : (!client.isOnline) = true
    · exact .inl (if_pos isOffline)
    · refine .inr ⟨action, rest, rfl, ?_⟩
      by_cases executed : config.hasExecutor action.type = true
      · exact .inl ((if_neg isOffline).trans (if_pos executed))
      · exact .inr ((if_neg isOffline).trans (if_neg executed))

theorem syncPendingActions_cases :
    client.syncPendingActions = [] ∨
      client.isSyncing = false ∧ client.syncPendingActions = [.listing] := by
  unfold syncPendingActions
  cases client.isSyncing <;> cases client.isOnline <;> simp

theorem onConnectivityChange_cases :
    client.onConnectivityChange = [] ∨
      client.isSyncing = false ∧ client.onConnectivityChange = [.listing] := by
  unfold onConnectivityChange
  split
  · exact client.syncPendingActions_cases
  · exact .inl rfl

/-- A call from one await to the next, with the calls that are then under way in its place. -/
def advance (config : ActionConfig) (ending : Execution) :
    ActionCall → ActionClient × List ActionCall
  | .resetting => (client.resetSyncingToPending, [.loadingPending])
  | .loadingPending => (client.refreshCache, [.loadingAll])
  | .loadingAll =>
      ({ client with isInitialized := true, listeners := client.listeners + 1 },
        client.onConnectivityChange)
  | .finding arguments =>
      match client.service.findConflictingAction arguments.targetId arguments.type.opposite with
      | .ok (some existing) => (client, [.deleting arguments existing.id])
      | .ok none => (client, [.inserting arguments])
      | .error () => ({ client with thrown := client.thrown + 1 }, [])
  | .deleting arguments id => ((client.deleteAction id).record arguments, [.refreshing])
  | .inserting arguments => ((client.upsertAction arguments).record arguments, [.refreshing])
  | .listing => (client, [.listed (getPendingActions client.rows)])
  | .listed actions =>
      if actions.isEmpty then (client, []) else
        { client with isSyncing := true }.loop config actions
  | .looping actions => client.loop config actions
  | .marking action rest =>
      (client.updateStatus action.id .syncing none, [.executing action 0 rest])
  | .executing action attempts rest =>
      match ending with
      | .succeeded =>
          ({ client with succeeded := client.succeeded ++ [action.id] }, [.completing action rest])
      | .failed isRetriable =>
          if isRetriable && attempts + 1 ≤ config.maxRetries then
            (client, [.delaying action (attempts + 1) rest])
          else (client, [.failing action rest])
  | .delaying action attempts rest => (client, [.executing action attempts rest])
  | .completing action rest => (client.updateStatus action.id .completed none, [.looping rest])
  | .failing action rest =>
      (client.updateStatus action.id
        (if action.retryCount + 1 ≥ maxRetries then .failed else .pending)
        (some (action.retryCount + 1)), [.looping rest])
  | .refreshing => (client.refreshCache, [])

end ActionClient

/-! ### The service under way -/

/-- A call starts or goes on, the connection changes, or the pending actions are told. -/
inductive ActionStep where
  | startInitialize
  | queueAction (arguments : QueueArguments)
  | syncPendingActions
  | connectivityChange (isOnline : Bool)
  | watchPendingActions
  | advance (position : Nat) (ending : Execution)
  deriving DecidableEq

/-- The service and its calls under way, in no order. -/
abbrev ActionPool := Pool ActionClient ActionCall

namespace ActionPool

variable (config : ActionConfig) (pool : ActionPool)

def react : ActionStep → ActionClient × List ActionCall
  | .startInitialize =>
      (pool.shared, if pool.shared.isInitialized then [] else [.resetting])
  | .queueAction arguments =>
      if !pool.shared.isInitialized then
        ({ pool.shared with thrown := pool.shared.thrown + 1 }, [])
      else (pool.shared, [.finding arguments])
  | .syncPendingActions => (pool.shared, pool.shared.syncPendingActions)
  | .connectivityChange isOnline =>
      let changed := { pool.shared with isOnline := isOnline }
      (changed, (List.replicate changed.listeners changed.onConnectivityChange).flatten)
  | .watchPendingActions =>
      (if pool.shared.listeners = 0 then pool.shared else pool.shared.refreshCache, [])
  | .advance position ending =>
      match pool.calls[position]? with
      | some call => pool.shared.advance config ending call
      | none => (pool.shared, [])

def others : ActionStep → List ActionCall
  | .advance position _ => pool.calls.eraseIdx position
  | _ => pool.calls

/-- A step, which only a call that is under way can take. -/
def step (action : ActionStep) : Option ActionPool :=
  match action with
  | .advance position _ =>
      if position < pool.calls.length then
        some ⟨(pool.react config action).1, pool.others action ++ (pool.react config action).2⟩
      else none
  | _ => some ⟨(pool.react config action).1, pool.others action ++ (pool.react config action).2⟩

variable {config pool}

theorem step_eq_some {action : ActionStep} {next : ActionPool}
    (stepped : pool.step config action = some next) :
    next = ⟨(pool.react config action).1, pool.others action ++ (pool.react config action).2⟩ ∧
      ∀ position ending, action = .advance position ending →
        ∃ call, pool.calls[position]? = some call ∧
          pool.react config action = pool.shared.advance config ending call := by
  cases action with
  | advance position ending =>
    obtain ⟨bound, same⟩ := Option.ite_none_right_eq_some.mp stepped
    refine ⟨(Option.some.inj same).symm, fun other also equal => ?_⟩
    obtain ⟨rfl, rfl⟩ := ActionStep.advance.inj equal
    refine ⟨pool.calls[position], List.getElem?_eq_getElem bound, ?_⟩
    unfold react
    simp only [List.getElem?_eq_getElem bound]
  | _ => exact ⟨(Option.some.inj stepped).symm, nofun⟩

end ActionPool

end Divine.Repositories
