/-
This file embeds the manager of the cache of media and settles when calls share their
downloads, and that the manifest names only files that are stored.
-/

import Divine.Library.Transition
import Mathlib.Data.List.Nodup

namespace Divine.MediaCache

open Transition

variable {Key Path : Type} [DecidableEq Key]

/-! ### The manager -/

/-- The maps of the manager, the files of the library below it, and the calls under way by what they
await. -/
structure State (Key Path : Type) where
  files : List Path
  cacheManifest : Key → Option Path
  pendingCacheOperations : Key → Option Nat
  completed : List Nat
  nextCompleter : Nat
  -- `cacheFile` at `getFileFromCache`, at `downloadFile` with its completer, or at that of another
  looking : List Key
  downloading : List (Key × Nat)
  waiting : List Nat
  -- `isFileCached`
  checking : List Key
  -- `removeCachedFile` and `clearCache`, and whether the library has removed the files
  removing : List (Key × Bool)
  clearing : List Bool
  -- the deferred callbacks, each of which removes a pending operation
  deferred : List Key

def State.initial (files : List Path) : State Key Path :=
  ⟨files, fun _ => none, fun _ => none, [], 0, [], [], [], [], [], [], []⟩

inductive Action (Key Path : Type) where
  | cacheFile (key : Key)
  | looked (key : Key) (found : Option Path)
  | stored (path : Path)
  | downloaded (call : Key × Nat) (path : Path)
  | failedWithException (call : Key × Nat)
  | failedWithError (call : Key × Nat)
  | resumed (completer : Nat)
  | isFileCached (key : Key)
  | checked (key : Key) (found : Option Path)
  | removeCachedFile (key : Key)
  | fileRemoved (key : Key)
  | removed (key : Key)
  | clearCache
  | filesRemoved
  | cleared
  | runDeferred (key : Key)
  | getCachedFileSync (key : Key)

-- every file is stored under one key
variable (enableSyncManifest : Bool) (keyOf : Path → Key)

def remember (state : State Key Path) (key : Key) (path : Path) : State Key Path :=
  if enableSyncManifest then
    { state with cacheManifest := Function.update state.cacheManifest key (some path) }
  else state

def endDownload (state : State Key Path) (call : Key × Nat) (completes : Bool) : State Key Path :=
  { state with
    downloading := state.downloading.erase call
    completed := if completes then call.2 :: state.completed else state.completed
    deferred := call.1 :: state.deferred }

def dropPending (state : State Key Path) (key : Key) : State Key Path :=
  { state with
    pendingCacheOperations := Function.update state.pendingCacheOperations key none }

section

variable [DecidableEq Path]

def existing (state : State Key Path) (found : Option Path) : Option Path :=
  found.filter (· ∈ state.files)

def getCachedFileSync (state : State Key Path) (key : Key) : Option Path × State Key Path :=
  if enableSyncManifest then
    match state.cacheManifest key with
    | none => (none, state)
    | some path =>
        if path ∈ state.files then (some path, state)
        else (none, { state with cacheManifest := Function.update state.cacheManifest key none })
  else (none, state)

/-- `cacheFile` after `getFileFromCache`. -/
def afterLooking (state : State Key Path) (key : Key) (found : Option Path) : State Key Path :=
  match existing state found with
  | some path => remember enableSyncManifest state key path
  | none =>
      match state.pendingCacheOperations key with
      | some completer => { state with waiting := completer :: state.waiting }
      | none =>
          { state with
            downloading := (key, state.nextCompleter) :: state.downloading
            pendingCacheOperations :=
              Function.update state.pendingCacheOperations key (some state.nextCompleter)
            nextCompleter := state.nextCompleter + 1 }

def step (state : State Key Path) : Action Key Path → Option (State Key Path)
  | .cacheFile key => some { state with looking := key :: state.looking }
  | .looked key found =>
      if key ∈ state.looking ∧ ∀ path ∈ found, keyOf path = key then
        some (afterLooking enableSyncManifest { state with looking := state.looking.erase key } key
          found)
      else none
  | .stored path =>
      if ∃ call ∈ state.downloading, keyOf path = call.1 then
        some { state with files := path :: state.files }
      else none
  | .downloaded call path =>
      if call ∈ state.downloading ∧ keyOf path = call.1 then
        some (endDownload (remember enableSyncManifest state call.1 path) call true)
      else none
  | .failedWithException call =>
      if call ∈ state.downloading then some (endDownload state call true) else none
  | .failedWithError call =>
      if call ∈ state.downloading then some (endDownload state call false) else none
  | .resumed completer =>
      if completer ∈ state.waiting ∧ completer ∈ state.completed then
        some { state with waiting := state.waiting.erase completer }
      else none
  | .isFileCached key => some { state with checking := key :: state.checking }
  | .checked key found =>
      if key ∈ state.checking ∧ ∀ path ∈ found, keyOf path = key then
        let state := { state with checking := state.checking.erase key }
        some ((existing state found).elim state (remember enableSyncManifest state key))
      else none
  | .removeCachedFile key => some { state with removing := (key, false) :: state.removing }
  | .fileRemoved key =>
      if (key, false) ∈ state.removing then
        some { state with
          removing := (key, true) :: state.removing.erase (key, false)
          files := state.files.filter fun path => keyOf path ≠ key }
      else none
  | .removed key =>
      if (key, true) ∈ state.removing then
        some { state with
          removing := state.removing.erase (key, true)
          cacheManifest := Function.update state.cacheManifest key none
          deferred := key :: state.deferred }
      else none
  | .clearCache => some { state with clearing := false :: state.clearing }
  | .filesRemoved =>
      if false ∈ state.clearing then
        some { state with clearing := true :: state.clearing.erase false, files := [] }
      else none
  | .cleared =>
      if true ∈ state.clearing then
        some { state with
          clearing := state.clearing.erase true
          cacheManifest := fun _ => none
          pendingCacheOperations := fun _ => none }
      else none
  | .runDeferred key =>
      if key ∈ state.deferred then
        some (dropPending { state with deferred := state.deferred.erase key } key)
      else none
  | .getCachedFileSync key => some (getCachedFileSync enableSyncManifest state key).2

/-! ### What the manager promises -/

structure SharesDownloads (state : State Key Path) : Prop where
  single : (state.downloading.map Prod.fst).Nodup
  /-- A call waits for a completer that is completed or that a running download will complete. -/
  served : ∀ completer ∈ state.waiting,
    completer ∈ state.completed ∨ ∃ key, (key, completer) ∈ state.downloading
  truthful : ∀ key path, (getCachedFileSync enableSyncManifest state key).1 = some path →
    path ∈ state.files ∧ keyOf path = key

/-- The pending operation of a running download is not removed, and no call waits for a download
that fails. -/
def Spares (state : State Key Path) : Action Key Path → Prop
  | .looked key found => existing state found = none →
      ∀ completer, state.pendingCacheOperations key = some completer →
        completer ∈ state.completed ∨ (key, completer) ∈ state.downloading
  | .failedWithError call => call.2 ∉ state.waiting
  | .cleared => state.downloading = []
  | .runDeferred key => ∀ call ∈ state.downloading, call.1 ≠ key
  | _ => True

end

structure Invariant (state : State Key Path) : Prop where
  registered : ∀ call ∈ state.downloading, state.pendingCacheOperations call.1 = some call.2
  single : (state.downloading.map Prod.fst).Nodup
  served : ∀ completer ∈ state.waiting,
    completer ∈ state.completed ∨ ∃ key, (key, completer) ∈ state.downloading
  owned : ∀ key path, state.cacheManifest key = some path → keyOf path = key

variable {enableSyncManifest keyOf} {state next : State Key Path} {key : Key} {path : Path}

namespace Invariant

section

variable (held : Invariant keyOf state)

include held

theorem updated {entry : Option Path} (own : ∀ path ∈ entry, keyOf path = key) :
    Invariant keyOf
      { state with cacheManifest := Function.update state.cacheManifest key entry } := by
  refine { held with owned := fun other path found => ?_ }
  change Function.update _ _ _ _ = _ at found
  by_cases same : other = key
  · rw [same, Function.update_self] at found
    exact (own path found).trans same.symm
  · rw [Function.update_of_ne same] at found
    exact held.owned other path found

theorem remembered (own : keyOf path = key) :
    Invariant keyOf (remember enableSyncManifest state key path) := by
  unfold remember
  split
  · exact held.updated fun other same => Option.some.inj same ▸ own
  · exact held

theorem ended {call : Key × Nat} {completes : Bool}
    (answered : completes = true ∨ call.2 ∉ state.waiting) :
    Invariant keyOf (endDownload state call completes) where
  registered other member := held.registered other (List.mem_of_mem_erase member)
  single := held.single.sublist (List.erase_sublist.map _)
  served completer waits := by
    by_cases same : completer = call.2
    · rcases answered with rfl | alone
      · exact .inl (same ▸ List.mem_cons_self)
      · exact absurd (same ▸ waits) alone
    · rcases held.served completer waits with done | ⟨key, running⟩
      · refine .inl ?_
        show completer ∈ if completes = true then _ else _
        split
        · exact List.mem_cons_of_mem _ done
        · exact done
      · refine .inr ⟨key, (List.mem_erase_of_ne fun equal => same ?_).mpr running⟩
        rw [← equal]
  owned := held.owned

theorem dropped (spared : ∀ call ∈ state.downloading, call.1 ≠ key) :
    Invariant keyOf (dropPending state key) := by
  refine { held with registered := fun call running => ?_ }
  show Function.update state.pendingCacheOperations key none call.1 = _
  rw [Function.update_of_ne (spared call running)]
  exact held.registered call running

end

variable [DecidableEq Path]

theorem lookedUp (held : Invariant keyOf state) (key : Key) :
    Invariant keyOf (getCachedFileSync enableSyncManifest state key).2 := by
  unfold getCachedFileSync
  split
  · split
    · exact held
    · split
      · exact held
      · exact held.updated nofun
  · exact held

theorem looked (held : Invariant keyOf state) {found : Option Path}
    (own : ∀ path ∈ found, keyOf path = key) (spared : existing state found = none →
      ∀ completer, state.pendingCacheOperations key = some completer →
        completer ∈ state.completed ∨ (key, completer) ∈ state.downloading) :
    Invariant keyOf (afterLooking enableSyncManifest state key found) := by
  unfold afterLooking
  split
  · rename_i path present
    exact held.remembered (own path (Option.filter_eq_some_iff.mp present).1)
  · rename_i absent
    split
    · rename_i completer pending
      refine { held with served := fun other waits => ?_ }
      rcases List.mem_cons.mp waits with rfl | waits
      · exact (spared absent other pending).imp_right fun running => ⟨key, running⟩
      · exact held.served other waits
    · rename_i idle
      have apart (call : Key × Nat) (running : call ∈ state.downloading) : call.1 ≠ key := by
        rintro rfl
        rw [held.registered call running] at idle
        cases idle
      refine ⟨fun call running => ?_, ?_, fun completer waits => ?_, held.owned⟩
      · rcases List.mem_cons.mp running with rfl | running
        · exact Function.update_self ..
        · exact (Function.update_of_ne (apart call running) ..).trans (held.registered call running)
      · rw [List.map_cons, List.nodup_cons]
        refine ⟨fun member => ?_, held.single⟩
        obtain ⟨call, running, same⟩ := List.mem_map.mp member
        exact apart call running same
      · exact (held.served completer waits).imp_right fun ⟨key, running⟩ =>
          ⟨key, List.mem_cons_of_mem _ running⟩

theorem stepped {action : Action Key Path} (held : Invariant keyOf state)
    (spared : Spares state action)
    (stepped : step enableSyncManifest keyOf state action = some next) : Invariant keyOf next := by
  cases action with
  | cacheFile key | isFileCached key | removeCachedFile key | clearCache =>
    cases stepped
    exact { held with }
  | getCachedFileSync key =>
    cases stepped
    exact held.lookedUp key
  | looked key found =>
    obtain ⟨⟨-, own⟩, same⟩ := Option.ite_none_right_eq_some.mp stepped
    cases same
    have looking : Invariant keyOf { state with looking := state.looking.erase key } :=
      { held with }
    exact looking.looked own spared
  | stored path | fileRemoved key | filesRemoved =>
    obtain ⟨-, same⟩ := Option.ite_none_right_eq_some.mp stepped
    cases same
    exact { held with }
  | downloaded call path =>
    obtain ⟨⟨-, own⟩, same⟩ := Option.ite_none_right_eq_some.mp stepped
    cases same
    exact (held.remembered own).ended (.inl rfl)
  | failedWithException call =>
    obtain ⟨-, same⟩ := Option.ite_none_right_eq_some.mp stepped
    cases same
    exact held.ended (.inl rfl)
  | failedWithError call =>
    obtain ⟨-, same⟩ := Option.ite_none_right_eq_some.mp stepped
    cases same
    exact held.ended (.inr spared)
  | resumed completer =>
    obtain ⟨-, same⟩ := Option.ite_none_right_eq_some.mp stepped
    cases same
    exact { held with served := fun other waits => held.served other (List.mem_of_mem_erase waits) }
  | checked key found =>
    obtain ⟨⟨-, own⟩, same⟩ := Option.ite_none_right_eq_some.mp stepped
    cases same
    have checked : Invariant keyOf { state with checking := state.checking.erase key } :=
      { held with }
    cases present : existing { state with checking := state.checking.erase key } found with
    | none => exact checked
    | some path => exact checked.remembered (own path (Option.filter_eq_some_iff.mp present).1)
  | removed key =>
    obtain ⟨-, same⟩ := Option.ite_none_right_eq_some.mp stepped
    cases same
    have forgotten : Invariant keyOf
        { state with cacheManifest := Function.update state.cacheManifest key none } :=
      held.updated nofun
    exact { forgotten with }
  | cleared =>
    obtain ⟨-, same⟩ := Option.ite_none_right_eq_some.mp stepped
    cases same
    exact { held with
      registered := fun call running => absurd running (spared ▸ List.not_mem_nil)
      owned := fun _ _ found => by cases found }
  | runDeferred key =>
    obtain ⟨-, same⟩ := Option.ite_none_right_eq_some.mp stepped
    cases same
    have ran : Invariant keyOf { state with deferred := state.deferred.erase key } := { held with }
    exact ran.dropped spared

theorem sharesDownloads (held : Invariant keyOf state) :
    SharesDownloads enableSyncManifest keyOf state := by
  refine ⟨held.single, held.served, fun key path found => ?_⟩
  unfold getCachedFileSync at found
  split at found
  · split at found
    · cases found
    · rename_i entry named
      split at found
      · rename_i present
        cases found
        exact ⟨present, held.owned key path named⟩
      · cases found
  · cases found

end Invariant

variable [DecidableEq Path]

/-- Calls share their downloads in every run that loses no pending operation and fails none that is
waited for. -/
theorem sharesDownloads_of_meets {files : List Path} {actions : List (Action Key Path)}
    {final : State Key Path}
    (meets : Meets (step enableSyncManifest keyOf) Spares (State.initial files) actions)
    (ran : run (step enableSyncManifest keyOf) (State.initial files) actions = some final) :
    SharesDownloads enableSyncManifest keyOf final := by
  have initial : Invariant keyOf (State.initial files) :=
    ⟨fun call running => absurd running List.not_mem_nil, List.nodup_nil,
      fun completer waits => absurd waits List.not_mem_nil, nofun⟩
  exact (invariant_of_meets _ (fun _ _ _ held spared stepped => held.stepped spared stepped)
    initial meets ran).sharesDownloads

/-! ### Runs -/

def sharedActions : List (Action Nat Nat) :=
  [.cacheFile 7, .cacheFile 7, .looked 7 none, .looked 7 none, .stored 7, .downloaded (7, 0) 7,
    .resumed 0, .runDeferred 7]

theorem sharesDownloads_sample : ∃ final,
    run (step true fun path : Nat => path) (State.initial []) sharedActions = some final ∧
      SharesDownloads true (fun path : Nat => path) final := by
  refine ⟨_, rfl, sharesDownloads_of_meets ?_ (show run _ _ sharedActions = _ from rfl)⟩
  refine .cons _ trivial rfl (.cons _ trivial rfl (.cons _ (fun _ => nofun) rfl ?_))
  refine .cons _ (fun _ completer pending => .inr ?_) rfl ?_
  · cases pending
    exact List.mem_cons_self
  · exact .cons _ trivial rfl (.cons _ trivial rfl (.cons _ trivial rfl
      (.cons _ nofun rfl trivial)))

/-- A removal during the download starts a second one. -/
def removedActions : List (Action Nat Nat) :=
  [.cacheFile 7, .looked 7 none, .removeCachedFile 7, .fileRemoved 7, .removed 7, .runDeferred 7,
    .cacheFile 7, .looked 7 none]

/-- Two calls wait for a download that fails with an error. -/
def failedActions : List (Action Nat Nat) :=
  [.cacheFile 7, .cacheFile 7, .looked 7 none, .looked 7 none, .failedWithError (7, 0),
    .runDeferred 7]

theorem downloads_not_shared :
    (∃ final, run (step true fun path : Nat => path) (State.initial []) removedActions =
        some final ∧ final.downloading = [(7, 1), (7, 0)] ∧
        ¬SharesDownloads true (fun path : Nat => path) final) ∧
      ∃ final, run (step true fun path : Nat => path) (State.initial []) failedActions =
        some final ∧ final.waiting = [0] ∧
        ¬SharesDownloads true (fun path : Nat => path) final := by
  refine ⟨⟨_, rfl, rfl, fun shares => ?_⟩, ⟨_, rfl, rfl, fun shares => ?_⟩⟩
  · exact absurd shares.single (by decide)
  · rcases shares.served 0 (by decide) with done | ⟨key, running⟩
    · cases done
    · cases running

end Divine.MediaCache
