/-
This file shows what agrees when no call of the relay manager is under way: the configured
relays are listed once each and have the statuses, and the storage has the list that was
last changed by adding or removing a relay.
-/

import Divine.NostrClient.RelayManager

namespace Divine.NostrClient

open Dictionary Interleaving

variable {config : RelayManagerConfig} {before middle after manager next : RelayManager}
  {allowed : String → Prop} {url : String}

namespace RelayManager

/-! ### Statuses and the pool -/

/-- Statuses change, and relays leave the pool or come to it that are allowed there. -/
structure Touches (allowed : String → Prop) (before after : RelayManager) : Prop where
  configured : after.configuredRelays = before.configuredRelays
  storage : after.storage = before.storage
  unsaved : after.unsaved = before.unsaved
  calls : after.calls = before.calls
  statuses : ∀ url, (find after.relayStatuses url).isSome = (find before.relayStatuses url).isSome
  nodup : before.pool.Nodup → after.pool.Nodup
  pool : ∀ url ∈ after.pool, url ∈ before.pool ∨ allowed url

theorem Touches.refl (manager : RelayManager) : Touches allowed manager manager :=
  ⟨rfl, rfl, rfl, rfl, fun _ => rfl, id, fun _ => .inl⟩

theorem Touches.trans (first : Touches allowed before middle)
    (second : Touches allowed middle after) : Touches allowed before after where
  configured := second.configured.trans first.configured
  storage := second.storage.trans first.storage
  unsaved := second.unsaved.trans first.unsaved
  calls := second.calls.trans first.calls
  statuses url := (second.statuses url).trans (first.statuses url)
  nodup nodup := second.nodup (first.nodup nodup)
  pool url member := (second.pool url member).elim (first.pool url) .inr

theorem touches_foldl (act : RelayManager → String → RelayManager) (urls : List String)
    (manager : RelayManager)
    (each : ∀ url ∈ urls, ∀ manager, Touches allowed manager (act manager url)) :
    Touches allowed manager (urls.foldl act manager) := by
  induction urls generalizing manager with
  | nil => exact .refl manager
  | cons url rest ih =>
    refine (each url List.mem_cons_self manager).trans (ih _ ?_)
    exact fun other member => each other (List.mem_cons_of_mem url member)

theorem touches_updateRelayStatus (manager : RelayManager) (url : String) (state : RelayState) :
    Touches allowed manager (manager.updateRelayStatus url state) := by
  unfold updateRelayStatus
  split
  · next present =>
    refine ⟨rfl, rfl, rfl, rfl, fun other => ?_, id, fun _ => .inl⟩
    dsimp only
    rw [find_put]
    by_cases own : url = other
    · rw [if_pos own, ← own, present]
      rfl
    · rw [if_neg own]
  · exact .refl manager

theorem touches_updateConnected (manager : RelayManager) (url : String) (success : Bool) :
    Touches allowed manager (manager.updateConnected url success) :=
  touches_updateRelayStatus manager url _

theorem touches_poolRemove (manager : RelayManager) (url : String) :
    Touches allowed manager (manager.poolRemove url) :=
  ⟨rfl, rfl, rfl, rfl, fun _ => rfl, List.Nodup.erase url, fun _ member =>
    .inl (List.mem_of_mem_erase member)⟩

theorem touches_connectToRelay (manager : RelayManager) (may : allowed url) :
    Touches allowed manager (manager.connectToRelay url) := by
  refine (touches_poolRemove manager url).trans ?_
  unfold connectToRelay
  dsimp only
  split
  · exact .refl _
  · next absent =>
    refine ⟨rfl, rfl, rfl, rfl, fun _ => rfl, fun nodup => ?_, fun other member => ?_⟩
    · refine List.nodup_append.mpr ⟨nodup, List.nodup_singleton url, ?_⟩
      rintro other member _ own rfl
      rw [List.mem_singleton.mp own] at member
      exact absent member
    · rcases List.mem_append.mp member with earlier | added
      · exact .inl earlier
      · exact .inr (List.mem_singleton.mp added ▸ may)

theorem touches_reconnect (allowed : String → Prop) (manager : RelayManager) (may : allowed url) :
    Touches allowed manager
      (((manager.updateRelayStatus url .connecting).poolRemove url).connectToRelay url) :=
  ((touches_updateRelayStatus manager url _).trans (touches_poolRemove _ url)).trans
    (touches_connectToRelay _ may)

theorem touches_connectNext (manager : RelayManager) {rest : List String}
    (may : ∀ url ∈ rest, allowed url) : Touches allowed manager (manager.connectNext rest).1 := by
  cases rest with
  | nil => exact .refl manager
  | cons url rest => exact touches_connectToRelay manager (may url List.mem_cons_self)

theorem touches_connectToConfiguredRelays (manager : RelayManager)
    (may : ∀ url ∈ manager.configuredRelays, allowed url) :
    Touches allowed manager manager.connectToConfiguredRelays :=
  (touches_foldl _ _ manager fun _ _ _ => touches_updateRelayStatus _ _ _).trans
    (touches_foldl _ _ _ fun url member _ => touches_connectToRelay _ (may url member))

end RelayManager

def ManagerCall.saves : ManagerCall → Bool
  | savingFiltered | adding _ | saving => true
  | loading | loaded _ | connecting _ | reconnecting _ | looping _ _ => false

namespace RelayManager

structure Listed (manager : RelayManager) (saves : Prop) : Prop where
  nodup : manager.configuredRelays.Nodup
  keys : ∀ url, (find manager.relayStatuses url).isSome = true → url ∈ manager.configuredRelays
  storeless : manager.storage = none → manager.unsaved = true
  saved : manager.unsaved = false → manager.storage = some manager.configuredRelays ∨ saves

def Complete (manager : RelayManager) : Prop :=
  ∀ url ∈ manager.configuredRelays, (find manager.relayStatuses url).isSome = true

variable {saves later : Prop}

theorem Listed.mono (listed : Listed manager saves) (more : saves → later) :
    Listed manager later :=
  ⟨listed.nodup, listed.keys, listed.storeless, fun saved => (listed.saved saved).imp_right more⟩

theorem Listed.touches (listed : Listed before saves) (touches : Touches allowed before after) :
    Listed after saves where
  nodup := touches.configured ▸ listed.nodup
  keys url present := by
    rw [touches.configured]
    rw [touches.statuses] at present
    exact listed.keys url present
  storeless none := by
    rw [touches.storage] at none
    exact touches.unsaved.trans (listed.storeless none)
  saved saved := by
    rw [touches.unsaved] at saved
    rw [touches.storage, touches.configured]
    exact listed.saved saved

theorem Complete.touches (complete : Complete before) (touches : Touches allowed before after) :
    Complete after := by
  intro url member
  rw [touches.configured] at member
  rw [touches.statuses]
  exact complete url member

theorem Listed.addDefault (listed : Listed manager saves) (config : RelayManagerConfig) :
    Listed (manager.addDefault config) saves := by
  unfold RelayManager.addDefault
  split
  · exact listed
  · split
    · exact listed
    · next normalizedDefault _ absent =>
      refine ⟨List.nodup_cons.mpr ⟨absent, listed.nodup⟩, fun url present => ?_, fun _ => rfl,
        nofun⟩
      exact List.mem_cons_of_mem _ (listed.keys url present)

theorem Listed.addLoaded (listed : Listed manager saves) (config : RelayManagerConfig)
    (url : String) : Listed (manager.addLoaded config url) saves := by
  unfold RelayManager.addLoaded
  split
  · exact listed
  · next normalized _ =>
    split
    · exact listed
    · next refused =>
      have absent : normalized ∉ manager.configuredRelays := fun member =>
        refused (by rw [decide_eq_true member, Bool.or_true])
      refine ⟨?_, fun other present => ?_, fun _ => rfl, nofun⟩
      · refine List.nodup_append.mpr ⟨listed.nodup, List.nodup_singleton _, ?_⟩
        rintro other member _ own rfl
        rw [List.mem_singleton.mp own] at member
        exact absent member
      · exact List.mem_append_left _ (listed.keys other present)

theorem Listed.addAll (listed : Listed manager saves) (config : RelayManagerConfig)
    (savedRelays : List String) :
    Listed (savedRelays.foldl (RelayManager.addLoaded config) manager) saves := by
  induction savedRelays generalizing manager with
  | nil => exact listed
  | cons url rest ih => exact ih (listed.addLoaded config url)

theorem isSome_find_foldl_put (urls : List String) (statuses : List (String × RelayState))
    (url : String) :
    (find (urls.foldl (fun statuses url => put statuses url RelayState.disconnected) statuses)
      url).isSome = true ↔ url ∈ urls ∨ (find statuses url).isSome = true := by
  induction urls generalizing statuses with
  | nil => exact (or_iff_right List.not_mem_nil).symm
  | cons first rest ih =>
    rw [List.foldl_cons, ih, find_put, List.mem_cons]
    by_cases own : first = url
    · rw [if_pos own]
      exact iff_of_true (.inr rfl) (.inl (.inl own.symm))
    · rw [if_neg own, or_iff_right (Ne.symm own)]

theorem Listed.resetStatuses (listed : Listed manager saves) :
    Listed manager.resetStatuses saves :=
  ⟨listed.nodup, fun url present => ((isSome_find_foldl_put _ _ url).mp present).elim id
    (listed.keys url), listed.storeless, listed.saved⟩

theorem complete_resetStatuses (manager : RelayManager) : manager.resetStatuses.Complete :=
  fun url member => (isSome_find_foldl_put _ _ url).mpr (.inl member)

theorem Listed.startConnecting (listed : Listed manager saves) (config : RelayManagerConfig) :
    Listed (manager.startConnecting config).1 saves :=
  (listed.addDefault config).resetStatuses.touches
    (@touches_connectToConfiguredRelays (fun _ => True) _ fun _ _ => trivial)

theorem complete_startConnecting (manager : RelayManager) (config : RelayManagerConfig) :
    (manager.startConnecting config).1.Complete :=
  (complete_resetStatuses _).touches
    (@touches_connectToConfiguredRelays (fun _ => True) _ fun _ _ => trivial)

theorem Listed.save (listed : Listed manager saves) : Listed manager.save later where
  nodup := listed.nodup
  keys := listed.keys
  storeless none := by
    have storeless := Option.map_eq_none_iff.mp none
    dsimp only [RelayManager.save]
    rw [listed.storeless storeless, storeless]
    rfl
  saved saved := by
    dsimp only [RelayManager.save] at saved ⊢
    cases stored : manager.storage with
    | none =>
      rw [listed.storeless stored, stored] at saved
      cases saved
    | some list => exact .inl rfl

/-! ### What a step keeps -/

def Saves (manager : RelayManager) : Prop := ∃ call ∈ manager.calls, call.saves = true

/-- The books of a manager with calls under way: while `initialize` saves, statuses may be missing.
-/
structure Kept (manager : RelayManager) : Prop where
  listed : Listed manager manager.Saves
  complete : manager.Complete ∨ .savingFiltered ∈ manager.calls

theorem Listed.call (listed : Listed manager saves) (stage : Option ManagerCall) :
    Listed (manager.call stage) saves :=
  ⟨listed.nodup, listed.keys, listed.storeless, listed.saved⟩

theorem Kept.call (kept : Kept manager) (stage : Option ManagerCall) :
    Kept (manager.call stage) where
  listed := (kept.listed.call stage).mono fun saves => by
    obtain ⟨call, member, saves⟩ := saves
    exact ⟨call, List.mem_append_left _ member, saves⟩
  complete := kept.complete.imp id (List.mem_append_left _)

theorem Kept.touches (kept : Kept before) (touches : Touches allowed before after) :
    Kept after where
  listed := (kept.listed.touches touches).mono fun saves => by
    unfold Saves
    rw [touches.calls]
    exact saves
  complete := by
    rw [touches.calls]
    exact kept.complete.imp (fun complete => complete.touches touches) id

theorem calls_startConnecting (manager : RelayManager) (config : RelayManagerConfig) :
    (manager.startConnecting config).1.calls = manager.calls := by
  have touches := @touches_connectToConfiguredRelays (fun _ => True)
    (manager.addDefault config).resetStatuses fun _ _ => trivial
  refine touches.calls.trans ?_
  show (manager.addDefault config).calls = manager.calls
  unfold RelayManager.addDefault
  split
  · rfl
  · split <;> rfl

theorem Kept.startInitialize (kept : Kept manager) (config : RelayManagerConfig) :
    Kept (manager.startInitialize config) := by
  unfold RelayManager.startInitialize
  split
  · exact kept
  · split
    · exact kept.call _
    · have started : Kept (manager.startConnecting config).1 := by
        refine ⟨(kept.listed.startConnecting config).mono fun saves => ?_,
          .inl (complete_startConnecting manager config)⟩
        unfold Saves
        rw [calls_startConnecting]
        exact saves
      exact started.call _

theorem Kept.addRelay (kept : Kept manager) (config : RelayManagerConfig) (url : String) :
    Kept (manager.addRelay config url) := by
  unfold RelayManager.addRelay
  split
  · exact kept
  · next normalizedUrl _ =>
    split
    · exact kept
    · next refused =>
      have absent : normalizedUrl ∉ manager.configuredRelays := fun member =>
        refused (by rw [decide_eq_true member, Bool.or_true])
      have touches := @touches_connectToRelay (fun _ => True) normalizedUrl { manager with
        configuredRelays := manager.configuredRelays ++ [normalizedUrl]
        relayStatuses := put manager.relayStatuses normalizedUrl .connecting } trivial
      have added : Listed { manager with
          configuredRelays := manager.configuredRelays ++ [normalizedUrl]
          relayStatuses := put manager.relayStatuses normalizedUrl .connecting } True := by
        refine ⟨?_, fun other present => ?_, kept.listed.storeless, fun _ => .inr trivial⟩
        · refine List.nodup_append.mpr ⟨kept.listed.nodup, List.nodup_singleton _, ?_⟩
          rintro other member _ own rfl
          rw [List.mem_singleton.mp own] at member
          exact absent member
        · dsimp only at present
          rw [find_put] at present
          by_cases own : normalizedUrl = other
          · exact List.mem_append_right _ (List.mem_singleton.mpr own.symm)
          · rw [if_neg own] at present
            exact List.mem_append_left _ (kept.listed.keys other present)
      refine ⟨((added.touches touches).call _).mono fun _ => ?_, ?_⟩
      · exact ⟨_, List.mem_append_right _ (List.mem_singleton_self _), rfl⟩
      · rcases kept.complete with complete | saving
        · have all : Complete { manager with
              configuredRelays := manager.configuredRelays ++ [normalizedUrl]
              relayStatuses := put manager.relayStatuses normalizedUrl .connecting } := by
            intro other member
            dsimp only
            rw [find_put]
            by_cases own : normalizedUrl = other
            · rw [if_pos own]
              rfl
            · rw [if_neg own]
              refine complete other ((List.mem_append.mp member).resolve_right fun added => ?_)
              exact own (List.mem_singleton.mp added).symm
          have connected := all.touches touches
          exact .inl connected
        · refine .inr (List.mem_append_left _ ?_)
          rw [touches.calls]
          exact saving

theorem Kept.removeRelay (kept : Kept manager) (config : RelayManagerConfig) (url : String) :
    Kept (manager.removeRelay config url) := by
  unfold RelayManager.removeRelay
  split
  · exact kept
  · next normalizedUrl _ =>
    split
    · exact kept
    · refine ⟨⟨kept.listed.nodup.erase _, fun other present => ?_, kept.listed.storeless,
        fun saved => .inr ?_⟩, ?_⟩
      · dsimp only [RelayManager.call] at present ⊢
        rw [find_remove] at present
        by_cases own : normalizedUrl = other
        · rw [if_pos own] at present
          cases present
        · rw [if_neg own] at present
          exact (List.mem_erase_of_ne (Ne.symm own)).mpr (kept.listed.keys other present)
      · refine ⟨.saving, List.mem_append_right _ ?_, rfl⟩
        unfold savingCall
        cases stored : manager.storage with
        | none => cases (kept.listed.storeless stored).symm.trans saved
        | some list => exact List.mem_singleton_self _
      · rcases kept.complete with complete | saving
        · refine .inl fun other member => ?_
          dsimp only [RelayManager.call] at member ⊢
          obtain ⟨differs, before⟩ := (List.Nodup.mem_erase_iff kept.listed.nodup).mp member
          rw [find_remove, if_neg (Ne.symm differs)]
          exact complete other before
        · exact .inr (List.mem_append_left _ saving)

theorem Kept.reconnectRelay (kept : Kept manager) (config : RelayManagerConfig) (url : String) :
    Kept (manager.reconnectRelay config url) := by
  unfold RelayManager.reconnectRelay
  split
  · exact kept
  · split
    · exact kept
    · exact (kept.touches (touches_reconnect (fun _ => True) manager trivial)).call _

theorem touches_checkRelayHealth (manager : RelayManager) (unhealthy : List String) :
    Touches allowed manager (manager.checkRelayHealth unhealthy) :=
  touches_foldl _ _ manager fun _ _ _ => touches_updateRelayStatus _ _ _

theorem Kept.startLoop (kept : Kept manager) {marked : RelayManager} (urls : List String)
    (touches : Touches (fun _ => True) manager marked) :
    Kept ((marked.connectNext urls).1.call (marked.connectNext urls).2) :=
  (kept.touches (touches.trans (touches_connectNext _ fun _ _ => trivial))).call _

theorem touches_retry (manager : RelayManager) (unhealthy : List String) :
    Touches allowed manager ((manager.checkRelayHealth unhealthy).disconnectedRelays.foldl
      (fun manager url => manager.updateRelayStatus url .connecting)
      (manager.checkRelayHealth unhealthy)) :=
  (touches_checkRelayHealth manager unhealthy).trans
    (touches_foldl _ _ _ fun _ _ _ => touches_updateRelayStatus _ _ _)

theorem touches_forceReconnect (manager : RelayManager) :
    Touches allowed manager (manager.configuredRelays.foldl
      (fun manager url => (manager.poolRemove url).updateRelayStatus url .connecting) manager) :=
  touches_foldl _ _ manager fun _ _ _ =>
    (touches_poolRemove _ _).trans (touches_updateRelayStatus _ _ _)

theorem touches_syncStatus (manager : RelayManager) (states : String → RelayState) :
    Touches allowed manager (manager.syncStatusFromRelayPool states) :=
  touches_foldl _ _ manager fun _ _ _ => touches_updateRelayStatus _ _ _

/-- A list that is going to be saved still is, when the call that goes on leaves that to its next
stage. -/
theorem Saves.goesOn (saves : manager.Saves) {position : Nat} {call : ManagerCall}
    {next : Option ManagerCall} (present : manager.calls[position]? = some call)
    (still : call.saves = true → ∃ stage, next = some stage ∧ stage.saves = true) :
    ∃ other ∈ proceed manager.calls position next, other.saves = true := by
  obtain ⟨other, member, saves⟩ := saves
  rcases mem_proceed_of_mem member position next with same | kept
  · cases present.symm.trans same
    obtain ⟨stage, follows, saves⟩ := still saves
    rw [follows]
    exact ⟨stage, mem_proceed_next present stage, saves⟩
  · exact ⟨other, kept, saves⟩

theorem kept_proceed {resumed : RelayManager × Option ManagerCall} {position : Nat}
    (calls : resumed.1.calls = manager.calls)
    (listed : Listed resumed.1
      (∃ other ∈ proceed manager.calls position resumed.2, other.saves = true))
    (complete : resumed.1.Complete ∨ .savingFiltered ∈ proceed manager.calls position resumed.2) :
    Kept { resumed.1 with calls := proceed resumed.1.calls position resumed.2 } := by
  rw [← calls] at listed complete
  exact ⟨⟨listed.nodup, listed.keys, listed.storeless, listed.saved⟩, complete⟩

theorem Kept.stillComplete (kept : Kept manager) {position : Nat} {call : ManagerCall}
    (present : manager.calls[position]? = some call) (filtered : call ≠ .savingFiltered)
    (complete : manager.Complete → after.Complete) (next : Option ManagerCall) :
    after.Complete ∨ .savingFiltered ∈ proceed manager.calls position next := by
  refine kept.complete.imp complete fun saving => ?_
  refine (mem_proceed_of_mem saving position next).resolve_left fun same => ?_
  exact filtered (Option.some.inj (present.symm.trans same))

theorem Kept.goesOn (kept : Kept manager) {position : Nat} {call : ManagerCall}
    {resumed : RelayManager × Option ManagerCall} (present : manager.calls[position]? = some call)
    (touches : Touches allowed manager resumed.1)
    (still : call.saves = true → ∃ stage, resumed.2 = some stage ∧ stage.saves = true)
    (filtered : call ≠ .savingFiltered) :
    Kept { resumed.1 with calls := proceed resumed.1.calls position resumed.2 } :=
  kept_proceed touches.calls
    ((kept.listed.touches touches).mono fun saves => saves.goesOn present still)
    (kept.stillComplete present filtered (fun complete => complete.touches touches) resumed.2)

theorem calls_addAll (savedRelays : List String) (manager : RelayManager) :
    (savedRelays.foldl (RelayManager.addLoaded config) manager).calls = manager.calls := by
  induction savedRelays generalizing manager with
  | nil => rfl
  | cons url rest ih =>
    refine (ih _).trans ?_
    unfold RelayManager.addLoaded
    split
    · rfl
    · split <;> rfl

theorem Kept.loaded (kept : Kept manager) (config : RelayManagerConfig) {savedRelays : List String}
    {position : Nat} (present : manager.calls[position]? = some (.loaded savedRelays)) :
    Kept { (manager.addAllLoaded config savedRelays).1 with
      calls := proceed (manager.addAllLoaded config savedRelays).1.calls position
        (manager.addAllLoaded config savedRelays).2 } := by
  have listed := kept.listed.addAll config savedRelays
  have calls := @calls_addAll config savedRelays manager
  unfold addAllLoaded
  dsimp only
  split
  · refine @kept_proceed manager (_, some .savingFiltered) position calls
      (listed.mono fun saves => saves.goesOn present nofun)
      (.inr (mem_proceed_next present _))
  · refine kept_proceed ((calls_startConnecting _ config).trans calls)
      ((listed.startConnecting config).mono fun saves => saves.goesOn present fun saves => by
        cases saves) (.inl (complete_startConnecting _ config))

theorem Kept.resume (kept : Kept manager) (config : RelayManagerConfig)
    (successes : String → Bool) {position : Nat} {call : ManagerCall}
    (present : manager.calls[position]? = some call) :
    Kept { (manager.resume config successes call).1 with
      calls := proceed (manager.resume config successes call).1.calls position
        (manager.resume config successes call).2 } := by
  cases call with
  | loading =>
    exact kept.goesOn present (@Touches.refl (fun _ => True) manager)
      nofun ManagerCall.noConfusion
  | loaded savedRelays => exact kept.loaded config present
  | savingFiltered =>
    refine kept_proceed (calls_startConnecting manager.save config)
      (Listed.startConnecting kept.listed.save config)
      (.inl (complete_startConnecting manager.save config))
  | connecting relaysToConnect =>
    have touches := @touches_foldl (fun _ => True)
      (fun manager url => manager.updateConnected url (successes url)) relaysToConnect manager
      fun _ _ _ => touches_updateConnected _ _ _
    have initialized : Touches (fun _ => True) manager
        (manager.resume config successes (.connecting relaysToConnect)).1 :=
      ⟨touches.configured, touches.storage, touches.unsaved, touches.calls, touches.statuses,
        touches.nodup, touches.pool⟩
    exact kept.goesOn present initialized nofun ManagerCall.noConfusion
  | adding url =>
    have touches := @touches_updateConnected (fun _ => True) manager url (successes url)
    cases stored : manager.storage with
    | none =>
      -- without a storage there is nothing to save
      have storeless : Listed manager False := ⟨kept.listed.nodup, kept.listed.keys,
        kept.listed.storeless, fun saved => by
          cases (kept.listed.storeless stored).symm.trans saved⟩
      exact kept_proceed touches.calls ((storeless.touches touches).mono False.elim)
        (kept.stillComplete present ManagerCall.noConfusion
          (fun complete => complete.touches touches) _)
    | some list =>
      refine kept.goesOn present touches (fun _ => ⟨.saving, ?_, rfl⟩) ManagerCall.noConfusion
      show manager.savingCall = _
      unfold savingCall
      rw [stored]
      rfl
  | saving =>
    exact kept_proceed rfl kept.listed.save
      (kept.stillComplete present ManagerCall.noConfusion id none)
  | reconnecting url =>
    exact kept.goesOn present (@touches_updateConnected (fun _ => True) manager url (successes url))
      nofun ManagerCall.noConfusion
  | looping url rest =>
    exact kept.goesOn present ((touches_updateConnected manager url (successes url)).trans
      (@touches_connectNext (fun _ => True) _ rest fun _ _ => trivial))
      nofun ManagerCall.noConfusion

theorem kept_of_step {action : ManagerAction} (kept : Kept manager)
    (stepped : managerStep config manager action = some next) : Kept next := by
  cases action with
  | resume position successes =>
    obtain ⟨call, present, rfl⟩ := Option.map_eq_some_iff.mp stepped
    exact kept.resume config successes present
  | startInitialize => exact Option.some.inj stepped ▸ kept.startInitialize config
  | addRelay url => exact Option.some.inj stepped ▸ kept.addRelay config url
  | removeRelay url => exact Option.some.inj stepped ▸ kept.removeRelay config url
  | reconnectRelay url => exact Option.some.inj stepped ▸ kept.reconnectRelay config url
  | retryDisconnectedRelays unhealthy =>
    exact Option.some.inj stepped ▸ kept.startLoop _ (touches_retry manager unhealthy)
  | forceReconnectAll =>
    exact Option.some.inj stepped ▸ kept.startLoop _ (touches_forceReconnect manager)
  | syncStatus states =>
    exact Option.some.inj stepped ▸ kept.touches
      (@touches_syncStatus (fun _ => True) manager states)

/-! ### The pool -/

structure PoolKept (manager : RelayManager) : Prop where
  nodup : manager.pool.Nodup
  pool : ∀ url ∈ manager.pool, url ∈ manager.configuredRelays
  loops : ∀ url rest, .looping url rest ∈ manager.calls →
    ∀ other ∈ rest, other ∈ manager.configuredRelays

def Reconnects (config : RelayManagerConfig) (manager : RelayManager) : ManagerAction → Prop
  | .removeRelay url => ∀ normalizedUrl, config.normalizeUrl url = some normalizedUrl →
      ∀ current rest, .looping current rest ∈ manager.calls → normalizedUrl ∉ rest
  | .startInitialize | .addRelay _ | .reconnectRelay _ | .retryDisconnectedRelays _
  | .forceReconnectAll | .syncStatus _ | .resume _ _ => True

theorem PoolKept.touches (kept : PoolKept before)
    (touches : Touches (fun url => url ∈ before.configuredRelays) before after) :
    PoolKept after where
  nodup := touches.nodup kept.nodup
  pool url member := by
    rw [touches.configured]
    exact (touches.pool url member).elim (kept.pool url) id
  loops := by
    rw [touches.configured, touches.calls]
    exact kept.loops

theorem PoolKept.grow (kept : PoolKept before) (pool : after.pool = before.pool)
    (calls : after.calls = before.calls)
    (more : before.configuredRelays ⊆ after.configuredRelays) : PoolKept after where
  nodup := pool ▸ kept.nodup
  pool url member := more (kept.pool url (pool ▸ member))
  loops := by
    rw [calls]
    exact fun current rest member other inside => more (kept.loops current rest member other inside)

section

variable (kept : PoolKept manager)

include kept

theorem PoolKept.call (stage : Option ManagerCall)
    (loops : ∀ url rest, stage = some (.looping url rest) →
      ∀ other ∈ rest, other ∈ manager.configuredRelays) : PoolKept (manager.call stage) where
  nodup := kept.nodup
  pool := kept.pool
  loops url rest member := by
    rcases List.mem_append.mp member with earlier | added
    · exact kept.loops url rest earlier
    · exact loops url rest (Option.mem_toList.mp added)

theorem PoolKept.proceed {position : Nat} {stage : Option ManagerCall}
    (loops : ∀ url rest, stage = some (.looping url rest) →
      ∀ other ∈ rest, other ∈ manager.configuredRelays) :
    PoolKept { manager with calls := proceed manager.calls position stage } where
  nodup := kept.nodup
  pool := kept.pool
  loops url rest member := by
    rcases mem_proceed member with follows | member
    · exact loops url rest follows
    · exact kept.loops url rest (List.mem_of_mem_eraseIdx member)

theorem PoolKept.addDefault (config : RelayManagerConfig) :
    PoolKept (manager.addDefault config) := by
  unfold RelayManager.addDefault
  split
  · exact kept
  · split
    · exact kept
    · exact kept.grow rfl rfl (List.subset_cons_self _ _)

theorem PoolKept.addAll (config : RelayManagerConfig) (savedRelays : List String) :
    PoolKept (savedRelays.foldl (RelayManager.addLoaded config) manager) := by
  induction savedRelays generalizing manager with
  | nil => exact kept
  | cons url rest ih =>
    refine ih ?_
    unfold RelayManager.addLoaded
    split
    · exact kept
    · split
      · exact kept
      · exact kept.grow rfl rfl (List.subset_append_left _ _)

theorem PoolKept.startConnecting (config : RelayManagerConfig) :
    PoolKept (manager.startConnecting config).1 := by
  have reset : PoolKept (manager.addDefault config).resetStatuses :=
    (kept.addDefault config).grow rfl rfl (List.Subset.refl _)
  exact reset.touches (touches_connectToConfiguredRelays _ fun _ member => member)

theorem PoolKept.startInitialize (config : RelayManagerConfig) :
    PoolKept (manager.startInitialize config) := by
  unfold RelayManager.startInitialize
  split
  · exact kept
  · split
    · exact kept.call _ nofun
    · exact (kept.startConnecting config).call _ nofun

theorem PoolKept.addRelay (config : RelayManagerConfig) (url : String) :
    PoolKept (manager.addRelay config url) := by
  unfold RelayManager.addRelay
  split
  · exact kept
  · next normalizedUrl _ =>
    split
    · exact kept
    · have grown : PoolKept { manager with
          configuredRelays := manager.configuredRelays ++ [normalizedUrl]
          relayStatuses := put manager.relayStatuses normalizedUrl .connecting } :=
        kept.grow rfl rfl (List.subset_append_left _ _)
      refine (grown.touches (touches_connectToRelay _ ?_)).call _ nofun
      exact List.mem_append_right _ (List.mem_singleton_self _)

theorem PoolKept.removeRelay (reconnects : Reconnects config manager (.removeRelay url)) :
    PoolKept (manager.removeRelay config url) := by
  unfold RelayManager.removeRelay
  cases normalized : config.normalizeUrl url with
  | none => exact kept
  | some normalizedUrl =>
    dsimp only
    split
    · exact kept
    · have removed : PoolKept { manager.poolRemove normalizedUrl with
          configuredRelays := manager.configuredRelays.erase normalizedUrl
          relayStatuses := remove manager.relayStatuses normalizedUrl } := by
        refine ⟨kept.nodup.erase _, fun other member => ?_,
          fun current rest member other inside => ?_⟩
        · obtain ⟨differs, before⟩ := (List.Nodup.mem_erase_iff kept.nodup).mp member
          exact (List.mem_erase_of_ne differs).mpr (kept.pool other before)
        · refine (List.mem_erase_of_ne ?_).mpr (kept.loops current rest member other inside)
          rintro rfl
          exact reconnects _ normalized current rest member inside
      refine removed.call _ fun current rest same => ?_
      obtain ⟨_, -, same⟩ := Option.map_eq_some_iff.mp same
      cases same

theorem PoolKept.reconnectRelay (config : RelayManagerConfig)
    (url : String) : PoolKept (manager.reconnectRelay config url) := by
  unfold RelayManager.reconnectRelay
  split
  · exact kept
  · split
    · exact kept
    · next configured =>
      refine (kept.touches (touches_reconnect _ manager (not_not.mp configured))).call _ ?_
      exact nofun

theorem PoolKept.connectNext {urls : List String}
    (configured : ∀ url ∈ urls, url ∈ manager.configuredRelays) :
    PoolKept (manager.connectNext urls).1 ∧
      ∀ url rest, (manager.connectNext urls).2 = some (.looping url rest) →
        ∀ other ∈ rest, other ∈ (manager.connectNext urls).1.configuredRelays := by
  have touches := touches_connectNext manager configured
  refine ⟨kept.touches touches, fun url rest same other member => ?_⟩
  rw [touches.configured]
  cases urls with
  | nil => cases same
  | cons first later =>
    cases same
    exact configured other (List.mem_cons_of_mem _ member)

theorem PoolKept.startLoop {marked : RelayManager} {urls : List String}
    (touches : Touches (fun url => url ∈ manager.configuredRelays) manager marked)
    (configured : ∀ url ∈ urls, url ∈ manager.configuredRelays) :
    PoolKept ((marked.connectNext urls).1.call (marked.connectNext urls).2) := by
  rw [← touches.configured] at configured
  obtain ⟨connected, loops⟩ := (kept.touches touches).connectNext configured
  exact connected.call _ loops

theorem PoolKept.resume (config : RelayManagerConfig)
    (successes : String → Bool) {position : Nat} {call : ManagerCall}
    (present : manager.calls[position]? = some call) :
    PoolKept { (manager.resume config successes call).1 with
      calls := Interleaving.proceed (manager.resume config successes call).1.calls position
        (manager.resume config successes call).2 } := by
  cases call with
  | loading => exact kept.proceed nofun
  | loaded savedRelays =>
    show PoolKept { (manager.addAllLoaded config savedRelays).1 with
      calls := Interleaving.proceed (manager.addAllLoaded config savedRelays).1.calls position
        (manager.addAllLoaded config savedRelays).2 }
    unfold addAllLoaded
    dsimp only
    split
    · exact (kept.addAll config savedRelays).proceed nofun
    · exact ((kept.addAll config savedRelays).startConnecting config).proceed fun _ _ same => by
        cases same
  | savingFiltered =>
    have saved : PoolKept manager.save := ⟨kept.nodup, kept.pool, kept.loops⟩
    exact (saved.startConnecting config).proceed nofun
  | connecting relaysToConnect =>
    have touched := kept.touches (touches_foldl
      (fun manager url => manager.updateConnected url (successes url)) relaysToConnect manager
        fun _ _ _ => touches_updateConnected _ _ _)
    have initialized : PoolKept
        (manager.resume config successes (.connecting relaysToConnect)).1 :=
      ⟨touched.nodup, touched.pool, touched.loops⟩
    exact initialized.proceed nofun
  | adding url =>
    refine (kept.touches (touches_updateConnected _ _ _)).proceed fun _ _ same => ?_
    obtain ⟨_, -, same⟩ := Option.map_eq_some_iff.mp same
    cases same
  | saving =>
    have saved : PoolKept manager.save := ⟨kept.nodup, kept.pool, kept.loops⟩
    exact saved.proceed nofun
  | reconnecting url =>
    exact (kept.touches (touches_updateConnected _ _ _)).proceed nofun
  | looping url rest =>
    have configured := kept.loops url rest (List.mem_of_getElem? present)
    have touches := @touches_updateConnected (fun url => url ∈ manager.configuredRelays) manager url
      (successes url)
    rw [← touches.configured] at configured
    obtain ⟨connected, loops⟩ := (kept.touches touches).connectNext configured
    exact connected.proceed loops

end

theorem poolKept_of_step {action : ManagerAction} (poolKept : PoolKept manager)
    (reconnects : Reconnects config manager action)
    (stepped : managerStep config manager action = some next) : PoolKept next := by
  cases action with
  | resume position successes =>
    obtain ⟨call, present, rfl⟩ := Option.map_eq_some_iff.mp stepped
    exact poolKept.resume config successes present
  | startInitialize => exact Option.some.inj stepped ▸ poolKept.startInitialize config
  | addRelay url => exact Option.some.inj stepped ▸ poolKept.addRelay config url
  | removeRelay url =>
    exact Option.some.inj stepped ▸ poolKept.removeRelay reconnects
  | reconnectRelay url => exact Option.some.inj stepped ▸ poolKept.reconnectRelay config url
  | retryDisconnectedRelays unhealthy =>
    refine Option.some.inj stepped ▸ poolKept.startLoop (touches_retry manager unhealthy) ?_
    intro url member
    have touches := @touches_checkRelayHealth (fun _ => True) manager unhealthy
    exact touches.configured ▸ List.mem_of_mem_filter member
  | forceReconnectAll =>
    exact Option.some.inj stepped ▸ poolKept.startLoop (touches_forceReconnect manager)
      fun _ member => member
  | syncStatus states =>
    exact Option.some.inj stepped ▸ poolKept.touches (touches_syncStatus manager states)

/-! ### Runs -/

/-- What agrees when no call is under way. -/
structure Agrees (manager : RelayManager) : Prop where
  nodup : manager.configuredRelays.Nodup
  statuses : ∀ url, (find manager.relayStatuses url).isSome = true ↔ url ∈ manager.configuredRelays
  saved : manager.unsaved = false → manager.storage = some manager.configuredRelays

theorem kept_new (storage : Option (List String)) : Kept (new storage) where
  listed := by
    refine ⟨List.nodup_nil, fun _ present => ?_, fun _ => rfl, fun saved => ?_⟩
    · cases present
    · cases saved
  complete := .inl nofun

theorem poolKept_new (storage : Option (List String)) : PoolKept (new storage) :=
  ⟨List.nodup_nil, nofun,
    nofun⟩

theorem Kept.agrees (kept : Kept manager) (idle : manager.calls = []) : manager.Agrees where
  nodup := kept.listed.nodup
  statuses url := by
    refine ⟨kept.listed.keys url, fun member => ?_⟩
    rcases kept.complete with complete | saving
    · exact complete url member
    · rw [idle] at saving
      cases saving
  saved saved := by
    refine (kept.listed.saved saved).resolve_right ?_
    rintro ⟨call, member, -⟩
    rw [idle] at member
    cases member

/-- After every run that left no call under way the list, the statuses, the storage and, without
races, the pool agree. -/
theorem agrees_of_run {storage : Option (List String)} {actions : List ManagerAction}
    {final : RelayManager}
    (ran : Transition.run (managerStep config) (new storage) actions = some final)
    (idle : final.calls = []) :
    final.Agrees ∧
      (Transition.Meets (managerStep config) (Reconnects config) (new storage) actions →
      ∀ url ∈ final.pool, url ∈ final.configuredRelays) := by
  constructor
  · exact (Transition.invariant_of_run (managerStep config)
      (fun _ _ _ kept stepped => kept_of_step kept stepped) (kept_new storage) ran).agrees idle
  · intro meets
    exact (Transition.invariant_of_meets (managerStep config)
      (fun _ _ _ kept reconnects stepped => poolKept_of_step kept reconnects stepped)
      (poolKept_new storage) meets ran).pool

end RelayManager

/-! ### Runs of one manager -/

def sampleConfig : RelayManagerConfig where
  defaultRelayUrl := "wss://d"
  host url := some (String.ofList (url.toList.drop 6))

/-- A relay is stored, another is added, and all are reconnected. -/
def reconnectedRun : List ManagerAction :=
  [.startInitialize, .resume 0 fun _ => true, .resume 0 fun _ => true, .resume 0 fun _ => true,
    .addRelay "b", .resume 0 fun _ => true, .resume 0 fun _ => true, .forceReconnectAll,
    .resume 0 fun _ => true, .resume 0 fun _ => true, .resume 0 fun _ => true]

theorem agrees_reconnected : ∃ final,
    Transition.run (managerStep sampleConfig)
      (.new (some ["wss://a"])) reconnectedRun = some final ∧
      final.Agrees ∧ (∀ url ∈ final.pool, url ∈ final.configuredRelays) ∧
        final.configuredRelays = ["wss://d", "wss://a", "wss://b"] ∧ final.unsaved = false := by
  have meets : Transition.Meets (managerStep sampleConfig) (RelayManager.Reconnects sampleConfig)
      (.new (some ["wss://a"])) reconnectedRun :=
    .cons _ trivial rfl (.cons _ trivial rfl (.cons _ trivial rfl (.cons _ trivial rfl
      (.cons _ trivial rfl (.cons _ trivial rfl (.cons _ trivial rfl (.cons _ trivial rfl
        (.cons _ trivial rfl (.cons _ trivial rfl (.cons _ trivial rfl trivial))))))))))
  have agrees :=
    @RelayManager.agrees_of_run sampleConfig (some ["wss://a"]) reconnectedRun _ rfl rfl
  exact ⟨_, rfl, agrees.1, agrees.2 meets, rfl, rfl⟩

def initializedRun : List ManagerAction :=
  [.startInitialize, .resume 0 fun _ => true, .resume 0 fun _ => true, .resume 0 fun _ => true]

def removedRun : List ManagerAction :=
  initializedRun ++ [.forceReconnectAll, .removeRelay "wss://a", .resume 1 fun _ => true,
    .resume 0 fun _ => true, .resume 0 fun _ => true]

/-- The default relay is not saved, and the relay that was removed is in the pool again. -/
theorem unsaved_and_pooled :
    (∃ final, Transition.run (managerStep sampleConfig) (.new (some ["wss://a"])) initializedRun =
      some final ∧ final.calls = [] ∧ final.storage = some ["wss://a"] ∧
        final.configuredRelays = ["wss://d", "wss://a"]) ∧
    ∃ final, Transition.run (managerStep sampleConfig) (.new (some ["wss://a"])) removedRun =
      some final ∧ final.calls = [] ∧ final.pool = ["wss://d", "wss://a"] ∧
        final.configuredRelays = ["wss://d"] :=
  ⟨⟨_, rfl, rfl, rfl, rfl⟩, ⟨_, rfl, rfl, rfl, rfl⟩⟩

end Divine.NostrClient
