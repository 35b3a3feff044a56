/-
This file shows which players of a feed are to be heard.
-/

import Divine.PooledVideoPlayer.PreloadWindow

namespace Divine.PooledVideoPlayer

open Dictionary Interleaving VideoFeed

variable {before middle after feed next : VideoFeed} {index other : Int} {player : Nat}

namespace VideoFeed

/-! ### Muting what is released -/

@[simp] theorem audio_setVolume (feed : VideoFeed) (player volume other : Nat) :
    (feed.setVolume player volume).audio other =
      if other = player then ⟨some volume, (feed.audio other).playing⟩ else feed.audio other := rfl

@[simp] theorem audio_setPlaying (feed : VideoFeed) (player : Nat) (playing : Bool) (other : Nat) :
    (feed.setPlaying player playing).audio other =
      if other = player then ⟨(feed.audio other).volume, playing⟩ else feed.audio other := rfl

/-- Some indices are forgotten, whose players are muted or disposed, and no other player is touched.
-/
structure Releases (before after : VideoFeed) : Prop where
  drops : Drops before after
  spared : ∀ player, after.audio player = before.audio player ∨
    ∃ index, before.player index = some player ∧ after.player index = none
  muted : ∀ index player, before.player index = some player → after.player index = none →
    (after.audio player).volume = some 0 ∨ player ∈ before.pool.disposed

theorem Drops.player_none (drops : Drops before after) (absent : before.player index = none) :
    after.player index = none := by
  cases present : after.player index with
  | none => rfl
  | some player => cases (drops.player_eq present).symm.trans absent

theorem Releases.refl (feed : VideoFeed) : Releases feed feed where
  drops := .refl feed
  spared _ := .inl rfl
  muted _ _ present absent := by cases present.symm.trans absent

theorem Releases.trans (first : Releases before middle) (second : Releases middle after) :
    Releases before after where
  drops := first.drops.trans second.drops
  spared player := by
    rcases second.spared player with same | ⟨index, present, gone⟩
    · rcases first.spared player with earlier | ⟨index, present, gone⟩
      · exact .inl (same.trans earlier)
      · exact .inr ⟨index, present, second.drops.player_none gone⟩
    · exact .inr ⟨index, first.drops.player_eq present, gone⟩
  muted index player present gone := by
    cases between : middle.player index with
    | none =>
      rcases first.muted index player present between with silent | disposed
      · rcases second.spared player with same | ⟨other, present, gone⟩
        · exact .inl ((congrArg PlayerAudio.volume same).trans silent)
        · have muted := second.muted other player present gone
          rwa [first.drops.pool] at muted
      · exact .inr disposed
    | some other =>
      have same := Option.some.inj (present.symm.trans (first.drops.player_eq between))
      have muted := second.muted index player (same ▸ between) gone
      rwa [first.drops.pool] at muted

theorem releases_foldl {Item : Type} {act : VideoFeed → Item → VideoFeed} (items : List Item)
    (feed : VideoFeed)
    (each : ∀ item ∈ items, ∀ current, Drops feed current → Releases current (act current item)) :
    Releases feed (items.foldl act feed) := by
  induction items generalizing feed with
  | nil => exact .refl feed
  | cons item rest ih =>
    have first := each item List.mem_cons_self feed (.refl feed)
    refine first.trans (ih _ fun later member current drops => ?_)
    exact each later (List.mem_cons_of_mem item member) current (first.drops.trans drops)

theorem player_forget (feed : VideoFeed) (index other : Int) :
    (feed.forget index).player other = if index = other then none else feed.player other :=
  find_remove _ index other

theorem releases_releasePlayer (feed : VideoFeed) (index : Int) :
    Releases feed (feed.releasePlayer index) where
  drops := drops_releasePlayer
  spared player := by
    unfold releasePlayer onPlayer
    cases present : feed.player index with
    | none => exact .inl rfl
    | some own =>
      by_cases same : player = own
      · exact .inr ⟨index, same ▸ present, goneAt_forget.player⟩
      · refine .inl ?_
        show ((feed.setVolume own 0).setPlaying own false).audio player = _
        rw [audio_setPlaying, if_neg same, audio_setVolume, if_neg same]
  muted other player present gone := by
    unfold releasePlayer onPlayer at *
    rw [player_forget] at gone
    by_cases own : index = other
    · rw [own, present]
      refine .inl ?_
      show ((((feed.setVolume player 0).setPlaying player false).audio player).volume) = _
      rw [audio_setPlaying, if_pos rfl, audio_setVolume, if_pos rfl]
    · rw [if_neg own] at gone
      cases held : feed.player index with
      | none =>
        rw [held] at gone
        cases present.symm.trans gone
      | some held' =>
        rw [held] at gone
        cases present.symm.trans gone

theorem releases_onPlayerEvicted {callback : Int × Nat}
    (disposed : callback.2 ∈ feed.pool.disposed) :
    Releases feed (feed.onPlayerEvicted callback) where
  drops := drops_onPlayerEvicted callback
  spared player := by
    unfold onPlayerEvicted
    split <;> exact .inl rfl
  muted index player present gone := by
    unfold onPlayerEvicted at gone
    split at gone
    · next held =>
      rw [player_forget] at gone
      by_cases own : callback.1 = index
      · rw [own, present] at held
        exact .inr (Option.some.inj held ▸ disposed)
      · rw [if_neg own] at gone
        cases present.symm.trans gone
    · cases present.symm.trans gone

theorem Releases.withLoop (releases : Releases before after) (loop : List Int) :
    Releases { before with loop := loop } { after with loop := loop } :=
  ⟨releases.drops.withLoop loop, releases.spared, releases.muted⟩

theorem releases_updatePreloadWindow (feed : VideoFeed) (index : Int) :
    Releases { feed with loop := index :: (feed.window index).filter fun other => other ≠ index }
      (feed.updatePreloadWindow index) :=
  (releases_foldl _ feed fun _ _ _ _ => releases_releasePlayer _ _).withLoop _

theorem releases_releaseAllPlayers (feed : VideoFeed) : Releases feed feed.releaseAllPlayers :=
  releases_foldl _ feed fun _ _ _ _ => releases_releasePlayer _ _

theorem releases_withPool (feed : VideoFeed) (pool : PlayerPool) :
    Releases (feed.disposes pool) (feed.withPool pool) := by
  refine releases_foldl _ _ fun callback member current drops => releases_onPlayerEvicted ?_
  have evicted := of_decide_eq_true (List.mem_filter.mp member).2
  rw [drops.pool]
  exact evicted.1

theorem audio_withPool (feed : VideoFeed) (pool : PlayerPool) :
    (feed.withPool pool).audio = feed.audio := by
  have each (callbacks : List (Int × Nat)) (current : VideoFeed) :
      (callbacks.foldl onPlayerEvicted current).audio = current.audio := by
    induction callbacks generalizing current with
    | nil => rfl
    | cons callback rest ih =>
      refine (ih _).trans ?_
      unfold onPlayerEvicted
      split <;> rfl
  exact each _ _

theorem notMem_window_of_released (present : feed.player other = some player)
    (gone : (feed.updatePreloadWindow index).player other = none) : other ∉ feed.window index := by
  intro kept
  have each (indices : List Int) (absent : other ∉ indices) (current : VideoFeed) :
      (indices.foldl releasePlayer current).player other = current.player other := by
    induction indices generalizing current with
    | nil => rfl
    | cons first rest ih =>
      have apart := not_or.mp (mt List.mem_cons.mpr absent)
      refine (ih apart.2 _).trans ?_
      unfold releasePlayer
      rw [player_forget, if_neg (Ne.symm apart.1)]
      unfold onPlayer
      cases current.player first <;> rfl
  have same := each ((feed.loadedPlayers.map Prod.fst).filter fun key => key ∉ feed.window index)
    (fun member => of_decide_eq_true (List.mem_filter.mp member).2 kept) feed
  cases present.symm.trans (same.symm.trans gone)

end VideoFeed

/-! ### Players that are not muted -/

/-- A player not muted is the current index's, and what is ready or subscribed has a player. -/
structure Quiet (feed : VideoFeed) : Prop where
  volume : ∀ player volume, player ∉ feed.pool.disposed →
    (feed.audio player).volume = some volume → volume ≠ 0 →
      feed.player feed.currentIndex = some player
  ready : ∀ index, feed.isVideoReady index = true → feed.player index ≠ none
  subscribed : ∀ index ∈ feed.bufferSubscriptions, feed.player index ≠ none

theorem Quiet.of_released (quiet : Quiet before) (drops : Drops before after)
    (volume : ∀ player volume, player ∉ after.pool.disposed →
      (after.audio player).volume = some volume → volume ≠ 0 →
        after.player after.currentIndex = some player) : Quiet after where
  volume := volume
  ready index ready := by
    rcases drops.each index with same | gone
    · rw [same.player]
      refine quiet.ready index ?_
      unfold isVideoReady at *
      rwa [← same.state]
    · unfold isVideoReady at ready
      rw [gone.state] at ready
      cases of_decide_eq_true ready
  subscribed index member := by
    rcases drops.each index with same | gone
    · rw [same.player]
      exact quiet.subscribed index (same.subscribed.mp member)
    · exact absurd member gone.subscribed

theorem Quiet.releases (quiet : Quiet before) (releases : Releases before after) :
    Quiet after := by
  refine quiet.of_released releases.drops fun player volume alive set audible => ?_
  have pool := releases.drops.pool
  have current := releases.drops.currentIndex
  rw [pool] at alive
  have silent (muted : (after.audio player).volume = some 0 ∨ player ∈ before.pool.disposed) :
      False := by
    rcases muted with zero | disposed
    · exact audible (Option.some.inj (set.symm.trans zero))
    · exact alive disposed
  rcases releases.spared player with same | ⟨index, present, gone⟩
  · have held := quiet.volume player volume alive (same ▸ set) audible
    rw [current]
    rcases releases.drops.each before.currentIndex with kept | gone
    · exact kept.player.trans held
    · exact (silent (releases.muted _ player held gone.player)).elim
  · exact (silent (releases.muted index player present gone)).elim

section

variable (quiet : Quiet feed)

include quiet

theorem Quiet.setVolume {volume : Nat}
    (allowed : volume = 0 ∨ feed.player feed.currentIndex = some player) :
    Quiet (feed.setVolume player volume) where
  volume other set alive held audible := by
    rw [audio_setVolume] at held
    by_cases own : other = player
    · rw [if_pos own] at held
      rw [← Option.some.inj held] at audible
      exact own ▸ allowed.resolve_left audible
    · rw [if_neg own] at held
      exact quiet.volume other set alive held audible
  ready := quiet.ready
  subscribed := quiet.subscribed

theorem Quiet.setPlaying (playing : Bool) :
    Quiet (feed.setPlaying player playing) where
  volume other set alive held audible := by
    refine quiet.volume other set alive ?_ audible
    rw [audio_setPlaying] at held
    by_cases own : other = player
    · rwa [if_pos own] at held
    · rwa [if_neg own] at held
  ready := quiet.ready
  subscribed := quiet.subscribed

theorem Quiet.muteReused (call : PoolCall) : Quiet (feed.muteReused call) := by
  cases call with
  | getPlayer url =>
    unfold VideoFeed.muteReused
    dsimp only
    split
    · exact quiet
    · cases find feed.pool.players url with
      | none => exact quiet
      | some player => exact quiet.setVolume (.inl rfl)
  | evicting _ | creating _ _ | getExistingPlayer _ | release _ | dispose | disposing _ =>
    exact quiet

theorem Quiet.withPool {pool : PlayerPool}
    (grows : feed.pool.disposed ⊆ pool.disposed) : Quiet (feed.withPool pool) := by
  have disposed : Quiet (feed.disposes pool) :=
    ⟨fun player volume alive => quiet.volume player volume fun earlier => alive (grows earlier),
      quiet.ready, quiet.subscribed⟩
  exact disposed.releases (releases_withPool feed pool)

theorem Quiet.advancePool (call : PoolCall) :
    Quiet (feed.advancePool call).1 := by
  refine (quiet.muteReused call).withPool ?_
  rw [(drops_muteReused call).pool]
  exact feed.pool.disposed_subset_advance feed.maxPlayers call

theorem Quiet.putState {state : LoadState} (unready : state ≠ .ready) (loadingIndices : List Int) :
    Quiet { feed with
      loadStates := put feed.loadStates index state
      loadingIndices := loadingIndices } where
  volume := quiet.volume
  ready other ready := by
    have found := of_decide_eq_true ready
    rw [find_put] at found
    by_cases own : index = other
    · rw [if_pos own] at found
      exact absurd (Option.some.inj found) unready
    · rw [if_neg own] at found
      exact quiet.ready other (decide_eq_true found)
  subscribed := quiet.subscribed

theorem Quiet.finishLoad (index : Int) : Quiet (feed.finishLoad index) :=
  ⟨quiet.volume, quiet.ready, quiet.subscribed⟩

theorem Quiet.failLoad (index : Int) : Quiet (feed.failLoad index) :=
  (quiet.putState LoadState.noConfusion feed.loadingIndices).finishLoad index

theorem Quiet.putPlayer (absent : feed.player index = none)
    {loadedPlayers onDisposedCallbacks : List (Int × Nat)} {loadStates : List (Int × LoadState)}
    (others : ∀ other, index ≠ other → find loadedPlayers other = feed.player other)
    (fewer : ∀ other, find loadStates other = some .ready → feed.isVideoReady other = true)
    (loadingIndices : List Int) :
    Quiet { feed with
      loadedPlayers := loadedPlayers
      loadStates := loadStates
      onDisposedCallbacks := onDisposedCallbacks
      loadingIndices := loadingIndices } := by
  have kept (other : Int) (present : feed.player other ≠ none) :
      find loadedPlayers other = feed.player other := by
    refine others other fun own => ?_
    exact present (own ▸ absent)
  refine ⟨fun player volume alive set audible => ?_, fun other ready => ?_, fun other member => ?_⟩
  · have held := quiet.volume player volume alive set audible
    refine (kept feed.currentIndex fun gone => ?_).trans held
    cases held.symm.trans gone
  · have held := quiet.ready other (fewer other (of_decide_eq_true ready))
    exact fun gone => held ((kept other held).symm.trans gone)
  · have held := quiet.subscribed other member
    exact fun gone => held ((kept other held).symm.trans gone)

theorem Quiet.storePlayer (absent : index ∈ feed.loadingIndices → feed.player index = none) :
    Quiet (feed.storePlayer index player).1 := by
  unfold VideoFeed.storePlayer
  split
  · exact quiet.finishLoad index
  · next noted =>
    have absent := absent (not_not.mp noted)
    split
    · refine quiet.putPlayer absent (fun other differs => ?_) (fun other ready => ?_) _
      · rw [find_remove, if_neg differs, find_put, if_neg differs]
        rfl
      · rw [find_remove] at ready
        exact decide_eq_true (Option.ite_none_left_eq_some.mp ready).2
    · refine (quiet.putPlayer absent (fun other differs => ?_)
        (fun other ready => decide_eq_true ready) feed.loadingIndices).setPlaying false
      rw [find_put, if_neg differs]
      rfl

theorem Quiet.onBufferReady (index : Int) :
    Quiet (feed.onBufferReady index) := by
  unfold VideoFeed.onBufferReady onPlayer
  cases present : feed.player index with
  | none =>
    dsimp only [Option.elim_none]
    rwa [ite_self]
  | some player =>
    dsimp only [Option.elim_some]
    have ready : Quiet { feed with
        loadStates := put feed.loadStates index .ready
        bufferSubscriptions := feed.bufferSubscriptions.filter fun other => other ≠ index } := by
      refine ⟨quiet.volume, fun other ready => ?_, fun other member => ?_⟩
      · by_cases own : index = other
        · intro gone
          rw [← own] at gone
          cases present.symm.trans gone
        · refine quiet.ready other ?_
          unfold isVideoReady at *
          rwa [find_put, if_neg own] at ready
      · exact quiet.subscribed other (List.mem_of_mem_filter member)
    split
    · exact quiet
    · split
      · next current => exact ready.setVolume (.inr (current.1 ▸ present))
      · exact ready

theorem Quiet.pauseVideo {newIndex : Int} {isActive : Bool} :
    Quiet ({ feed with currentIndex := newIndex, isActive := isActive }.pauseVideo
      feed.currentIndex) := by
  unfold VideoFeed.pauseVideo onPlayer
  cases present : feed.player feed.currentIndex with
  | none =>
    have silent (player volume : Nat) (alive : player ∉ feed.pool.disposed)
        (set : (feed.audio player).volume = some volume) (audible : volume ≠ 0) : False := by
      cases present.symm.trans (quiet.volume player volume alive set audible)
    have changed : Quiet { feed with currentIndex := newIndex, isActive := isActive } :=
      ⟨fun player volume alive set audible => (silent player volume alive set audible).elim,
        quiet.ready, quiet.subscribed⟩
    have same : { feed with currentIndex := newIndex, isActive := isActive }.player
        feed.currentIndex = none := present
    rwa [same]
  | some own =>
    have same : { feed with currentIndex := newIndex, isActive := isActive }.player
        feed.currentIndex = some own := present
    rw [same]
    refine ⟨fun player volume alive set audible => ?_, quiet.ready, quiet.subscribed⟩
    rw [Option.elim_some, audio_setVolume] at set
    by_cases muted : player = own
    · rw [if_pos muted] at set
      exact absurd (Option.some.inj set).symm audible
    · rw [if_neg muted] at set
      have held := quiet.volume player volume alive set audible
      exact absurd (Option.some.inj (held.symm.trans present)) muted

end

/-! ### The player that is to be heard -/

namespace VideoFeed

variable (feed : VideoFeed)

/-- A player is to be heard: the ready one of the current index, in an active feed not paused. -/
def Plays (player : Nat) : Prop :=
  feed.isActive = true ∧ feed.isPaused = false ∧ feed.isVideoReady feed.currentIndex = true ∧
    feed.player feed.currentIndex = some player

def IsTold (index : Int) (player : Nat) : Prop :=
  (feed.audio player).playing = true ∨ ⟨index, .muting player⟩ ∈ feed.loads

/-- The player that is to be heard is audible and was told to play. -/
def Heard : Prop :=
  ∀ player, feed.Plays player →
    (feed.audio player).volume = some 100 ∧ feed.IsTold feed.currentIndex player

variable {feed}

theorem Plays.of_drops (drops : Drops before after) (plays : after.Plays player) :
    before.Plays player := by
  obtain ⟨active, unpaused, ready, held⟩ := plays
  rw [drops.currentIndex] at ready held
  refine ⟨?_, ?_, ?_, drops.player_eq held⟩
  · rwa [drops.rest] at active
  · rwa [drops.rest] at unpaused
  · rcases drops.each before.currentIndex with same | gone
    · unfold isVideoReady at *
      rwa [← same.state]
    · cases gone.player.symm.trans held

theorem Heard.mono (heard : before.Heard)
    (plays : ∀ player, after.Plays player → before.Plays player ∧
      (after.audio player).volume = (before.audio player).volume ∧
        ((before.audio player).playing = true → (after.audio player).playing = true))
    (loads : after.loads = before.loads) (current : after.currentIndex = before.currentIndex) :
    after.Heard := by
  intro player toPlay
  obtain ⟨earlier, volume, playing⟩ := plays player toPlay
  obtain ⟨audible, told⟩ := heard player earlier
  refine ⟨volume.trans audible, ?_⟩
  rw [IsTold, loads, current]
  exact told.imp_left playing

theorem Heard.releases (heard : before.Heard) (releases : Releases before after)
    (spares : ∀ index player, index ≠ before.currentIndex → before.player index = some player →
      after.player index = none → ¬before.Plays player) : after.Heard := by
  refine heard.mono (fun player plays => ?_) releases.drops.loads
    releases.drops.currentIndex
  have earlier := plays.of_drops releases.drops
  refine ⟨earlier, ?_⟩
  rcases releases.spared player with same | ⟨index, present, gone⟩
  · rw [same]
    exact ⟨rfl, id⟩
  · refine absurd earlier (spares index player ?_ present gone)
    intro own
    have held := plays.2.2.2
    rw [releases.drops.currentIndex, ← own] at held
    cases gone.symm.trans held

theorem Heard.withPool (heard : feed.Heard) (pool : PlayerPool) : (feed.withPool pool).Heard := by
  have drops := drops_withPool feed pool
  refine heard.mono (fun player plays => ?_) drops.loads drops.currentIndex
  have earlier : (feed.disposes pool).Plays player := plays.of_drops drops
  rw [audio_withPool]
  exact ⟨earlier, rfl, id⟩

theorem Heard.setVolume (heard : feed.Heard) (volume : Nat) (silent : ¬feed.Plays player) :
    (feed.setVolume player volume).Heard := by
  refine heard.mono (fun other plays => ?_) rfl rfl
  have differs : other ≠ player := by
    rintro rfl
    exact silent plays
  rw [audio_setVolume, if_neg differs]
  exact ⟨plays, rfl, id⟩

theorem Heard.setPlaying (heard : feed.Heard) (playing : Bool)
    (allowed : playing = true ∨ ¬feed.Plays player) : (feed.setPlaying player playing).Heard := by
  refine heard.mono (fun other plays => ⟨plays, ?_⟩) rfl rfl
  rw [audio_setPlaying]
  by_cases own : other = player
  · rw [if_pos own]
    exact ⟨rfl, fun _ => allowed.resolve_right fun silent => silent (own ▸ plays)⟩
  · rw [if_neg own]
    exact ⟨rfl, id⟩

theorem Heard.muteReused (heard : feed.Heard) (call : PoolCall)
    (spares : ∀ url, call = .getPlayer url → ∀ player,
      find feed.pool.players url = some player → ¬feed.Plays player) :
    (feed.muteReused call).Heard := by
  cases call with
  | getPlayer url =>
    unfold VideoFeed.muteReused
    dsimp only
    split
    · exact heard
    · cases present : find feed.pool.players url with
      | none => exact heard
      | some player => exact heard.setVolume 0 (spares url rfl player present)
  | evicting _ | creating _ _ | getExistingPlayer _ | release _ | dispose | disposing _ =>
    exact heard

theorem Heard.advancePool (heard : feed.Heard) (call : PoolCall)
    (spares : ∀ url, call = .getPlayer url → ∀ player,
      find feed.pool.players url = some player → ¬feed.Plays player) :
    (feed.advancePool call).1.Heard :=
  (heard.muteReused call spares).withPool _

/-- When an index gets ready that is to be heard, its player was told to play. -/
def IsStarted (feed : VideoFeed) (index : Int) : Prop :=
  index = feed.currentIndex → feed.isActive = true → feed.isPaused = false →
    ∀ player, feed.player index = some player → feed.IsTold index player

theorem Heard.onBufferReady (heard : feed.Heard) (started : feed.IsStarted index) :
    (feed.onBufferReady index).Heard := by
  unfold VideoFeed.onBufferReady onPlayer
  cases present : feed.player index with
  | none =>
    dsimp only [Option.elim_none]
    rwa [ite_self]
  | some player =>
    dsimp only [Option.elim_some]
    split
    · exact heard
    · split
      · next current =>
        obtain ⟨own, active, unpaused⟩ := current
        rintro other ⟨-, -, -, held⟩
        have same : other = player := by
          rw [own] at present
          exact Option.some.inj (held.symm.trans present)
        rw [same, audio_setVolume, if_pos rfl]
        refine ⟨rfl, ?_⟩
        have told := started own active unpaused player present
        rw [own] at told
        refine told.imp_left fun playing => ?_
        rw [audio_setVolume, if_pos rfl]
        exact playing
      · next apart =>
        refine heard.mono (fun other plays => ⟨?_, rfl, id⟩) rfl rfl
        obtain ⟨active, unpaused, ready, held⟩ := plays
        have differs : index ≠ feed.currentIndex := fun own => apart ⟨own, active, unpaused⟩
        refine ⟨active, unpaused, ?_, held⟩
        unfold isVideoReady at *
        rwa [find_put, if_neg differs] at ready

theorem Heard.failLoad (heard : feed.Heard) (index : Int) : (feed.failLoad index).Heard := by
  refine heard.mono (fun player plays => ⟨?_, rfl, id⟩) rfl rfl
  obtain ⟨active, unpaused, ready, held⟩ := plays
  refine ⟨active, unpaused, ?_, held⟩
  have found := of_decide_eq_true ready
  dsimp only [VideoFeed.failLoad, VideoFeed.finishLoad] at found
  rw [find_put] at found
  by_cases own : index = feed.currentIndex
  · rw [if_pos own] at found
    cases found
  · rw [if_neg own] at found
    exact decide_eq_true found

theorem Heard.finishLoad (heard : feed.Heard) (index : Int) : (feed.finishLoad index).Heard := heard

theorem Heard.storePlayer (heard : feed.Heard) (quiet : Quiet feed)
    (absent : index ∈ feed.loadingIndices → feed.player index = none)
    (silent : index ∈ feed.loadingIndices → ¬feed.Plays player) :
    (feed.storePlayer index player).1.Heard := by
  unfold VideoFeed.storePlayer
  split
  · exact heard
  · next noted =>
    have absent := absent (not_not.mp noted)
    have silent := silent (not_not.mp noted)
    have differs (ready : feed.isVideoReady feed.currentIndex = true) :
        index ≠ feed.currentIndex := by
      intro own
      exact quiet.ready feed.currentIndex ready (own ▸ absent)
    split
    · refine heard.mono (fun other plays => ⟨?_, rfl, id⟩) rfl rfl
      obtain ⟨active, unpaused, ready, held⟩ := plays
      have found := of_decide_eq_true ready
      dsimp only [VideoFeed.finishLoad] at found
      rw [find_remove] at found
      obtain ⟨apart, kept⟩ := Option.ite_none_left_eq_some.mp found
      refine ⟨active, unpaused, decide_eq_true kept, ?_⟩
      unfold VideoFeed.player at *
      dsimp only [VideoFeed.finishLoad] at held
      rwa [find_remove, if_neg apart, find_put, if_neg apart] at held
    · have same (other : Nat) (plays : VideoFeed.Plays { feed with
          loadedPlayers := put feed.loadedPlayers index player
          onDisposedCallbacks := feed.onDisposedCallbacks ++ [(index, player)] } other) :
          feed.Plays other := by
        obtain ⟨active, unpaused, ready, held⟩ := plays
        refine ⟨active, unpaused, ready, ?_⟩
        unfold VideoFeed.player at *
        rwa [find_put, if_neg (differs ready)] at held
      refine Heard.setPlaying (heard.mono (fun other plays => ⟨same other plays, rfl, id⟩) rfl rfl)
        false (.inr fun plays => silent (same player plays))

end VideoFeed

/-! ### Loads -/

/-- An unreleased load has no player at its index before it stores its own, which is then not ready
yet. -/
def Fits (feed : VideoFeed) (load : Load) : Prop :=
  load.index ∈ feed.loadingIndices →
    match load.stage with
    | .pooling _ | .returned _ | .rejected => feed.player load.index = none
    | .opening player =>
        feed.player load.index = some player ∧ feed.isVideoReady load.index = false ∧
          load.index ∉ feed.bufferSubscriptions
    | .muting _ | .starting _ => True

variable {load : Load}

theorem Fits.of_same (fits : Fits before load) (same : SameAt before after load.index) :
    Fits after load := by
  intro noted
  have known := fits (same.noted.mp noted)
  cases stage : load.stage with
  | opening player =>
    rw [stage] at known
    refine ⟨same.player.trans known.1, ?_, mt same.subscribed.mp known.2.2⟩
    unfold isVideoReady at *
    rw [same.state]
    exact known.2.1
  | muting | starting => trivial
  | _ =>
    rw [stage] at known
    exact same.player.trans known

theorem Fits.of_each (fits : Fits before load)
    (each : SameAt before after load.index ∨ GoneAt after load.index) : Fits after load := by
  rcases each with same | gone
  · exact fits.of_same same
  · exact fun noted => absurd noted gone.noted

theorem Fits.of_ready (fits : Fits before load)
    (noted : load.index ∈ after.loadingIndices → load.index ∈ before.loadingIndices)
    (held : before.player load.index ≠ none)
      (subscribed : load.index ∈ before.bufferSubscriptions) :
    Fits after load := by
  intro later
  have known := fits (noted later)
  cases stage : load.stage with
  | opening player =>
    rw [stage] at known
    exact absurd subscribed known.2.2
  | muting | starting => trivial
  | _ =>
    rw [stage] at known
    exact absurd known held

theorem loadingIndices_onBufferReady :
    (feed.onBufferReady index).loadingIndices = feed.loadingIndices := by
  unfold VideoFeed.onBufferReady onPlayer
  cases feed.player index with
  | none =>
    dsimp only [Option.elim_none]
    rw [ite_self]
  | some player =>
    dsimp only [Option.elim_some]
    split
    · rfl
    · split <;> rfl

theorem fits_poolStage {call : PoolCall} {pool : PlayerPool} {next : Option PoolCall}
    (absent : index ∈ feed.loadingIndices → feed.player index = none) :
    Fits feed ⟨index, poolStage call pool next⟩ := by
  intro noted
  have absent := absent noted
  cases next with
  | some next => exact absent
  | none =>
    cases call with
    | getPlayer url =>
      dsimp only [poolStage]
      cases pool.isDisposed with
      | true => exact absent
      | false => cases find pool.players url <;> exact absent
    | _ => exact absent

theorem each_advancePool (feed : VideoFeed) (call : PoolCall) (index : Int) :
    SameAt feed (feed.advancePool call).1 index ∨ GoneAt (feed.advancePool call).1 index := by
  have muted := @drops_muteReused feed call
  have evicted := drops_withPool (feed.muteReused call) (feed.pool.advance feed.maxPlayers call).1
  rcases evicted.each index with same | gone
  · rcases muted.each index with earlier | gone
    · exact .inl (earlier.trans ⟨same.player, same.state, same.subscribed, same.noted⟩)
    · exact .inr (same.goneAt ⟨gone.player, gone.state, gone.subscribed, gone.noted⟩)
  · exact .inr gone

theorem sameAt_finishLoad (differs : other ≠ index) : SameAt feed (feed.finishLoad index) other :=
  ⟨rfl, rfl, Iff.rfl, List.mem_filter.trans (and_iff_left (decide_eq_true differs))⟩

theorem sameAt_failLoad (differs : other ≠ index) : SameAt feed (feed.failLoad index) other where
  player := rfl
  state := (find_put _ index other _).trans (if_neg (Ne.symm differs))
  subscribed := Iff.rfl
  noted := List.mem_filter.trans (and_iff_left (decide_eq_true differs))

theorem sameAt_onBufferReady (differs : other ≠ index) :
    SameAt feed (feed.onBufferReady index) other := by
  have ready : SameAt feed { feed with
      loadStates := put feed.loadStates index .ready
      bufferSubscriptions := feed.bufferSubscriptions.filter fun other => other ≠ index } other :=
    ⟨rfl, (find_put _ index other _).trans (if_neg (Ne.symm differs)),
      List.mem_filter.trans (and_iff_left (decide_eq_true differs)), Iff.rfl⟩
  unfold VideoFeed.onBufferReady onPlayer
  cases feed.player index with
  | none =>
    dsimp only [Option.elim_none]
    rw [ite_self]
    exact .refl feed other
  | some player =>
    dsimp only [Option.elim_some]
    split
    · exact .refl feed other
    · split
      · exact ⟨ready.player, ready.state, ready.subscribed, ready.noted⟩
      · exact ready

theorem sameAt_storePlayer (differs : other ≠ index) :
    SameAt feed (feed.storePlayer index player).1 other := by
  unfold VideoFeed.storePlayer
  split
  · exact sameAt_finishLoad differs
  · dsimp only
    split
    · refine ⟨?_, (find_remove _ index other).trans (if_neg (Ne.symm differs)), Iff.rfl,
        List.mem_filter.trans (and_iff_left (decide_eq_true differs))⟩
      exact ((find_remove _ index other).trans (if_neg (Ne.symm differs))).trans
        ((find_put _ index other player).trans (if_neg (Ne.symm differs)))
    · exact ⟨(find_put _ index other player).trans (if_neg (Ne.symm differs)), rfl, Iff.rfl,
        Iff.rfl⟩

/-! ### What a step keeps -/

/-- Nobody mutes or pauses the player that is to be heard, each load finds what it left, and no
index has two loads. -/
structure Tuned (feed : VideoFeed) : Prop where
  quiet : Quiet feed
  fits : ∀ load ∈ feed.loads, Fits feed load
  once : (feed.loads.map Load.index).Nodup
  waits : ∀ load ∈ feed.loads, ∀ url, load.stage ≠ .pooling (.getPlayer url)
  heard : feed.Heard

/-- Players are released or told something; index, activity, pause and videos may change. -/
theorem Tuned.shift (tuned : Tuned before) {videos : List String} {currentIndex : Int}
    {isActive isPaused : Bool}
    (drops : Drops { before with
      videos := videos
      currentIndex := currentIndex
      isActive := isActive
      isPaused := isPaused } after)
    (quiet : Quiet after) (heard : after.Heard) : Tuned after where
  quiet := quiet
  fits load member := by
    rw [drops.loads] at member
    have fits : Fits { before with
      videos := videos
      currentIndex := currentIndex
      isActive := isActive
      isPaused := isPaused } load := tuned.fits load member
    exact fits.of_each (drops.each load.index)
  once := by
    rw [drops.loads]
    exact tuned.once
  waits := by
    rw [drops.loads]
    exact tuned.waits
  heard := heard

theorem Tuned.goesOn (tuned : Tuned feed) {position : Nat}
    {resumed : VideoFeed × Option LoadStage} (present : feed.loads[position]? = some load)
    (loads : resumed.1.loads = feed.loads) (quiet : Quiet resumed.1)
    (each : ∀ other, other ≠ load.index → SameAt feed resumed.1 other ∨ GoneAt resumed.1 other)
    (own : ∀ next ∈ resumed.2, Fits resumed.1 ⟨load.index, next⟩ ∧
      ∀ url, next ≠ .pooling (.getPlayer url))
    (heard : resumed.1.Heard)
    (told : ∀ player, load = ⟨resumed.1.currentIndex, .muting player⟩ → resumed.1.Plays player →
      (resumed.1.audio player).playing = true) :
    Tuned (withLoad position load.index resumed) where
  quiet := ⟨quiet.volume, quiet.ready, quiet.subscribed⟩
  fits other member := by
    dsimp only [withLoad] at member
    rw [loads] at member
    rcases mem_proceed member with follows | member
    · obtain ⟨next, same, rfl⟩ := Option.map_eq_some_iff.mp follows
      exact (own next same).1
    · have differs := key_ne_of_mem_eraseIdx tuned.once present member
      have kept : Fits resumed.1 other :=
        (tuned.fits other (List.mem_of_mem_eraseIdx member)).of_each (each _ differs)
      exact kept
  once := by
    dsimp only [withLoad]
    rw [loads]
    refine nodup_map_proceed present (fun next follows => ?_) tuned.once
    obtain ⟨_, -, rfl⟩ := Option.map_eq_some_iff.mp follows
    rfl
  waits other member := by
    dsimp only [withLoad] at member
    rw [loads] at member
    rcases mem_proceed member with follows | member
    · obtain ⟨next, same, rfl⟩ := Option.map_eq_some_iff.mp follows
      exact (own next same).2
    · exact tuned.waits other (List.mem_of_mem_eraseIdx member)
  heard := by
    intro player plays
    obtain ⟨audible, known⟩ := heard player plays
    refine ⟨audible, ?_⟩
    rcases known with playing | muting
    · exact .inl playing
    · rw [← loads] at present
      rcases mem_proceed_of_mem muting position (resumed.2.map fun next => ⟨load.index, next⟩) with
        same | kept
      · exact .inl (told player (Option.some.inj (present.symm.trans same)) plays)
      · exact .inr kept

/-- Nobody mutes or pauses the player that is to be heard, no index has two loads, no feed is
activated with a ready index, and a ready index was told to play. -/
def Considerate (feed : VideoFeed) : FeedAction → Prop
  | .load => ∀ index ∈ feed.loop.head?, feed.player index = none → index ∉ feed.loadingIndices →
      index ∉ feed.loads.map Load.index ∧ ∀ url ∈ feed.url index, ∀ player,
        find feed.pool.players url = some player → ¬feed.Plays player
  | .resume position fails buffering => ∀ load ∈ feed.loads[position]?,
      (load.index ∈ feed.loadingIndices → ∀ player,
        load.stage = .returned player ∨ load.stage = .opening player → ¬feed.Plays player) ∧
      ((∃ player, load.stage = .starting player) → fails = false → buffering = false →
        feed.IsStarted load.index)
  | .onPageChanged index => index ≠ feed.currentIndex → ∀ other player, other ≠ index →
      other ∉ feed.window index → feed.player other = some player →
        ¬{ feed with currentIndex := index }.Plays player
  | .setActive active => active = true → feed.isActive = false → feed.isPaused = false →
      feed.isVideoReady feed.currentIndex = false
  | .addVideos newVideos => ∀ other player, other ≠ feed.currentIndex →
      other ∉ { feed with videos := feed.videos ++ newVideos }.window feed.currentIndex →
        feed.player other = some player → ¬feed.Plays player
  | .notBuffering index => find feed.loadStates index = some .loading → feed.IsStarted index
  | .resumeOther position => ∀ url, feed.others[position]? = some (.getPlayer url) → ∀ player,
      find feed.pool.players url = some player → ¬feed.Plays player
  | .play | .pause | .startOther _ => True

theorem poolStage_ne_getPlayer (feed : VideoFeed) (call : PoolCall) (pool : PlayerPool)
    (url : String) :
    poolStage call pool (feed.advancePool call).2 ≠ .pooling (.getPlayer url) := by
  have next := feed.pool.advance_ne_getPlayer feed.maxPlayers call url
  show poolStage call pool (feed.pool.advance feed.maxPlayers call).2 ≠ _
  cases stage : (feed.pool.advance feed.maxPlayers call).2 with
  | some other =>
    rw [stage] at next
    intro same
    exact next (congrArg some (LoadStage.pooling.inj same))
  | none =>
    cases call with
    | getPlayer own =>
      dsimp only [poolStage]
      split
      · exact LoadStage.noConfusion
      · cases find pool.players own <;> exact LoadStage.noConfusion
    | _ => exact LoadStage.noConfusion

theorem storePlayer_next {stage : LoadStage} (follows : stage ∈ (feed.storePlayer index player).2) :
    stage = .opening player ∧ index ∈ feed.loadingIndices ∧
      (feed.storePlayer index player).1 = { feed with
        loadedPlayers := put feed.loadedPlayers index player
        onDisposedCallbacks := feed.onDisposedCallbacks ++ [(index, player)] }.setPlaying
          player false := by
  by_cases noted : index ∉ feed.loadingIndices
  · have ends : feed.storePlayer index player = (feed.finishLoad index, none) := if_pos noted
    rw [ends] at follows
    cases follows
  · by_cases disposed : player ∈ feed.pool.disposed
    · have ends : (feed.storePlayer index player).2 = none := by
        unfold VideoFeed.storePlayer
        rw [if_neg noted]
        exact congrArg Prod.snd (if_pos disposed)
      rw [ends] at follows
      cases follows
    · have stores : feed.storePlayer index player =
          (VideoFeed.setPlaying { feed with
            loadedPlayers := put feed.loadedPlayers index player
            onDisposedCallbacks := feed.onDisposedCallbacks ++ [(index, player)] } player false,
              some (.opening player)) := (if_neg noted).trans (if_neg disposed)
      rw [stores] at follows ⊢
      exact ⟨(Option.some.inj follows).symm, not_not.mp noted, rfl⟩

section

variable (tuned : Tuned feed)

include tuned

theorem Tuned.storePlayer {position : Nat}
    (present : feed.loads[position]? = some load) (stage : load.stage = .returned player)
    (silent : load.index ∈ feed.loadingIndices → ¬feed.Plays player) :
    Tuned (withLoad position load.index (feed.storePlayer load.index player)) := by
  have fits := tuned.fits load (List.mem_of_getElem? present)
  rw [Fits, stage] at fits
  refine tuned.goesOn present loads_storePlayer (tuned.quiet.storePlayer fits)
    (fun other differs => .inl (sameAt_storePlayer differs)) (fun next follows => ?_)
    (tuned.heard.storePlayer tuned.quiet fits silent) (fun player same => ?_)
  · obtain ⟨rfl, noted, stored⟩ := storePlayer_next follows
    have absent := fits noted
    rw [stored]
    refine ⟨fun _ => ⟨?_, ?_, ?_⟩, fun _ => LoadStage.noConfusion⟩
    · exact (find_put _ load.index load.index player).trans (if_pos rfl)
    · refine Bool.eq_false_iff.mpr fun ready => ?_
      exact tuned.quiet.ready load.index ready absent
    · exact fun member => tuned.quiet.subscribed load.index member absent
  · rw [same] at stage
    cases stage

theorem Tuned.endLoad {position : Nat} {resumed : VideoFeed}
    (present : feed.loads[position]? = some load) (loads : resumed.loads = feed.loads)
    (quiet : Quiet resumed) (each : ∀ other, other ≠ load.index → SameAt feed resumed other)
    (heard : resumed.Heard)
    (told : ∀ player, load = ⟨resumed.currentIndex, .muting player⟩ → ¬resumed.Plays player) :
    Tuned (withLoad position load.index (resumed, none)) :=
  tuned.goesOn present loads quiet (fun other differs => .inl (each other differs))
    nofun heard
    fun player same plays => absurd plays (told player same)

theorem Tuned.failLoad {position : Nat} (present : feed.loads[position]? = some load) :
    Tuned (withLoad position load.index (feed.failLoad load.index, none)) := by
  refine tuned.endLoad present ?_ (tuned.quiet.failLoad _) (fun _ => sameAt_failLoad)
    (tuned.heard.failLoad _) (fun player same plays => ?_)
  · rfl
  · obtain ⟨-, -, ready, -⟩ := plays
    have found := of_decide_eq_true ready
    rw [same] at found
    dsimp only [VideoFeed.failLoad, VideoFeed.finishLoad] at found
    rw [find_put, if_pos rfl] at found
    cases found

theorem Tuned.finishLoad {position : Nat}
    (present : feed.loads[position]? = some load) (stage : ∀ player, load.stage ≠ .muting player) :
    Tuned (withLoad position load.index (feed.finishLoad load.index, none)) := by
  refine tuned.endLoad present ?_ (tuned.quiet.finishLoad _) (fun _ => sameAt_finishLoad)
    (tuned.heard.finishLoad _) (fun player same => ?_)
  · rfl
  · exact absurd (congrArg Load.stage same) (stage player)

theorem Tuned.resume {position : Nat} {fails buffering : Bool}
    (present : feed.loads[position]? = some load)
    (considerate : Considerate feed (.resume position fails buffering)) :
    Tuned (withLoad position load.index (feed.resumeLoad load fails buffering)) := by
  obtain ⟨silent, started⟩ := considerate load present
  have member := List.mem_of_getElem? present
  have fits := tuned.fits load member
  unfold resumeLoad
  cases stage : load.stage with
  | pooling call =>
    rw [Fits, stage] at fits
    have each := each_advancePool feed call
    refine tuned.goesOn present (loads_advancePool feed call) (tuned.quiet.advancePool call)
      (fun other _ => each other) (fun next follows => ?_) ?_ (fun player same => ?_)
    · cases follows
      refine ⟨fits_poolStage fun noted => ?_, poolStage_ne_getPlayer feed call _⟩
      rcases each load.index with same | gone
      · exact same.player.trans (fits (same.noted.mp noted))
      · exact gone.player
    · refine tuned.heard.advancePool call fun url same => ?_
      exact absurd (same ▸ stage) (tuned.waits load member url)
    · rw [same] at stage
      cases stage
  | returned player =>
    exact tuned.storePlayer present stage fun noted => silent noted player (.inl stage)
  | rejected =>
    refine tuned.finishLoad present fun player same => ?_
    cases stage.symm.trans same
  | opening player =>
    rw [Fits, stage] at fits
    dsimp only
    split
    · exact tuned.failLoad present
    · split
      · refine tuned.finishLoad present fun player same => ?_
        cases stage.symm.trans same
      · next noted =>
        obtain ⟨held, -, -⟩ := fits (not_not.mp noted)
        have subscribed : Quiet { feed with
            bufferSubscriptions := feed.bufferSubscriptions.insert load.index } := by
          refine ⟨tuned.quiet.volume, tuned.quiet.ready, fun other member => ?_⟩
          rcases List.mem_insert_iff.mp member with rfl | member
          · exact fun gone => Option.some_ne_none player (held.symm.trans gone)
          · exact tuned.quiet.subscribed other member
        have heard : { feed with
            bufferSubscriptions := feed.bufferSubscriptions.insert load.index }.Heard := tuned.heard
        refine tuned.goesOn present ?_ (subscribed.setVolume (.inl rfl))
          (fun other differs => .inl ?_)
          (fun next follows => ?_) (heard.setVolume 0 ?_) (fun player same => ?_)
        · rfl
        · refine ⟨rfl, rfl, ?_, Iff.rfl⟩
          exact List.mem_insert_iff.trans (or_iff_right differs)
        · cases follows
          exact ⟨fun _ => trivial, fun _ => LoadStage.noConfusion⟩
        · exact silent (not_not.mp noted) player (.inr stage)
        · rw [same] at stage
          cases stage
  | muting player =>
    dsimp only
    split
    · exact tuned.failLoad present
    · refine tuned.goesOn present ?_ (tuned.quiet.setPlaying true)
        (fun other _ => .inl ⟨rfl, rfl, Iff.rfl, Iff.rfl⟩) (fun next follows => ?_)
        (tuned.heard.setPlaying true (.inl rfl)) (fun other same _ => ?_)
      · rfl
      · cases follows
        exact ⟨fun _ => trivial, fun _ => LoadStage.noConfusion⟩
      · rw [same] at stage
        rw [audio_setPlaying, if_pos (LoadStage.muting.inj stage)]
  | starting player =>
    have other (player' : Nat) : load.stage ≠ .muting player' := by
      intro same
      cases stage.symm.trans same
    dsimp only
    split
    · exact tuned.failLoad present
    · next passes =>
      cases buffering with
      | true => exact tuned.finishLoad present other
      | false =>
        have ready := tuned.heard.onBufferReady
          (started ⟨player, stage⟩ (Bool.eq_false_iff.mpr passes) rfl)
        refine tuned.endLoad present ?_ ((tuned.quiet.onBufferReady _).finishLoad _)
          (fun index differs => (sameAt_onBufferReady differs).trans (sameAt_finishLoad differs))
          (ready.finishLoad _) (fun player same => ?_)
        · exact loads_onBufferReady
        · exact absurd (congrArg Load.stage same) (other player)

theorem Tuned.withLoop (loop : List Int) : Tuned { feed with loop := loop } :=
  ⟨⟨tuned.quiet.volume, tuned.quiet.ready, tuned.quiet.subscribed⟩, tuned.fits, tuned.once,
    tuned.waits, tuned.heard⟩

theorem Tuned.updatePreloadWindow (own : index = feed.currentIndex)
    (spares : ∀ other player, other ≠ index → other ∉ feed.window index →
      feed.player other = some player → ¬feed.Plays player) :
    Tuned (feed.updatePreloadWindow index) := by
  have releases := releases_updatePreloadWindow feed index
  have looped := tuned.withLoop (index :: (feed.window index).filter fun other => other ≠ index)
  refine looped.shift releases.drops (looped.quiet.releases releases)
    (looped.heard.releases releases fun other player differs present gone => ?_)
  exact spares other player (own ▸ differs) (notMem_window_of_released present gone) present

theorem Tuned.advancePool (call : PoolCall) (spares : ∀ url, call = .getPlayer url → ∀ player,
      find feed.pool.players url = some player → ¬feed.Plays player) :
    Tuned (feed.advancePool call).1 where
  quiet := tuned.quiet.advancePool call
  fits load member := by
    rw [loads_advancePool] at member
    exact (tuned.fits load member).of_each (each_advancePool feed call load.index)
  once := by
    rw [loads_advancePool]
    exact tuned.once
  waits := by
    rw [loads_advancePool]
    exact tuned.waits
  heard := tuned.heard.advancePool call spares

theorem Tuned.loadPlayer (absent : feed.player index = none)
    (fresh : index ∉ feed.loads.map Load.index)
    (spares : ∀ url ∈ feed.url index, ∀ player, find feed.pool.players url = some player →
      ¬feed.Plays player) : Tuned (feed.loadPlayer index) := by
  unfold VideoFeed.loadPlayer
  cases video : feed.url index with
  | none => exact tuned
  | some url =>
    have unready {player : Nat} (plays : VideoFeed.Plays { feed with
        loadingIndices := feed.loadingIndices ++ [index]
        loadStates := put feed.loadStates index .loading } player) : feed.Plays player := by
      obtain ⟨active, unpaused, ready, held⟩ := plays
      refine ⟨active, unpaused, ?_, held⟩
      have differs : index ≠ feed.currentIndex := by
        rintro rfl
        cases absent.symm.trans held
      unfold isVideoReady at *
      rwa [find_put, if_neg differs] at ready
    have started : Tuned { feed with
        loadingIndices := feed.loadingIndices ++ [index]
        loadStates := put feed.loadStates index .loading } := by
      refine ⟨tuned.quiet.putState LoadState.noConfusion _, fun load member => ?_, tuned.once,
        tuned.waits, tuned.heard.mono (fun player plays => ⟨unready plays, rfl, id⟩) rfl rfl⟩
      have differs : load.index ≠ index := fun own =>
        fresh (List.mem_map.mpr ⟨load, member, own⟩)
      refine (tuned.fits load member).of_same
        ⟨rfl, (find_put _ index load.index _).trans (if_neg (Ne.symm differs)), Iff.rfl, ?_⟩
      refine List.mem_append.trans (or_iff_left fun added => ?_)
      exact differs (List.mem_singleton.mp added)
    have advanced := started.advancePool (.getPlayer url) fun other same player present plays =>
      spares url video player (PoolCall.getPlayer.inj same ▸ present) (unready plays)
    have kept := each_advancePool { feed with
      loadingIndices := feed.loadingIndices ++ [index]
      loadStates := put feed.loadStates index .loading } (.getPlayer url) index
    refine ⟨⟨advanced.quiet.volume, advanced.quiet.ready, advanced.quiet.subscribed⟩,
      fun load member => ?_, ?_, fun load member => ?_, fun player plays => ?_⟩
    · rcases List.mem_append.mp member with earlier | added
      · exact advanced.fits load earlier
      · rw [List.mem_singleton.mp added]
        exact fits_poolStage fun _ => kept.elim (fun same => same.player.trans absent) GoneAt.player
    · dsimp only
      rw [loads_advancePool, List.map_append]
      refine List.nodup_append.mpr ⟨tuned.once, List.nodup_singleton _, ?_⟩
      rintro other member _ own rfl
      rw [List.mem_singleton.mp own] at member
      exact fresh member
    · rcases List.mem_append.mp member with earlier | added
      · exact advanced.waits load earlier
      · rw [List.mem_singleton.mp added]
        exact fun other => poolStage_ne_getPlayer _ _ _ other
    · obtain ⟨audible, told⟩ := advanced.heard player plays
      exact ⟨audible, told.imp_right (List.mem_append_left _)⟩

theorem Tuned.loadNext (rest : List Int)
    (considerate : feed.player index = none → index ∉ feed.loadingIndices →
      index ∉ feed.loads.map Load.index ∧ ∀ url ∈ feed.url index, ∀ player,
        find feed.pool.players url = some player → ¬feed.Plays player) :
    Tuned (feed.loadNext index rest) := by
  unfold VideoFeed.loadNext
  split
  · next missing =>
    have absent := Option.isNone_iff_eq_none.mp missing.1
    obtain ⟨fresh, spares⟩ := considerate absent missing.2
    exact (tuned.withLoop rest).loadPlayer absent fresh spares
  · exact tuned.withLoop rest

end

theorem heard_of_inactive (inactive : feed.isActive = false) : feed.Heard :=
  fun _ plays => by cases inactive.symm.trans plays.1

theorem Quiet.playVideo (quiet : Quiet feed) (own : index = feed.currentIndex) :
    Quiet (feed.playVideo index) := by
  unfold VideoFeed.playVideo onPlayer
  cases present : feed.player index with
  | none => exact quiet
  | some player => exact (quiet.setVolume (.inr (own ▸ present))).setPlaying true

theorem heard_playVideo (own : index = feed.currentIndex) : (feed.playVideo index).Heard := by
  intro player plays
  obtain ⟨-, -, -, held⟩ := plays.of_drops (@drops_playVideo _ index)
  rw [← own] at held
  unfold IsTold VideoFeed.playVideo onPlayer
  rw [held, Option.elim_some, audio_setPlaying, if_pos rfl, audio_setVolume, if_pos rfl]
  exact ⟨rfl, .inl rfl⟩

section

variable (tuned : Tuned feed)

include tuned

theorem Tuned.onPageChanged (considerate : Considerate feed (.onPageChanged index)) :
    Tuned (feed.onPageChanged index) := by
  unfold VideoFeed.onPageChanged
  dsimp only
  have paused : Drops { feed with currentIndex := index }
      ({ feed with currentIndex := index }.pauseVideo feed.currentIndex) := drops_pauseVideo
  have quiet : Quiet ({ feed with currentIndex := index }.pauseVideo feed.currentIndex) :=
    tuned.quiet.pauseVideo
  have spares {played : VideoFeed} (differs : index ≠ feed.currentIndex)
      (drops : Drops { feed with currentIndex := index } played) (other : Int) (player : Nat)
      (apart : other ≠ index) (outside : other ∉ played.window index)
      (present : played.player other = some player) : ¬played.Plays player := by
    intro plays
    have window : played.window index = feed.window index := by
      rw [drops.rest]
      rfl
    rw [window] at outside
    exact considerate differs other player apart outside (drops.player_eq present)
      (plays.of_drops drops)
  split
  · exact tuned
  · next differs =>
    split
    · have played := paused.trans (@drops_playVideo _ index)
      have current := paused.currentIndex.symm
      exact (tuned.shift played (quiet.playVideo current)
        (heard_playVideo current)).updatePreloadWindow
        played.currentIndex.symm (spares differs played)
    · next silent =>
      have heard : ({ feed with currentIndex := index }.pauseVideo feed.currentIndex).Heard := by
        rintro player ⟨active, unpaused, ready, -⟩
        rw [paused.currentIndex] at ready
        refine absurd ⟨active, ?_, ready⟩ silent
        rw [unpaused]
        rfl
      exact (tuned.shift paused quiet heard).updatePreloadWindow paused.currentIndex.symm
        (spares differs paused)

theorem Tuned.setActive {active : Bool}
    (considerate : Considerate feed (.setActive active)) : Tuned (feed.setActive active) := by
  unfold VideoFeed.setActive
  split
  · exact tuned
  · next differs =>
    split
    · next activates =>
      have inactive : feed.isActive = false :=
        Bool.eq_false_iff.mpr fun active' => differs (active'.trans activates.symm)
      have silent (player : Nat) : ¬{ feed with isActive := true }.Plays player := by
        rintro ⟨-, unpaused, ready, -⟩
        have unready := considerate activates inactive unpaused
        cases unready.symm.trans ready
      have activated : Tuned { feed with isActive := true } :=
        tuned.shift (.refl _) ⟨tuned.quiet.volume, tuned.quiet.ready, tuned.quiet.subscribed⟩
          fun player plays => absurd plays (silent player)
      exact activated.updatePreloadWindow rfl fun _ player _ _ _ => silent player
    · have released : Drops { feed with isActive := false }
          ({ feed with isActive := false }.pauseVideo feed.currentIndex).releaseAllPlayers :=
        drops_pauseVideo.trans (drops_releaseAllPlayers _)
      have quiet : Quiet ({ feed with isActive := false }.pauseVideo feed.currentIndex) :=
        tuned.quiet.pauseVideo
      refine tuned.shift released (quiet.releases (releases_releaseAllPlayers _))
        (heard_of_inactive ?_)
      rw [released.rest]

theorem Tuned.addVideos {newVideos : List String}
    (considerate : Considerate feed (.addVideos newVideos)) : Tuned (feed.addVideos newVideos) := by
  unfold VideoFeed.addVideos
  have added : Tuned { feed with videos := feed.videos ++ newVideos } :=
    tuned.shift
      (.refl _) ⟨tuned.quiet.volume, tuned.quiet.ready, tuned.quiet.subscribed⟩ tuned.heard
  split
  · exact tuned
  · split
    · exact added.updatePreloadWindow rfl considerate
    · exact added

theorem Tuned.play : Tuned feed.play := by
  unfold VideoFeed.play
  split
  · have quiet : Quiet { feed with isPaused := false } :=
      ⟨tuned.quiet.volume, tuned.quiet.ready, tuned.quiet.subscribed⟩
    have drops : Drops { feed with isPaused := false }
        ({ feed with isPaused := false }.playVideo feed.currentIndex) := drops_playVideo
    exact tuned.shift drops (quiet.playVideo rfl) (heard_playVideo rfl)
  · exact tuned

theorem Tuned.pause : Tuned feed.pause := by
  have drops : Drops { feed with isPaused := true } feed.pause :=
    drops_onPlayer fun player => drops_setPlaying player false
  have quiet : Quiet feed.pause := by
    unfold VideoFeed.pause onPlayer
    have paused : Quiet { feed with isPaused := true } :=
      ⟨tuned.quiet.volume, tuned.quiet.ready, tuned.quiet.subscribed⟩
    cases VideoFeed.player { feed with isPaused := true } feed.currentIndex with
    | none => exact paused
    | some player => exact paused.setPlaying false
  refine tuned.shift drops quiet fun player plays => ?_
  have unpaused := (plays.of_drops drops).2.1
  cases unpaused

theorem Tuned.notBuffering (member : index ∈ feed.bufferSubscriptions)
    (considerate : Considerate feed (.notBuffering index)) : Tuned (feed.notBuffering index) := by
  unfold VideoFeed.notBuffering
  split
  · next loading =>
    have loads : (feed.onBufferReady index).loads = feed.loads := loads_onBufferReady
    refine ⟨tuned.quiet.onBufferReady index, fun load inside => ?_, loads ▸ tuned.once,
      loads ▸ tuned.waits, tuned.heard.onBufferReady (considerate loading)⟩
    rw [loads] at inside
    by_cases own : load.index = index
    · refine (tuned.fits load inside).of_ready ?_ (own ▸ tuned.quiet.subscribed index member)
        (own ▸ member)
      rw [loadingIndices_onBufferReady]
      exact id
    · exact (tuned.fits load inside).of_same (sameAt_onBufferReady own)
  · exact tuned

theorem tuned_of_act {action : FeedAction} (considerate : Considerate feed action)
    (acted : feed.act action = some next) :
    Tuned next := by
  cases action with
  | load => cases acted
  | resume position fails buffering =>
    obtain ⟨load, present, rfl⟩ := Option.map_eq_some_iff.mp acted
    exact tuned.resume present considerate
  | onPageChanged index =>
    cases acted
    exact tuned.onPageChanged considerate
  | setActive active =>
    cases acted
    exact tuned.setActive considerate
  | addVideos newVideos =>
    cases acted
    exact tuned.addVideos considerate
  | play =>
    cases acted
    exact tuned.play
  | pause =>
    cases acted
    exact tuned.pause
  | notBuffering index =>
    obtain ⟨member, heard⟩ := Option.ite_none_right_eq_some.mp acted
    cases heard
    exact tuned.notBuffering member considerate
  | startOther call =>
    obtain ⟨-, started⟩ := Option.ite_none_right_eq_some.mp acted
    cases started
    exact ⟨⟨tuned.quiet.volume, tuned.quiet.ready, tuned.quiet.subscribed⟩, tuned.fits,
      tuned.once, tuned.waits, tuned.heard⟩
  | resumeOther position =>
    obtain ⟨call, present, rfl⟩ := Option.map_eq_some_iff.mp acted
    have advanced := tuned.advancePool call fun url same => considerate url (same ▸ present)
    exact ⟨⟨advanced.quiet.volume, advanced.quiet.ready, advanced.quiet.subscribed⟩,
      advanced.fits, advanced.once, advanced.waits, advanced.heard⟩

theorem tuned_of_step {action : FeedAction} (considerate : Considerate feed action)
    (stepped : feedStep feed action = some next) :
    Tuned next := by
  unfold feedStep at stepped
  cases waiting : feed.loop with
  | nil =>
    rw [waiting] at stepped
    exact tuned_of_act tuned considerate stepped
  | cons index rest =>
    rw [waiting] at stepped
    obtain ⟨rfl, started⟩ := Option.ite_none_right_eq_some.mp stepped
    cases started
    rw [Considerate, waiting] at considerate
    exact tuned.loadNext rest (considerate index rfl)

end

theorem tuned_initial (videos : List String) (initialIndex preloadAhead preloadBehind : Int)
    (maxPlayers : Nat) (pool : PlayerPool) :
    Tuned (VideoFeed.initial videos initialIndex preloadAhead preloadBehind maxPlayers pool) := by
  have silent (player : Nat) :
    ¬(VideoFeed.constructed videos initialIndex preloadAhead preloadBehind
      maxPlayers pool).Plays player := by
    rintro ⟨-, -, ready, -⟩
    cases ready
  have tuned : Tuned (VideoFeed.constructed videos initialIndex preloadAhead preloadBehind
      maxPlayers pool) := by
    refine ⟨⟨fun _ _ _ set => ?_, fun _ ready => ?_, fun _ member => ?_⟩, fun _ member => ?_,
      List.nodup_nil, fun _ member => ?_, fun player plays => absurd plays (silent player)⟩
    · cases set
    · cases ready
    · cases member
    · cases member
    · cases member
  unfold VideoFeed.initial VideoFeed.start
  split
  · exact tuned
  · exact tuned.updatePreloadWindow rfl fun _ player _ _ _ => silent player

/-! ### Runs -/

/-- Once all loads have settled, only the player of the current index is audible, and it plays when
it is ready in an active feed that is not paused. -/
structure VideoFeed.OnlyCurrentAudible (feed : VideoFeed) : Prop where
  others : feed.loop = [] → feed.loads = [] → ∀ player volume, player ∉ feed.pool.disposed →
    feed.player feed.currentIndex ≠ some player → (feed.audio player).volume = some volume →
      volume = 0
  current : feed.loop = [] → feed.loads = [] → feed.isActive = true → feed.isPaused = false →
    feed.isVideoReady feed.currentIndex = true → ∃ player volume,
      feed.player feed.currentIndex = some player ∧ (feed.audio player).playing = true ∧
        (feed.audio player).volume = some volume ∧ 0 < volume

theorem Tuned.onlyCurrentAudible (tuned : Tuned feed) : feed.OnlyCurrentAudible where
  others _ _ player volume alive other set := by
    by_contra audible
    exact other (tuned.quiet.volume player volume alive set audible)
  current _ settled active unpaused ready := by
    obtain ⟨player, held⟩ := Option.ne_none_iff_exists'.mp (tuned.quiet.ready _ ready)
    obtain ⟨audible, told⟩ := tuned.heard player ⟨active, unpaused, ready, held⟩
    refine ⟨player, 100, held, told.resolve_right fun member => ?_, audible, by decide⟩
    rw [settled] at member
    cases member

/-- In every run that is considerate, the current video alone is audible. -/
theorem onlyCurrentAudible_of_run {videos : List String}
    {initialIndex preloadAhead preloadBehind : Int} {maxPlayers : Nat} {pool : PlayerPool}
    {actions : List FeedAction} {final : VideoFeed}
    (meets : Transition.Meets feedStep Considerate
      (VideoFeed.initial videos initialIndex preloadAhead preloadBehind maxPlayers pool) actions)
    (ran : Transition.run feedStep
      (VideoFeed.initial videos initialIndex preloadAhead preloadBehind maxPlayers pool) actions =
        some final) : final.OnlyCurrentAudible :=
  (Transition.invariant_of_meets feedStep
    (fun _ _ _ tuned considerate stepped => tuned_of_step tuned considerate stepped)
    (tuned_initial _ _ _ _ _ _) meets ran).onlyCurrentAudible

/-! ### A video that is there twice -/

theorem onlyCurrentAudible_loadFirst : ∃ final,
    Transition.run feedStep (VideoFeed.initial ["a"] 0 2 1 2 .empty) loadFirst = some final ∧
      final.OnlyCurrentAudible ∧ final.loads = [] ∧
        final.isVideoReady final.currentIndex = true := by
  suffices meets : Transition.Meets feedStep Considerate
      (VideoFeed.initial ["a"] 0 2 1 2 .empty) loadFirst from
    ⟨_, rfl, onlyCurrentAudible_of_run meets rfl, rfl, rfl⟩
  refine .cons _ (fun index waits _ _ => ⟨List.not_mem_nil, fun url _ player present => ?_⟩) rfl
    (.cons _ (fun load present => ⟨fun _ _ _ plays => ?_, fun starts _ _ => ?_⟩) rfl
      (.cons _ (fun load present => ⟨fun _ _ _ plays => ?_, fun starts _ _ => ?_⟩) rfl
        (.cons _ (fun load present => ⟨fun _ _ _ plays => ?_, fun starts _ _ => ?_⟩) rfl
          (.cons _ (fun load present => ⟨fun _ _ _ plays => ?_, fun starts _ _ => ?_⟩) rfl
            (.cons _ (fun load present => ⟨fun _ _ _ plays => ?_, fun starts _ _ => ?_⟩) rfl
              trivial)))))
  · cases present
  · cases plays.2.2.1
  · cases present
    cases starts.choose_spec
  · cases plays.2.2.1
  · cases present
    cases starts.choose_spec
  · cases plays.2.2.1
  · cases present
    cases starts.choose_spec
  · cases plays.2.2.1
  · cases present
    cases starts.choose_spec
  · cases plays.2.2.1
  · cases present
    rintro - - - player held
    cases held
    exact .inl rfl

/-- The same video is added, and loaded with the same player. -/
def loadTwice : List FeedAction :=
  loadFirst ++ [.addVideos ["a"], .load, .load, .resume 0 false false, .resume 0 false false,
    .resume 0 false false, .resume 0 false false]

/-- The player is muted for the added index while it serves the current one. -/
theorem current_muted : ∃ final,
    Transition.run feedStep (VideoFeed.initial ["a"] 0 2 1 2 .empty) loadTwice = some final ∧
      final.loop = [] ∧ final.loads = [] ∧ final.isActive = true ∧ final.isPaused = false ∧
        final.isVideoReady final.currentIndex = true ∧
          final.player final.currentIndex = some 0 ∧ (final.audio 0).volume = some 0 ∧
            ¬final.OnlyCurrentAudible := by
  refine ⟨_, rfl, rfl, rfl, rfl, rfl, rfl, rfl, rfl, fun alone => ?_⟩
  obtain ⟨player, volume, held, -, set, audible⟩ := alone.current rfl rfl rfl rfl rfl
  cases held
  cases set
  exact Nat.lt_irrefl 0 audible

end Divine.PooledVideoPlayer
