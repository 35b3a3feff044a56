/-
This file shows which indices of a feed have a player.
-/

import Divine.PooledVideoPlayer.VideoFeed

namespace Divine.PooledVideoPlayer

open Dictionary Interleaving

variable {before middle after feed next : VideoFeed} {index other : Int} {player : Nat}

/-! ### Forgetting indices -/

namespace VideoFeed

structure SameAt (before after : VideoFeed) (index : Int) : Prop where
  player : after.player index = before.player index
  state : find after.loadStates index = find before.loadStates index
  subscribed : index ∈ after.bufferSubscriptions ↔ index ∈ before.bufferSubscriptions
  noted : index ∈ after.loadingIndices ↔ index ∈ before.loadingIndices

/-- Nothing is kept of an index. -/
structure GoneAt (feed : VideoFeed) (index : Int) : Prop where
  player : feed.player index = none
  state : find feed.loadStates index = none
  subscribed : index ∉ feed.bufferSubscriptions
  noted : index ∉ feed.loadingIndices

/-- Some indices are forgotten and players are muted or told to play or not, nothing else. -/
structure Drops (before after : VideoFeed) : Prop where
  rest : after = { before with
    loadedPlayers := after.loadedPlayers
    loadStates := after.loadStates
    bufferSubscriptions := after.bufferSubscriptions
    loadingIndices := after.loadingIndices
    audio := after.audio }
  each : ∀ index, SameAt before after index ∨ GoneAt after index

theorem SameAt.refl (feed : VideoFeed) (index : Int) : SameAt feed feed index :=
  ⟨rfl, rfl, Iff.rfl, Iff.rfl⟩

theorem SameAt.trans (first : SameAt before middle index) (second : SameAt middle after index) :
    SameAt before after index :=
  ⟨second.player.trans first.player, second.state.trans first.state,
    second.subscribed.trans first.subscribed, second.noted.trans first.noted⟩

theorem SameAt.goneAt (same : SameAt before after index) (gone : GoneAt before index) :
    GoneAt after index :=
  ⟨same.player.trans gone.player, same.state.trans gone.state,
    mt same.subscribed.mp gone.subscribed,
    mt same.noted.mp gone.noted⟩

theorem Drops.refl (feed : VideoFeed) : Drops feed feed :=
    ⟨rfl, fun index => .inl (.refl feed index)⟩

theorem Drops.trans (first : Drops before middle) (second : Drops middle after) :
    Drops before after where
  rest := by
    have same := second.rest
    rw [first.rest] at same
    exact same
  each index := by
    rcases second.each index with same | gone
    · exact (first.each index).imp (fun earlier => earlier.trans same) same.goneAt
    · exact .inr gone

section

variable (drops : Drops before after)

include drops

theorem Drops.goneAt (gone : GoneAt before index) :
    GoneAt after index :=
  (drops.each index).elim (fun same => same.goneAt gone) id

theorem Drops.player_eq (kept : after.player index = some player) :
    before.player index = some player := by
  rcases drops.each index with same | gone
  · rw [← same.player, kept]
  · cases gone.player.symm.trans kept

theorem Drops.loads : after.loads = before.loads := by
  rw [drops.rest]

theorem Drops.currentIndex :
    after.currentIndex = before.currentIndex := by
  rw [drops.rest]

theorem Drops.pool : after.pool = before.pool := by
  rw [drops.rest]

end

theorem drops_audio (audio : Nat → PlayerAudio) : Drops feed { feed with audio := audio } :=
  ⟨rfl, fun _ => .inl ⟨rfl, rfl, Iff.rfl, Iff.rfl⟩⟩

theorem drops_setVolume (player volume : Nat) : Drops feed (feed.setVolume player volume) :=
  drops_audio _

theorem drops_setPlaying (player : Nat) (playing : Bool) :
    Drops feed (feed.setPlaying player playing) :=
  drops_audio _

theorem drops_onPlayer {act : VideoFeed → Nat → VideoFeed}
    (drops : ∀ player, Drops feed (act feed player)) : Drops feed (feed.onPlayer index act) := by
  unfold onPlayer
  cases feed.player index with
  | none => exact .refl feed
  | some player => exact drops player

theorem drops_pauseVideo : Drops feed (feed.pauseVideo index) :=
  drops_onPlayer fun player => drops_setVolume player 0

theorem drops_playVideo : Drops feed (feed.playVideo index) :=
  drops_onPlayer fun player => (drops_setVolume player 100).trans (drops_setPlaying player true)

theorem goneAt_forget : GoneAt (feed.forget index) index where
  player := (find_remove _ index index).trans (if_pos rfl)
  state := (find_remove _ index index).trans (if_pos rfl)
  subscribed member := of_decide_eq_true (List.mem_filter.mp member).2 rfl
  noted member := of_decide_eq_true (List.mem_filter.mp member).2 rfl

theorem sameAt_forget (differs : index ≠ other) : SameAt feed (feed.forget index) other where
  player := (find_remove _ index other).trans (if_neg differs)
  state := (find_remove _ index other).trans (if_neg differs)
  subscribed := List.mem_filter.trans (and_iff_left (decide_eq_true (Ne.symm differs)))
  noted := List.mem_filter.trans (and_iff_left (decide_eq_true (Ne.symm differs)))

theorem drops_forget : Drops feed (feed.forget index) := by
  refine ⟨rfl, fun other => ?_⟩
  by_cases own : index = other
  · exact .inr (own ▸ goneAt_forget)
  · exact .inl (sameAt_forget own)

theorem drops_releasePlayer : Drops feed (feed.releasePlayer index) :=
  (drops_onPlayer fun player =>
    (drops_setVolume player 0).trans (drops_setPlaying player false)).trans drops_forget

theorem drops_onPlayerEvicted (callback : Int × Nat) :
    Drops feed (feed.onPlayerEvicted callback) := by
  unfold onPlayerEvicted
  split
  · exact drops_forget
  · exact .refl feed

theorem drops_foldl {Item : Type} {act : VideoFeed → Item → VideoFeed}
    (each : ∀ feed item, Drops feed (act feed item)) (items : List Item) (feed : VideoFeed) :
    Drops feed (items.foldl act feed) := by
  induction items generalizing feed with
  | nil => exact .refl feed
  | cons item rest ih => exact (each feed item).trans (ih _)

theorem goneAt_foldl_releasePlayer {indices : List Int} (member : index ∈ indices)
    (feed : VideoFeed) :
    GoneAt (indices.foldl releasePlayer feed) index := by
  induction indices generalizing feed with
  | nil => cases member
  | cons first rest ih =>
    rcases List.mem_cons.mp member with rfl | later
    · exact (drops_foldl (fun _ _ => drops_releasePlayer) rest _).goneAt goneAt_forget
    · exact ih later _

theorem player_foldl_onPlayerEvicted {callbacks : List (Int × Nat)} {callback : Int × Nat}
    (member : callback ∈ callbacks) (feed : VideoFeed) :
    (callbacks.foldl onPlayerEvicted feed).player callback.1 ≠ some callback.2 := by
  induction callbacks generalizing feed with
  | nil => cases member
  | cons first rest ih =>
    rcases List.mem_cons.mp member with rfl | later
    · intro kept
      have early := (drops_foldl (fun _ => drops_onPlayerEvicted) rest _).player_eq kept
      unfold onPlayerEvicted at early
      split at early
      · cases goneAt_forget.player.symm.trans early
      · next differs => exact differs early
    · exact ih later _

theorem Drops.withLoop (drops : Drops before after) (loop : List Int) :
    Drops { before with loop := loop } { after with loop := loop } where
  rest := by
    rw [drops.rest]
  each index :=
    (drops.each index).imp
      (fun same => ⟨same.player, same.state, same.subscribed, same.noted⟩)
      fun gone => ⟨gone.player, gone.state, gone.subscribed, gone.noted⟩

theorem drops_updatePreloadWindow (feed : VideoFeed) (index : Int) :
    Drops { feed with loop := index :: (feed.window index).filter fun other => other ≠ index }
      (feed.updatePreloadWindow index) :=
  (drops_foldl (fun _ _ => drops_releasePlayer) _ feed).withLoop _

theorem mem_keys_of_player (present : feed.player index = some player) :
    index ∈ feed.loadedPlayers.map Prod.fst :=
  List.mem_map.mpr ⟨_, mem_of_find present, rfl⟩

theorem mem_window_updatePreloadWindow
    (present : (feed.updatePreloadWindow index).player other = some player) :
    other ∈ feed.window index := by
  by_contra outside
  have earlier : feed.player other = some player :=
    (drops_updatePreloadWindow feed index).player_eq present
  have released : other ∈ (feed.loadedPlayers.map Prod.fst).filter fun key =>
      key ∉ feed.window index :=
    List.mem_filter.mpr ⟨mem_keys_of_player earlier, decide_eq_true outside⟩
  cases (goneAt_foldl_releasePlayer released feed).player.symm.trans present

theorem drops_releaseAllPlayers (feed : VideoFeed) : Drops feed feed.releaseAllPlayers :=
  drops_foldl (fun _ _ => drops_releasePlayer) _ feed

theorem player_releaseAllPlayers (feed : VideoFeed) (index : Int) :
    feed.releaseAllPlayers.player index = none := by
  cases present : feed.releaseAllPlayers.player index with
  | none => rfl
  | some player =>
    have earlier := (drops_releaseAllPlayers feed).player_eq present
    have gone := goneAt_foldl_releasePlayer (mem_keys_of_player earlier) feed
    exact present.symm.trans gone.player

theorem drops_withPool (feed : VideoFeed) (pool : PlayerPool) :
    Drops (feed.disposes pool) (feed.withPool pool) :=
  drops_foldl (fun _ => drops_onPlayerEvicted) _ _

theorem drops_muteReused (call : PoolCall) : Drops feed (feed.muteReused call) := by
  cases call with
  | getPlayer url =>
    unfold muteReused
    dsimp only
    split
    · exact .refl feed
    · cases find feed.pool.players url with
      | none => exact .refl feed
      | some player => exact drops_setVolume player 0
  | evicting _ | creating _ _ | getExistingPlayer _ | release _ | dispose | disposing _ =>
    exact .refl feed

end VideoFeed

/-! ### What is kept -/

open VideoFeed

/-- The players of a feed are in the window, tell it of their disposal, and are not disposed; each
index has one load. -/
structure Tended (feed : VideoFeed) : Prop where
  active : ∀ index player, feed.player index = some player → feed.isActive = true
  window : ∀ index player, feed.player index = some player →
    index ∈ feed.window feed.currentIndex
  told : ∀ index player, feed.player index = some player →
    (index, player) ∈ feed.onDisposedCallbacks
  alive : ∀ index player, feed.player index = some player → player ∉ feed.pool.disposed
  once : (feed.loads.map Load.index).Nodup

theorem Tended.of_none (none : ∀ index, feed.player index = none)
    (once : (feed.loads.map Load.index).Nodup) : Tended feed where
  active index _ present := (Option.some_ne_none _ (present.symm.trans (none index))).elim
  window index _ present := (Option.some_ne_none _ (present.symm.trans (none index))).elim
  told index _ present := (Option.some_ne_none _ (present.symm.trans (none index))).elim
  alive index _ present := (Option.some_ne_none _ (present.symm.trans (none index))).elim
  once := once

theorem Tended.drops (tended : Tended before) (drops : Drops before after) : Tended after where
  active index player kept :=
    (congrArg VideoFeed.isActive drops.rest).trans
      (tended.active index player (drops.player_eq kept))
  window index player kept := by
    rw [drops.rest]
    exact tended.window index player (drops.player_eq kept)
  told index player kept := by
    rw [drops.rest]
    exact tended.told index player (drops.player_eq kept)
  alive index player kept := by
    rw [drops.rest]
    exact tended.alive index player (drops.player_eq kept)
  once := by
    rw [drops.rest]
    exact tended.once

theorem Tended.withPool (tended : Tended feed) (pool : PlayerPool) :
    Tended (feed.withPool pool) := by
  have drops := drops_withPool feed pool
  have alive (index : Int) (player : Nat)
      (present : (feed.withPool pool).player index = some player) : player ∉ pool.disposed := by
    intro disposed
    have told := tended.told index player (drops.player_eq present)
    have earlier := tended.alive index player (drops.player_eq present)
    refine player_foldl_onPlayerEvicted (List.mem_filter.mpr ⟨told, ?_⟩) _ present
    exact decide_eq_true ⟨disposed, earlier⟩
  have rest := drops.rest
  refine ⟨fun index player present => ?_, fun index player present => ?_,
    fun index player present => ?_, fun index player present => ?_, ?_⟩
  · exact (congrArg VideoFeed.isActive rest).trans
      (tended.active index player (drops.player_eq present))
  · have within := tended.window index player (drops.player_eq present)
    rw [rest]
    exact within
  · have told := tended.told index player (drops.player_eq present)
    rw [rest]
    refine List.mem_filter.mpr ⟨told, ?_⟩
    have kept : feed.isEvicted pool (index, player) = false :=
      decide_eq_false fun evicted => alive index player present evicted.1
    rw [kept]
    rfl
  · rw [rest]
    exact alive index player present
  · rw [rest]
    exact tended.once

theorem Tended.advancePool (tended : Tended feed) (call : PoolCall) :
    Tended (feed.advancePool call).1 :=
  (tended.drops (drops_muteReused call)).withPool _

theorem loads_advancePool (feed : VideoFeed) (call : PoolCall) :
    (feed.advancePool call).1.loads = feed.loads := by
  rw [VideoFeed.advancePool, (drops_withPool _ _).loads]
  exact (drops_muteReused call).loads

section

variable (tended : Tended feed)

include tended

theorem Tended.noting (loadStates : List (Int × LoadState))
    (bufferSubscriptions loadingIndices loop : List Int) (audio : Nat → PlayerAudio) :
    Tended { feed with
      loadStates := loadStates
      bufferSubscriptions := bufferSubscriptions
      loadingIndices := loadingIndices
      loop := loop
      audio := audio } :=
  ⟨tended.active, tended.window, tended.told, tended.alive, tended.once⟩

theorem Tended.finishLoad (index : Int) : Tended (feed.finishLoad index) :=
  tended.noting _ _ _ _ _

theorem Tended.failLoad (index : Int) : Tended (feed.failLoad index) :=
  tended.noting _ _ _ _ _

theorem Tended.onBufferReady (index : Int) :
    Tended (feed.onBufferReady index) := by
  unfold VideoFeed.onBufferReady onPlayer
  cases feed.player index with
  | none =>
    dsimp only [Option.elim_none]
    rwa [ite_self]
  | some player =>
    dsimp only [Option.elim_some]
    split
    · exact tended
    · split <;> exact tended.noting _ _ _ _ _

theorem Tended.storePlayer (wanted : index ∈ feed.loadingIndices →
      feed.isActive = true ∧ index ∈ feed.window feed.currentIndex) :
    Tended (feed.storePlayer index player).1 := by
  unfold VideoFeed.storePlayer
  split
  · exact tended.finishLoad index
  · next noted =>
    obtain ⟨active, within⟩ := wanted (not_not.mp noted)
    split
    · have kept (other : Int) (old : Nat)
          (present : find (remove (put feed.loadedPlayers index player) index) other = some old) :
          feed.player other = some old := by
        rw [find_remove, find_put] at present
        by_cases own : index = other
        · rw [if_pos own] at present
          cases present
        · rwa [if_neg own, if_neg own] at present
      exact {
        active := fun other old present => tended.active other old (kept other old present)
        window := fun other old present => tended.window other old (kept other old present)
        told := fun other old present =>
          List.mem_append_left _ (tended.told other old (kept other old present))
        alive := fun other old present => tended.alive other old (kept other old present)
        once := tended.once }
    · next alive =>
      have kept (other : Int) (old : Nat)
          (present : find (put feed.loadedPlayers index player) other = some old) :
          (other = index ∧ old = player) ∨ feed.player other = some old := by
        rw [find_put] at present
        by_cases own : index = other
        · rw [if_pos own] at present
          exact .inl ⟨own.symm, (Option.some.inj present).symm⟩
        · rw [if_neg own] at present
          exact .inr present
      refine ⟨fun _ _ _ => active, fun other old present => ?_, fun other old present => ?_,
        fun other old present => ?_, tended.once⟩
      · rcases kept other old present with ⟨rfl, rfl⟩ | earlier
        · exact within
        · exact tended.window other old earlier
      · rcases kept other old present with ⟨rfl, rfl⟩ | earlier
        · exact List.mem_append_right _ (List.mem_singleton_self _)
        · exact List.mem_append_left _ (tended.told other old earlier)
      · rcases kept other old present with ⟨rfl, rfl⟩ | earlier
        · exact alive
        · exact tended.alive other old earlier

end

theorem loads_storePlayer : (feed.storePlayer index player).1.loads = feed.loads := by
  unfold VideoFeed.storePlayer
  split
  · rfl
  · dsimp only
    split <;> rfl

theorem loads_onBufferReady : (feed.onBufferReady index).loads = feed.loads := by
  unfold VideoFeed.onBufferReady onPlayer
  cases feed.player index with
  | none =>
    dsimp only [Option.elim_none]
    rw [ite_self]
  | some player =>
    dsimp only [Option.elim_some]
    split
    · rfl
    · split <;> rfl

theorem loads_resumeLoad (load : Load) (fails buffering : Bool) :
    (feed.resumeLoad load fails buffering).1.loads = feed.loads := by
  unfold VideoFeed.resumeLoad
  cases load.stage with
  | pooling call => exact loads_advancePool feed call
  | returned player => exact loads_storePlayer
  | rejected => rfl
  | opening player =>
    dsimp only
    split
    · rfl
    · split <;> rfl
  | muting player =>
    dsimp only
    split <;> rfl
  | starting player =>
    dsimp only
    split
    · rfl
    · split
      · rfl
      · exact loads_onBufferReady

theorem Tended.resumeLoad (tended : Tended feed) {load : Load} (fails buffering : Bool)
    (wanted : ∀ player, load.stage = .returned player → load.index ∈ feed.loadingIndices →
      feed.isActive = true ∧ load.index ∈ feed.window feed.currentIndex) :
    Tended (feed.resumeLoad load fails buffering).1 := by
  unfold VideoFeed.resumeLoad
  cases stage : load.stage with
  | pooling call => exact tended.advancePool call
  | returned player => exact tended.storePlayer (wanted player stage)
  | rejected => exact tended.finishLoad _
  | opening player =>
    dsimp only
    split
    · exact tended.failLoad _
    · split
      · exact tended.finishLoad _
      · exact tended.noting _ _ _ _ _
  | muting player =>
    dsimp only
    split
    · exact tended.failLoad _
    · exact tended.noting _ _ _ _ _
  | starting player =>
    dsimp only
    split
    · exact tended.failLoad _
    · split
      · exact tended.finishLoad _
      · exact (tended.onBufferReady _).finishLoad _

theorem Tended.updatePreloadWindow {videos : List String} {isActive : Bool}
    (tended : Tended before) (stays : before.isActive = true → isActive = true)
    (drops : Drops
      { before with videos := videos, currentIndex := index, isActive := isActive } after) :
    Tended (after.updatePreloadWindow index) := by
  have released := drops_updatePreloadWindow after index
  have kept (other : Int) (player : Nat)
      (present : (after.updatePreloadWindow index).player other = some player) :
      before.player other = some player := drops.player_eq (released.player_eq present)
  refine ⟨fun other player present => ?_, fun other player present => ?_,
    fun other player present => ?_, fun other player present => ?_, ?_⟩
  · rw [released.rest, drops.rest]
    exact stays (tended.active other player (kept other player present))
  · have within := mem_window_updatePreloadWindow present
    have current : after.currentIndex = index := by
      rw [drops.rest]
    rw [released.rest]
    rw [current]
    exact within
  · rw [released.rest, drops.rest]
    exact tended.told other player (kept other player present)
  · rw [released.rest, drops.rest]
    exact tended.alive other player (kept other player present)
  · rw [released.loads]
    exact drops.loads.symm ▸ tended.once

section

variable (tended : Tended feed)

include tended

theorem Tended.loadPlayer (fresh : index ∉ feed.loads.map Load.index) :
    Tended (feed.loadPlayer index) := by
  unfold VideoFeed.loadPlayer
  cases feed.url index with
  | none => exact tended
  | some url =>
    have started := (tended.noting (put feed.loadStates index .loading) feed.bufferSubscriptions
      (feed.loadingIndices ++ [index]) feed.loop feed.audio).advancePool (.getPlayer url)
    refine ⟨started.active, started.window, started.told, started.alive, ?_⟩
    dsimp only
    rw [loads_advancePool, List.map_append]
    refine List.nodup_append.mpr ⟨tended.once, List.nodup_singleton _, ?_⟩
    rintro other member _ own rfl
    rw [List.mem_singleton.mp own] at member
    exact fresh member

theorem Tended.loadNext (rest : List Int)
    (fresh : feed.player index = none → index ∉ feed.loadingIndices →
      index ∉ feed.loads.map Load.index) : Tended (feed.loadNext index rest) := by
  have continued := tended.noting feed.loadStates feed.bufferSubscriptions feed.loadingIndices rest
    feed.audio
  unfold VideoFeed.loadNext
  split
  · next missing =>
      exact continued.loadPlayer (fresh (Option.isNone_iff_eq_none.mp missing.1) missing.2)
  · exact continued

theorem Tended.onPageChanged (index : Int) :
    Tended (feed.onPageChanged index) := by
  unfold VideoFeed.onPageChanged
  dsimp only
  have paused : Drops { feed with currentIndex := index }
      ({ feed with currentIndex := index }.pauseVideo feed.currentIndex) := drops_pauseVideo
  split
  · exact tended
  · split
    · exact tended.updatePreloadWindow id (paused.trans drops_playVideo)
    · exact tended.updatePreloadWindow id paused

theorem Tended.setActive (active : Bool) : Tended (feed.setActive active) := by
  unfold VideoFeed.setActive
  split
  · exact tended
  · split
    · exact tended.updatePreloadWindow (fun _ => rfl) (.refl _)
    · refine .of_none (player_releaseAllPlayers _) ?_
      rw [(drops_releaseAllPlayers _).loads, (drops_pauseVideo).loads]
      exact tended.once

theorem Tended.addVideos (newVideos : List String) :
    Tended (feed.addVideos newVideos) := by
  unfold VideoFeed.addVideos
  split
  · exact tended
  · split
    · exact tended.updatePreloadWindow id (.refl _)
    · next inactive =>
      have none (other : Int) (player : Nat) (present : feed.player other = some player) : False :=
        inactive (tended.active other player present)
      exact ⟨tended.active, fun other player present => (none other player present).elim,
        tended.told, tended.alive, tended.once⟩

theorem Tended.play : Tended feed.play := by
  have resumed : Tended { feed with isPaused := false } :=
    ⟨tended.active, tended.window, tended.told, tended.alive, tended.once⟩
  unfold VideoFeed.play
  split
  · exact resumed.drops (drops_onPlayer fun player =>
      (drops_setVolume player 100).trans (drops_setPlaying player true))
  · exact tended

theorem Tended.pause : Tended feed.pause := by
  have paused : Tended { feed with isPaused := true } :=
    ⟨tended.active, tended.window, tended.told, tended.alive, tended.once⟩
  exact paused.drops (drops_onPlayer fun player => drops_setPlaying player false)

end

/-! ### Steps -/

/-- One load an index, and a load that gets its player finds the feed active and its index in the
window. -/
def Undisturbed (feed : VideoFeed) : FeedAction → Prop
  | .load => ∀ index ∈ feed.loop.head?, feed.player index = none → index ∉ feed.loadingIndices →
      index ∉ feed.loads.map Load.index
  | .resume position _ _ => ∀ load ∈ feed.loads[position]?, ∀ player,
      load.stage = .returned player → load.index ∈ feed.loadingIndices →
        feed.isActive = true ∧ load.index ∈ feed.window feed.currentIndex
  | .onPageChanged _ | .setActive _ | .addVideos _ | .play | .pause | .notBuffering _
  | .startOther _ | .resumeOther _ => True

theorem tended_of_act {action : FeedAction} (tended : Tended feed)
    (undisturbed : Undisturbed feed action) (acted : feed.act action = some next) :
    Tended next := by
  cases action with
  | load => cases acted
  | resume position fails buffering =>
    obtain ⟨load, present, rfl⟩ := Option.map_eq_some_iff.mp acted
    have resumed := tended.resumeLoad fails buffering (undisturbed load present)
    refine ⟨resumed.active, resumed.window, resumed.told, resumed.alive, ?_⟩
    dsimp only [withLoad]
    rw [loads_resumeLoad]
    refine nodup_map_proceed present (fun stage follows => ?_) tended.once
    obtain ⟨_, -, rfl⟩ := Option.map_eq_some_iff.mp follows
    rfl
  | onPageChanged index =>
    cases acted
    exact tended.onPageChanged index
  | setActive active =>
    cases acted
    exact tended.setActive active
  | addVideos newVideos =>
    cases acted
    exact tended.addVideos newVideos
  | play =>
    cases acted
    exact tended.play
  | pause =>
    cases acted
    exact tended.pause
  | notBuffering index =>
    obtain ⟨-, heard⟩ := Option.ite_none_right_eq_some.mp acted
    cases heard
    unfold VideoFeed.notBuffering
    split
    · exact tended.onBufferReady index
    · exact tended
  | startOther call =>
    obtain ⟨-, started⟩ := Option.ite_none_right_eq_some.mp acted
    cases started
    exact ⟨tended.active, tended.window, tended.told, tended.alive, tended.once⟩
  | resumeOther position =>
    obtain ⟨call, -, rfl⟩ := Option.map_eq_some_iff.mp acted
    have advanced := tended.advancePool call
    exact ⟨advanced.active, advanced.window, advanced.told, advanced.alive, advanced.once⟩

theorem tended_of_step {action : FeedAction} (tended : Tended feed)
    (undisturbed : Undisturbed feed action) (stepped : feedStep feed action = some next) :
    Tended next := by
  unfold feedStep at stepped
  cases waiting : feed.loop with
  | nil =>
    rw [waiting] at stepped
    exact tended_of_act tended undisturbed stepped
  | cons index rest =>
    rw [waiting] at stepped
    obtain ⟨rfl, started⟩ := Option.ite_none_right_eq_some.mp stepped
    cases started
    rw [Undisturbed, waiting] at undisturbed
    exact tended.loadNext rest (undisturbed index rfl)

theorem tended_initial (videos : List String) (initialIndex preloadAhead preloadBehind : Int)
    (maxPlayers : Nat) (pool : PlayerPool) :
    Tended (VideoFeed.initial videos initialIndex preloadAhead preloadBehind maxPlayers pool) := by
  have tended : Tended (VideoFeed.constructed videos initialIndex preloadAhead preloadBehind
      maxPlayers pool) := .of_none (fun _ => rfl) List.nodup_nil
  unfold VideoFeed.initial VideoFeed.start
  split
  · exact tended
  · exact tended.updatePreloadWindow id (.refl _)

/-! ### Runs -/

/-- Once all loads have settled, the feed keeps undisposed players for its preload window, none when
inactive, and one load an index. -/
structure VideoFeed.Preloads (feed : VideoFeed) : Prop where
  window : feed.loop = [] → feed.loads = [] → ∀ index player,
    feed.player index = some player → index ∈ feed.window feed.currentIndex
  inactive : feed.loop = [] → feed.loads = [] → feed.isActive = false →
    ∀ index, feed.player index = none
  once : (feed.loads.map Load.index).Nodup
  alive : ∀ index player, feed.player index = some player → player ∉ feed.pool.disposed

theorem Tended.preloads (tended : Tended feed) : feed.Preloads where
  window _ _ := tended.window
  inactive _ _ inactive index := by
    cases present : feed.player index with
    | none => rfl
    | some player => cases inactive.symm.trans (tended.active index player present)
  once := tended.once
  alive := tended.alive

/-- In every run that is not disturbed, players are preloaded for the window. -/
theorem preloads_of_run {videos : List String} {initialIndex preloadAhead preloadBehind : Int}
    {maxPlayers : Nat} {pool : PlayerPool} {actions : List FeedAction} {final : VideoFeed}
    (meets : Transition.Meets feedStep Undisturbed
      (VideoFeed.initial videos initialIndex preloadAhead preloadBehind maxPlayers pool) actions)
    (ran : Transition.run feedStep
      (VideoFeed.initial videos initialIndex preloadAhead preloadBehind maxPlayers pool) actions =
        some final) : final.Preloads :=
  (Transition.invariant_of_meets feedStep
    (fun _ _ _ tended undisturbed stepped => tended_of_step tended undisturbed stepped)
    (tended_initial _ _ _ _ _ _) meets ran).preloads

/-! ### Deactivation -/

/-- A load that is left alone from its start to its end. -/
def loadFirst : List FeedAction :=
  [.load, .resume 0 false false, .resume 0 false false, .resume 0 false false,
    .resume 0 false false, .resume 0 false false]

theorem preloads_loadFirst : ∃ final,
    Transition.run feedStep (VideoFeed.initial ["a"] 0 2 1 2 .empty) loadFirst = some final ∧
      final.Preloads ∧ final.loads = [] ∧ final.player 0 = some 0 := by
  suffices meets : Transition.Meets feedStep Undisturbed
      (VideoFeed.initial ["a"] 0 2 1 2 .empty) loadFirst from
    ⟨_, rfl, preloads_of_run meets rfl, rfl, rfl⟩
  refine .cons _ (fun _ _ _ _ => List.not_mem_nil) rfl (.cons _ (fun load present _ stage _ => ?_)
    rfl (.cons _ (fun load present _ _ _ => ?_) rfl (.cons _ (fun load present _ stage _ => ?_) rfl
      (.cons _ (fun load present _ stage _ => ?_) rfl
        (.cons _ (fun load present _ stage _ => ?_) rfl trivial)))))
  · cases present
    cases stage
  · cases present
    exact ⟨rfl, by decide⟩
  · cases present
    cases stage
  · cases present
    cases stage
  · cases present
    cases stage

def loadDeactivated : List FeedAction :=
  [.load, .setActive false, .resume 0 false false, .resume 0 false false, .resume 0 false false,
    .resume 0 false false, .resume 0 false false]

/-- The load does not notice. -/
theorem loaded_inactive : ∃ final,
    Transition.run feedStep (VideoFeed.initial ["a"] 0 2 1 2 .empty) loadDeactivated =
      some final ∧ final.loop = [] ∧ final.loads = [] ∧ final.isActive = false ∧
        final.player 0 = some 0 ∧ ¬final.Preloads := by
  refine ⟨_, rfl, rfl, rfl, rfl, rfl, fun preloads => ?_⟩
  have none := preloads.inactive rfl rfl rfl 0
  revert none
  decide

end Divine.PooledVideoPlayer
