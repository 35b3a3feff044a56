/-
This file embeds the controller of a feed of videos: the indices that have a player of the
pool, the loads under way, and what paging, activation, playback and the pool do to them.
-/

import Divine.PooledVideoPlayer.PlayerPool

namespace Divine.PooledVideoPlayer

open Dictionary Interleaving

/-! ### State -/

/-- What `LoadState.none` stands for is that there is no entry. -/
inductive LoadState where
  | loading
  | ready
  | error
  deriving DecidableEq

/-- The volume of a player, once it was set, and whether it was last told to play. -/
structure PlayerAudio where
  volume : Option Nat
  playing : Bool
  deriving DecidableEq

/-- Where a load is held up: in the pool, while its player opens the media, is muted, and starts to
play. -/
inductive LoadStage where
  | pooling (call : PoolCall)
  | returned (player : Nat)
  | rejected
  | opening (player : Nat)
  | muting (player : Nat)
  | starting (player : Nat)
  deriving DecidableEq

structure Load where
  index : Int
  stage : LoadStage
  deriving DecidableEq

/-- The controller with its pool, the loads and the calls of others under way, and the indices that
are still to look at. -/
structure VideoFeed where
  videos : List String
  preloadAhead : Int
  preloadBehind : Int
  currentIndex : Int
  isActive : Bool
  isPaused : Bool
  loadedPlayers : List (Int × Nat)
  loadStates : List (Int × LoadState)
  bufferSubscriptions : List Int
  loadingIndices : List Int
  onDisposedCallbacks : List (Int × Nat)
  audio : Nat → PlayerAudio
  maxPlayers : Nat
  pool : PlayerPool
  loop : List Int
  loads : List Load
  others : List PoolCall

namespace VideoFeed

variable (feed : VideoFeed)

/-! ### Players -/

def setVolume (player volume : Nat) : VideoFeed :=
  { feed with
    audio := fun other =>
      if other = player then ⟨some volume, (feed.audio other).playing⟩ else feed.audio other }

def setPlaying (player : Nat) (playing : Bool) : VideoFeed :=
  { feed with
    audio := fun other =>
      if other = player then ⟨(feed.audio other).volume, playing⟩ else feed.audio other }

def player (index : Int) : Option Nat := find feed.loadedPlayers index

def onPlayer (index : Int) (act : VideoFeed → Nat → VideoFeed) : VideoFeed :=
  (feed.player index).elim feed (act feed)

def isVideoReady (index : Int) : Bool := find feed.loadStates index = some .ready

def forget (index : Int) : VideoFeed :=
  { feed with
    loadedPlayers := remove feed.loadedPlayers index
    loadStates := remove feed.loadStates index
    bufferSubscriptions := feed.bufferSubscriptions.filter fun other => other ≠ index
    loadingIndices := feed.loadingIndices.filter fun other => other ≠ index }

def releasePlayer (index : Int) : VideoFeed :=
  (feed.onPlayer index fun feed player => (feed.setVolume player 0).setPlaying player false).forget
    index

def releaseAllPlayers : VideoFeed := (feed.loadedPlayers.map Prod.fst).foldl releasePlayer feed

def playVideo (index : Int) : VideoFeed :=
  feed.onPlayer index fun feed player => (feed.setVolume player 100).setPlaying player true

def pauseVideo (index : Int) : VideoFeed :=
  feed.onPlayer index fun feed player => feed.setVolume player 0

def onBufferReady (index : Int) : VideoFeed :=
  if feed.isVideoReady index then feed
  else
    feed.onPlayer index fun feed player =>
      let ready := { feed with
        loadStates := put feed.loadStates index .ready
        bufferSubscriptions := feed.bufferSubscriptions.filter fun other => other ≠ index }
      if index = feed.currentIndex ∧ feed.isActive = true ∧ feed.isPaused = false then
        ready.setVolume player 100
      else ready

/-! ### The pool -/

def onPlayerEvicted (callback : Int × Nat) : VideoFeed :=
  if feed.player callback.1 = some callback.2 then feed.forget callback.1 else feed

def isEvicted (pool : PlayerPool) (callback : Int × Nat) : Bool :=
  callback.2 ∈ pool.disposed ∧ callback.2 ∉ feed.pool.disposed

def disposes (pool : PlayerPool) : VideoFeed :=
  { feed with
    pool := pool
    onDisposedCallbacks := feed.onDisposedCallbacks.filter fun callback =>
      !feed.isEvicted pool callback }

def withPool (pool : PlayerPool) : VideoFeed :=
  (feed.onDisposedCallbacks.filter (feed.isEvicted pool)).foldl onPlayerEvicted
    (feed.disposes pool)

def muteReused : PoolCall → VideoFeed
  | .getPlayer url =>
      if feed.pool.isDisposed then feed
      else (find feed.pool.players url).elim feed fun player => feed.setVolume player 0
  | _ => feed

def advancePool (call : PoolCall) : VideoFeed × Option PoolCall :=
  let advanced := feed.pool.advance feed.maxPlayers call
  ((feed.muteReused call).withPool advanced.1, advanced.2)

/-! ### Loads -/

def window (index : Int) : List Int :=
  ((List.range feed.videos.length).map Int.ofNat).filter fun other =>
    index - feed.preloadBehind ≤ other ∧ other ≤ index + feed.preloadAhead

def updatePreloadWindow (index : Int) : VideoFeed :=
  let released := ((feed.loadedPlayers.map Prod.fst).filter fun other =>
    other ∉ feed.window index).foldl releasePlayer feed
  { released with loop := index :: (feed.window index).filter fun other => other ≠ index }

def url (index : Int) : Option String := if index < 0 then none else feed.videos[index.toNat]?

def poolStage (call : PoolCall) (pool : PlayerPool) : Option PoolCall → LoadStage
  | some next => .pooling next
  | none =>
      match call with
      | .creating _ player => .returned player
      | .getPlayer url =>
          if pool.isDisposed then .rejected else (find pool.players url).elim .rejected .returned
      | _ => .rejected

def loadPlayer (index : Int) : VideoFeed :=
  match feed.url index with
  | none => feed
  | some url =>
      let started := { feed with
        loadingIndices := feed.loadingIndices ++ [index]
        loadStates := put feed.loadStates index .loading }
      let advanced := started.advancePool (.getPlayer url)
      { advanced.1 with
        loads := advanced.1.loads ++
          [⟨index, poolStage (.getPlayer url) feed.pool advanced.2⟩] }

/-- The `finally` of `_loadPlayer`. -/
def finishLoad (index : Int) : VideoFeed :=
  { feed with loadingIndices := feed.loadingIndices.filter fun other => other ≠ index }

/-- The `catch` of `_loadPlayer`. -/
def failLoad (index : Int) : VideoFeed :=
  { feed with loadStates := put feed.loadStates index .error }.finishLoad index

def storePlayer (index : Int) (player : Nat) : VideoFeed × Option LoadStage :=
  if index ∉ feed.loadingIndices then (feed.finishLoad index, none)
  else
    let stored := { feed with
      loadedPlayers := put feed.loadedPlayers index player
      onDisposedCallbacks := feed.onDisposedCallbacks ++ [(index, player)] }
    if player ∈ feed.pool.disposed then
      ({ stored with
        loadedPlayers := remove stored.loadedPlayers index
        loadStates := remove stored.loadStates index }.finishLoad index, none)
    else (stored.setPlaying player false, some (.opening player))

/-- `_loadPlayer` from one await to the next, when what it waited for fails or not. -/
def resumeLoad (load : Load) (fails buffering : Bool) : VideoFeed × Option LoadStage :=
  match load.stage with
  | .pooling call =>
      let advanced := feed.advancePool call
      (advanced.1, some (poolStage call advanced.1.pool advanced.2))
  | .returned player => feed.storePlayer load.index player
  | .rejected => (feed.finishLoad load.index, none)
  | .opening player =>
      if fails then (feed.failLoad load.index, none)
      else if load.index ∉ feed.loadingIndices then (feed.finishLoad load.index, none)
      else
        ({ feed with
          bufferSubscriptions := feed.bufferSubscriptions.insert load.index }.setVolume player 0,
          some (.muting player))
  | .muting player =>
      if fails then (feed.failLoad load.index, none)
      else (feed.setPlaying player true, some (.starting player))
  | .starting _ =>
      if fails then (feed.failLoad load.index, none)
      else
        ((if buffering then feed else feed.onBufferReady load.index).finishLoad load.index, none)

end VideoFeed

/-! ### Steps -/

inductive FeedAction where
  | load
  | resume (position : Nat) (fails buffering : Bool)
  | onPageChanged (index : Int)
  | setActive (active : Bool)
  | addVideos (newVideos : List String)
  | play
  | pause
  | notBuffering (index : Int)
  | startOther (call : PoolCall)
  | resumeOther (position : Nat)
  deriving DecidableEq

namespace VideoFeed

variable (feed : VideoFeed)

/-- One turn of the loop of `_updatePreloadWindow`. -/
def loadNext (index : Int) (rest : List Int) : VideoFeed :=
  let continued := { feed with loop := rest }
  if (feed.player index).isNone ∧ index ∉ feed.loadingIndices then continued.loadPlayer index
  else continued

def onPageChanged (index : Int) : VideoFeed :=
  if index = feed.currentIndex then feed
  else
    let paused := { feed with currentIndex := index }.pauseVideo feed.currentIndex
    let played :=
      if paused.isActive ∧ !paused.isPaused ∧ paused.isVideoReady index then paused.playVideo index
      else paused
    played.updatePreloadWindow index

def setActive (active : Bool) : VideoFeed :=
  if feed.isActive = active then feed
  else if active then { feed with isActive := true }.updatePreloadWindow feed.currentIndex
  else ({ feed with isActive := false }.pauseVideo feed.currentIndex).releaseAllPlayers

def addVideos (newVideos : List String) : VideoFeed :=
  if newVideos = [] then feed
  else
    let added := { feed with videos := feed.videos ++ newVideos }
    if feed.isActive then added.updatePreloadWindow feed.currentIndex else added

def play : VideoFeed :=
  if feed.isActive ∧ feed.isVideoReady feed.currentIndex then
    { feed with isPaused := false }.onPlayer feed.currentIndex fun feed player =>
      (feed.setVolume player 100).setPlaying player true
  else feed

def pause : VideoFeed :=
  { feed with isPaused := true }.onPlayer feed.currentIndex fun feed player =>
    feed.setPlaying player false

def notBuffering (index : Int) : VideoFeed :=
  if find feed.loadStates index = some .loading then feed.onBufferReady index else feed

end VideoFeed

def withLoad (position : Nat) (index : Int) (resumed : VideoFeed × Option LoadStage) : VideoFeed :=
  { resumed.1 with
    loads := proceed resumed.1.loads position (resumed.2.map fun stage => ⟨index, stage⟩) }

/-- Another user of the pool goes on with a call, or ends it. -/
def withOther (position : Nat) (advanced : VideoFeed × Option PoolCall) : VideoFeed :=
  { advanced.1 with others := proceed advanced.1.others position advanced.2 }

def VideoFeed.act (feed : VideoFeed) : FeedAction → Option VideoFeed
  | .load => none
  | .resume position fails buffering => feed.loads[position]?.map fun load =>
      withLoad position load.index (feed.resumeLoad load fails buffering)
  | .onPageChanged index => some (feed.onPageChanged index)
  | .setActive active => some (feed.setActive active)
  | .addVideos newVideos => some (feed.addVideos newVideos)
  | .play => some feed.play
  | .pause => some feed.pause
  | .notBuffering index =>
      if index ∈ feed.bufferSubscriptions then some (feed.notBuffering index) else none
  | .startOther call =>
      if call.isFirst then some { feed with others := feed.others ++ [call] } else none
  | .resumeOther position => feed.others[position]?.map fun call =>
      withOther position (feed.advancePool call)

def feedStep (feed : VideoFeed) (action : FeedAction) : Option VideoFeed :=
  match feed.loop with
  | [] => feed.act action
  | index :: rest => if action = .load then some (feed.loadNext index rest) else none

/-- A controller before `_initialize`. -/
def VideoFeed.constructed (videos : List String)
    (initialIndex preloadAhead preloadBehind : Int) (maxPlayers : Nat) (pool : PlayerPool) :
    VideoFeed where
  videos := videos
  preloadAhead := preloadAhead
  preloadBehind := preloadBehind
  currentIndex := max 0 (min initialIndex (videos.length - 1))
  isActive := true
  isPaused := false
  loadedPlayers := []
  loadStates := []
  bufferSubscriptions := []
  loadingIndices := []
  onDisposedCallbacks := []
  audio := fun _ => ⟨none, false⟩
  maxPlayers := maxPlayers
  pool := pool
  loop := []
  loads := []
  others := []

/-- `_initialize`. -/
def VideoFeed.start (feed : VideoFeed) : VideoFeed :=
  if feed.videos = [] then feed else feed.updatePreloadWindow feed.currentIndex

/-- A controller that was just made, with the loop of its first loads to run. -/
def VideoFeed.initial (videos : List String) (initialIndex preloadAhead preloadBehind : Int)
    (maxPlayers : Nat) (pool : PlayerPool) : VideoFeed :=
  (constructed videos initialIndex preloadAhead preloadBehind maxPlayers pool).start

end Divine.PooledVideoPlayer
