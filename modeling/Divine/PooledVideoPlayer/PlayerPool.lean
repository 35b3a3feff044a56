/-
This file embeds the pool of video players.
-/

import Divine.Library.Dictionary
import Divine.Library.Interleaving

namespace Divine.PooledVideoPlayer

open Dictionary Interleaving

/-! ### The pool -/

/-- The players by URL and the order of their last use, with the URLs of all that were made, and
those that were disposed. -/
structure PlayerPool where
  players : List (String × Nat)
  lruOrder : List String
  isDisposed : Bool
  created : List String
  disposed : List Nat
  deriving DecidableEq

/-- Where a call of the pool is held up. What follows on the start of a disposal is left out at the
end of a call. -/
inductive PoolCall where
  | getPlayer (url : String)
  | evicting (url : String)
  | creating (url : String) (player : Nat)
  | getExistingPlayer (url : String)
  | release (url : String)
  | dispose
  | disposing (rest : List Nat)
  deriving DecidableEq

namespace PlayerPool

def empty : PlayerPool where
  players := []
  lruOrder := []
  isDisposed := false
  created := []
  disposed := []

variable (pool : PlayerPool)

def touch (url : String) : PlayerPool :=
  { pool with lruOrder := pool.lruOrder.erase url ++ [url] }

def disposePlayer (player : Nat) : PlayerPool :=
  { pool with disposed := pool.disposed.insert player }

def removePlayer (url : String) : PlayerPool :=
  let removed := { pool with players := remove pool.players url }
  match find pool.players url with
  | none => removed
  | some player => removed.disposePlayer player

def release (url : String) : PlayerPool :=
  { pool.removePlayer url with lruOrder := pool.lruOrder.erase url }

def evictLru : PlayerPool :=
  match pool.lruOrder with
  | [] => pool
  | url :: rest => { pool.removePlayer url with lruOrder := rest }

/-- `getPlayer` for a new URL, up to the await of an eviction or of `_createPlayer`. -/
def makeRoom (maxPlayers : Nat) (url : String) : PlayerPool × Option PoolCall :=
  if maxPlayers ≤ pool.players.length ∧ pool.lruOrder ≠ [] then
    (pool.evictLru, some (.evicting url))
  else
    ({ pool with created := pool.created ++ [url] }, some (.creating url pool.created.length))

/-- `getPlayer` after its last await. -/
def store (url : String) (player : Nat) : PlayerPool :=
  { pool with players := put pool.players url player, lruOrder := pool.lruOrder ++ [url] }

/-- `dispose` before its loop. -/
def clear : PlayerPool := { pool with players := [], lruOrder := [], isDisposed := true }

/-- The loop of `dispose` up to the next player that is not disposed yet. -/
def disposeRest : List Nat → PlayerPool × Option PoolCall
  | [] => (pool, none)
  | player :: rest =>
      if player ∈ pool.disposed then disposeRest rest
      else (pool.disposePlayer player, some (.disposing rest))

/-- What a call does up to its next await. A pool that was disposed makes `getPlayer` throw. -/
def advance (maxPlayers : Nat) : PoolCall → PlayerPool × Option PoolCall
  | .getPlayer url =>
      if pool.isDisposed then (pool, none)
      else if (find pool.players url).isSome then (pool.touch url, none)
      else pool.makeRoom maxPlayers url
  | .evicting url => pool.makeRoom maxPlayers url
  | .creating url player => (pool.store url player, none)
  | .getExistingPlayer url =>
      (if (find pool.players url).isSome then pool.touch url else pool, none)
  | .release url => (pool.release url, none)
  | .dispose =>
      if pool.isDisposed then (pool, none)
      else pool.clear.disposeRest (pool.players.map Prod.snd)
  | .disposing rest => pool.disposeRest rest

end PlayerPool

def PoolCall.isFirst : PoolCall → Bool
  | getPlayer _ | getExistingPlayer _ | release _ | dispose => true
  | evicting _ | creating _ _ | disposing _ => false

def playerSystem (maxPlayers : Nat) : System PlayerPool PoolCall Unit where
  starts _ call := call.isFirst
  advance pool := pool.advance maxPlayers
  environment _ _ := none

abbrev PlayerCalls := Pool PlayerPool PoolCall

/-! ### Keeping the books -/

def PoolCall.holds : PoolCall → List Nat
  | creating _ player => [player]
  | disposing rest => rest
  | getPlayer _ | evicting _ | getExistingPlayer _ | release _ | dispose => []

namespace PlayerCalls

variable (calls : PlayerCalls)

def Holds (player : Nat) : Prop := ∃ call ∈ calls.calls, player ∈ call.holds

/-- The pool is within its capacity, the order has the pooled URLs once each, each player is pooled,
disposed or held, and none is left of a disposed pool. -/
structure Sound (maxPlayers : Nat) : Prop where
  capacity : calls.shared.players.length ≤ maxPlayers
  nodup : calls.shared.lruOrder.Nodup
  pooled : ∀ url, url ∈ calls.shared.lruOrder ↔ (find calls.shared.players url).isSome
  accounted : ∀ player < calls.shared.created.length,
    player ∈ calls.shared.players.map Prod.snd ∨ player ∈ calls.shared.disposed ∨
      calls.Holds player
  disposed : calls.shared.isDisposed = true → calls.calls = [] →
    ∀ player < calls.shared.created.length, player ∈ calls.shared.disposed

def FindsRoom (maxPlayers : Nat) (calls : PlayerCalls) : Action PoolCall Unit → Prop
  | .step index => ∀ url player, calls.calls[index]? = some (.creating url player) →
      calls.shared.isDisposed = false ∧ find calls.shared.players url = none ∧
        calls.shared.players.length < maxPlayers
  | .start _ | .environment _ => True

end PlayerCalls

/-! ### What one operation keeps -/

variable {pool : PlayerPool} {held later : Nat → Prop} {maxPlayers : Nat} {url : String}

/-- The books of a pool, when calls have some players in their hands. -/
structure Tidy (maxPlayers : Nat) (pool : PlayerPool) (held : Nat → Prop) : Prop where
  keyed : (pool.players.map Prod.fst).Nodup
  capacity : pool.players.length ≤ maxPlayers
  order : pool.lruOrder.Perm (pool.players.map Prod.fst)
  accounted : ∀ player < pool.created.length,
    player ∈ pool.players.map Prod.snd ∨ player ∈ pool.disposed ∨ held player
  empty : pool.isDisposed = true → pool.players = []

theorem tidy_empty : Tidy maxPlayers .empty held where
  keyed := List.nodup_nil
  capacity := Nat.zero_le maxPlayers
  order := List.Perm.refl []
  accounted player older := absurd older (Nat.not_lt_zero player)
  empty _ := rfl

theorem Tidy.mono (tidy : Tidy maxPlayers pool held) (more : ∀ player, held player → later player) :
    Tidy maxPlayers pool later :=
  { tidy with
    accounted := fun player older =>
      (tidy.accounted player older).imp_right fun kept => kept.imp_right (more player) }

theorem Tidy.mem_lruOrder (tidy : Tidy maxPlayers pool held) :
    url ∈ pool.lruOrder ↔ (find pool.players url).isSome = true := by
  rw [tidy.order.mem_iff, Option.isSome_iff_ne_none, ← any_key_iff, List.mem_map, List.any_eq_true]
  simp only [decide_eq_true_eq]

theorem Tidy.touch (tidy : Tidy maxPlayers pool held)
    (pooled : (find pool.players url).isSome = true) : Tidy maxPlayers (pool.touch url) held :=
  { tidy with
    order := by
      have member := tidy.mem_lruOrder.mpr pooled
      have moved : (pool.lruOrder.erase url ++ [url]).Perm (url :: pool.lruOrder.erase url) :=
        List.perm_append_singleton url _
      exact (moved.trans (List.perm_cons_erase member).symm).trans tidy.order }

@[simp] theorem players_removePlayer :
    (pool.removePlayer url).players = remove pool.players url := by
  unfold PlayerPool.removePlayer
  split <;> rfl

@[simp] theorem created_removePlayer : (pool.removePlayer url).created = pool.created := by
  unfold PlayerPool.removePlayer
  split <;> rfl

@[simp] theorem isDisposed_removePlayer :
    (pool.removePlayer url).isDisposed = pool.isDisposed := by
  unfold PlayerPool.removePlayer
  split <;> rfl

theorem disposed_subset_removePlayer : pool.disposed ⊆ (pool.removePlayer url).disposed := by
  unfold PlayerPool.removePlayer
  split
  · exact List.Subset.refl _
  · exact fun player member => List.mem_insert_of_mem member

theorem mem_disposed_removePlayer {player : Nat} (found : find pool.players url = some player) :
    player ∈ (pool.removePlayer url).disposed := by
  unfold PlayerPool.removePlayer
  rw [found]
  exact List.mem_insert_self

theorem Tidy.remove (tidy : Tidy maxPlayers pool held) {lruOrder : List String}
    (order : lruOrder.Perm ((Dictionary.remove pool.players url).map Prod.fst)) :
    Tidy maxPlayers { pool.removePlayer url with lruOrder := lruOrder } held where
  keyed := by
    rw [players_removePlayer]
    exact nodup_keys_remove tidy.keyed
  capacity := by
    rw [players_removePlayer]
    exact (List.length_filter_le _ _).trans tidy.capacity
  order := by
    rw [players_removePlayer]
    exact order
  accounted player older := by
    rw [created_removePlayer] at older
    rw [players_removePlayer]
    rcases tidy.accounted player older with pooled | kept
    · obtain ⟨entry, member, rfl⟩ := List.mem_map.mp pooled
      by_cases own : entry.1 = url
      · have found := find_of_mem tidy.keyed member
        rw [own] at found
        exact .inr (.inl (mem_disposed_removePlayer found))
      · refine .inl (List.mem_map.mpr ⟨entry, ?_, rfl⟩)
        exact List.mem_filter.mpr ⟨member, decide_eq_true own⟩
    · exact .inr (kept.imp_left fun disposed => disposed_subset_removePlayer disposed)
  empty disposed := by
    rw [players_removePlayer, tidy.empty ((isDisposed_removePlayer).symm.trans disposed)]
    rfl

theorem Tidy.release (tidy : Tidy maxPlayers pool held) :
    Tidy maxPlayers (pool.release url) held := by
  refine tidy.remove ?_
  have nodup := tidy.order.nodup_iff.mpr tidy.keyed
  rw [keys_remove, nodup.erase_eq_filter]
  refine (List.Perm.of_eq ?_).trans (tidy.order.filter _)
  exact List.filter_congr fun key _ => by rw [Bool.eq_iff_iff, bne_iff_ne, decide_eq_true_iff]

theorem Tidy.evictLru (tidy : Tidy maxPlayers pool held) :
    Tidy maxPlayers pool.evictLru held := by
  unfold PlayerPool.evictLru
  cases lru : pool.lruOrder with
  | nil => exact tidy
  | cons url rest =>
    refine tidy.remove ?_
    have nodup := tidy.order.nodup_iff.mpr tidy.keyed
    have order := tidy.order
    rw [lru] at nodup order
    have kept : rest = (url :: rest).filter fun key => key ≠ url := by
      rw [List.filter_cons_of_neg (by simp), List.filter_eq_self.mpr]
      intro key member
      exact decide_eq_true (ne_of_mem_of_not_mem member (List.nodup_cons.mp nodup).1)
    rw [keys_remove, kept]
    exact order.filter _

theorem disposed_subset_disposePlayer (player : Nat) :
    pool.disposed ⊆ (pool.disposePlayer player).disposed :=
  fun _ member => List.mem_insert_of_mem member

theorem disposed_subset_disposeRest (rest : List Nat) :
    pool.disposed ⊆ (pool.disposeRest rest).1.disposed := by
  induction rest with
  | nil => exact List.Subset.refl _
  | cons player rest ih =>
    unfold PlayerPool.disposeRest
    split
    · exact ih
    · exact disposed_subset_disposePlayer player

theorem disposed_subset_makeRoom : pool.disposed ⊆ (pool.makeRoom maxPlayers url).1.disposed := by
  unfold PlayerPool.makeRoom
  split
  · unfold PlayerPool.evictLru
    cases pool.lruOrder with
    | nil => exact List.Subset.refl _
    | cons url rest => exact disposed_subset_removePlayer
  · exact List.Subset.refl _

theorem PlayerPool.disposed_subset_advance (pool : PlayerPool) (maxPlayers : Nat)
    (call : PoolCall) : pool.disposed ⊆ (pool.advance maxPlayers call).1.disposed := by
  unfold PlayerPool.advance
  cases call with
  | getPlayer url =>
    dsimp only
    split
    · exact List.Subset.refl _
    · split
      · exact List.Subset.refl _
      · exact disposed_subset_makeRoom
  | evicting url => exact disposed_subset_makeRoom
  | creating url player => exact List.Subset.refl _
  | getExistingPlayer url =>
    dsimp only
    split <;> exact List.Subset.refl _
  | release url => exact disposed_subset_removePlayer
  | dispose =>
    dsimp only
    split
    · exact List.Subset.refl _
    · exact @disposed_subset_disposeRest pool.clear _
  | disposing rest => exact disposed_subset_disposeRest rest

theorem disposeRest_ne_getPlayer (pool : PlayerPool) (rest : List Nat) (url : String) :
    (pool.disposeRest rest).2 ≠ some (.getPlayer url) := by
  induction rest with
  | nil => exact (Option.some_ne_none _).symm
  | cons player rest ih =>
    unfold PlayerPool.disposeRest
    split
    · exact ih
    · intro same
      cases same

theorem makeRoom_ne_getPlayer (pool : PlayerPool) (maxPlayers : Nat) (url other : String) :
    (pool.makeRoom maxPlayers url).2 ≠ some (.getPlayer other) := by
  unfold PlayerPool.makeRoom
  split <;> intro same <;> cases same

theorem PlayerPool.advance_ne_getPlayer (pool : PlayerPool) (maxPlayers : Nat) (call : PoolCall)
    (url : String) : (pool.advance maxPlayers call).2 ≠ some (.getPlayer url) := by
  unfold PlayerPool.advance
  cases call with
  | getPlayer own =>
    dsimp only
    split
    · exact (Option.some_ne_none _).symm
    · split
      · exact (Option.some_ne_none _).symm
      · exact makeRoom_ne_getPlayer pool maxPlayers own url
  | evicting own => exact makeRoom_ne_getPlayer pool maxPlayers own url
  | creating _ _ | getExistingPlayer _ | release _ => exact (Option.some_ne_none _).symm
  | dispose =>
    dsimp only
    split
    · exact (Option.some_ne_none _).symm
    · exact disposeRest_ne_getPlayer _ _ url
  | disposing rest => exact disposeRest_ne_getPlayer pool rest url

section

variable (tidy : Tidy maxPlayers pool held)

include tidy

theorem Tidy.create (holds : later pool.created.length)
    (more : ∀ player, held player → later player) :
    Tidy maxPlayers { pool with created := pool.created ++ [url] } later :=
  { tidy.mono more with
    accounted := fun player older => by
      rw [List.length_append, List.length_singleton] at older
      rcases Nat.lt_succ_iff_lt_or_eq.mp older with before | rfl
      · exact (tidy.mono more).accounted player before
      · exact .inr (.inr holds) }

theorem Tidy.store {player : Nat}
    (active : pool.isDisposed = false) (absent : find pool.players url = none)
    (room : pool.players.length < maxPlayers)
    (fewer : ∀ other, held other → other = player ∨ later other) :
    Tidy maxPlayers (pool.store url player) later where
  keyed := nodup_keys_put tidy.keyed
  capacity := by
    dsimp only [PlayerPool.store]
    rw [put_of_absent absent, List.length_append]
    exact room
  order := by
    dsimp only [PlayerPool.store]
    rw [put_of_absent absent, List.map_append]
    exact tidy.order.append_right _
  accounted other older := by
    dsimp only [PlayerPool.store]
    rw [put_of_absent absent, List.map_append, List.mem_append, List.map_singleton,
      List.mem_singleton]
    rcases tidy.accounted other older with pooled | disposed | holds
    · exact .inl (.inl pooled)
    · exact .inr (.inl disposed)
    · rcases fewer other holds with rfl | still
      · exact .inl (.inr rfl)
      · exact .inr (.inr still)
  empty disposed := by
    rw [← Bool.not_eq_true] at active
    exact absurd disposed active

theorem Tidy.clear :
    Tidy maxPlayers pool.clear
      fun player => player ∈ pool.players.map Prod.snd ∨ held player where
  keyed := List.nodup_nil
  capacity := Nat.zero_le maxPlayers
  order := List.Perm.refl []
  accounted player older := by
    rcases tidy.accounted player older with pooled | disposed | holds
    · exact .inr (.inr (.inl pooled))
    · exact .inr (.inl disposed)
    · exact .inr (.inr (.inr holds))
  empty _ := rfl

theorem Tidy.disposePlayer {player : Nat}
    (fewer : ∀ other, held other → other = player ∨ later other) :
    Tidy maxPlayers (pool.disposePlayer player) later :=
  { tidy with
    accounted := fun other older => by
      rcases tidy.accounted other older with pooled | disposed | holds
      · exact .inl pooled
      · exact .inr (.inl (List.mem_insert_of_mem disposed))
      · rcases fewer other holds with rfl | still
        · exact .inr (.inl List.mem_insert_self)
        · exact .inr (.inr still) }

end

def heldBy (stage : Option PoolCall) (player : Nat) : Prop :=
  ∃ call ∈ stage, player ∈ call.holds

theorem Tidy.disposeRest {rest : List Nat}
    (tidy : Tidy maxPlayers pool fun player => player ∈ rest ∨ held player) :
    Tidy maxPlayers (pool.disposeRest rest).1
      fun player => heldBy (pool.disposeRest rest).2 player ∨ held player := by
  induction rest with
  | nil => exact tidy.mono fun player holds => .inr (holds.resolve_left List.not_mem_nil)
  | cons first rest ih =>
    unfold PlayerPool.disposeRest
    split
    · next already =>
      refine ih { tidy with accounted := fun player older => ?_ }
      rcases tidy.accounted player older with pooled | disposed | holds | holds
      · exact .inl pooled
      · exact .inr (.inl disposed)
      · rcases List.mem_cons.mp holds with rfl | member
        · exact .inr (.inl already)
        · exact .inr (.inr (.inl member))
      · exact .inr (.inr (.inr holds))
    · refine tidy.disposePlayer fun player holds => ?_
      rcases holds with holds | holds
      · rcases List.mem_cons.mp holds with rfl | member
        · exact .inl rfl
        · exact .inr (.inl ⟨_, rfl, member⟩)
      · exact .inr (.inr holds)

theorem Tidy.makeRoom (tidy : Tidy maxPlayers pool held) :
    Tidy maxPlayers (pool.makeRoom maxPlayers url).1
      fun player => heldBy (pool.makeRoom maxPlayers url).2 player ∨ held player := by
  unfold PlayerPool.makeRoom
  split
  · exact tidy.evictLru.mono fun player holds => .inr holds
  · exact tidy.create (.inl ⟨_, rfl, List.mem_singleton_self _⟩) fun player holds => .inr holds

theorem Tidy.advance {call : PoolCall}
    (tidy : Tidy maxPlayers pool fun player => player ∈ call.holds ∨ held player)
    (findsRoom : ∀ url player, call = .creating url player → pool.isDisposed = false ∧
      find pool.players url = none ∧ pool.players.length < maxPlayers) :
    Tidy maxPlayers (pool.advance maxPlayers call).1
      fun player => heldBy (pool.advance maxPlayers call).2 player ∨ held player := by
  cases call with
  | getPlayer url =>
    have tidy := tidy.mono fun player holds => holds.resolve_left List.not_mem_nil
    unfold PlayerPool.advance
    dsimp only
    split
    · exact tidy.mono fun player => .inr
    · split
      · next pooled => exact (tidy.touch pooled).mono fun player => .inr
      · exact tidy.makeRoom
  | evicting url =>
    exact (tidy.mono fun player holds => holds.resolve_left List.not_mem_nil).makeRoom
  | creating url player =>
    obtain ⟨active, absent, room⟩ := findsRoom url player rfl
    refine tidy.store active absent room fun other holds => ?_
    exact holds.imp List.mem_singleton.mp .inr
  | getExistingPlayer url =>
    have tidy := tidy.mono fun player holds => holds.resolve_left List.not_mem_nil
    unfold PlayerPool.advance
    dsimp only
    split
    · next pooled => exact (tidy.touch pooled).mono fun player => .inr
    · exact tidy.mono fun player => .inr
  | release url =>
    exact (tidy.mono fun player holds => holds.resolve_left List.not_mem_nil).release.mono
      fun player => .inr
  | dispose =>
    have tidy := tidy.mono fun player holds => holds.resolve_left List.not_mem_nil
    unfold PlayerPool.advance
    dsimp only
    split
    · exact tidy.mono fun player => .inr
    · exact tidy.clear.disposeRest
  | disposing rest => exact tidy.disposeRest

/-! ### Runs -/

namespace PlayerCalls

variable {calls next : PlayerCalls} {action : Action PoolCall Unit}

theorem tidy_of_step (tidy : Tidy maxPlayers calls.shared calls.Holds)
    (findsRoom : calls.FindsRoom maxPlayers action)
    (stepped : poolStep (playerSystem maxPlayers) calls action = some next) :
    Tidy maxPlayers next.shared next.Holds := by
  cases action with
  | start call =>
    obtain ⟨-, started⟩ := Option.ite_none_right_eq_some.mp stepped
    cases started
    refine tidy.mono fun player holds => ?_
    obtain ⟨other, member, inside⟩ := holds
    exact ⟨other, List.mem_append_left _ member, inside⟩
  | step index =>
    obtain ⟨call, present, rfl⟩ := Option.map_eq_some_iff.mp stepped
    have own : Tidy maxPlayers calls.shared fun player => player ∈ call.holds ∨
        ∃ other ∈ proceed calls.calls index none, player ∈ other.holds := by
      refine tidy.mono fun player holds => ?_
      obtain ⟨other, member, inside⟩ := holds
      rcases mem_proceed_of_mem member index none with same | kept
      · rw [Option.some.inj (present.symm.trans same)]
        exact .inl inside
      · exact .inr ⟨other, kept, inside⟩
    refine (own.advance fun url player same => findsRoom url player (same ▸ present)).mono
      fun player holds => ?_
    rcases holds with ⟨stage, same, inside⟩ | ⟨other, member, inside⟩
    · have follows := mem_proceed_next present stage
      rw [← Option.mem_def.mp same] at follows
      exact ⟨stage, follows, inside⟩
    · exact ⟨other, mem_proceed_of_mem_eraseIdx member _, inside⟩
  | environment event => cases stepped

theorem sound_of_tidy (tidy : Tidy maxPlayers calls.shared calls.Holds) :
    calls.Sound maxPlayers where
  capacity := tidy.capacity
  nodup := tidy.order.nodup_iff.mpr tidy.keyed
  pooled _ := tidy.mem_lruOrder
  accounted := tidy.accounted
  disposed isDisposed ended player older := by
    rcases tidy.accounted player older with pooled | disposed | ⟨call, member, -⟩
    · rw [tidy.empty isDisposed] at pooled
      exact absurd pooled List.not_mem_nil
    · exact disposed
    · rw [ended] at member
      exact absurd member List.not_mem_nil

/-- In every run in which each player that is stored finds room, the pool keeps its books. -/
theorem sound_of_run {actions : List (Action PoolCall Unit)} {final : PlayerCalls}
    (meets : Transition.Meets (poolStep (playerSystem maxPlayers)) (FindsRoom maxPlayers)
      (Pool.idle .empty) actions)
    (ran : Transition.run (poolStep (playerSystem maxPlayers)) (Pool.idle .empty) actions =
      some final) : final.Sound maxPlayers :=
  sound_of_tidy (Transition.invariant_of_meets (poolStep (playerSystem maxPlayers))
    (fun _ _ _ tidy findsRoom stepped => tidy_of_step tidy findsRoom stepped) tidy_empty meets ran)

end PlayerCalls

/-! ### Two calls -/

def playersInTurn : List (Action PoolCall Unit) :=
  [.start (.getPlayer "a"), .step 0, .step 0, .start (.getPlayer "b"), .step 0, .step 0, .step 0]

theorem sound_inTurn : ∃ final : PlayerCalls,
    Transition.run (poolStep (playerSystem 1)) (Pool.idle .empty) playersInTurn = some final ∧
      final.Sound 1 ∧ final.shared.players = [("b", 1)] := by
  suffices meets : Transition.Meets (poolStep (playerSystem 1)) (PlayerCalls.FindsRoom 1)
      (Pool.idle .empty) playersInTurn from
    ⟨_, rfl, PlayerCalls.sound_of_run meets rfl, rfl⟩
  refine .cons _ trivial rfl (.cons _ (fun _ _ present => ?_) rfl
    (.cons _ (fun _ _ present => ?_) rfl (.cons _ trivial rfl (.cons _ (fun _ _ present => ?_) rfl
      (.cons _ (fun _ _ present => ?_) rfl (.cons _ (fun _ _ present => ?_) rfl trivial))))))
  · cases present
  · cases present
    exact ⟨rfl, rfl, Nat.one_pos⟩
  · cases present
  · cases present
  · cases present
    exact ⟨rfl, rfl, Nat.one_pos⟩

def playersAtOnce : List (Action PoolCall Unit) :=
  [.start (.getPlayer "a"), .start (.getPlayer "a"), .step 0, .step 1, .step 0, .step 0]

/-- Of two players of one URL the first is lost, and the order has the URL twice. -/
theorem player_lost : ∃ final : PlayerCalls,
    Transition.run (poolStep (playerSystem 2)) (Pool.idle .empty) playersAtOnce = some final ∧
      final.calls = [] ∧ final.shared.players = [("a", 1)] ∧ final.shared.disposed = [] ∧
        final.shared.lruOrder = ["a", "a"] ∧ ¬final.Sound 2 := by
  refine ⟨_, rfl, rfl, rfl, rfl, rfl, fun sound => ?_⟩
  have twice := sound.nodup
  revert twice
  decide

end Divine.PooledVideoPlayer
