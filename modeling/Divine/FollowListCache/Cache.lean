/-
This file models the cache of follow lists in the web client, which writes to the local
storage at once and to IndexedDB through requests that wait for their turn, and copies
what it loads from IndexedDB back.
-/

import Divine.Library.Observer
import Divine.Library.Replay

namespace Divine.FollowListCache

open Transition Observer Replay

/-! ### The cache -/

structure CachedFollowList where
  pubkey : String
  follows : List String
  timestamp : Nat
  eventId : String
  createdAt : Nat
  deriving DecidableEq

/-- The structure that `getCached` asks for. -/
def CachedFollowList.valid (data : CachedFollowList) : Bool :=
  data.pubkey ≠ "" && data.timestamp ≠ 0

def maxAgeMs : Nat := 5 * 60 * 1000

/-- A request to IndexedDB. -/
inductive Request where
  | write (write : Write String CachedFollowList)
  | get (key : String)
  deriving DecidableEq

/-- `initPromise` and what it made of `db`. -/
inductive Connection where
  | pending | opened | missing
  deriving DecidableEq

/-- The two stores, by public key, and the requests not yet executed, in their order. -/
structure State where
  localStorage : String → Option CachedFollowList
  database : String → Option CachedFollowList
  queue : List Request
  connection : Connection

inductive Call where
  | setCached (data : CachedFollowList)
  | getCached (key : String)
  | isFresh (key : String) (now : Nat)
  | invalidate (key : String)
  | clearAll
  | loadFromIndexedDB (key : String)
  | initialised (available : Bool)
  | execute

/-- Who wrote: a caller of the cache or `loadFromIndexedDB`. -/
inductive Writer where
  | caller | load
  deriving DecidableEq

abbrev Entry := Write String CachedFollowList × Writer

namespace State

variable (state : State)

/-- What is written to the local storage at once and asked of IndexedDB. -/
def write (write : Write String CachedFollowList) : State :=
  { state with
    localStorage := write.apply state.localStorage
    queue := state.queue ++ [.write write] }

def read (key : String) : Option CachedFollowList :=
  (state.localStorage key).filter CachedFollowList.valid

def readWrite (key : String) : Option (Write String CachedFollowList) :=
  if (state.localStorage key).isSome && (state.read key).isNone then some (.remove key) else none

def isFresh (key : String) (now : Nat) : Bool :=
  (state.read key).any fun data => now - data.timestamp < maxAgeMs

end State

/-- One call, or one request that IndexedDB executes, with the writes to the local storage. What is
found is set. -/
def step (state : State) : Call → Option (State × List Entry)
  | .setCached data =>
      some (state.write (.set data.pubkey data), [(.set data.pubkey data, .caller)])
  | .getCached key | .isFresh key _ =>
      some ((state.readWrite key).elim state state.write,
        (state.readWrite key).toList.map fun write => (write, .caller))
  | .invalidate key => some (state.write (.remove key), [(.remove key, .caller)])
  | .clearAll => some (state.write .clear, [(.clear, .caller)])
  | .loadFromIndexedDB key => some ({ state with queue := state.queue ++ [.get key] }, [])
  | .initialised available =>
      if state.connection = .pending then
        some ({ state with connection := if available then .opened else .missing }, [])
      else none
  | .execute =>
      match state.connection, state.queue with
      | .pending, _ | _, [] => none
      | .missing, _ :: rest => some ({ state with queue := rest }, [])
      | .opened, .write write :: rest =>
          some ({ state with database := write.apply state.database, queue := rest }, [])
      | .opened, .get key :: rest =>
          match state.database key with
          | none => some ({ state with queue := rest }, [])
          | some data =>
              some (({ state with queue := rest }).write (.set data.pubkey data),
                [(.set data.pubkey data, .load)])

def observe : Observe State Call (List Entry) (List Entry) := fun log _ _ _ entries =>
  entries ++ log

def writes (queue : List Request) : List (Write String CachedFollowList) :=
  queue.filterMap fun request =>
    match request with
    | .write write => some write
    | .get _ => none

/-! ### Logs -/

def SetAgain (log : List Entry) (key : String) (data : CachedFollowList) : Prop :=
  ∀ later removal earlier, log = later ++ removal :: earlier → removal.1.removes key = true →
    (.set key data, .caller) ∈ later

def Newest (log : List Entry) (key : String) (data : CachedFollowList) : Prop :=
  ∀ other writer, (.set key other, writer) ∈ log → other.createdAt ≤ data.createdAt

/-- Every list that was loaded had been set again and was the newest. -/
def Sound : List Entry → Prop
  | [] => True
  | entry :: log => (∀ key data, entry = (.set key data, .load) →
      SetAgain log key data ∧ Newest log key data) ∧ Sound log

section Logs

variable {start : String → Option CachedFollowList} {log later earlier : List Entry} {entry : Entry}
  {key : String} {data : CachedFollowList}

theorem Sound.of_append (sound : Sound (later ++ earlier)) : Sound earlier := by
  induction later with
  | nil => exact sound
  | cons entry later ih => exact ih sound.2

theorem setAgain_of_sound (sound : Sound log)
    (set : ∀ later removal earlier, log = later ++ removal :: earlier →
      removal.1.removes key = true → ∃ writer, (.set key data, writer) ∈ later) :
    SetAgain log key data := by
  rintro later removal earlier rfl removes
  obtain ⟨writer, member⟩ := set later removal earlier rfl removes
  cases writer with
  | caller => exact member
  | load =>
    -- the list that was loaded had been set again by then
    obtain ⟨newer, older, rfl⟩ := List.append_of_mem member
    rw [List.append_assoc, List.cons_append] at sound
    have loaded := (sound.of_append.1 key data rfl).1
    exact List.mem_append_right _
      (List.mem_cons_of_mem _ (loaded older removal earlier rfl removes))

theorem untouched_or_exists_set (held : replay start (log.map Prod.fst) key = some data) :
    (∀ entry ∈ log, entry.1.touches key = false) ∨
      ∃ younger writer older, log = younger ++ (.set key data, writer) :: older ∧
        ∀ entry ∈ younger, entry.1.touches key = false := by
  rcases replay_eq_some held with ⟨-, untouched⟩ | ⟨later, earlier, isLog, untouched⟩
  · exact .inl fun entry member => untouched _ (List.mem_map_of_mem member)
  · obtain ⟨younger, rest, rfl, rfl, isRest⟩ := List.map_eq_append_iff.mp isLog
    obtain ⟨⟨write, writer⟩, older, rfl, rfl, -⟩ := List.map_eq_cons_iff.mp isRest
    exact .inr ⟨younger, writer, older, rfl,
      fun entry member => untouched _ (List.mem_map_of_mem member)⟩

theorem exists_set_of_removes (held : replay start (log.map Prod.fst) key = some data)
    (isLog : log = later ++ entry :: earlier) (removes : entry.1.removes key = true) :
    ∃ writer, (.set key data, writer) ∈ later := by
  have touches := touches_of_removes removes
  rcases untouched_or_exists_set held with untouched | ⟨younger, writer, older, rfl, untouched⟩
  · have member : entry ∈ log := isLog ▸ by simp
    rw [untouched entry member] at touches
    cases touches
  · refine ⟨writer, ?_⟩
    rcases List.append_eq_append_iff.mp isLog with
      ⟨between, rfl, isOlder⟩ | ⟨between, rfl, isEarlier⟩
    · cases between with
      | nil =>
        obtain ⟨rfl, -⟩ := List.cons.inj isOlder
        cases removes
      | cons first between =>
        obtain ⟨rfl, -⟩ := List.cons.inj isOlder
        simp
    · cases between with
      | nil =>
        obtain ⟨rfl, -⟩ := List.cons.inj isEarlier
        cases removes
      | cons first between =>
        obtain ⟨rfl, -⟩ := List.cons.inj isEarlier
        rw [untouched entry (by simp)] at touches
        cases touches

theorem newest_of_untouched {writer : Writer}
    (untouched : ∀ entry ∈ later, entry.1.touches key = false)
    (newest : Newest earlier key data) :
    Newest (later ++ (.set key data, writer) :: earlier) key data := by
  intro other setter member
  rcases List.mem_append.mp member with inside | member
  · have touched := untouched _ inside
    simp [Write.touches] at touched
  · rcases List.mem_cons.mp member with same | inside
    · obtain ⟨same, -⟩ := Prod.mk.inj same
      obtain ⟨-, rfl⟩ := Write.set.inj same
      exact le_rfl
    · exact newest other setter inside

end Logs

/-! ### Loaded lists -/

/-- A list that is found is executed with no removal of its key still to come, and after no newer
list of the key. -/
def Condition (seen : State × List Entry) : Call → Prop
  | .execute => seen.1.connection = .opened → ∀ key rest data,
      seen.1.queue = .get key :: rest → seen.1.database key = some data →
        (∀ before removal after, writes rest = before ++ removal :: after →
          removal.removes key = true → .set key data ∈ after) ∧
        (∀ other, .set key other ∈ writes rest → other.createdAt ≤ data.createdAt) ∧
        ∀ later earlier, seen.2 = later ++ (.set key data, .caller) :: earlier →
          Newest earlier key data
  | _ => True

/-- The stores are what the log made of them, IndexedDB without the writes that wait. -/
structure Follows (start : State) (seen : State × List Entry) : Prop where
  sound : Sound seen.2
  localStorage : seen.1.localStorage = replay start.localStorage (seen.2.map Prod.fst)
  keyed : ∀ key data, seen.1.database key = some data → data.pubkey = key
  queued : ∀ key data, .set key data ∈ writes seen.1.queue → data.pubkey = key
  waiting : seen.1.connection ≠ .missing → ∃ pending executed, seen.2 = pending ++ executed ∧
    writes seen.1.queue = (pending.map Prod.fst).reverse ∧
    seen.1.database = replay start.database (executed.map Prod.fst)

section Steps

variable {start state : State} {log : List Entry} {seen next : State × List Entry} {call : Call}
  {key : String} {data : CachedFollowList}

theorem writes_append (first second : List Request) :
    writes (first ++ second) = writes first ++ writes second := List.filterMap_append

section

variable (follows : Follows start (state, log))

include follows

theorem Follows.write {write : Write String CachedFollowList}
    {writer : Writer} (own : ∀ key data, write = .set key data → data.pubkey = key)
    (loaded : ∀ key data, write = .set key data → writer = .load →
      SetAgain log key data ∧ Newest log key data) :
    Follows start (state.write write, (write, writer) :: log) where
  sound := ⟨fun key data same => loaded key data (congrArg Prod.fst same) (congrArg Prod.snd same),
    follows.sound⟩
  localStorage := by
    show write.apply state.localStorage = _
    rw [follows.localStorage]
    rfl
  keyed := follows.keyed
  queued key data member := by
    have member : .set key data ∈ writes (state.queue ++ [.write write]) := member
    rw [writes_append] at member
    rcases List.mem_append.mp member with earlier | last
    · exact follows.queued key data earlier
    · exact own key data (List.mem_singleton.mp last).symm
  waiting connected := by
    obtain ⟨pending, executed, split, queue, database⟩ := follows.waiting connected
    refine ⟨(write, writer) :: pending, executed, congrArg _ split, ?_, database⟩
    show writes (state.queue ++ [.write write]) = _
    rw [writes_append, queue, List.map_cons, List.reverse_cons]
    rfl

theorem Follows.queue {queue : List Request}
    {connection : Connection} (subset : writes queue ⊆ writes state.queue)
    (kept : connection ≠ .missing →
      state.connection ≠ .missing ∧ writes queue = writes state.queue) :
    Follows start ({ state with queue := queue, connection := connection }, log) where
  sound := follows.sound
  localStorage := follows.localStorage
  keyed := follows.keyed
  queued key data member := follows.queued key data (subset member)
  waiting connected := by
    obtain ⟨before, same⟩ := kept connected
    obtain ⟨pending, executed, split, queued, database⟩ := follows.waiting before
    exact ⟨pending, executed, split, same.trans queued, database⟩

theorem Follows.execute {rest : List Request}
    {write : Write String CachedFollowList} (queue : state.queue = .write write :: rest)
    (connected : state.connection ≠ .missing) :
    Follows start ({ state with database := write.apply state.database, queue := rest }, log) where
  sound := follows.sound
  localStorage := follows.localStorage
  keyed key data held := by
    rcases apply_eq_some held with rfl | ⟨-, earlier⟩
    · refine follows.queued key data ?_
      rw [queue]
      exact List.mem_cons_self
    · exact follows.keyed key data earlier
  queued key data member := by
    refine follows.queued key data ?_
    rw [queue]
    exact List.mem_cons_of_mem _ member
  waiting _ := by
    obtain ⟨pending, executed, split, queued, database⟩ := follows.waiting connected
    have queued : write :: writes rest = (pending.map Prod.fst).reverse := by
      rw [← queued]
      rw [queue]
      rfl
    have isPending : pending.map Prod.fst = (writes rest).reverse ++ [write] := by
      rw [← List.reverse_cons, queued, List.reverse_reverse]
    obtain ⟨younger, oldest, rfl, isRest, isWrite⟩ := List.map_eq_append_iff.mp isPending
    obtain ⟨entry, none, rfl, isEntry, isNil⟩ := List.map_eq_cons_iff.mp isWrite
    obtain rfl := List.map_eq_nil_iff.mp isNil
    refine ⟨younger, entry :: executed, ?_, ?_, ?_⟩
    · rw [split, List.append_assoc]
      rfl
    · rw [isRest, List.reverse_reverse]
    · have database : state.database = replay start.database (executed.map Prod.fst) := database
      rw [database, ← isEntry]
      rfl

theorem Follows.loaded {rest : List Request}
    (condition : Condition (state, log) .execute) (queue : state.queue = .get key :: rest)
    (opened : state.connection = .opened) (held : state.database key = some data) :
    SetAgain log key data ∧ Newest log key data := by
  obtain ⟨removals, newer, callers⟩ := condition opened key rest data queue held
  obtain ⟨pending, executed, split, queued, database⟩ :=
    follows.waiting fun missing => by cases opened.symm.trans missing
  have split : log = pending ++ executed := split
  have queued : writes rest = (pending.map Prod.fst).reverse := by
    rw [← queued]
    rw [queue]
    rfl
  have held : replay start.database (executed.map Prod.fst) key = some data :=
    database ▸ held
  constructor
  · refine setAgain_of_sound follows.sound fun later removal earlier isLog removes => ?_
    rcases List.append_eq_append_iff.mp (split.symm.trans isLog) with
      ⟨middle, rfl, isExecuted⟩ | ⟨middle, rfl, isEarlier⟩
    · obtain ⟨writer, member⟩ := exists_set_of_removes held isExecuted removes
      exact ⟨writer, List.mem_append_right _ member⟩
    · cases middle with
      | nil =>
        obtain ⟨writer, member⟩ :=
          @exists_set_of_removes _ _ [] _ _ _ _ held isEarlier.symm removes
        cases member
      | cons entry middle =>
        -- the removal waits, so a write of the list waits behind it
        obtain ⟨rfl, rfl⟩ := List.cons.inj isEarlier
        have order : writes rest =
            (middle.map Prod.fst).reverse ++ removal.1 :: (later.map Prod.fst).reverse := by
          rw [queued]
          simp
        have again := removals _ _ _ order removes
        rw [List.mem_reverse] at again
        obtain ⟨⟨write, writer⟩, member, rfl⟩ := List.mem_map.mp again
        exact ⟨writer, member⟩
  · intro other writer member
    rcases List.mem_append.mp (split ▸ member) with waits | done
    · refine newer other ?_
      rw [queued, List.mem_reverse]
      exact List.mem_map_of_mem waits
    · rcases untouched_or_exists_set held with
        untouched | ⟨younger, setter, older, rfl, untouched⟩
      · have touched := untouched _ done
        simp [Write.touches] at touched
      · refine newest_of_untouched untouched ?_ other writer done
        cases setter with
        | caller =>
          refine callers (pending ++ younger) older ?_
          rw [List.append_assoc]
          exact split
        | load =>
          have sound : Sound (pending ++ (younger ++ (.set key data, .load) :: older)) :=
            split ▸ follows.sound
          exact (sound.of_append.of_append.1 key data rfl).2

theorem Follows.reads {entries : List Entry} {after : State}
    (stepped : FollowListCache.step state (.getCached key) = some (after, entries)) :
    Follows start (after, entries ++ log) := by
  cases stepped
  unfold State.readWrite
  split
  · exact follows.write nofun nofun
  · exact follows

theorem Follows.executes (condition : Condition (state, log) .execute) {entries : List Entry}
    {after : State}
    (stepped : FollowListCache.step state .execute = some (after, entries)) :
    Follows start (after, entries ++ log) := by
  simp only [FollowListCache.step] at stepped
  split at stepped
  · cases stepped
  · cases stepped
  · -- without a database the request does nothing
    rename_i request rest missing queue
    cases stepped
    refine follows.queue ?_ fun connected => absurd missing connected
    rw [queue]
    exact List.filterMap_subset _ (List.subset_cons_self _ _)
  · rename_i write rest opened queue
    cases stepped
    exact follows.execute queue fun missing => by cases opened.symm.trans missing
  · rename_i key rest opened queue
    have same : writes rest = writes state.queue := by
      rw [queue]
      rfl
    have moved : Follows start ({ state with queue := rest }, log) :=
      follows.queue (fun _ member => same ▸ member) fun connected => ⟨connected, same⟩
    split at stepped
    · cases stepped
      exact moved
    · rename_i data held
      cases stepped
      have own := follows.keyed key data held
      refine moved.write (fun _ _ same => ?_) fun other list same _ => ?_
      · obtain ⟨rfl, rfl⟩ := Write.set.inj same
        rfl
      · obtain ⟨rfl, rfl⟩ := Write.set.inj same
        exact own ▸ follows.loaded condition queue opened (own ▸ held)

end

theorem Follows.step (follows : Follows start seen) (condition : Condition seen call)
    (stepped : watched step observe seen call = some next) : Follows start next := by
  obtain ⟨state, log⟩ := seen
  obtain ⟨entries, stepped, recorded⟩ := watched_eq_some.mp stepped
  obtain ⟨after, history⟩ := next
  obtain rfl : history = entries ++ log := recorded
  cases call with
  | setCached data =>
    cases stepped
    refine follows.write (fun key other same => ?_) nofun
    obtain ⟨rfl, rfl⟩ := Write.set.inj same
    rfl
  | getCached | isFresh => exact follows.reads stepped
  | invalidate | clearAll =>
    cases stepped
    exact follows.write nofun nofun
  | loadFromIndexedDB key =>
    cases stepped
    have same : writes (state.queue ++ [.get key]) = writes state.queue := by
      rw [writes_append]
      exact List.append_nil _
    exact follows.queue (fun _ member => same ▸ member) fun connected => ⟨connected, same⟩
  | initialised available =>
    simp only [FollowListCache.step] at stepped
    split at stepped
    · rename_i pending
      cases stepped
      refine follows.queue (List.Subset.refl _) fun _ => ⟨fun missing => ?_, rfl⟩
      cases pending.symm.trans missing
    · cases stepped
  | execute => exact follows.executes condition stepped

end Steps

/-! ### Runs -/

/-- What `getCached` returns was set again by a caller after every removal. -/
structure Forward (seen : State × List Entry) : Prop where
  setAgain : ∀ key data, seen.1.read key = some data → SetAgain seen.2 key data
  newest : ∀ key data, seen.1.read key = some data → ∀ later earlier,
    seen.2 = later ++ (.set key data, .load) :: earlier →
      (∀ entry ∈ later, entry.1.touches key = false) → Newest seen.2 key data

theorem Follows.forward {start : State} {seen : State × List Entry}
    (follows : Follows start seen) : Forward seen where
  setAgain key data read := by
    have held : replay start.localStorage (seen.2.map Prod.fst) key = some data :=
      follows.localStorage ▸ (Option.filter_eq_some_iff.mp read).1
    exact setAgain_of_sound follows.sound fun later removal earlier isLog removes =>
      exists_set_of_removes held isLog removes
  newest key data _ later earlier isLog untouched := by
    have sound : Sound (later ++ (.set key data, .load) :: earlier) := isLog ▸ follows.sound
    rw [isLog]
    exact newest_of_untouched untouched (sound.of_append.1 key data rfl).2

/-- The cache never goes back in a run whose executed loads find what is not behind. -/
theorem forward_of_run {localStorage database : String → Option CachedFollowList}
    {calls : List Call} {final : State × List Entry}
    (keyed : ∀ key data, database key = some data → data.pubkey = key)
    (meets : Meets (watched step observe) Condition
      (⟨localStorage, database, [], .pending⟩, []) calls)
    (ran : run (watched step observe) (⟨localStorage, database, [], .pending⟩, []) calls =
      some final) :
    Forward final := by
  have initial : Follows ⟨localStorage, database, [], .pending⟩
      (⟨localStorage, database, [], .pending⟩, []) :=
    { sound := trivial
      localStorage := rfl
      keyed := keyed
      queued := nofun
      waiting := fun _ => ⟨[], [], rfl, rfl, rfl⟩ }
  exact Follows.forward (invariant_of_meets (watched step observe)
    (fun _ _ _ follows condition stepped => Follows.step follows condition stepped) initial
    meets ran)

section Examples

def sampleList (createdAt : Nat) : CachedFollowList := ⟨"alice", [], 1, "", createdAt⟩

def emptyCache : State := ⟨fun _ => none, fun _ => none, [], .pending⟩

/-- A list is set, written to the database and loaded from it. -/
def reloads : List Call :=
  [.initialised true, .setCached (sampleList 1), .execute, .loadFromIndexedDB "alice", .execute]

theorem forward_reloaded : ∃ final,
    run (watched step observe) (emptyCache, []) reloads = some final ∧ Forward final := by
  suffices meets : Meets (watched step observe) Condition (emptyCache, []) reloads from
    ⟨_, rfl, @forward_of_run (fun _ => none) (fun _ => none) _ _ nofun meets rfl⟩
  refine .cons _ trivial rfl (.cons _ trivial rfl
    (.cons _ ?_ rfl (.cons _ trivial rfl (.cons _ ?_ rfl (meets_nil _ _ _)))))
  · intro opened key rest data queue
    cases queue
  · rintro opened key rest data queue held
    obtain ⟨isGet, rfl⟩ := List.cons.inj queue
    refine ⟨fun before removal after noWrites => ?_, nofun, fun later earlier isLog => ?_⟩
    · cases List.append_ne_nil_of_right_ne_nil before (List.cons_ne_nil removal after) noWrites.symm
    · cases later with
      | nil =>
        obtain ⟨-, rfl⟩ := List.cons.inj isLog
        nofun
      | cons entry later =>
        obtain ⟨-, none⟩ := List.cons.inj isLog
        cases List.append_ne_nil_of_right_ne_nil later (List.cons_ne_nil _ earlier) none.symm

/-- A load that waits while a newer list is set or the list is invalidated brings the old list
back. -/
theorem brings_back :
    (∃ final log, run (watched step observe) (emptyCache, [])
        [.initialised true, .setCached (sampleList 1), .execute, .loadFromIndexedDB "alice",
          .setCached (sampleList 2), .execute] = some (final, log) ∧
      final.read "alice" = some (sampleList 1) ∧ ¬ Forward (final, log)) ∧
    ∃ final log, run (watched step observe) (emptyCache, [])
        [.initialised true, .setCached (sampleList 1), .execute, .loadFromIndexedDB "alice",
          .invalidate "alice", .execute] = some (final, log) ∧
      final.read "alice" = some (sampleList 1) ∧ ¬ Forward (final, log) := by
  refine ⟨⟨_, _, rfl, by decide +kernel, fun forward => ?_⟩,
    _, _, rfl, by decide +kernel, fun forward => ?_⟩
  · have newest := forward.newest "alice" (sampleList 1) (by decide +kernel) [] _ rfl nofun
    exact absurd (newest (sampleList 2) .caller (by decide +kernel)) (by decide)
  · have again := forward.setAgain "alice" (sampleList 1) (by decide +kernel)
    exact absurd (again [(.set "alice" (sampleList 1), .load)] (.remove "alice", .caller) _ rfl rfl)
      (by decide +kernel)

end Examples

end Divine.FollowListCache
