/-
This file settles when the periodic full sync repairs the ring of a coordinator.
-/

import Divine.Cluster.Ring
import Divine.Library.Transition

namespace Divine.Cluster

variable {library : AnchorLibrary}

/-! ### The registry in Redis -/

/-- How long an instance counts as active after its last heartbeat, in milliseconds. -/
def staleThreshold : Nat := 30 * 1000

/-- The sorted set of instances, each with the time of its last heartbeat. -/
structure RedisRegistry where
  instanceId : String
  scores : List (String × Nat)

namespace RedisRegistry

def zadd (registry : RedisRegistry) (member : String) (score : Nat) : RedisRegistry :=
  { registry with
    scores := (registry.scores.filter fun entry => entry.1 ≠ member).orderedInsert
      (fun first second => first.2 < second.2 ∨ first.2 = second.2 ∧ first.1 ≤ second.1)
      (member, score) }

def zrem (registry : RedisRegistry) (member : String) : RedisRegistry :=
  { registry with scores := registry.scores.filter fun entry => entry.1 ≠ member }

def heartbeat (registry : RedisRegistry) (now : Nat) : RedisRegistry :=
  registry.zadd registry.instanceId now

def getActiveInstances (registry : RedisRegistry) (now : Nat) : List String :=
  (registry.scores.filter fun entry => now - staleThreshold ≤ entry.2).map Prod.fst

def cleanupStale (registry : RedisRegistry) (now : Nat) : RedisRegistry :=
  { registry with scores := registry.scores.filter fun entry => now - staleThreshold < entry.2 }

end RedisRegistry

/-! ### The coordinator -/

inductive MembershipEvent where
  | joined (instanceId : String)
  | left (instanceId : String)
  deriving DecidableEq

structure PubSubMessage where
  event : String
  instanceId : String
  deriving DecidableEq

namespace PubSubMessage

/-- What a message does to the ring; none for an event that is neither a join nor a leave. -/
def change (message : PubSubMessage) : Option (RingOperation × MembershipEvent) :=
  if message.event = "join" then
    some (.addInstance message.instanceId, .joined message.instanceId)
  else if message.event = "leave" then
    some (.removeInstance message.instanceId, .left message.instanceId)
  else none

end PubSubMessage

/-- A membership message under way: the ring was loaded and the changed ring not yet stored. -/
structure Handling (library : AnchorLibrary) where
  loaded : HashRing library
  operation : RingOperation
  event : MembershipEvent

def Handling.changed (handling : Handling library) : HashRing library :=
  handling.operation.apply handling.loaded

/-- What the holder of the registry's mutex has done: it reads the instances, loads the ring and
stores the rebuilt one. -/
inductive Registered (library : AnchorLibrary) where
  | free
  | syncRead (instances : List String)
  | syncLoaded (instances : List String) (loaded : HashRing library)
  | refreshing
  | refreshCleaned
  | refreshRead (instances : List String)
  | refreshLoaded (instances : List String) (loaded : HashRing library)

/-- A coordinator. `previousMembers` is the heartbeat task's own. The last field records what the
last sync read, while the ring is still of it. -/
structure ClusterCoordinator (library : AnchorLibrary) where
  ring : HashRing library
  registry : RedisRegistry
  now : Nat
  mutex : Registered library
  handling : Option (Handling library)
  previousMembers : Option (Finset String)
  events : List MembershipEvent
  synced : Option (Finset String)

/-- `start`: the ring is rebuilt from what Redis holds, and the tasks are spawned. -/
def ClusterCoordinator.start (registry : RedisRegistry) (now : Nat) :
    ClusterCoordinator library where
  ring := (HashRing.new registry.instanceId).rebuild (registry.getActiveInstances now)
  registry := registry
  now := now
  mutex := .free
  handling := none
  previousMembers := none
  events := []
  synced := none

/-- One step of the heartbeat task, of the Pub/Sub task, of a `refresh`, or of the other instances.
-/
inductive CoordinatorAction where
  | spawned
  | heartbeat (cleanup : Bool)
  | syncRead (answered : Bool)
  | syncCompare
  | syncStore
  | message (message : PubSubMessage)
  | messageStore
  | refresh
  | refreshCleanup (answered : Bool)
  | refreshRead (answered : Bool)
  | refreshLoad
  | refreshStore
  | zadd (member : String) (score : Nat)
  | zrem (member : String)
  | advance (milliseconds : Nat)
  deriving DecidableEq

namespace ClusterCoordinator

def endSync (coordinator : ClusterCoordinator library) (instances : List String) :
    ClusterCoordinator library :=
  { coordinator with mutex := .free, synced := some instances.toFinset }

/-- The changes a sync announces before it stores the ring. -/
def differences (previous current : Finset String) : List MembershipEvent :=
  (HashRing.enumerate (current \ previous)).map .joined ++
    (HashRing.enumerate (previous \ current)).map .left

/-- The sync's comparison of the instances it read to those of the sync before. -/
def compare (coordinator : ClusterCoordinator library) (instances : List String)
    (previous : Finset String) : ClusterCoordinator library :=
  let announced := { coordinator with
    events := coordinator.events ++ differences previous instances.toFinset }
  if instances.toFinset = previous then announced.endSync instances
  else { announced with mutex := .syncLoaded instances coordinator.ring }

/-- A Pub/Sub message: one of the instance's own, or of another kind, is dropped. -/
def takeUp (coordinator : ClusterCoordinator library) (message : PubSubMessage) :
    ClusterCoordinator library :=
  if message.instanceId = coordinator.registry.instanceId then coordinator
  else
    match message.change with
    | some (operation, event) => { coordinator with
        handling := some ⟨coordinator.ring, operation, event⟩, synced := none }
    | none => coordinator

def step (coordinator : ClusterCoordinator library) :
    CoordinatorAction → Option (ClusterCoordinator library)
  | .spawned =>
      match coordinator.previousMembers with
      | none => some { coordinator with
          previousMembers := some coordinator.ring.currentInstances }
      | some _ => none
  | .heartbeat cleanup =>
      match coordinator.mutex, coordinator.previousMembers with
      | .free, some _ =>
        let beaten := coordinator.registry.heartbeat coordinator.now
        some { coordinator with
          registry := if cleanup then beaten.cleanupStale coordinator.now else beaten }
      | _, _ => none
  | .syncRead answered =>
      match coordinator.mutex, coordinator.previousMembers with
      | .free, some _ =>
        some (if answered then { coordinator with
          mutex := .syncRead (coordinator.registry.getActiveInstances coordinator.now) }
        else coordinator)
      | _, _ => none
  | .syncCompare =>
      match coordinator.mutex, coordinator.previousMembers with
      | .syncRead instances, some previous => some (coordinator.compare instances previous)
      | _, _ => none
  | .syncStore =>
      match coordinator.mutex with
      | .syncLoaded instances loaded => some ({ coordinator with
          ring := loaded.rebuild instances,
          previousMembers := some instances.toFinset }.endSync instances)
      | _ => none
  | .message message =>
      match coordinator.handling with
      | none => some (coordinator.takeUp message)
      | some _ => none
  | .messageStore =>
      coordinator.handling.map fun handling => { coordinator with
        ring := handling.changed
        handling := none
        events := coordinator.events ++ [handling.event] }
  | .refresh =>
      match coordinator.mutex with
      | .free => some { coordinator with mutex := .refreshing }
      | _ => none
  | .refreshCleanup answered =>
      match coordinator.mutex with
      | .refreshing =>
        some (if answered then { coordinator with
          registry := coordinator.registry.cleanupStale coordinator.now, mutex := .refreshCleaned }
        else { coordinator with mutex := .free })
      | _ => none
  | .refreshRead answered =>
      match coordinator.mutex with
      | .refreshCleaned =>
        some { coordinator with
          mutex := if answered then
            .refreshRead (coordinator.registry.getActiveInstances coordinator.now) else .free }
      | _ => none
  | .refreshLoad =>
      match coordinator.mutex with
      | .refreshRead instances =>
        some { coordinator with mutex := .refreshLoaded instances coordinator.ring }
      | _ => none
  | .refreshStore =>
      match coordinator.mutex with
      | .refreshLoaded instances loaded =>
        some { coordinator with
          ring := loaded.rebuild instances, mutex := .free, synced := none }
      | _ => none
  | .zadd member score =>
      some { coordinator with registry := coordinator.registry.zadd member score }
  | .zrem member => some { coordinator with registry := coordinator.registry.zrem member }
  | .advance milliseconds => some { coordinator with now := coordinator.now + milliseconds }

/-! ### Syncs that repair -/

/-- A message under way will leave the ring with these instances. -/
def Settles (coordinator : ClusterCoordinator library) (instances : Finset String) : Prop :=
  ∀ handling, coordinator.handling = some handling →
    handling.changed.currentInstances = instances

/-- A sync ends with no message under way that changes the ring, which holds the remembered set when
that was read. -/
def Repairs (coordinator : ClusterCoordinator library) : CoordinatorAction → Prop
  | .syncCompare => ∀ instances, coordinator.mutex = .syncRead instances →
      coordinator.previousMembers = some instances.toFinset →
        coordinator.ring.currentInstances = instances.toFinset ∧
          coordinator.Settles instances.toFinset
  | .syncStore => ∀ instances loaded, coordinator.mutex = .syncLoaded instances loaded →
      coordinator.Settles instances.toFinset
  | _ => True

/-! ### The ring after a sync -/

/-- The ring holds the set of the last sync, and a message under way keeps it there. -/
def InSync (coordinator : ClusterCoordinator library) : Prop :=
  ∀ instances, coordinator.synced = some instances →
    coordinator.ring.currentInstances = instances ∧ coordinator.Settles instances

theorem InSync.of_synced {coordinator next : ClusterCoordinator library}
    (inSync : coordinator.InSync) (ring : next.ring = coordinator.ring)
    (handling : next.handling = coordinator.handling)
    (synced : next.synced = coordinator.synced) : next.InSync := by
  intro instances recorded
  obtain ⟨held, settles⟩ := inSync instances (synced.symm.trans recorded)
  refine ⟨ring ▸ held, fun underWay present => settles underWay ?_⟩
  rw [← handling, present]
variable {coordinator : ClusterCoordinator library}


theorem InSync.of_none (synced : coordinator.synced = none) : coordinator.InSync := by
  intro instances recorded
  rw [synced] at recorded
  cases recorded

theorem InSync.compare (inSync : coordinator.InSync) {instances : List String}
    {previous : Finset String} (repaired : instances.toFinset = previous →
      coordinator.ring.currentInstances = instances.toFinset ∧
        coordinator.Settles instances.toFinset) :
    (coordinator.compare instances previous).InSync := by
  unfold ClusterCoordinator.compare
  by_cases same : instances.toFinset = previous
  · rw [if_pos same]
    intro other recorded
    obtain rfl : instances.toFinset = other := Option.some.inj recorded
    exact repaired same
  · rw [if_neg same]
    exact inSync.of_synced rfl rfl rfl

theorem InSync.takeUp (inSync : coordinator.InSync) (message : PubSubMessage) :
    (coordinator.takeUp message).InSync := by
  unfold ClusterCoordinator.takeUp
  split
  · exact inSync
  · split
    · exact InSync.of_none rfl
    · exact inSync

theorem InSync.messageStore (inSync : coordinator.InSync) {handling : Handling library}
    (present : coordinator.handling = some handling) (events : List MembershipEvent) :
    InSync { coordinator with ring := handling.changed, handling := none, events := events } := by
  intro instances recorded
  obtain ⟨-, settles⟩ := inSync instances recorded
  exact ⟨settles handling present, nofun⟩

theorem step_inSync {coordinator next : ClusterCoordinator library} {action : CoordinatorAction}
    (inSync : coordinator.InSync) (repairs : coordinator.Repairs action)
    (stepped : coordinator.step action = some next) : next.InSync := by
  cases action with
  | spawned | heartbeat =>
    simp only [step] at stepped
    split at stepped
    · cases stepped
      exact inSync.of_synced rfl rfl rfl
    · cases stepped
  | syncRead answered =>
    simp only [step] at stepped
    split at stepped
    · cases stepped
      cases answered with
      | true => exact inSync.of_synced rfl rfl rfl
      | false => exact inSync
    · cases stepped
  | syncCompare =>
    simp only [step] at stepped
    split at stepped
    · rename_i instances previous held remembered
      cases stepped
      exact inSync.compare fun same => repairs instances held (remembered.trans (same ▸ rfl))
    · cases stepped
  | syncStore =>
    simp only [step] at stepped
    split at stepped
    · rename_i instances loaded held
      cases stepped
      intro other recorded
      obtain rfl : instances.toFinset = other := Option.some.inj recorded
      exact ⟨HashRing.rebuild_currentInstances loaded instances, repairs instances loaded held⟩
    · cases stepped
  | message message =>
    simp only [step] at stepped
    split at stepped
    · cases stepped
      exact inSync.takeUp message
    · cases stepped
  | messageStore =>
    obtain ⟨handling, present, rfl⟩ := Option.map_eq_some_iff.mp stepped
    exact inSync.messageStore present _
  | refresh =>
    simp only [step] at stepped
    split at stepped
    · cases stepped
      exact inSync.of_synced rfl rfl rfl
    · cases stepped
  | refreshCleanup answered =>
    simp only [step] at stepped
    split at stepped
    · cases stepped
      cases answered <;> exact inSync.of_synced rfl rfl rfl
    · cases stepped
  | refreshRead | refreshLoad =>
    simp only [step] at stepped
    split at stepped
    · cases stepped
      exact inSync.of_synced rfl rfl rfl
    · cases stepped
  | refreshStore =>
    simp only [step] at stepped
    split at stepped
    · cases stepped
      exact InSync.of_none rfl
    · cases stepped
  | zadd | zrem | advance =>
    cases stepped
    exact inSync.of_synced rfl rfl rfl

/-- When syncs repair, the ring holds what the last sync read, until a message is taken up or a
refresh stores a ring. -/
theorem synced_currentInstances {registry : RedisRegistry} {now : Nat}
    {actions : List CoordinatorAction} {final : ClusterCoordinator library}
    (repairs : Transition.Meets step Repairs (start registry now : ClusterCoordinator library)
      actions)
    (ran : Transition.run step (start registry now) actions = some final)
    {instances : Finset String} (synced : final.synced = some instances) :
    final.ring.currentInstances = instances := by
  have inSync : final.InSync :=
    Transition.invariant_of_meets _ (fun _ _ _ held here stepped => step_inSync held here stepped)
      (InSync.of_none rfl) repairs ran
  exact (inSync instances synced).1

/-! ### A lost and a late message -/

def twoActive : RedisRegistry where
  instanceId := "a"
  scores := [("a", 100000), ("b", 100000)]

/-- A sync after the other instance is gone and the message of its leaving was lost. -/
theorem synced_currentInstances_sample :
    ∃ final : ClusterCoordinator lastResource,
      Transition.run step (start twoActive 100000)
        [.spawned, .zrem "b", .syncRead true, .syncCompare, .syncStore] = some final ∧
      final.synced = some {"a"} ∧ final.ring.currentInstances = {"a"} := by
  have repairs : Transition.Meets step Repairs
      (start twoActive 100000 : ClusterCoordinator lastResource)
      [.spawned, .zrem "b", .syncRead true, .syncCompare, .syncStore] := by
    refine .cons _ trivial rfl (.cons _ trivial rfl (.cons _ trivial rfl (.cons _ ?_ rfl
      (.cons _ ?_ rfl trivial))))
    · rintro instances held remembered
      obtain rfl : ["a"] = instances := Registered.syncRead.inj held
      exact absurd (Option.some.inj remembered) (by decide)
    · exact nofun
  exact ⟨_, rfl, rfl, synced_currentInstances repairs rfl rfl⟩

/-- A late leave takes an active instance out of the ring, and the next sync does not put it back.
-/
theorem synced_currentInstances_late :
    ∃ final : ClusterCoordinator lastResource,
      Transition.run step (start twoActive 100000)
        [.spawned, .message ⟨"leave", "b"⟩, .messageStore, .syncRead true, .syncCompare] =
          some final ∧
      final.synced = some {"a", "b"} ∧ final.ring.currentInstances = {"a"} := by
  have ran : (Transition.run step (start twoActive 100000 : ClusterCoordinator lastResource)
      [.spawned, .message ⟨"leave", "b"⟩, .messageStore, .syncRead true, .syncCompare]).map
        (fun final => (final.synced, final.ring.currentInstances)) =
      some (some {"a", "b"}, {"a"}) := by decide +kernel
  obtain ⟨final, reached, shown⟩ := Option.map_eq_some_iff.mp ran
  exact ⟨final, reached, congrArg Prod.fst shown, congrArg Prod.snd shown⟩

end ClusterCoordinator

end Divine.Cluster
