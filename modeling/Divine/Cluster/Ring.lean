/-
This file proves that the hash ring has no memory.
-/

import Mathlib.Data.Finset.Sort
import Mathlib.Data.String.Basic

namespace Divine.Cluster

/-! ### The ring -/

/-- The `anchorhash` crate: a builder from resources and a capacity, and the lookup of a key's
resource. -/
structure AnchorLibrary where
  AnchorHash : Type
  build : List String → UInt16 → AnchorHash
  getResource : AnchorHash → UInt64 → Option String
  listed : ∀ resources capacity key, resources ≠ [] →
    ∃ resource ∈ resources, getResource (build resources capacity) key = some resource

variable {library : AnchorLibrary}

structure HashRing (library : AnchorLibrary) where
  anchor : Option library.AnchorHash
  myInstanceId : String
  currentInstances : Finset String

namespace HashRing

def new (myInstanceId : String) : HashRing library where
  anchor := none
  myInstanceId := myInstanceId
  currentInstances := ∅

/-- The number of slots the anchor is built with: at least sixteen, and within sixteen bits. -/
def capacity (instanceIds : List String) : UInt16 :=
  UInt16.ofNat (min (max instanceIds.length 16) 65535)

def enumerate (instances : Finset String) : List String := instances.sort

/-- `rebuild_anchor`. The order in which the set is enumerated is lost by the sort. -/
def rebuildAnchor (ring : HashRing library) : HashRing library :=
  if ring.currentInstances = ∅ then { ring with anchor := none }
  else
    let instanceIds := ring.currentInstances.sort
    { ring with anchor := some (library.build instanceIds (capacity instanceIds)) }

/-- `rebuild`, which leaves the ring alone when the set is the same. -/
def rebuild (ring : HashRing library) (instanceIds : List String) : HashRing library :=
  if instanceIds.toFinset = ring.currentInstances then ring
  else { ring with currentInstances := instanceIds.toFinset }.rebuildAnchor

def addInstance (ring : HashRing library) (instanceId : String) : HashRing library :=
  if instanceId ∈ ring.currentInstances then ring
  else { ring with
    currentInstances := insert instanceId ring.currentInstances }.rebuildAnchor

def removeInstance (ring : HashRing library) (instanceId : String) : HashRing library :=
  if instanceId ∈ ring.currentInstances then
    { ring with currentInstances := ring.currentInstances.erase instanceId }.rebuildAnchor
  else ring

def hashKey (key : String) : UInt64 :=
  key.toUTF8.toList.foldl (fun hash byte => (hash ^^^ byte.toUInt64) * 0x100000001b3)
    0xcbf29ce484222325

def owner (ring : HashRing library) (key : String) : Option String :=
  ring.anchor.bind fun anchor => library.getResource anchor (hashKey key)

def shouldHandle (ring : HashRing library) (key : String) : Bool :=
  if ring.currentInstances = ∅ then true
  else
    match ring.anchor with
    | some anchor =>
      match library.getResource anchor (hashKey key) with
      | some owner => owner = ring.myInstanceId
      | none => true
    | none => true

end HashRing

/-! ### Histories of a ring -/

inductive RingOperation where
  | rebuild (instanceIds : List String)
  | addInstance (instanceId : String)
  | removeInstance (instanceId : String)
  deriving DecidableEq

def RingOperation.apply (ring : HashRing library) : RingOperation → HashRing library
  | rebuild instanceIds => ring.rebuild instanceIds
  | addInstance instanceId => ring.addInstance instanceId
  | removeInstance instanceId => ring.removeInstance instanceId

def ringAfter (library : AnchorLibrary) (instanceId : String) (operations : List RingOperation) :
    HashRing library :=
  operations.foldl RingOperation.apply (.new instanceId)

/-! ### What the anchor depends on -/

namespace HashRing

def anchorOf (library : AnchorLibrary) (instances : Finset String) : Option library.AnchorHash :=
  if instances = ∅ then none
  else some (library.build instances.sort (capacity instances.sort))

def Anchored (ring : HashRing library) : Prop :=
  ring.anchor = anchorOf library ring.currentInstances

@[simp] theorem rebuildAnchor_currentInstances (ring : HashRing library) :
    ring.rebuildAnchor.currentInstances = ring.currentInstances := by
  unfold rebuildAnchor
  split <;> rfl

@[simp] theorem rebuildAnchor_myInstanceId (ring : HashRing library) :
    ring.rebuildAnchor.myInstanceId = ring.myInstanceId := by
  unfold rebuildAnchor
  split <;> rfl

theorem rebuildAnchor_anchored (ring : HashRing library) : ring.rebuildAnchor.Anchored := by
  unfold Anchored anchorOf
  unfold rebuildAnchor
  by_cases empty : ring.currentInstances = ∅
  · rw [if_pos empty, if_pos empty]
  · rw [if_neg empty, if_neg empty]

theorem new_anchored (instanceId : String) : (new instanceId : HashRing library).Anchored := by
  unfold Anchored anchorOf
  rw [if_pos]
  · rfl
  · rfl

theorem rebuild_currentInstances (ring : HashRing library) (instanceIds : List String) :
    (ring.rebuild instanceIds).currentInstances = instanceIds.toFinset := by
  unfold rebuild
  split
  · rename_i same
    exact same.symm
  · rw [rebuildAnchor_currentInstances]

theorem rebuild_anchored {ring : HashRing library} (anchored : ring.Anchored)
    (instanceIds : List String) : (ring.rebuild instanceIds).Anchored := by
  unfold rebuild
  split
  · exact anchored
  · exact rebuildAnchor_anchored _

end HashRing

theorem RingOperation.apply_anchored {ring : HashRing library} (anchored : ring.Anchored)
    (operation : RingOperation) :
    (operation.apply ring).Anchored ∧
      (operation.apply ring).myInstanceId = ring.myInstanceId := by
  cases operation with
  | rebuild instanceIds =>
    refine ⟨HashRing.rebuild_anchored anchored instanceIds, ?_⟩
    simp only [apply, HashRing.rebuild]
    split
    · rfl
    · rw [HashRing.rebuildAnchor_myInstanceId]
  | addInstance instanceId =>
    simp only [apply, HashRing.addInstance]
    split
    · exact ⟨anchored, rfl⟩
    · exact ⟨HashRing.rebuildAnchor_anchored _, HashRing.rebuildAnchor_myInstanceId _⟩
  | removeInstance instanceId =>
    simp only [apply, HashRing.removeInstance]
    split
    · exact ⟨HashRing.rebuildAnchor_anchored _, HashRing.rebuildAnchor_myInstanceId _⟩
    · exact ⟨anchored, rfl⟩

theorem foldl_anchored (operations : List RingOperation) {ring : HashRing library}
    (anchored : ring.Anchored) :
    (operations.foldl RingOperation.apply ring).Anchored ∧
      (operations.foldl RingOperation.apply ring).myInstanceId = ring.myInstanceId := by
  induction operations generalizing ring with
  | nil => exact ⟨anchored, rfl⟩
  | cons operation rest ih =>
    obtain ⟨kept, own⟩ := operation.apply_anchored anchored
    rw [List.foldl_cons, ← own]
    exact ih kept

theorem ringAfter_anchored (instanceId : String) (operations : List RingOperation) :
    (ringAfter library instanceId operations).Anchored :=
  (foldl_anchored operations (HashRing.new_anchored instanceId)).1

theorem ringAfter_myInstanceId (instanceId : String) (operations : List RingOperation) :
    (ringAfter library instanceId operations).myInstanceId = instanceId :=
  (foldl_anchored operations (HashRing.new_anchored instanceId)).2

/-! ### The set of instances -/

def RingOperation.onInstances (instances : Finset String) : RingOperation → Finset String
  | rebuild instanceIds => instanceIds.toFinset
  | addInstance instanceId => insert instanceId instances
  | removeInstance instanceId => instances.erase instanceId

theorem RingOperation.apply_currentInstances (ring : HashRing library)
    (operation : RingOperation) :
    (operation.apply ring).currentInstances = operation.onInstances ring.currentInstances := by
  cases operation with
  | rebuild instanceIds => exact HashRing.rebuild_currentInstances ring instanceIds
  | addInstance instanceId =>
    simp only [apply, onInstances, HashRing.addInstance]
    split
    · rename_i present
      rw [Finset.insert_eq_of_mem present]
    · rw [HashRing.rebuildAnchor_currentInstances]
  | removeInstance instanceId =>
    simp only [apply, onInstances, HashRing.removeInstance]
    split
    · rw [HashRing.rebuildAnchor_currentInstances]
    · rename_i absent
      rw [Finset.erase_eq_of_notMem absent]

theorem ringAfter_currentInstances (instanceId : String) (operations : List RingOperation) :
    (ringAfter library instanceId operations).currentInstances =
      operations.foldl RingOperation.onInstances ∅ := by
  have general : ∀ ring : HashRing library,
      (operations.foldl RingOperation.apply ring).currentInstances =
        operations.foldl RingOperation.onInstances ring.currentInstances := by
    induction operations with
    | nil => exact fun _ => rfl
    | cons operation rest ih =>
      intro ring
      rw [List.foldl_cons, List.foldl_cons, ih,
        RingOperation.apply_currentInstances]
  exact general _

/-! ### The owner of a key -/

namespace HashRing

theorem Anchored.owner_eq {first second : HashRing library} (firstAnchored : first.Anchored)
    (secondAnchored : second.Anchored)
    (same : first.currentInstances = second.currentInstances) (key : String) :
    first.owner key = second.owner key := by
  unfold owner
  rw [firstAnchored, secondAnchored, same]

theorem Anchored.owner_mem {ring : HashRing library} (anchored : ring.Anchored)
    (nonempty : ring.currentInstances ≠ ∅) (key : String) :
    ∃ owner ∈ ring.currentInstances, ring.owner key = some owner := by
  have listing : ring.currentInstances.sort ≠ [] := by
    intro empty
    refine nonempty ?_
    rw [← Finset.sort_toFinset ring.currentInstances (· ≤ ·), empty, List.toFinset_nil]
  obtain ⟨resource, member, found⟩ := library.listed ring.currentInstances.sort
    (capacity ring.currentInstances.sort) (hashKey key) listing
  refine ⟨resource, (Finset.mem_sort (· ≤ ·)).mp member, ?_⟩
  unfold owner
  rw [anchored, anchorOf, if_neg nonempty]
  exact found

theorem shouldHandle_iff {ring : HashRing library} (nonempty : ring.currentInstances ≠ ∅)
    {key resource : String} (owned : ring.owner key = some resource) :
    ring.shouldHandle key = true ↔ ring.myInstanceId = resource := by
  obtain ⟨anchor, present, found⟩ := Option.bind_eq_some_iff.mp owned
  unfold shouldHandle
  rw [if_neg nonempty, present]
  simp only [found, decide_eq_true_eq]
  exact eq_comm

end HashRing

/-- The rings that have come to one set of instances name the same owner of every key, the one of a
fresh rebuild, and only the owner's ring handles the key. -/
theorem rings_agree {instanceIds active : Finset String}
    {operations : String → List RingOperation} (inhabited : instanceIds.Nonempty)
    (own : instanceIds ⊆ active)
    (reached : ∀ instanceId ∈ instanceIds,
      (ringAfter library instanceId (operations instanceId)).currentInstances = active)
    (key : String) :
    ∃ owner ∈ active,
      (∀ instanceId ∈ instanceIds,
        (ringAfter library instanceId (operations instanceId)).owner key = some owner) ∧
      (∀ instanceId ordering, List.toFinset ordering = active →
        ((HashRing.new instanceId : HashRing library).rebuild ordering).owner key = some owner) ∧
      (∀ instanceId ∈ instanceIds,
        (ringAfter library instanceId (operations instanceId)).shouldHandle key = true ↔
          instanceId = owner) ∧
      (active ⊆ instanceIds → ∃! instanceId, instanceId ∈ instanceIds ∧
        (ringAfter library instanceId (operations instanceId)).shouldHandle key = true) := by
  have nonempty : active ≠ ∅ := Finset.nonempty_iff_ne_empty.mp (inhabited.mono own)
  obtain ⟨first, firstMember⟩ := inhabited
  have firstReached := reached first firstMember
  have firstAnchored : (ringAfter library first (operations first)).Anchored :=
    ringAfter_anchored first (operations first)
  obtain ⟨owner, member, owned⟩ := firstAnchored.owner_mem (firstReached ▸ nonempty) key
  have ownedBy : ∀ ring : HashRing library, ring.Anchored → ring.currentInstances = active →
      ring.owner key = some owner := by
    intro ring anchored same
    rw [anchored.owner_eq firstAnchored (same.trans firstReached.symm) key, owned]
  have handled : ∀ instanceId ∈ instanceIds,
      (ringAfter library instanceId (operations instanceId)).shouldHandle key = true ↔
        instanceId = owner := by
    intro instanceId present
    have same := reached instanceId present
    rw [HashRing.shouldHandle_iff (same ▸ nonempty) (ownedBy _ (ringAfter_anchored _ _) same),
      ringAfter_myInstanceId]
  rw [firstReached] at member
  refine ⟨owner, member, fun instanceId present => ?_, fun instanceId ordering orders => ?_,
    handled, fun covered => ?_⟩
  · exact ownedBy _ (ringAfter_anchored _ _) (reached instanceId present)
  · refine ownedBy _ (HashRing.rebuild_anchored (HashRing.new_anchored _) _) ?_
    rw [HashRing.rebuild_currentInstances, orders]
  · refine ⟨owner, ⟨covered member, (handled owner (covered member)).mpr rfl⟩, ?_⟩
    rintro other ⟨present, handles⟩
    exact (handled other present).mp handles

/-! ### Rings of two instances -/

def lastResource : AnchorLibrary where
  AnchorHash := List String
  build resources _ := resources
  getResource resources _ := resources.getLast?
  listed resources _ _ nonempty :=
    ⟨resources.getLast nonempty, List.getLast_mem nonempty, List.getLast?_eq_some_getLast nonempty⟩

/-- The first instance starts with both and the second adds itself to the first. -/
def twoHistories (instanceId : String) : List RingOperation :=
  if instanceId = "a" then [.rebuild ["b", "a"]]
  else [.addInstance "a", .addInstance "a", .addInstance "b"]

theorem rings_agree_sample :
    ∃! instanceId, instanceId ∈ ({"a", "b"} : Finset String) ∧
      (ringAfter lastResource instanceId (twoHistories instanceId)).shouldHandle "key" = true := by
  have reached : ∀ instanceId ∈ ({"a", "b"} : Finset String),
      (ringAfter lastResource instanceId (twoHistories instanceId)).currentInstances =
        {"a", "b"} := by
    intro instanceId _
    rw [ringAfter_currentInstances]
    unfold twoHistories
    split <;> decide
  obtain ⟨owner, -, -, -, -, exactly⟩ := rings_agree (Finset.insert_nonempty _ _)
    (Finset.Subset.refl _) reached "key"
  exact exactly (Finset.Subset.refl _)

/-- The ring of one of two active instances leaves the keys of the other to it. -/
theorem rings_leave :
    (ringAfter lastResource "a" (twoHistories "a")).currentInstances = {"a", "b"} ∧
      "a" ∈ ({"a", "b"} : Finset String) ∧
      ¬∃ instanceId, instanceId ∈ ({"a"} : Finset String) ∧
        (ringAfter lastResource instanceId
          (twoHistories instanceId)).shouldHandle "key" = true := by
  have reached : (ringAfter lastResource "a" (twoHistories "a")).currentInstances =
      {"a", "b"} := by
    decide
  refine ⟨reached, Finset.mem_insert_self _ _, ?_⟩
  rintro ⟨instanceId, member, handles⟩
  obtain rfl := Finset.mem_singleton.mp member
  have anchored : (ringAfter lastResource "a" (twoHistories "a")).Anchored :=
    ringAfter_anchored "a" (twoHistories "a")
  have ordered : ({"a", "b"} : Finset String).sort = ["a", "b"] := by
    have smaller : ∀ other ∈ ({"b"} : Finset String), "a" ≤ other := by decide
    have absent : "a" ∉ ({"b"} : Finset String) := by decide
    rw [Finset.sort_insert (· ≤ ·) smaller absent, Finset.sort_singleton]
  have owned : (ringAfter lastResource "a" (twoHistories "a")).owner "key" = some "b" := by
    unfold HashRing.owner
    rw [anchored, reached, HashRing.anchorOf, if_neg (by decide), ordered]
    rfl
  have nonempty : (ringAfter lastResource "a" (twoHistories "a")).currentInstances ≠ ∅ := by
    decide
  rw [HashRing.shouldHandle_iff nonempty owned, ringAfter_myInstanceId] at handles
  exact absurd handles (by decide)

end Divine.Cluster
