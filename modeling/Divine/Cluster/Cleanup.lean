/-
This file proves when the cleanup of the registry spares the active instances. Both queries
take their bound in, so that an instance with the score of the cutoff is active and removed.
-/

import Divine.Cluster.Coordinator
import Mathlib.Data.UInt

namespace Divine.Cluster

structure SortedSet (Score : Type) where
  entries : List (String × Score)
  distinct : (entries.map Prod.fst).Nodup

/-- The time before which a heartbeat is stale, in arithmetic of 64 bits that wraps. -/
def cutoff (now staleThresholdSecs : UInt64) : UInt64 := now - staleThresholdSecs * 1000

namespace SortedSet

variable {Score : Type} [LinearOrder Score] (set : SortedSet Score)

def members : List String := set.entries.map Prod.fst

/-- `ZRANGEBYSCORE` up to `+inf`. -/
def zrangebyscore (min : Score) : List String :=
  (set.entries.filter fun entry => min ≤ entry.2).map Prod.fst

/-- `ZREMRANGEBYSCORE` from `-inf`, with the number of members that are removed. -/
def zrembyscore (max : Score) : SortedSet Score × Nat :=
  ({ entries := set.entries.filter fun entry => max < entry.2
     distinct := set.distinct.sublist (List.filter_sublist.map Prod.fst) },
    set.entries.countP fun entry => entry.2 ≤ max)

-- the score that Redis reads in a number it is sent
variable (score : UInt64 → Score) (staleThresholdSecs now : UInt64)

def getActiveInstances : List String :=
  set.zrangebyscore (score (cutoff now staleThresholdSecs))

def cleanupStale : SortedSet Score × Nat :=
  set.zrembyscore (score (cutoff now staleThresholdSecs))

theorem mem_zrangebyscore {set : SortedSet Score} {min : Score} {member : String} :
    member ∈ set.zrangebyscore min ↔ ∃ entry ∈ set.entries, min ≤ entry.2 ∧ entry.1 = member := by
  simp only [zrangebyscore, List.mem_map, List.mem_filter, decide_eq_true_eq, and_assoc]

theorem mem_zrembyscore {set : SortedSet Score} {max : Score} {member : String} :
    member ∈ (set.zrembyscore max).1.members ↔
      ∃ entry ∈ set.entries, max < entry.2 ∧ entry.1 = member := by
  simp only [members, zrembyscore, List.mem_map, List.mem_filter, decide_eq_true_eq, and_assoc]

/-- What a cleanup leaves is active when no member has the score of the bound. -/
theorem zrangebyscore_zrembyscore {bound : Score} (apart : ∀ entry ∈ set.entries, entry.2 ≠ bound) :
    (set.zrembyscore bound).1.zrangebyscore bound = set.zrangebyscore bound := by
  simp only [zrangebyscore, zrembyscore, List.filter_filter]
  refine congrArg _ (List.filter_congr fun entry member => ?_)
  rw [← Bool.decide_and, decide_eq_decide]
  exact ⟨And.left, fun least => ⟨least, lt_of_le_of_ne least (apart entry member).symm⟩⟩

/-- No active instance is removed by the cleanup exactly when no member has the score of the cutoff.
-/
theorem cleanupStale_spares_iff :
    ((∀ member ∈ set.getActiveInstances score staleThresholdSecs now,
        member ∈ (set.cleanupStale score staleThresholdSecs now).1.members) ∧
      (set.cleanupStale score staleThresholdSecs now).1.getActiveInstances score staleThresholdSecs
        now = set.getActiveInstances score staleThresholdSecs now) ↔
      ∀ entry ∈ set.entries, entry.2 ≠ score (cutoff now staleThresholdSecs) := by
  constructor
  · rintro ⟨spares, -⟩ entry member same
    have active : entry.1 ∈ set.getActiveInstances score staleThresholdSecs now :=
      mem_zrangebyscore.mpr ⟨entry, member, same.ge, rfl⟩
    obtain ⟨kept, inside, later, own⟩ := mem_zrembyscore.mp (spares _ active)
    obtain rfl := List.inj_on_of_nodup_map set.distinct inside member own
    exact absurd same later.ne'
  · intro apart
    refine ⟨fun member active => ?_, set.zrangebyscore_zrembyscore apart⟩
    obtain ⟨entry, inside, least, own⟩ := mem_zrangebyscore.mp active
    exact mem_zrembyscore.mpr
      ⟨entry, inside, lt_of_le_of_ne least (apart entry inside).symm, own⟩

def sampleSet : SortedSet Nat := ⟨[("a", 30000), ("b", 60000)], by decide⟩

theorem cleanupStale_removes_active :
    sampleSet.getActiveInstances UInt64.toNat 30 60000 = ["a", "b"] ∧
      (sampleSet.cleanupStale UInt64.toNat 30 60000).1.members = ["b"] := by decide

end SortedSet

/-! ### The registry of a coordinator -/

namespace RedisRegistry

variable (registry : RedisRegistry) (distinct : (registry.scores.map Prod.fst).Nodup) {now : UInt64}

theorem toNat_cutoff (late : staleThreshold ≤ now.toNat) :
    (cutoff now 30).toNat = now.toNat - staleThreshold :=
  UInt64.toNat_sub_of_le _ _ (UInt64.le_iff_toNat_le.mpr late)

/-- At a clock that has passed the threshold, the registry is a sorted set of natural numbers. -/
theorem queries_eq (late : staleThreshold ≤ now.toNat) :
    registry.getActiveInstances now.toNat =
        SortedSet.getActiveInstances ⟨registry.scores, distinct⟩ UInt64.toNat 30 now ∧
      (registry.cleanupStale now.toNat).scores =
        (SortedSet.cleanupStale ⟨registry.scores, distinct⟩ UInt64.toNat 30 now).1.entries := by
  simp only [getActiveInstances, cleanupStale, SortedSet.getActiveInstances, SortedSet.cleanupStale,
    SortedSet.zrangebyscore, SortedSet.zrembyscore, toNat_cutoff late, and_self]

end RedisRegistry

end Divine.Cluster
