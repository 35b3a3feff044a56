/-
This file settles when the event cache is a faithful store.
-/

import Divine.EventCache.Tables

namespace Divine.EventCache

open List Option Selection Table

/-! ### Answers -/

def freshEvents (rows : List CachedEvent) (now : Nat) : List Event :=
  (rows.filter (isFresh now)).map CachedEvent.event

/-- The limit of a filter cuts no fresh match away unless the rows it keeps are fresh and at least
as new. -/
structure Uncut (rows : List CachedEvent) (now : Nat) (filter : Filter) : Prop where
  accepted : ∀ row ∈ queryFilter rows filter, isFresh now row = true →
    filter.accepts row.event = true
  unlimited : filter.limit = some 0 → ∀ row ∈ queryFilter rows filter, isFresh now row = false
  cut : ∀ row ∈ rows, row ∉ queryFilter rows filter → isFresh now row = true →
    filter.accepts row.event = true → ∀ kept ∈ queryFilter rows filter,
      isFresh now kept = true ∧ row.event.createdAt ≤ kept.event.createdAt

/-- The memory has the matches above an expired one up to the limit, and those above one it lacks.
-/
structure Complete (memory : List Event) (rows : List CachedEvent) (now : Nat) (filter : Filter) :
    Prop where
  expired : ∀ row ∈ rows, row.event ∈ memory → filter.accepts row.event = true →
    isFresh now row = false → ∃ limit, filter.limit = some limit ∧
      limit ≤ (memory.filter filter.accepts).countP fun other =>
        row.event.createdAt < other.createdAt
  missing : ∀ row ∈ rows, row.event ∉ memory → filter.accepts row.event = true →
    isFresh now row = true → ∃ limit, filter.limit = some limit ∧
      limit ≤ (memory.filter filter.accepts).countP fun other =>
        row.event.createdAt ≤ other.createdAt

section Answers

variable {rows : List CachedEvent} {row : CachedEvent} {now : Nat} {filter : Filter}
  {filters : List Filter} {memory events others answer pick : List Event} {event : Event}

theorem mem_freshEvents : event ∈ freshEvents rows now ↔
    ∃ row ∈ rows, isFresh now row = true ∧ row.event = event := by
  unfold freshEvents
  rw [List.mem_map]
  exact ⟨fun ⟨row, member, same⟩ =>
      ⟨row, (mem_filter.mp member).1, (mem_filter.mp member).2, same⟩,
    fun ⟨row, member, fresh, same⟩ => ⟨row, mem_filter.mpr ⟨member, fresh⟩, same⟩⟩

theorem nodup_events (keyed : Keyed CachedEvent.id rows) :
    (rows.map CachedEvent.event).Nodup := by
  refine List.Nodup.of_map Event.id ?_
  rw [List.map_map]
  exact keyed

theorem nodup_freshEvents (keyed : Keyed CachedEvent.id rows) : (freshEvents rows now).Nodup :=
  (filter_sublist.map _).nodup (nodup_events keyed)

theorem Answers.perm (answers : Answers events filters answer) (perm : events.Perm others) :
    Answers others filters answer := by
  obtain ⟨picks, selects, rest⟩ := answers
  refine ⟨picks, selects.imp fun filter pick select => ?_, rest⟩
  exact (selects_congr (perm.filter _) fun _ _ => rfl).mp select

theorem mem_queryFilter_of_uncut {limit : Nat} (cut : filter.cut = some limit)
    (member : row ∈ rows) (matched : filter.matchesFilter row.event = true)
    (left : row ∉ queryFilter rows filter) : (queryFilter rows filter).length = limit := by
  have isFound := mem_found.mpr ⟨member, matched⟩
  unfold queryFilter at left ⊢
  rw [cut] at left ⊢
  show ((found filter rows).take limit).length = limit
  rw [length_take]
  refine min_eq_left ?_
  by_contra shorter
  refine left ?_
  show row ∈ (found filter rows).take limit
  rw [take_of_length_le (Nat.le_of_not_le shorter)]
  exact isFound

def rowsPick (rows : List CachedEvent) (now : Nat) (filter : Filter) : List Event :=
  sortRows Event.createdAt (((queryFilter rows filter).filter (isFresh now)).map CachedEvent.event)

theorem mem_rowsPick : event ∈ rowsPick rows now filter ↔
    ∃ row ∈ queryFilter rows filter, isFresh now row = true ∧ row.event = event := by
  unfold rowsPick
  rw [(sortRows_perm _ _).mem_iff]
  exact mem_freshEvents

theorem queryFilter_sublist : (queryFilter rows filter).Sublist rows := by
  unfold queryFilter
  cases filter.cut with
  | none => exact filter_sublist
  | some limit => exact (take_sublist _ _).trans filter_sublist

theorem length_queryFilter {limit : Nat} (cut : filter.cut = some limit) :
    (queryFilter rows filter).length ≤ limit := by
  unfold queryFilter
  rw [cut]
  exact length_take_le _ _

section

variable (keyed : Keyed CachedEvent.id rows)

include keyed

theorem selects_rowsPick (uncut : Uncut rows now filter) :
    Selects Event.createdAt filter.limitInt ((freshEvents rows now).filter filter.accepts)
      (rowsPick rows now filter) := by
  have kept : Keyed CachedEvent.id (queryFilter rows filter) :=
    (queryFilter_sublist.map _).nodup keyed
  have length : (rowsPick rows now filter).length ≤ (queryFilter rows filter).length := by
    unfold rowsPick
    rw [(sortRows_perm _ _).length_eq, length_map]
    exact length_filter_le _ _
  refine selects_of_subset ((nodup_freshEvents keyed).filter _)
    ((sortRows_perm _ _).nodup_iff.mpr (nodup_freshEvents kept)) (descending_sortRows _ _) ?_ ?_ ?_
  · intro event member
    obtain ⟨row, isKept, fresh, rfl⟩ := mem_rowsPick.mp member
    exact mem_filter.mpr ⟨mem_freshEvents.mpr ⟨row, queryFilter_sublist.subset isKept, fresh,
      rfl⟩, uncut.accepted row isKept fresh⟩
  · unfold Filter.limitInt
    cases isLimit : filter.limit with
    | none => exact .inl (by decide)
    | some limit =>
      refine .inr (Int.ofNat_le.mpr ?_)
      by_cases isZero : limit = 0
      · have none : rowsPick rows now filter = [] := by
          refine eq_nil_iff_forall_not_mem.mpr fun event member => ?_
          obtain ⟨row, isKept, fresh, -⟩ := mem_rowsPick.mp member
          have stale := uncut.unlimited (isZero ▸ isLimit) row isKept
          exact absurd (fresh.symm.trans stale) (by decide)
        rw [none]
        exact Nat.zero_le _
      · refine length.trans (length_queryFilter ?_)
        unfold Filter.cut
        rw [isLimit]
        exact filter_some_pos (decide_eq_true isZero)
  · intro event member left
    obtain ⟨isFresh', accepted⟩ := mem_filter.mp member
    obtain ⟨row, inside, fresh, rfl⟩ := mem_freshEvents.mp isFresh'
    have isCut : row ∉ queryFilter rows filter := fun isKept =>
      left (mem_rowsPick.mpr ⟨row, isKept, fresh, rfl⟩)
    have above := uncut.cut row inside isCut fresh accepted
    have whole : rowsPick rows now filter =
        sortRows Event.createdAt ((queryFilter rows filter).map CachedEvent.event) := by
      unfold rowsPick
      rw [filter_eq_self.mpr fun other isKept => (above other isKept).1]
    have matched := matchesFilter_of_accepts accepted
    refine ⟨?_, fun other isPicked => ?_⟩
    · cases cut : filter.cut with
      | none =>
        refine absurd ?_ isCut
        unfold queryFilter
        rw [cut]
        exact mem_found.mpr ⟨inside, matched⟩
      | some limit =>
        have full := mem_queryFilter_of_uncut cut inside matched isCut
        rw [whole, (sortRows_perm _ _).length_eq, length_map, full]
        unfold Filter.limitInt
        rw [(filter_eq_some_iff.mp cut).1]
        rfl
    · obtain ⟨kept', isKept, -, rfl⟩ := mem_rowsPick.mp isPicked
      exact (above kept' isKept).2

theorem answers_queryRows (uncut : ∀ filter ∈ filters, Uncut rows now filter) :
    Answers (freshEvents rows now) filters (queryRows rows now filters) := by
  refine ⟨filters.map (rowsPick rows now), ?_, nodup_queryRows keyed, descending_queryRows,
    fun event => ?_⟩
  · rw [forall₂_map_right_iff]
    exact forall₂_same.mpr fun filter member => selects_rowsPick keyed (uncut filter member)
  · rw [mem_queryRows keyed]
    constructor
    · rintro ⟨row, kept, rfl⟩
      obtain ⟨filter, member, isKept, fresh⟩ := mem_keptRows.mp kept
      exact ⟨_, mem_map_of_mem member, mem_rowsPick.mpr ⟨row, isKept, fresh, rfl⟩⟩
    · rintro ⟨pick, isPick, member⟩
      obtain ⟨filter, isFilter, rfl⟩ := mem_map.mp isPick
      obtain ⟨row, isKept, fresh, rfl⟩ := mem_rowsPick.mp member
      exact ⟨row, mem_keptRows.mpr ⟨filter, isFilter, isKept, fresh⟩, rfl⟩

theorem selects_of_complete (nodup : memory.Nodup)
    (cached : ∀ event ∈ memory, ∃ row ∈ rows, row.event = event)
    (complete : Complete memory rows now filter)
    (selects : Selects Event.createdAt filter.limitInt (memory.filter filter.accepts) pick) :
    Selects Event.createdAt filter.limitInt ((freshEvents rows now).filter filter.accepts)
      pick := by
  have limitInt : ∀ {limit : Nat}, filter.limit = some limit → filter.limitInt = limit := by
    intro limit isLimit
    unfold Filter.limitInt
    rw [isLimit]
    rfl
  refine selects_of_subset ((nodup_freshEvents keyed).filter _)
    (nodup_of_selects (nodup.filter _) selects) (descending_of_selects selects) ?_
    (length_le_of_selects selects) ?_
  · intro event picked
    obtain ⟨member, few⟩ := within_of_selects selects picked
    obtain ⟨isCached, accepted⟩ := mem_filter.mp member
    obtain ⟨row, inside, rfl⟩ := cached event isCached
    refine mem_filter.mpr ⟨mem_freshEvents.mpr ⟨row, inside, ?_, rfl⟩, accepted⟩
    by_contra stale
    obtain ⟨limit, isLimit, many⟩ :=
      complete.expired row inside isCached accepted (Bool.eq_false_iff.mpr stale)
    rw [limitInt isLimit] at few
    unfold Within at few
    omega
  · intro event member left
    obtain ⟨isFresh', accepted⟩ := mem_filter.mp member
    obtain ⟨row, inside, fresh, rfl⟩ := mem_freshEvents.mp isFresh'
    by_cases isCached : row.event ∈ memory
    · exact others_of_selects selects (mem_filter.mpr ⟨isCached, accepted⟩) left
    · obtain ⟨limit, isLimit, many⟩ := complete.missing row inside isCached accepted fresh
      have isLimitInt := limitInt isLimit
      refine ⟨?_, fun other picked => le_of_selects selects ?_ picked ?_⟩
      · have bounded := length_le_of_selects selects
        by_contra differs
        have all := perm_of_selects selects (by omega)
        have counted := countP_le_length (p := fun other : Event =>
          decide (row.event.createdAt ≤ other.createdAt)) (l := memory.filter filter.accepts)
        rw [← all.length_eq] at counted
        omega
      · rw [isLimitInt]
        exact Int.ofNat_le.mpr many
      · omega

theorem answers_of_complete (nodup : memory.Nodup)
    (cached : ∀ event ∈ memory, ∃ row ∈ rows, row.event = event)
    (complete : ∀ filter ∈ filters, Complete memory rows now filter)
    (answers : Answers memory filters answer) : Answers (freshEvents rows now) filters answer := by
  obtain ⟨picks, selects, rest⟩ := answers
  refine ⟨picks, ?_, rest⟩
  clear rest
  induction selects with
  | nil => exact .nil
  | cons select _ ih =>
    refine .cons (selects_of_complete keyed nodup cached (complete _ mem_cons_self) select) ?_
    exact ih fun filter member => complete filter (mem_cons_of_mem _ member)

end

end Answers

/-! ### What a call keeps -/

/-- The rows stand for the stored ones, up to rows that expired, and the memory holds events of
rows. -/
structure Represents (stored : Stored) (state : State) : Prop where
  now : state.now = stored.now
  storedKeyed : Keyed CachedEvent.id stored.rows
  keyed : Keyed CachedEvent.id state.rows
  present : ∀ row ∈ stored.rows, row ∈ state.rows
  fresh : ∀ row ∈ state.rows, isFresh state.now row = true → row ∈ stored.rows
  nodup : (state.memory.map Event.id).Nodup
  cached : ∀ event ∈ state.memory, ∃ row ∈ state.rows, row.event = event

/-- A query that the memory answers needs a complete memory, one of the table limits that cut
nothing away; a count a query of the table or a limit that is filled; a removal limits that leave
nothing. -/
def Condition (state : State) : Call → Prop
  | .query filters _ => ∀ results, Answers state.memory filters results →
      (Enough filters results → ∀ filter ∈ filters,
        Complete state.memory state.rows state.now filter) ∧
      (¬ Enough filters results → ∀ filter ∈ filters, Uncut state.rows state.now filter)
  | .count filters _ =>
      (∀ results, Answers state.memory filters results → ¬ Enough filters results) ∨
        ∃ filter limit, filters = [filter] ∧ filter.cut = some limit ∧
          (queryFilter state.rows filter).length = limit ∧
          ∀ row ∈ queryFilter state.rows filter, isFresh state.now row = true
  | .remove filters =>
      (∀ row ∈ state.rows, isFresh state.now row = true → acceptedBy filters row.event = true →
        row ∈ keptRows state.rows state.now filters) ∧
      ∀ row ∈ keptRows state.rows state.now filters, acceptedBy filters row.event = true
  | _ => True

/-- A query answers rightly from the live events, and a count with the number of a query. -/
def Faithful (stored : Stored) (state : State) : Call → Prop
  | .query filters answer => Answers stored.live filters answer
  | .count filters number => ∀ answer next, Step state (.query filters answer) next →
      answer.length = number
  | _ => True

section Calls

variable {stored : Stored} {state next : State} {call : Call} {filters : List Filter}
  {answer : List Event}

theorem Represents.live (represents : Represents stored state) :
    (freshEvents state.rows state.now).Perm stored.live := by
  refine (perm_ext_iff_of_nodup (nodup_freshEvents represents.keyed)
    (nodup_freshEvents represents.storedKeyed)).mpr fun event => ?_
  rw [mem_freshEvents, mem_freshEvents, ← represents.now]
  constructor
  · rintro ⟨row, member, fresh, rfl⟩
    exact ⟨row, represents.fresh row member fresh, fresh, rfl⟩
  · rintro ⟨row, member, fresh, rfl⟩
    exact ⟨row, represents.present row member, fresh, rfl⟩

theorem isFresh_of_later {now duration : Nat} {row : CachedEvent}
    (fresh : isFresh (now + duration) row = true) : isFresh now row = true := by
  unfold isFresh at fresh ⊢
  rw [decide_eq_true_iff] at fresh ⊢
  omega

section

variable (represents : Represents stored state)

include represents

theorem Represents.put (event : Event) :
    Represents { stored with rows := EventCache.put ⟨event, stored.now⟩ stored.rows }
      { state with
        memory := add state.memory event
        rows := EventCache.put ⟨event, state.now⟩ state.rows } where
  now := represents.now
  storedKeyed := keyed_put represents.storedKeyed
  keyed := keyed_put represents.keyed
  present row member := by
    rcases mem_put.mp member with rfl | ⟨inside, differs⟩
    · exact mem_put.mpr (.inl (by rw [represents.now]))
    · exact mem_put.mpr (.inr ⟨represents.present row inside, differs⟩)
  fresh row member fresh := by
    rcases mem_put.mp member with rfl | ⟨inside, differs⟩
    · exact mem_put.mpr (.inl (by rw [represents.now]))
    · exact mem_put.mpr (.inr ⟨represents.fresh row inside fresh, differs⟩)
  nodup := nodup_add represents.nodup
  cached other member := by
    rcases mem_add.mp member with rfl | ⟨inside, differs⟩
    · exact ⟨_, mem_put.mpr (.inl rfl), rfl⟩
    · obtain ⟨row, isRow, rfl⟩ := represents.cached other inside
      exact ⟨row, mem_put.mpr (.inr ⟨isRow, differs⟩), rfl⟩

theorem Represents.remove (condition : Condition state (.remove filters)) :
    Represents (stored.record (.remove filters)) { state with
        memory := state.memory.filter fun event => !acceptedBy filters event
        rows := removeRows state.rows state.now filters } where
  now := represents.now
  storedKeyed := (filter_sublist.map _).nodup represents.storedKeyed
  keyed := keyed_removeRows represents.keyed
  present row member := by
    obtain ⟨inside, unmatched⟩ := mem_filter.mp member
    refine (mem_removeRows represents.keyed).mpr ⟨represents.present row inside, fun kept => ?_⟩
    rw [condition.2 row kept] at unmatched
    cases unmatched
  fresh row member fresh := by
    obtain ⟨inside, left⟩ := (mem_removeRows represents.keyed).mp member
    refine mem_filter.mpr ⟨represents.fresh row inside fresh, ?_⟩
    rw [Bool.not_eq_true']
    exact Bool.eq_false_iff.mpr fun matched => left (condition.1 row inside fresh matched)
  nodup := (filter_sublist.map _).nodup represents.nodup
  cached event member := by
    obtain ⟨inside, unmatched⟩ := mem_filter.mp member
    obtain ⟨row, isRow, rfl⟩ := represents.cached event inside
    refine ⟨row, (mem_removeRows represents.keyed).mpr ⟨isRow, fun kept => ?_⟩, rfl⟩
    rw [condition.2 row kept] at unmatched
    cases unmatched

theorem Represents.populate {events : List Event}
    (rows : ∀ event ∈ events, ∃ row ∈ state.rows, row.event = event) :
    Represents stored { state with memory := events.foldl add state.memory } where
  now := represents.now
  storedKeyed := represents.storedKeyed
  keyed := represents.keyed
  present := represents.present
  fresh := represents.fresh
  nodup := nodup_foldl_add represents.nodup events
  cached event member := (mem_foldl_add member).elim (represents.cached event) (rows event)

theorem Represents.step (condition : Condition state call) (step : Step state call next) :
    Represents (stored.record call) next := by
  cases step with
  | event event => exact represents.put event
  | fromMemory => exact represents
  | fromRows answers short =>
    refine represents.populate fun event member => ?_
    obtain ⟨row, kept, same⟩ := (mem_queryRows represents.keyed).mp member
    obtain ⟨filter, -, isKept, -⟩ := mem_keptRows.mp kept
    exact ⟨row, (mem_queryFilter isKept).1, same⟩
  | remove filters => exact represents.remove condition
  | count => exact represents
  | clear =>
    exact
      { now := represents.now
        storedKeyed := nodup_nil
        keyed := nodup_nil
        present := nofun
        fresh := nofun
        nodup := nodup_nil
        cached := nofun }
  | pass duration =>
    exact
      { now := congrArg (· + duration) represents.now
        storedKeyed := represents.storedKeyed
        keyed := represents.keyed
        present := represents.present
        fresh := fun row member fresh => represents.fresh row member (isFresh_of_later fresh)
        nodup := represents.nodup
        cached := represents.cached }
  | evict kept =>
    exact
      { now := represents.now
        storedKeyed := represents.storedKeyed
        keyed := represents.keyed
        present := represents.present
        fresh := represents.fresh
        nodup := (filter_sublist.map _).nodup represents.nodup
        cached := fun event member => represents.cached event (mem_filter.mp member).1 }

end

theorem length_queryRows {rows : List CachedEvent} {now : Nat} {filter : Filter}
    (keyed : Keyed CachedEvent.id rows)
    (fresh : ∀ row ∈ queryFilter rows filter, isFresh now row = true) :
    (queryRows rows now [filter]).length = (queryFilter rows filter).length := by
  have perm : (queryRows rows now [filter]).Perm
      ((queryFilter rows filter).map CachedEvent.event) := by
    refine (perm_ext_iff_of_nodup (Nodup.of_map _ (nodup_queryRows keyed))
      (nodup_events ((queryFilter_sublist.map _).nodup keyed))).mpr fun event => ?_
    rw [mem_queryRows keyed, List.mem_map]
    constructor
    · rintro ⟨row, kept, rfl⟩
      obtain ⟨other, isOther, isKept, -⟩ := mem_keptRows.mp kept
      exact ⟨row, mem_singleton.mp isOther ▸ isKept, rfl⟩
    · rintro ⟨row, isKept, rfl⟩
      exact ⟨row, mem_keptRows.mpr ⟨filter, mem_cons_self, isKept, fresh row isKept⟩, rfl⟩
  rw [perm.length_eq, length_map]

theorem length_le_of_answers {events : List Event} {filter : Filter} {limit : Nat}
    (cut : filter.cut = some limit) (answers : Answers events [filter] answer) :
    answer.length ≤ limit := by
  obtain ⟨picks, selects, nodup, -, members⟩ := answers
  cases selects with
  | cons select rest =>
    rename_i pick _
    cases rest
    have bounded := length_le_of_selects select
    have isLimit := (filter_eq_some_iff.mp cut).1
    unfold Filter.limitInt at bounded
    rw [isLimit] at bounded
    have inside : answer.length ≤ pick.length := by
      refine (subperm_of_subset (Nodup.of_map _ nodup) fun event member => ?_).length_le
      obtain ⟨other, isPick, picked⟩ := (members event).mp member
      exact mem_singleton.mp isPick ▸ picked
    rcases bounded with negative | bounded
    · exact absurd negative (by simp)
    · have bounded : pick.length ≤ limit := Int.ofNat_le.mp bounded
      omega

theorem Represents.faithful (represents : Represents stored state)
    (condition : Condition state call) (step : Step state call next) :
    Faithful stored state call := by
  have nodup := Nodup.of_map _ represents.nodup
  cases step with
  | fromMemory answers enough =>
    exact (answers_of_complete represents.keyed nodup represents.cached
      ((condition _ answers).1 enough) answers).perm represents.live
  | fromRows answers short =>
    exact (answers_queryRows represents.keyed ((condition _ answers).2 short)).perm represents.live
  | count filters =>
    intro answer next query
    rcases condition with isShort | ⟨filter, limit, rfl, cut, full, fresh⟩
    · cases query with
      | fromMemory answers enough => exact absurd enough (isShort _ answers)
      | fromRows answers short => rfl
    · cases query with
      | fromMemory answers enough =>
        obtain ⟨first, isFirst, enough⟩ := enough
        have same : some limit = some first := cut.symm.trans isFirst
        cases same
        have atMost := length_le_of_answers cut answers
        rw [length_queryRows represents.keyed fresh, full]
        omega
      | fromRows answers short => rfl
  | _ => trivial

end Calls

/-! ### Runs -/

/-- The calls made from a state lead to another, each meeting its condition. -/
inductive Reaches (start : State) : List Call → State → Prop where
  | nil : Reaches start [] start
  | snoc {calls : List Call} {state next : State} {call : Call}
    (reaches : Reaches start calls state)
      (condition : Condition state call) (step : Step state call next) :
      Reaches start (calls ++ [call]) next

theorem mem_of_answers {events answer : List Event} {filters : List Filter} {event : Event}
    (answers : Answers events filters answer) (member : event ∈ answer) : event ∈ events := by
  obtain ⟨picks, selects, -, -, members⟩ := answers
  obtain ⟨pick, isPick, picked⟩ := (members event).mp member
  clear members
  induction selects with
  | nil => cases isPick
  | cons select _ ih =>
    rcases mem_cons.mp isPick with rfl | later
    · exact (mem_filter.mp (within_of_selects select picked).1).1
    · exact ih later

def history (rows : List CachedEvent) (now : Nat) (calls : List Call) : Stored :=
  calls.foldl Stored.record ⟨rows, now⟩

section Runs

variable {rows : List CachedEvent} {row : CachedEvent} {now : Nat} {calls : List Call}
  {state next : State} {call : Call}

theorem represents_of_reaches (keyed : Keyed CachedEvent.id rows)
    (reaches : Reaches ⟨[], rows, now⟩ calls state) :
    Represents (history rows now calls) state := by
  induction reaches with
  | nil =>
    exact
      { now := rfl
        storedKeyed := keyed
        keyed := keyed
        present := fun _ member => member
        fresh := fun _ member _ => member
        nodup := nodup_nil
        cached := nofun }
  | snoc reaches condition step ih =>
    unfold history
    rw [foldl_append]
    exact ih.step condition step

theorem mem_record (stored : Stored) (member : row ∈ (calls.foldl Stored.record stored).rows) :
    row ∈ stored.rows ∨ Call.event row.event ∈ calls := by
  induction calls generalizing stored with
  | nil => exact .inl member
  | cons call calls ih =>
    rcases ih _ member with earlier | later
    · cases call with
      | event event =>
        rcases mem_put.mp earlier with rfl | ⟨inside, -⟩
        · exact .inr mem_cons_self
        · exact .inl inside
      | remove filters => exact .inl (mem_filter.mp earlier).1
      | clear => cases earlier
      | query | count | pass | evict => exact .inl earlier
    · exact .inr (mem_cons_of_mem _ later)

theorem stored_again {before after : List Call} {removed : List Filter}
    (member : row ∈ (history rows now (before ++ .remove removed :: after)).rows)
    (matched : acceptedBy removed row.event = true) : Call.event row.event ∈ after := by
  unfold history at member
  rw [foldl_append, foldl_cons] at member
  refine (mem_record _ member).resolve_left fun earlier => ?_
  have unmatched := (mem_filter.mp earlier).2
  rw [matched] at unmatched
  cases unmatched

/-- Every query and count is faithful, and no query returns what was removed, when the calls meet
their conditions. -/
theorem faithful_of_run (keyed : Keyed CachedEvent.id rows)
    (reaches : Reaches ⟨[], rows, now⟩ calls state) (condition : Condition state call)
    (step : Step state call next) :
    Faithful (history rows now calls) state call ∧
      ∀ filters answer, call = .query filters answer → ∀ event ∈ answer,
        ∀ before removed after, calls = before ++ .remove removed :: after →
          acceptedBy removed event = true → Call.event event ∈ after := by
  have represents := represents_of_reaches keyed reaches
  have faithful := represents.faithful condition step
  refine ⟨faithful, ?_⟩
  rintro filters answer rfl event member before removed after rfl matched
  obtain ⟨row, inside, -, rfl⟩ := mem_freshEvents.mp (mem_of_answers faithful member)
  exact stored_again inside matched

end Runs

/-! ### Limits that cut -/

section Cuts

def kindFilter (limit : Option Nat) : Filter where
  ids := none
  authors := none
  kinds := some [1]
  since := none
  untilTime := none
  limit := limit
  tags := []

def older : Event := ⟨"a", "author", 1, 1, []⟩

def newer : Event := ⟨"b", "author", 2, 1, []⟩

theorem answers_nil (filter : Filter) : Answers [] [filter] [] := by
  refine ⟨[[]], .cons ?_ .nil, nodup_nil, Pairwise.nil, by simp⟩
  refine ⟨[], Perm.refl _, Pairwise.nil, ?_⟩
  unfold limitRows
  split <;> simp

theorem queryRows_singleton {rows : List CachedEvent} {now : Nat} {filters : List Filter}
    {event : Event}
      (kept : uniqueById ((keptRows rows now filters).map CachedEvent.event) = [event]) :
    queryRows rows now filters = [event] := by
  show sortRows Event.createdAt (uniqueById ((keptRows rows now filters).map CachedEvent.event)) = _
  rw [kept]
  exact mergeSort_singleton event

theorem faithful_kept : Faithful (history [] 0 [.event older, .evict fun _ => false])
    ⟨[], [⟨older, 0⟩], 0⟩ (.query [kindFilter none] [older]) := by
  have reaches : Reaches ⟨[], [], 0⟩ [.event older, .evict fun _ => false]
      ⟨[], [⟨older, 0⟩], 0⟩ :=
    @Reaches.snoc _ [.event older] ⟨[older], [⟨older, 0⟩], 0⟩ _ (.evict fun _ => false)
      (@Reaches.snoc _ [] _ _ (.event older) .nil trivial (.event older)) trivial (.evict _)
  have short : ∀ results, ¬ Enough [kindFilter none] results := by
    rintro results ⟨limit, isLimit, -⟩
    cases isLimit
  have uncut : Uncut [⟨older, 0⟩] 0 (kindFilter none) := ⟨by decide, nofun, by decide⟩
  have step := @Step.fromRows ⟨[], [⟨older, 0⟩], 0⟩ [kindFilter none] [] (answers_nil _) (short [])
  rw [@queryRows_singleton _ _ _ older (by decide)] at step
  have condition : Condition ⟨[], [⟨older, 0⟩], 0⟩ (.query [kindFilter none] [older]) :=
    fun results _ => ⟨fun enough => absurd enough (short results), fun _ filter member =>
      mem_singleton.mp member ▸ uncut⟩
  exact (@faithful_of_run [] 0 _ _ _ _ nodup_nil reaches condition step).1

/-- The table answers a filter with limit one by the first id, which is not the newest, and a
removal leaves the newest event. -/
theorem cut_by_id :
    (∃ next, Step ⟨[], [⟨older, 0⟩, ⟨newer, 0⟩], 0⟩ (.query [kindFilter (some 1)] [older]) next ∧
        ¬ Answers (history [] 0 [.event older, .event newer, .evict fun _ => false]).live
          [kindFilter (some 1)] [older]) ∧
      ∃ middle next, Step ⟨[], [⟨older, 0⟩, ⟨newer, 0⟩], 0⟩ (.remove [kindFilter (some 1)]) middle ∧
        Step middle (.query [kindFilter (some 1)] [newer]) next ∧
          acceptedBy [kindFilter (some 1)] newer = true := by
  have short : ¬ Enough [kindFilter (some 1)] [] := by
    rintro ⟨limit, isLimit, enough⟩
    obtain rfl : 1 = limit := Option.some.inj isLimit
    exact absurd enough (by decide)
  have first : queryRows [⟨older, 0⟩, ⟨newer, 0⟩] 0 [kindFilter (some 1)] = [older] :=
    queryRows_singleton (by decide)
  have removed : removeRows [⟨older, 0⟩, ⟨newer, 0⟩] 0 [kindFilter (some 1)] = [⟨newer, 0⟩] := by
    unfold removeRows
    rw [first]
    decide
  have second : queryRows [⟨newer, 0⟩] 0 [kindFilter (some 1)] = [newer] :=
    queryRows_singleton (by decide)
  have query := @Step.fromRows ⟨[], [⟨older, 0⟩, ⟨newer, 0⟩], 0⟩ _ [] (answers_nil _) short
  have removal := @Step.remove ⟨[], [⟨older, 0⟩, ⟨newer, 0⟩], 0⟩ [kindFilter (some 1)]
  have later := @Step.fromRows ⟨[], [⟨newer, 0⟩], 0⟩ _ [] (answers_nil _) short
  rw [first] at query
  rw [removed] at removal
  rw [second] at later
  refine ⟨⟨_, query, ?_⟩, _, _, removal, later, by decide⟩
  rintro ⟨picks, selects, -, -, members⟩
  cases selects with
  | cons select rest =>
    cases rest
    obtain ⟨other, isPick, picked⟩ := (members older).mp mem_cons_self
    obtain rfl := mem_singleton.mp isPick
    have few := (within_of_selects select picked).2
    exact absurd few (by unfold Within; decide)

end Cuts

end Divine.EventCache
