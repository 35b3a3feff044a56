/-
This file embeds the box that holds received events in memory: a list of the events, in
order of their time, and a map of the same events by id.
-/

import Divine.Library.Dictionary
import Divine.Library.Fallible
import Divine.Library.Sorting
import Mathlib.Algebra.Group.Int.Defs
import Mathlib.Data.List.Induction

namespace Divine.NostrSdk.MemBox

open List Fallible Sorting

/-! ### Events in memory -/

/-- What the box reads and writes of an event. -/
structure Event where
  id : String
  createdAt : Int64
  cacheEvent : Bool
  sources : List String
  deriving DecidableEq

/-- The place of an event in memory: the list and the map hold the same objects. -/
abbrev Reference := Nat

abbrev Memory := Reference → Event

def Memory.write (memory : Memory) (reference : Reference) (event : Event) : Memory :=
  Function.update memory reference event

structure EventMemBox where
  eventList : List Reference
  idMap : List (String × Reference)
  sortAfterAdd : Bool
  deriving DecidableEq

def EventMemBox.new : EventMemBox := ⟨[], [], true⟩

/-! ### Operations -/

section

variable (order : ComparisonSort Reference)

/-- `event2.createdAt - event1.createdAt`, on 64 bits. -/
def compareEvents (memory : Memory) (event1 event2 : Reference) : Int :=
  ((memory event2).createdAt - (memory event1).createdAt).toInt

def EventMemBox.sort (memory : Memory) (box : EventMemBox) : EventMemBox :=
  { box with eventList := order.sort (compareEvents memory) box.eventList }

def EventMemBox.delete (memory : Memory) (box : EventMemBox) (id : String) : EventMemBox × Bool :=
  match Dictionary.find box.idMap id with
  | none => (box, false)
  | some _ =>
      ({ box with
          idMap := Dictionary.remove box.idMap id
          eventList := box.eventList.filter fun element => (memory element).id ≠ id }, true)

/-- The event takes the first source of another, if there is one and the event does not have it. -/
def addSource (memory : Memory) (oldEvent event : Reference) : Memory :=
  match (memory event).sources.head? with
  | none => memory
  | some source =>
      if (memory oldEvent).sources.contains source then memory
      else
        memory.write oldEvent
          { memory oldEvent with sources := (memory oldEvent).sources ++ [source] }

/-- What `add` does with an event that is there. -/
def meetAgain (memory : Memory) (oldEvent event : Reference) : Memory :=
  if !(memory event).cacheEvent && !(memory event).sources.isEmpty then
    let cleaned :=
      if (memory oldEvent).cacheEvent then
        memory.write oldEvent { memory oldEvent with sources := [], cacheEvent := false }
      else memory
    addSource cleaned oldEvent event
  else memory

def EventMemBox.put (memory : Memory) (box : EventMemBox) (event : Reference) : EventMemBox :=
  { box with
    idMap := Dictionary.put box.idMap (memory event).id event
    eventList := box.eventList ++ [event] }

def EventMemBox.add (memory : Memory) (box : EventMemBox) (event : Reference) :
    Memory × EventMemBox × Bool :=
  match Dictionary.find box.idMap (memory event).id with
  | some oldEvent => (meetAgain memory oldEvent event, box, false)
  | none =>
      let box := box.put memory event
      (memory, if box.sortAfterAdd then box.sort order memory else box, true)

def addEach (state : Memory × EventMemBox × Bool) (event : Reference) :
    Memory × EventMemBox × Bool :=
  let (memory, box, added) := state
  match Dictionary.find box.idMap (memory event).id with
  | none => (memory, box.put memory event, true)
  | some oldEvent => (addSource memory oldEvent event, box, added)

def EventMemBox.addList (memory : Memory) (box : EventMemBox) (list : List Reference) :
    Memory × EventMemBox × Bool :=
  let (memory, box, added) := list.foldl addEach (memory, box, false)
  (memory, if added && box.sortAfterAdd then box.sort order memory else box, added)

def EventMemBox.addBox (memory : Memory) (box b : EventMemBox) : Memory × EventMemBox :=
  let (memory, box, _) := box.addList order memory b.eventList
  (memory, box)

def EventMemBox.getById (box : EventMemBox) (id : String) : Option Reference :=
  Dictionary.find box.idMap id

def EventMemBox.clear (box : EventMemBox) : EventMemBox := { box with eventList := [], idMap := [] }

/-- `sublist`, which throws when there are not so many items. -/
def sublist (list : List Reference) (start stop : Nat) : Except Unit (List Reference) :=
  if start ≤ stop ∧ stop ≤ list.length then .ok ((list.drop start).take (stop - start))
  else .error ()

def EventMemBox.suList (box : EventMemBox) (start limit : Nat) : Except Unit (List Reference) :=
  let length := box.eventList.length
  if start > length then .ok []
  else if start + limit > length then sublist box.eventList start length
  else sublist box.eventList start limit

end

/-! ### Runs -/

inductive Operation where
  | add (event : Reference)
  | addList (list : List Reference)
  | addBox (b : EventMemBox)
  | delete (id : String)
  | clear
  deriving DecidableEq

def Operation.events : Operation → List Reference
  | .add event => [event]
  | .addList list => list
  | .addBox b => b.eventList
  | .delete _ => []
  | .clear => []

structure State where
  memory : Memory
  box : EventMemBox

def step (order : ComparisonSort Reference) (state : State) : Operation → State
  | .add event =>
      let (memory, box, _) := state.box.add order state.memory event
      ⟨memory, box⟩
  | .addList list =>
      let (memory, box, _) := state.box.addList order state.memory list
      ⟨memory, box⟩
  | .addBox b =>
      let (memory, box) := state.box.addBox order state.memory b
      ⟨memory, box⟩
  | .delete id => { state with box := (state.box.delete state.memory id).1 }
  | .clear => { state with box := state.box.clear }

def run (order : ComparisonSort Reference) (state : State) (operations : List Operation) : State :=
  operations.foldl (step order) state

/-! ### What is promised -/

/-- The difference of two times is a number of 64 bits. -/
def Near (memory : Memory) (first second : Reference) : Prop :=
  -2 ^ 63 ≤ (memory second).createdAt.toInt - (memory first).createdAt.toInt ∧
    (memory second).createdAt.toInt - (memory first).createdAt.toInt < 2 ^ 63

/-- No two of the events in the box and of the operation differ by so much that it wraps. -/
def Operation.Comparable (state : State) (operation : Operation) : Prop :=
  ∀ first ∈ state.box.eventList ++ operation.events,
    ∀ second ∈ state.box.eventList ++ operation.events, Near state.memory first second

/-- Every operation of a run finds events that can be compared. -/
def AllComparable (order : ComparisonSort Reference) : State → List Operation → Prop
  | _, [] => True
  | state, operation :: rest =>
      operation.Comparable state ∧ AllComparable order (step order state operation) rest

/-- The list and the map hold the same events, no id twice, the newest first. -/
structure Consistent (memory : Memory) (box : EventMemBox) : Prop where
  same : (box.idMap.map Prod.snd).Perm box.eventList
  distinct : (box.eventList.map fun event => (memory event).id).Nodup
  descending : box.eventList.Pairwise fun event1 event2 =>
    (memory event2).createdAt ≤ (memory event1).createdAt
  found : ∀ id event, box.getById id = some event ↔
    event ∈ box.eventList ∧ (memory event).id = id

def EventMemBox.pages (box : EventMemBox) (size : Nat) : Nat → Except Unit (List Reference)
  | 0 => .ok []
  | count + 1 => do
      let before ← box.pages size count
      let page ← box.suList (count * size) size
      .ok (before ++ page)

/-- However many pages are read, when they reach the end they are the whole list. -/
def EventMemBox.PagesWhole (box : EventMemBox) (size : Nat) : Prop :=
  ∀ count, box.eventList.length ≤ count * size → box.pages size count = .ok box.eventList

/-! ### What is written of an event -/

/-- No event has another id or time than before. -/
structure Frame (memory after : Memory) : Prop where
  id : ∀ reference, (after reference).id = (memory reference).id
  createdAt : ∀ reference, (after reference).createdAt = (memory reference).createdAt

theorem Frame.refl (memory : Memory) : Frame memory memory := ⟨fun _ => rfl, fun _ => rfl⟩

theorem Frame.trans {memory between after : Memory} (first : Frame memory between)
    (second : Frame between after) : Frame memory after where
  id reference := (second.id reference).trans (first.id reference)
  createdAt reference := (second.createdAt reference).trans (first.createdAt reference)

theorem frame_write {memory : Memory} {reference : Reference} {event : Event}
    (id : event.id = (memory reference).id)
    (createdAt : event.createdAt = (memory reference).createdAt) :
    Frame memory (memory.write reference event) := by
  refine ⟨fun other => ?_, fun other => ?_⟩
  · unfold Memory.write
    by_cases same : other = reference
    · rw [same, Function.update_self, id]
    · rw [Function.update_of_ne same]
  · unfold Memory.write
    by_cases same : other = reference
    · rw [same, Function.update_self, createdAt]
    · rw [Function.update_of_ne same]

theorem frame_addSource (memory : Memory) (oldEvent event : Reference) :
    Frame memory (addSource memory oldEvent event) := by
  unfold addSource
  split
  · exact Frame.refl memory
  · split
    · exact Frame.refl memory
    · exact frame_write rfl rfl

theorem frame_meetAgain (memory : Memory) (oldEvent event : Reference) :
    Frame memory (meetAgain memory oldEvent event) := by
  unfold meetAgain
  split
  · refine Frame.trans ?_ (frame_addSource _ oldEvent event)
    split
    · exact frame_write rfl rfl
    · exact Frame.refl memory
  · exact Frame.refl memory

/-! ### The list and the map -/

section

variable {memory after : Memory} {box : EventMemBox}

/-- The map has each event of the list, under its own id. -/
structure Agree (memory : Memory) (box : EventMemBox) : Prop where
  own : ∀ entry ∈ box.idMap, (memory entry.2).id = entry.1
  same : (box.idMap.map Prod.snd).Perm box.eventList
  distinct : (box.eventList.map fun event => (memory event).id).Nodup

theorem agree_clear (memory : Memory) (box : EventMemBox) : Agree memory box.clear where
  own _ absurd := by cases absurd
  same := .refl _
  distinct := nodup_nil

section

variable (agree : Agree memory box)

include agree

theorem Agree.frame (frame : Frame memory after) : Agree after box where
  own entry member := (frame.id entry.2).trans (agree.own entry member)
  same := agree.same
  distinct := by
    rw [map_congr_left fun event _ => frame.id event]
    exact agree.distinct

theorem Agree.keys :
    (box.idMap.map Prod.fst).Perm (box.eventList.map fun event => (memory event).id) := by
  have ids : box.idMap.map Prod.fst = (box.idMap.map Prod.snd).map fun event =>
    (memory event).id := by
    rw [map_map]
    exact map_congr_left fun entry member => (agree.own entry member).symm
  rw [ids]
  exact agree.same.map _

theorem Agree.find_iff {id : String} {event : Reference} :
    box.getById id = some event ↔ event ∈ box.eventList ∧ (memory event).id = id := by
  constructor
  · intro found
    have member := Dictionary.mem_of_find found
    exact ⟨agree.same.mem_iff.mp (mem_map_of_mem member), agree.own _ member⟩
  · rintro ⟨listed, rfl⟩
    obtain ⟨entry, member, rfl⟩ := mem_map.mp (agree.same.mem_iff.mpr listed)
    rw [agree.own entry member]
    exact Dictionary.find_of_mem (agree.keys.nodup_iff.mpr agree.distinct) member

theorem Agree.put {event : Reference}
    (absent : Dictionary.find box.idMap (memory event).id = none) :
    Agree memory (box.put memory event) := by
  have idMap : (box.put memory event).idMap = box.idMap ++ [((memory event).id, event)] :=
    Dictionary.put_of_absent absent
  refine ⟨fun entry member => ?_, ?_, ?_⟩
  · rw [idMap] at member
    rcases mem_append.mp member with before | added
    · exact agree.own entry before
    · rw [mem_singleton.mp added]
  · rw [idMap, map_append]
    exact agree.same.append_right [event]
  · show ((box.eventList ++ [event]).map fun event => (memory event).id).Nodup
    rw [map_append]
    refine nodup_append.mpr ⟨agree.distinct, nodup_singleton _, ?_⟩
    rintro id member _ own rfl
    obtain ⟨other, listed, same⟩ := mem_map.mp member
    rw [map_singleton, mem_singleton] at own
    have found := agree.find_iff.mpr ⟨listed, same.trans own⟩
    exact Option.some_ne_none other (found.symm.trans absent)

theorem Agree.delete (id : String) :
    Agree memory (box.delete memory id).1 := by
  unfold EventMemBox.delete
  split
  · exact agree
  · refine ⟨fun entry member => agree.own entry (Dictionary.mem_remove member), ?_,
      agree.distinct.sublist (filter_sublist.map _)⟩
    have kept : (Dictionary.remove box.idMap id).map Prod.snd =
        (box.idMap.map Prod.snd).filter fun event => (memory event).id ≠ id := by
      rw [filter_map]
      refine congrArg (List.map Prod.snd) (filter_congr fun entry member => ?_)
      rw [Function.comp_apply, agree.own entry member]
    rw [kept]
    exact agree.same.filter _

theorem Agree.sort (order : ComparisonSort Reference) :
    Agree memory (box.sort order memory) where
  own := agree.own
  same := agree.same.trans (order.perm _ _).symm
  distinct := ((order.perm _ _).map _).nodup_iff.mpr agree.distinct

end

end

/-! ### The order of the list -/

section

variable {memory after : Memory} {box : EventMemBox} {events : List Reference}

def Descending (memory : Memory) (events : List Reference) : Prop :=
  events.Pairwise fun event1 event2 => (memory event2).createdAt ≤ (memory event1).createdAt

theorem Descending.frame (descending : Descending memory events) (frame : Frame memory after) :
    Descending after events := by
  unfold Descending
  simp only [frame.createdAt]
  exact descending

theorem compareEvents_eq {first second : Reference} (near : Near memory first second) :
    compareEvents memory first second =
      (memory second).createdAt.toInt - (memory first).createdAt.toInt := by
  obtain ⟨lower, upper⟩ := near
  unfold compareEvents
  rw [Int64.toInt_sub]
  exact Int.bmod_eq_of_le (by omega) (by omega)

theorem isOrder_compareEvents
    (near : ∀ first ∈ events, ∀ second ∈ events, Near memory first second) :
    IsOrder (compareEvents memory) events where
  opposite first firstIn second secondIn := by
    rw [compareEvents_eq (near first firstIn second secondIn),
      compareEvents_eq (near second secondIn first firstIn)]
    omega
  trans first firstIn second secondIn third thirdIn := by
    rw [compareEvents_eq (near first firstIn second secondIn),
      compareEvents_eq (near second secondIn third thirdIn),
      compareEvents_eq (near first firstIn third thirdIn)]
    omega

theorem descending_sort (order : ComparisonSort Reference)
    (near : ∀ first ∈ box.eventList, ∀ second ∈ box.eventList, Near memory first second) :
    Descending memory (box.sort order memory).eventList := by
  refine (order.sorted _ _ (isOrder_compareEvents near)).imp_of_mem ?_
  intro first second firstIn secondIn before
  rw [compareEvents_eq (near first (order.mem_sort.mp firstIn) second
    (order.mem_sort.mp secondIn))] at before
  rw [Int64.le_iff_toInt_le]
  omega

end

/-! ### Steps and runs -/

section

variable {order : ComparisonSort Reference} {state : State}

/-- What holds of a box between operations. -/
structure Kept (state : State) : Prop where
  agree : Agree state.memory state.box
  descending : Descending state.memory state.box.eventList
  sortAfterAdd : state.box.sortAfterAdd = true

theorem kept_new (memory : Memory) : Kept ⟨memory, .new⟩ :=
  ⟨agree_clear memory .new, .nil, rfl⟩

structure Adding (state : State) (events : List Reference)
    (reached : Memory × EventMemBox × Bool) : Prop where
  frame : Frame state.memory reached.1
  agree : Agree reached.1 reached.2.1
  sortAfterAdd : reached.2.1.sortAfterAdd = state.box.sortAfterAdd
  within : reached.2.1.eventList ⊆ state.box.eventList ++ events
  unchanged : reached.2.2 = false → reached.2.1.eventList = state.box.eventList

theorem Adding.addEach {events : List Reference} {reached : Memory × EventMemBox × Bool}
    (adding : Adding state events reached) (event : Reference) :
    Adding state (events ++ [event]) (addEach reached event) := by
  have grown : state.box.eventList ++ events ⊆ state.box.eventList ++ (events ++ [event]) := by
    rw [← append_assoc]
    exact subset_append_left _ _
  obtain ⟨memory, box, added⟩ := reached
  unfold MemBox.addEach
  dsimp only
  cases found : Dictionary.find box.idMap (memory event).id with
  | none =>
    refine ⟨adding.frame, adding.agree.put found, adding.sortAfterAdd, ?_, fun absurd => ?_⟩
    · refine append_subset.mpr ⟨List.Subset.trans adding.within grown, ?_⟩
      exact subset_append_of_subset_right _ (subset_append_right _ _)
    · cases absurd
  | some oldEvent =>
    have frame := frame_addSource memory oldEvent event
    exact ⟨adding.frame.trans frame, adding.agree.frame frame, adding.sortAfterAdd,
      List.Subset.trans adding.within grown, adding.unchanged⟩

theorem adding_foldl (agree : Agree state.memory state.box) (events : List Reference) :
    Adding state events (events.foldl addEach (state.memory, state.box, false)) := by
  induction events using reverseRecOn with
  | nil =>
    exact ⟨Frame.refl _, agree, rfl, subset_append_left _ _, fun _ => rfl⟩
  | append_singleton events event ih =>
    rw [foldl_append]
    exact ih.addEach event

theorem Adding.kept {events : List Reference} {reached : Memory × EventMemBox × Bool}
    (kept : Kept state) (adding : Adding state events reached)
    (near : ∀ first ∈ state.box.eventList ++ events, ∀ second ∈ state.box.eventList ++ events,
      Near state.memory first second) :
    Kept ⟨reached.1, if reached.2.2 && reached.2.1.sortAfterAdd then
      reached.2.1.sort order reached.1 else reached.2.1⟩ := by
  have sorts := adding.sortAfterAdd.trans kept.sortAfterAdd
  rw [sorts, Bool.and_true]
  cases added : reached.2.2 with
  | false =>
    refine ⟨adding.agree, ?_, sorts⟩
    show Descending reached.1 reached.2.1.eventList
    rw [adding.unchanged added]
    exact kept.descending.frame adding.frame
  | true =>
    refine ⟨adding.agree.sort order, descending_sort order ?_, sorts⟩
    intro first firstIn second secondIn
    unfold Near
    rw [adding.frame.createdAt, adding.frame.createdAt]
    exact near first (adding.within firstIn) second (adding.within secondIn)

theorem kept_addList (kept : Kept state) {events : List Reference}
    (near : ∀ first ∈ state.box.eventList ++ events, ∀ second ∈ state.box.eventList ++ events,
      Near state.memory first second) :
    Kept (step order state (.addList events)) :=
  (adding_foldl kept.agree events).kept kept near

theorem kept_add (kept : Kept state) {event : Reference}
    (near : ∀ first ∈ state.box.eventList ++ [event], ∀ second ∈ state.box.eventList ++ [event],
      Near state.memory first second) :
    Kept (step order state (.add event)) := by
  show Kept ⟨(state.box.add order state.memory event).1,
    (state.box.add order state.memory event).2.1⟩
  unfold EventMemBox.add
  cases found : Dictionary.find state.box.idMap (state.memory event).id with
  | some oldEvent =>
    have frame := frame_meetAgain state.memory oldEvent event
    exact ⟨kept.agree.frame frame, kept.descending.frame frame, kept.sortAfterAdd⟩
  | none =>
    have sorts : (state.box.put state.memory event).sortAfterAdd = true := kept.sortAfterAdd
    dsimp only
    rw [if_pos sorts]
    exact ⟨(kept.agree.put found).sort order, descending_sort order near, sorts⟩

theorem kept_delete (kept : Kept state) (id : String) : Kept (step order state (.delete id)) := by
  refine ⟨kept.agree.delete id, ?_, ?_⟩
  · show Descending state.memory (state.box.delete state.memory id).1.eventList
    unfold EventMemBox.delete
    split
    · exact kept.descending
    · exact Pairwise.filter _ kept.descending
  · show (state.box.delete state.memory id).1.sortAfterAdd = true
    unfold EventMemBox.delete
    split
    · exact kept.sortAfterAdd
    · exact kept.sortAfterAdd

theorem kept_step (kept : Kept state) {operation : Operation}
    (comparable : operation.Comparable state) : Kept (step order state operation) := by
  cases operation with
  | add event => exact kept_add kept comparable
  | addList | addBox => exact kept_addList kept comparable
  | delete id => exact kept_delete kept id
  | clear => exact ⟨agree_clear state.memory state.box, .nil, kept.sortAfterAdd⟩

theorem kept_run (kept : Kept state) {operations : List Operation}
    (comparable : AllComparable order state operations) : Kept (run order state operations) := by
  induction operations generalizing state with
  | nil => exact kept
  | cons operation rest ih =>
    exact ih (kept_step kept comparable.1) comparable.2

theorem Kept.consistent (kept : Kept state) : Consistent state.memory state.box where
  same := kept.agree.same
  distinct := kept.agree.distinct
  descending := kept.descending
  found _ _ := kept.agree.find_iff

end

/-! ### Pages -/

section

variable {box : EventMemBox} {size : Nat}

theorem sublist_eq_ok {list : List Reference} {start stop : Nat} (ordered : start ≤ stop)
    (inside : stop ≤ list.length) :
    sublist list start stop = .ok ((list.drop start).take (stop - start)) :=
  if_pos ⟨ordered, inside⟩

theorem suList_last {start limit : Nat} (within : start ≤ box.eventList.length)
    (ends : box.eventList.length < start + limit) :
    box.suList start limit = .ok (box.eventList.drop start) := by
  unfold EventMemBox.suList
  rw [if_neg (by omega), if_pos ends, sublist_eq_ok within (le_refl _),
    take_of_length_le (by rw [length_drop])]

theorem suList_behind {start limit : Nat} (behind : box.eventList.length < start) :
    box.suList start limit = .ok [] := by
  unfold EventMemBox.suList
  rw [if_pos behind]

theorem suList_first (full : size ≤ box.eventList.length) :
    box.suList 0 size = .ok (box.eventList.take size) := by
  unfold EventMemBox.suList
  rw [if_neg (by omega), if_neg (by omega), sublist_eq_ok (Nat.zero_le _) full]
  rfl

theorem suList_full {start limit : Nat} (full : start + limit ≤ box.eventList.length) :
    box.suList start limit = sublist box.eventList start limit := by
  unfold EventMemBox.suList
  rw [if_neg (by omega), if_neg (by omega)]

theorem pages_eq_take (few : box.eventList.length < 2 * size) (count : Nat) :
    box.pages size count = .ok (box.eventList.take (count * size)) := by
  induction count with
  | zero =>
    rw [Nat.zero_mul]
    rfl
  | succ count ih =>
    have page : box.suList (count * size) size =
        .ok ((box.eventList.drop (count * size)).take size) := by
      by_cases behind : box.eventList.length < count * size
      · rw [suList_behind behind, drop_of_length_le (by omega), take_nil]
      · by_cases ends : box.eventList.length < count * size + size
        · rw [suList_last (by omega) ends, take_of_length_le]
          rw [length_drop]
          omega
        · have first : count = 0 := by
            by_contra later
            have least : 1 * size ≤ count * size :=
              Nat.mul_le_mul_right size (Nat.one_le_iff_ne_zero.mpr later)
            omega
          rw [first, Nat.zero_mul]
          exact suList_first (by omega)
    rw [EventMemBox.pages, ih, ok_bind, page, ok_bind, Nat.succ_mul,
      take_add]

theorem pages_two (positive : 0 < size) (full : 2 * size ≤ box.eventList.length) :
    box.pages size 2 = .ok (box.eventList.take size) := by
  have second : box.suList (1 * size) size = .ok [] := by
    rw [suList_full (by omega), sublist_eq_ok (by omega) (by omega), Nat.one_mul, Nat.sub_self,
      take_zero]
  have first : box.suList (0 * size) size = .ok (box.eventList.take size) := by
    rw [Nat.zero_mul]
    exact suList_first (by omega)
  rw [EventMemBox.pages, EventMemBox.pages, EventMemBox.pages, ok_bind, first, ok_bind, ok_bind,
    second, ok_bind, nil_append, append_nil]

theorem pages_error (positive : 0 < size) (full : 3 * size ≤ box.eventList.length) (more : Nat) :
    box.pages size (3 + more) = .error () := by
  induction more with
  | zero =>
    have third : box.suList (2 * size) size = .error () := by
      rw [suList_full (by omega)]
      exact if_neg (by omega)
    show (box.pages size 2 >>= fun before => box.suList (2 * size) size >>= _) = _
    rw [pages_two positive (by omega), ok_bind, third]
    rfl
  | succ more ih =>
    show (box.pages size (3 + more) >>= _) = _
    rw [ih]
    rfl

theorem pagesWhole_iff (positive : 0 < size) :
    box.PagesWhole size ↔ box.eventList.length < 2 * size := by
  constructor
  · intro whole
    by_contra full
    rcases Nat.lt_or_ge (box.eventList.length) (3 * size) with few | many
    · have third : box.suList (2 * size) size = .ok (box.eventList.drop (2 * size)) :=
        suList_last (by omega) (by omega)
      have reached := whole 3 (by omega)
      rw [EventMemBox.pages, pages_two positive (by omega), ok_bind, third, ok_bind] at reached
      have lengths := congrArg List.length (Except.ok.inj reached)
      rw [length_append, length_take, length_drop] at lengths
      omega
    · have enough : box.eventList.length ≤ (3 + box.eventList.length) * size :=
        Nat.le_trans (Nat.le_add_left _ 3) (Nat.le_mul_of_pos_right _ positive)
      have reached := whole _ enough
      rw [pages_error positive many] at reached
      cases reached
  · intro few count reached
    rw [pages_eq_take few, take_of_length_le reached]

end

/-- In every run over comparable events the list and the map are consistent, and the pages are the
whole list exactly when there are fewer than two. -/
theorem run_consistent (order : ComparisonSort Reference) (memory : Memory)
    (operations : List Operation) (comparable : AllComparable order ⟨memory, .new⟩ operations)
    (size : Nat) (positive : 0 < size) :
    Consistent (run order ⟨memory, .new⟩ operations).memory
        (run order ⟨memory, .new⟩ operations).box ∧
      ((run order ⟨memory, .new⟩ operations).box.PagesWhole size ↔
        (run order ⟨memory, .new⟩ operations).box.eventList.length < 2 * size) :=
  ⟨(kept_run (kept_new memory) comparable).consistent, pagesWhole_iff positive⟩

/-! ### Samples -/

def sampleMemory (reference : Reference) : Event :=
  ⟨"id" ++ toString reference, Int64.ofNat reference, false, []⟩

/-- Three events come in order, and the pages of two give all of them. -/
theorem run_consistent_sample :
    Consistent sampleMemory
        (run insertionBy ⟨sampleMemory, .new⟩ [.add 1, .addList [3, 2, 1]]).box ∧
      (run insertionBy ⟨sampleMemory, .new⟩ [.add 1, .addList [3, 2, 1]]).box.PagesWhole 2 := by
  have near : ∀ first ∈ [1, 3, 2, 1], ∀ second ∈ [1, 3, 2, 1], Near sampleMemory first second := by
    unfold Near
    decide +kernel
  have comparable :
    AllComparable insertionBy ⟨sampleMemory, .new⟩ [.add 1, .addList [3, 2, 1]] := by
    refine ⟨fun first firstIn second secondIn => ?_, near, trivial⟩
    rw [mem_singleton.mp firstIn, mem_singleton.mp secondIn]
    exact near 1 (by decide) 1 (by decide)
  obtain ⟨consistent, pages⟩ := run_consistent insertionBy sampleMemory _ comparable 2 (by decide)
  exact ⟨consistent, pages.mpr (by decide +kernel)⟩

/-- Two events of which the difference of the times wraps. -/
def farMemory (reference : Reference) : Event :=
  ⟨"id" ++ toString reference, if reference = 1 then Int64.maxValue else -2, false, []⟩

/-- Pages of one event give only the first, and events whose difference wraps the older one first.
-/
theorem pages_lost :
    (run insertionBy ⟨sampleMemory, .new⟩ [.add 1, .add 2]).box.eventList = [2, 1] ∧
      (run insertionBy ⟨sampleMemory, .new⟩ [.add 1, .add 2]).box.pages 1 5 = .ok [2] ∧
      (run insertionBy ⟨farMemory, .new⟩ [.add 1, .add 2]).box.eventList = [2, 1] := by
  decide +kernel

end Divine.NostrSdk.MemBox
