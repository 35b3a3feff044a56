/-
This file proves what a chronological feed shows.
-/

import Divine.Funnelcake.Cursors

namespace Divine.Funnelcake

open List Paging

/-! ### Trails through time -/

abbrev Descending (rows : List FunnelcakeVideoRaw) : Prop :=
  rows.Pairwise fun first second => second.createdAt ≤ first.createdAt

/-- Going on with what is older than the last row of a page. -/
inductive Trails (size : Nat) :
    List FunnelcakeVideoRaw → List (List FunnelcakeVideoRaw) → Prop
  | short {rows : List FunnelcakeVideoRaw} : rows.length < size → Trails size rows [rows]
  | full {rows : List FunnelcakeVideoRaw} {last : FunnelcakeVideoRaw}
      {pages : List (List FunnelcakeVideoRaw)} :
      rows[size - 1]? = some last → last.createdAt ≠ 0 →
        Trails size (rowsBefore rows last.createdAt) pages →
          Trails size rows (rows.take size :: pages)

/-- No full page ends at time zero, when the next starts behind all rows of its last time. -/
inductive Ends (size : Nat) : List FunnelcakeVideoRaw → Prop
  | short {rows : List FunnelcakeVideoRaw} : rows.length < size → Ends size rows
  | full {rows : List FunnelcakeVideoRaw} {last : FunnelcakeVideoRaw} :
      rows[size - 1]? = some last → last.createdAt ≠ 0 →
        Ends size (rowsBefore rows last.createdAt) → Ends size rows

/-- The rows behind each full page are older than its last, which is not of time zero. -/
def Separated (size : Nat) (rows : List FunnelcakeVideoRaw) : Prop :=
  ∀ earlier last later, rows = earlier ++ last :: later → size ∣ earlier.length + 1 →
    last.createdAt ≠ 0 ∧ ∀ row ∈ later, row.createdAt < last.createdAt

section Trails

variable {size : Nat} {rows later : List FunnelcakeVideoRaw} {last : FunnelcakeVideoRaw}
  {pages : List (List FunnelcakeVideoRaw)} {before : Int}

theorem ends_iff : Ends size rows ↔ ∃ pages, Trails size rows pages := by
  constructor
  · intro ends
    induction ends with
    | short few => exact ⟨_, .short few⟩
    | full isLast nonzero _ ih =>
      obtain ⟨pages, trails⟩ := ih
      exact ⟨_, .full isLast nonzero trails⟩
  · rintro ⟨pages, trails⟩
    induction trails with
    | short few => exact .short few
    | full isLast nonzero _ ih => exact .full isLast nonzero ih

theorem exists_parts (positive : 0 < size) (isLast : rows[size - 1]? = some last) :
    ∃ earlier later, rows = earlier ++ last :: later ∧ earlier.length + 1 = size ∧
      rows.take size = earlier ++ [last] ∧ rows.drop size = later := by
  obtain ⟨within, isLast⟩ := List.getElem?_eq_some_iff.mp isLast
  have parts : rows = rows.take (size - 1) ++ last :: rows.drop (size - 1 + 1) := by
    rw [← isLast, ← drop_eq_getElem_cons, take_append_drop]
  have length : (rows.take (size - 1)).length + 1 = size := by
    rw [length_take]
    omega
  refine ⟨rows.take (size - 1), rows.drop size, ?_, length, ?_, rfl⟩
  · rwa [Nat.sub_add_cancel positive] at parts
  · have page : rows.take (size - 1 + 1) = rows.take (size - 1) ++ [last] := by
      rw [take_add_one, getElem?_eq_getElem within, isLast]
      rfl
    rwa [Nat.sub_add_cancel positive] at page

theorem rowsBefore_of_parts {earlier : List FunnelcakeVideoRaw}
    (descending : Descending (earlier ++ last :: later)) :
    rowsBefore (earlier ++ last :: later) last.createdAt = rowsBefore later last.createdAt := by
  obtain ⟨-, -, across⟩ := pairwise_append.mp descending
  unfold rowsBefore
  have none : earlier.filter (fun row => row.createdAt < last.createdAt) = [] :=
    filter_eq_nil_iff.mpr fun row member => by
      have newer := across row member last mem_cons_self
      simp only [decide_eq_true_eq]
      omega
  rw [filter_append, none, filter_cons_of_neg (by simp), nil_append]

theorem Descending.rowsBefore (descending : Descending rows) :
    Descending (rowsBefore rows before) :=
  descending.sublist (filter_sublist)

theorem Trails.flatten_sublist (positive : 0 < size) (descending : Descending rows)
    (trails : Trails size rows pages) : pages.flatten.Sublist rows := by
  induction trails with
  | short few =>
    rw [flatten_singleton]
  | full isLast nonzero _ ih =>
    obtain ⟨earlier, later, rfl, -, isPage, -⟩ := exists_parts positive isLast
    have older := ih descending.rowsBefore
    rw [rowsBefore_of_parts descending] at older
    rw [flatten_cons, isPage, append_assoc]
    refine Sublist.append_left ?_ _
    exact (older.trans filter_sublist).cons_cons _

theorem Separated.of_append {earlier : List FunnelcakeVideoRaw} (divides : size ∣ earlier.length)
    (separated : Separated size (earlier ++ later)) : Separated size later := by
  rintro before last after rfl isCut
  refine separated (earlier ++ before) last after (append_assoc _ _ _).symm ?_
  rw [length_append, Nat.add_assoc]
  exact Nat.dvd_add divides isCut

theorem separated_iff (positive : 0 < size) (descending : Descending rows) :
    Separated size rows ↔ ∃ pages, Trails size rows pages ∧ pages.flatten = rows := by
  constructor
  · intro separated
    induction length : rows.length using Nat.strongRecOn generalizing rows with
    | _ count ih =>
      cases isLast : rows[size - 1]? with
      | none =>
        have few : rows.length < size := by
          have beyond := getElem?_eq_none_iff.mp isLast
          omega
        exact ⟨_, .short few, flatten_singleton⟩
      | some last =>
        obtain ⟨earlier, later, rfl, isSize, isPage, -⟩ := exists_parts positive isLast
        obtain ⟨nonzero, older⟩ := separated earlier last later rfl (isSize ▸ Nat.dvd_refl _)
        have isRest : rowsBefore (earlier ++ last :: later) last.createdAt = later := by
          rw [rowsBefore_of_parts descending]
          exact filter_eq_self.mpr fun row member => decide_eq_true (older row member)
        have rest : Separated size later := by
          refine @Separated.of_append _ _ (earlier ++ [last]) ?_ ?_
          · have whole : (earlier ++ [last]).length = size := by
              rw [length_append, length_singleton]
              exact isSize
            exact whole ▸ Nat.dvd_refl _
          · rwa [append_assoc]
        have shorter : later.length < count := by
          rw [← length, length_append, length_cons]
          omega
        obtain ⟨pages, trails, all⟩ := ih _ shorter
          ((pairwise_append.mp descending).2.1.of_cons) rest rfl
        refine ⟨_, .full isLast nonzero (isRest ▸ trails), ?_⟩
        rw [flatten_cons, all, isPage, append_assoc]
        rfl
  · rintro ⟨pages, trails, all⟩
    induction trails with
    | short few =>
      rintro earlier last later rfl divides
      have far := Nat.le_of_dvd (Nat.succ_pos _) divides
      rw [length_append, length_cons] at few
      omega
    | full isLast nonzero trails ih =>
      rename_i last pages
      obtain ⟨earlier, later, rfl, isSize, isPage, -⟩ := exists_parts positive isLast
      rw [flatten_cons, isPage] at all
      have isLater : pages.flatten = later :=
        append_cancel_left (all.trans (append_cons earlier last later))
      have shown := trails.flatten_sublist positive descending.rowsBefore
      rw [rowsBefore_of_parts descending] at shown ih trails
      -- nothing behind the page is left out, so all of it is older
      have isRest : rowsBefore later last.createdAt = later :=
        filter_sublist.eq_of_length_le (isLater ▸ shown.length_le)
      have older : ∀ row ∈ later, row.createdAt < last.createdAt := fun row member =>
        of_decide_eq_true (filter_eq_self.mp isRest row member)
      rw [isRest] at ih
      have rest := ih (pairwise_append.mp descending).2.1.of_cons isLater
      rintro before cut after same divides
      rcases append_eq_append_iff.mp same with
        ⟨between, rfl, isCut⟩ | ⟨between, rfl, isLast'⟩
      · cases between with
        | nil =>
          obtain ⟨rfl, rfl⟩ := List.cons.inj isCut
          exact ⟨nonzero, older⟩
        | cons _ between =>
          obtain ⟨rfl, isLater'⟩ := List.cons.inj isCut
          refine rest between cut after isLater' ?_
          rw [length_append, length_cons] at divides
          have whole : size ∣ earlier.length + 1 := isSize ▸ Nat.dvd_refl _
          have split : earlier.length + (between.length + 1) + 1 =
              earlier.length + 1 + (between.length + 1) := by omega
          exact (Nat.dvd_add_right whole).mp (split ▸ divides)
      · cases between with
        | nil =>
          obtain ⟨rfl, rfl⟩ := List.cons.inj isLast'
          exact ⟨nonzero, older⟩
        | cons _ between =>
          have far := Nat.le_of_dvd (Nat.succ_pos _) divides
          rw [length_append, length_cons] at isSize
          omega

end Trails

/-! ### Chronological feeds -/

section Feeds

variable {server : Server} {options : Options} {pageParam : Option PageParam}
  {rows : List FunnelcakeVideoRaw} {pages : List (List FunnelcakeVideoRaw)} {count : Nat}

def timeResponse (size : Nat) (rows : List FunnelcakeVideoRaw) : FunnelcakeResponse :=
  { videos := rows.take size
    hasMore := size ≤ rows.length
    nextCursor :=
      if size ≤ rows.length then (rows.take size).getLast?.map FunnelcakeVideoRaw.createdAt
      else none }

theorem fetchPage_of_time (unwrapped : options.totalPages = 0) (cursors : options.byOffsets = false)
    (response : options.queryFn server.answer pageParam = timeResponse options.pageSize rows) :
    options.fetchPage server.answer (pageParam, count) = (rows.take options.pageSize,
      rows[options.pageSize - 1]?.map fun last =>
        (some (.cursor last.createdAt), count + 1)) := by
  have positive := options.positive
  rw [fetchPage_of_unwrapped unwrapped, response]
  unfold timeResponse
  simp only [param_of_cursors cursors]
  by_cases full : options.pageSize ≤ rows.length
  · have within : options.pageSize - 1 < rows.length := by omega
    rw [if_pos (decide_eq_true full), if_pos full, getLast?_take,
      if_neg (Nat.ne_of_gt positive), getElem?_eq_getElem within]
    rfl
  · have beyond : rows.length ≤ options.pageSize - 1 := by omega
    rw [if_neg fun few => full (of_decide_eq_true few), getElem?_eq_none beyond]
    rfl

theorem queryFn_time (cursors : options.byOffsets = false) (recent : options.sort = .recent)
    {cursor : Int} (nonzero : cursor ≠ 0) :
    options.queryFn server.answer (some (.cursor cursor)) =
      timeResponse options.pageSize (rowsBefore (options.newest server) cursor) := by
  rw [queryFn_before cursors nonzero (.inl recent)]
  rw [recent]
  rfl

theorem rows_eq_newest (cursors : options.byOffsets = false) (recent : options.sort = .recent) :
    options.rows server = options.newest server := by
  refine server.chronological options.query ?_
  unfold Options.query
  unfold Options.byOffsets at cursors
  cases feed : options.feedType with
  | profile | recommendations => simp [feed] at cursors
  | trending | recent | classics | hashtag | home => exact congrArg some recent

theorem queryFn_first (cursors : options.byOffsets = false) (recent : options.sort = .recent)
    (first : paginationParams options.sort (options.pageOptions pageParam).before
        (options.pageOptions pageParam).offset = (none, none) ∨
      paginationParams options.sort (options.pageOptions pageParam).before
        (options.pageOptions pageParam).offset = (none, some 0)) :
    options.queryFn server.answer pageParam =
      timeResponse options.pageSize (options.newest server) := by
  have enough : options.pageSize ≤ ((options.newest server).take options.pageSize).length ↔
      options.pageSize ≤ (options.newest server).length := by
    rw [length_take]
    omega
  have whole : ∀ offset : Option Int, offset = none ∨ offset = some 0 →
      server.answer ⟨options.query, options.pageSize, none, offset⟩ =
        (options.newest server).take options.pageSize := by
    rintro offset (rfl | rfl)
    · exact congrArg (take options.pageSize) (rows_eq_newest cursors recent)
    · exact congrArg (take options.pageSize) (rows_eq_newest cursors recent)
  have isParams : ∃ offset, (offset = none ∨ offset = some 0) ∧
      paginationParams options.sort (options.pageOptions pageParam).before
        (options.pageOptions pageParam).offset = (none, offset) := by
    rcases first with first | first
    · exact ⟨none, .inl rfl, first⟩
    · exact ⟨some 0, .inr rfl, first⟩
  obtain ⟨offset, isOffset, params⟩ := isParams
  rw [queryFn_of_cursors server.answer cursors]
  unfold cursorResponse timeResponse
  rw [params, pageOptions_limit]
  simp only [whole offset isOffset, enough, recent]
  rfl

theorem queryFn_initial (unwrapped : options.totalPages = 0) (cursors : options.byOffsets = false)
    (recent : options.sort = .recent) :
    options.queryFn server.answer options.initialPageParam =
      timeResponse options.pageSize (options.newest server) := by
  refine queryFn_first cursors recent ?_
  rcases paginationParams_of_readsAt cursors (readsAt_initial unwrapped) with first | ⟨first, -⟩
  · exact .inr first
  · exact .inl first

theorem queryFn_zero (cursors : options.byOffsets = false) (recent : options.sort = .recent) :
    options.queryFn server.answer (some (.cursor 0)) =
      timeResponse options.pageSize (options.newest server) := by
  refine queryFn_first cursors recent (.inl ?_)
  simp only [Options.pageOptions, if_pos, (getFetchOptions_page options).2]
  rfl

/-- The rows before the time of one of some rows are among them. -/
def Covers (options : Options) (server : Server) (rows : List FunnelcakeVideoRaw) : Prop :=
  ∀ row ∈ rows, rowsBefore (options.newest server) row.createdAt = rowsBefore rows row.createdAt

theorem Covers.rowsBefore {last : FunnelcakeVideoRaw} (covers : Covers options server rows) :
    Covers options server (rowsBefore rows last.createdAt) := by
  intro row inside
  obtain ⟨inside, older⟩ := mem_filter.mp inside
  have older : row.createdAt < last.createdAt := of_decide_eq_true older
  rw [covers row inside]
  unfold Funnelcake.rowsBefore
  rw [filter_filter]
  refine filter_congr fun other _ => ?_
  by_cases oldest : other.createdAt < row.createdAt
  · have older : other.createdAt < last.createdAt := by omega
    simp [oldest, older]
  · simp [oldest]

theorem collects_of_trails (unwrapped : options.totalPages = 0)
    (cursors : options.byOffsets = false) (recent : options.sort = .recent)
    (response : options.queryFn server.answer pageParam = timeResponse options.pageSize rows)
    (covers : Covers options server rows) (trails : Trails options.pageSize rows pages) :
    Collects (options.fetchPage server.answer) (pageParam, count) pages := by
  induction trails generalizing pageParam count with
  | short few =>
    have answer := @fetchPage_of_time server options _ _ count unwrapped cursors response
    rw [getElem?_eq_none (by omega), take_of_length_le (Nat.le_of_lt few)] at answer
    exact .last answer
  | full isLast nonzero _ ih =>
    have answer := @fetchPage_of_time server options _ _ count unwrapped cursors response
    rw [isLast] at answer
    have member := mem_of_getElem? isLast
    refine .next answer (ih ?_ covers.rowsBefore)
    rw [queryFn_time cursors recent nonzero, covers _ member]

/-- The pages of a chronological feed follow time, because a feed that starts again does not end. -/
theorem trails_of_collects (unwrapped : options.totalPages = 0)
    (cursors : options.byOffsets = false) (recent : options.sort = .recent)
    {cursor : Option PageParam × Nat} {before all : List (List FunnelcakeVideoRaw)}
    (whole : Collects (options.fetchPage server.answer) (options.initialPageParam, 0) all)
    (leads : Leads (options.fetchPage server.answer) (options.initialPageParam, 0) before cursor)
    (collects : Collects (options.fetchPage server.answer) cursor pages)
    (response : options.queryFn server.answer cursor.1 = timeResponse options.pageSize rows)
    (covers : Covers options server rows) : Trails options.pageSize rows pages := by
  have positive := options.positive
  induction collects generalizing rows before with
  | last answer =>
    have isPage := answer.symm.trans (fetchPage_of_time unwrapped cursors response)
    obtain ⟨rfl, ended⟩ := Prod.mk.inj isPage
    have beyond := getElem?_eq_none_iff.mp (Option.map_eq_none_iff.mp ended.symm)
    rw [take_of_length_le (by omega)]
    exact .short (by omega)
  | next answer _ ih =>
    have isPage := answer.symm.trans (fetchPage_of_time unwrapped cursors response)
    obtain ⟨rfl, continues⟩ := Prod.mk.inj isPage
    obtain ⟨last, isLast, rfl⟩ := Option.map_eq_some_iff.mp continues.symm
    have member := mem_of_getElem? isLast
    have further := leads.snoc answer
    by_cases zero : last.createdAt = 0
    · rw [zero] at further
      refine absurd whole (further.not_collects (append_ne_nil_of_right_ne_nil _
        (cons_ne_nil _ _)) fun rest remains => ?_)
      exact collects_of_unwrapped unwrapped
        ((queryFn_zero cursors recent).trans
          (queryFn_initial unwrapped cursors recent).symm) remains
    · refine .full isLast zero (ih further ?_ covers.rowsBefore)
      rw [queryFn_time cursors recent zero, covers _ member]

theorem collects_iff_trails (unwrapped : options.totalPages = 0)
    (cursors : options.byOffsets = false) (recent : options.sort = .recent) :
    Collects (options.fetchPage server.answer) (options.initialPageParam, 0) pages ↔
      Trails options.pageSize (options.newest server) pages := by
  have response := @queryFn_initial server options unwrapped cursors recent
  have covers : Covers options server (options.newest server) := fun _ _ => rfl
  constructor
  · intro collects
    exact trails_of_collects unwrapped cursors recent collects (.here _) collects response covers
  · exact collects_of_trails unwrapped cursors recent response covers

/-- A chronological feed is separated at the ends of its pages, or has less than a page and only
ends. -/
def ChronologicalCondition (options : Options) (content : Content) : Prop :=
  if options.randomizeWithinTop = 0 then Separated options.pageSize content.newest
  else Ends options.pageSize content.newest

theorem showsOnce_iff_chronological (unwrapped : options.totalPages = 0)
    (cursors : options.byOffsets = false) (recent : options.sort = .recent) :
    options.ShowsOnce server ↔
      ChronologicalCondition options (server.content options.query) := by
  have positive := options.positive
  have same : (server.content options.query).rows = options.newest server :=
    rows_eq_newest cursors recent
  have descending : Descending (options.newest server) := (server.content options.query).descending
  have shows : options.ShowsOnce server ↔ ∃ pages,
      Trails options.pageSize (options.newest server) pages ∧
        (options.pool (server.content options.query)).Subperm pages.flatten := by
    refine exists_congr fun pages => ?_
    rw [collects_iff_trails unwrapped cursors recent, same]
    exact ⟨fun ⟨trails, shown, _⟩ => ⟨trails, shown⟩, fun ⟨trails, shown⟩ =>
      ⟨trails, shown, (trails.flatten_sublist positive descending).subperm⟩⟩
  rw [shows]
  unfold ChronologicalCondition Options.pool
  by_cases plain : options.randomizeWithinTop = 0
  · rw [if_neg (not_not.mpr plain), if_pos plain, same]
    refine Iff.trans (exists_congr fun pages => and_congr_right fun trails => ?_)
      (separated_iff positive descending).symm
    have sublist := trails.flatten_sublist positive descending
    constructor
    · exact fun shown => sublist.eq_of_length_le shown.length_le
    · exact fun all => all ▸ List.Subperm.refl _
  · rw [if_pos plain, if_neg plain, same]
    refine Iff.trans (exists_congr fun pages => and_iff_left_of_imp fun trails => ?_)
      ends_iff.symm
    have small : options.randomizeWithinTop ≤ options.pageSize := by
      by_contra large
      have some := Nat.div_pos (Nat.le_of_lt (Nat.lt_of_not_le large)) positive
      exact Nat.ne_of_gt some unwrapped
    have top : ((options.newest server).take options.randomizeWithinTop).Sublist
        ((options.newest server).take options.pageSize) :=
      take_sublist_take_left small
    refine Sublist.subperm ?_
    cases trails with
    | short few =>
      rw [flatten_singleton]
      exact take_sublist _ _
    | full isLast nonzero trails =>
      exact top.trans (sublist_append_left _ _)

end Feeds

end Divine.Funnelcake
