/-
This file proves when a randomized feed covers its pool.
-/

import Divine.Funnelcake.Cursors

namespace Divine.Funnelcake

open List Paging

section

variable {server : Server} {options : Options} {index : Nat}

def Options.wrapped (options : Options) (index : Nat) : Nat :=
  (options.randomStartOffset + index * options.pageSize) % options.randomizeWithinTop

theorem totalPages_mul_le (options : Options) :
    options.totalPages * options.pageSize ≤ options.randomizeWithinTop := Nat.div_mul_le_self _ _

theorem lt_totalPages_mul (options : Options) :
    options.randomizeWithinTop < options.totalPages * options.pageSize + options.pageSize := by
  have above := Nat.lt_mul_div_succ options.randomizeWithinTop options.positive
  rwa [Nat.mul_succ, Nat.mul_comm] at above

theorem start_add_le (paged : 0 < options.totalPages) :
    options.randomStartOffset + options.pageSize ≤ options.totalPages * options.pageSize := by
  have below : options.randomStartPage + 1 ≤ options.totalPages := by
    rcases options.drawn with first | below
    · omega
    · exact below
  have bound := Nat.mul_le_mul_right options.pageSize below
  rwa [Nat.succ_mul] at bound

theorem index_mul_add_le (below : index < options.totalPages) :
    index * options.pageSize + options.pageSize ≤ options.totalPages * options.pageSize := by
  rw [← Nat.succ_mul]
  exact Nat.mul_le_mul_right options.pageSize below

theorem wrapped_of_lt
    (within : options.randomStartOffset + index * options.pageSize < options.randomizeWithinTop) :
    options.wrapped index = options.randomStartOffset + index * options.pageSize :=
  Nat.mod_eq_of_lt within

theorem wrapped_of_le (below : index < options.totalPages)
    (beyond : options.randomizeWithinTop ≤ options.randomStartOffset + index * options.pageSize) :
    options.wrapped index =
      options.randomStartOffset + index * options.pageSize - options.randomizeWithinTop := by
  have start := start_add_le (Nat.zero_lt_of_lt below)
  have step := index_mul_add_le below
  have whole := totalPages_mul_le options
  have positive := options.positive
  unfold Options.wrapped
  rw [Nat.mod_eq_sub_mod beyond, Nat.mod_eq_of_lt (by omega)]

theorem collects_iff_wrapped (paged : 0 < options.totalPages)
    {pages : List (List FunnelcakeVideoRaw)} :
    Collects (options.fetchPage server.answer) (options.initialPageParam, 0) pages ↔
      pages = (List.range options.totalPages).map fun index =>
        slice (options.rows server) (options.wrapped index) options.pageSize := by
  have positive := options.positive
  have whole := totalPages_mul_le options
  have start := start_add_le paged
  have randomized : options.randomizeWithinTop ≠ 0 := by omega
  have answer : ∀ index, options.fetchPage server.answer
      (some (.offset ↑(options.wrapped index)), index) =
        (slice (options.rows server) (options.wrapped index) options.pageSize,
          if options.totalPages ≤ index + 1 then none
          else some (some (.offset ↑(options.wrapped (index + 1))), index + 1)) := by
    intro index
    have reads : options.ReadsAt (options.wrapped index)
        (some (.offset ↑(options.wrapped index))) := ⟨rfl, .inl randomized⟩
    unfold Options.fetchPage Options.getNextPageParam
    simp only [if_pos (And.intro randomized paged),
      (@queryFn_respondsAt server _ _ _ reads).videos]
    split <;> rfl
  have initial : options.initialPageParam = some (.offset ↑(options.wrapped 0)) := by
    unfold Options.initialPageParam
    rw [if_pos randomized, wrapped_of_lt (by omega), Nat.zero_mul, Nat.add_zero]
  obtain ⟨last, isLast⟩ : ∃ last, options.totalPages = last + 1 :=
    ⟨options.totalPages - 1, by omega⟩
  have leads := @Leads.of_steps _ _ (options.fetchPage server.answer)
    (fun index => (some (.offset ↑(options.wrapped index)), index))
    (fun index => slice (options.rows server) (options.wrapped index) options.pageSize) last
    fun index below => by
      rw [answer index, if_neg (by omega)]
  have final := answer last
  rw [if_pos (by omega)] at final
  rw [initial, leads.collects_iff, isLast, range_succ, map_append]
  constructor
  · rintro ⟨rest, rfl, collects⟩
    rw [(collects_of_last final).mp collects]
    rfl
  · rintro rfl
    exact ⟨_, rfl, .last final⟩

theorem flatten_wrapped {count : Nat} (within : count ≤ options.totalPages)
    (below : ∀ index < count,
      options.randomStartOffset + index * options.pageSize < options.randomizeWithinTop)
    (beyond : ∀ index < options.totalPages, count ≤ index →
      options.randomizeWithinTop ≤ options.randomStartOffset + index * options.pageSize) :
    ((List.range options.totalPages).map fun index =>
        slice (options.rows server) (options.wrapped index) options.pageSize).flatten =
      slice (options.rows server) options.randomStartOffset (count * options.pageSize) ++
        slice (options.rows server)
          (options.randomStartOffset + count * options.pageSize - options.randomizeWithinTop)
          ((options.totalPages - count) * options.pageSize) := by
  have split : range options.totalPages =
      range count ++ (range (options.totalPages - count)).map (count + ·) := by
    rw [← range_add, Nat.add_sub_cancel' within]
  rw [split, map_append, flatten_append, ← flatten_slices, ← flatten_slices,
    map_map]
  congr 2
  · refine map_congr_left fun index member => ?_
    rw [wrapped_of_lt (below index (mem_range.mp member))]
  · refine map_congr_left fun index member => ?_
    have further := mem_range.mp member
    have last := beyond (count + index) (by omega) (Nat.le_add_right _ _)
    have first := beyond count (by omega) (Nat.le_refl _)
    show slice _ (options.wrapped (count + index)) _ = _
    rw [wrapped_of_le (by omega) last, Nat.add_mul]
    congr 1
    omega

def Options.fetched (options : Options) (server : Server) : List FunnelcakeVideoRaw :=
  ((List.range options.totalPages).map fun index =>
    slice (options.rows server) (options.wrapped index) options.pageSize).flatten

theorem fetched_perm (paged : 0 < options.totalPages)
    (whole : options.pageSize ∣ options.randomizeWithinTop) :
    (options.fetched server).Perm
      ((options.rows server).take options.randomizeWithinTop) := by
  have isTop : options.totalPages * options.pageSize = options.randomizeWithinTop :=
    Nat.div_mul_cancel whole
  have start := start_add_le paged
  have positive := options.positive
  have drawn : options.randomStartPage ≤ options.totalPages := by
    rcases options.drawn with first | below
    · omega
    · exact Nat.le_of_lt below
  have rest : (options.totalPages - options.randomStartPage) * options.pageSize =
      options.randomizeWithinTop - options.randomStartOffset := by
    rw [Nat.sub_mul, isTop]
    rfl
  have back : (options.totalPages - (options.totalPages - options.randomStartPage)) *
      options.pageSize = options.randomStartOffset := by
    rw [Nat.sub_sub_self drawn]
    rfl
  have flatten := @flatten_wrapped server options
    (options.totalPages - options.randomStartPage) (Nat.sub_le _ _)
    (fun index below => by
      have step := Nat.mul_le_mul_right options.pageSize below
      rw [Nat.succ_mul, rest] at step
      omega)
    (fun index _ beyond => by
      have step := Nat.mul_le_mul_right options.pageSize beyond
      omega)
  have wrap : options.randomStartOffset + (options.randomizeWithinTop - options.randomStartOffset) -
      options.randomizeWithinTop = 0 := by omega
  rw [rest, back, wrap] at flatten
  show (List.flatten _).Perm _
  rw [flatten]
  refine perm_append_comm.trans (Perm.of_eq ?_)
  have parts := @List.take_add _ (options.rows server) options.randomStartOffset
    (options.randomizeWithinTop - options.randomStartOffset)
  rw [Nat.add_sub_cancel' (by omega)] at parts
  exact parts.symm

theorem fetched_of_first (first : options.randomStartPage = 0) :
    options.fetched server =
      (options.rows server).take (options.totalPages * options.pageSize) := by
  have whole := totalPages_mul_le options
  have positive := options.positive
  have start : options.randomStartOffset = 0 := by
    unfold Options.randomStartOffset
    rw [first, Nat.zero_mul]
  have flatten := @flatten_wrapped server options options.totalPages (Nat.le_refl _)
    (fun index below => by
      have step := index_mul_add_le below
      omega)
    (fun index below beyond => absurd below (Nat.not_lt_of_le beyond))
  show List.flatten _ = _
  rw [flatten, start, Nat.sub_self, Nat.zero_mul]
  unfold slice
  rw [take_zero, append_nil, drop_zero]

theorem length_fetched_lt (paged : 0 < options.totalPages)
    (uneven : ¬ options.pageSize ∣ options.randomizeWithinTop)
    (later : options.randomStartPage ≠ 0) (nonempty : options.rows server ≠ []) :
    (options.fetched server).length <
      ((options.rows server).take options.randomizeWithinTop).length := by
  have whole := totalPages_mul_le options
  have beyond := lt_totalPages_mul options
  have start := start_add_le paged
  have drawn : options.randomStartPage < options.totalPages :=
    options.drawn.resolve_left later
  have notWhole : options.totalPages * options.pageSize ≠ options.randomizeWithinTop :=
    fun same => uneven ⟨options.totalPages, by rw [Nat.mul_comm]; exact same.symm⟩
  have some : 0 < (options.rows server).length := length_pos_of_ne_nil nonempty
  have rest : (options.totalPages - options.randomStartPage + 1) * options.pageSize =
      options.totalPages * options.pageSize - options.randomStartOffset + options.pageSize := by
    rw [Nat.succ_mul, Nat.sub_mul]
    rfl
  have back : (options.totalPages - (options.totalPages - options.randomStartPage + 1)) *
      options.pageSize = options.randomStartOffset - options.pageSize := by
    have count : options.totalPages - (options.totalPages - options.randomStartPage + 1) =
        options.randomStartPage - 1 := by omega
    rw [count, Nat.sub_mul, Nat.one_mul]
    rfl
  have page : options.pageSize ≤ options.randomStartOffset := by
    have first := Nat.mul_le_mul_right options.pageSize (Nat.pos_of_ne_zero later)
    rwa [Nat.one_mul] at first
  have flatten := @flatten_wrapped server options
    (options.totalPages - options.randomStartPage + 1) (by omega)
    (fun index below => by
      have step := Nat.mul_le_mul_right options.pageSize below
      rw [Nat.succ_mul, rest] at step
      omega)
    (fun index _ beyond => by
      have step := Nat.mul_le_mul_right options.pageSize beyond
      omega)
  show (List.flatten _).length < _
  rw [flatten, length_append, length_slice, length_slice, length_take, back, rest]
  clear flatten back rest
  omega

/-- A randomized feed is empty, or its pool has whole pages, or it starts and ends with the pages.
-/
def PoolCondition (options : Options) (content : Content) : Prop :=
  content.rows = [] ∨ options.pageSize ∣ options.randomizeWithinTop ∨
    options.randomStartPage = 0 ∧
      content.rows.length ≤ options.totalPages * options.pageSize

theorem showsOnce_iff_pool (paged : 0 < options.totalPages) :
    options.ShowsOnce server ↔ PoolCondition options (server.content options.query) := by
  have whole := totalPages_mul_le options
  have beyond := lt_totalPages_mul options
  have start := start_add_le paged
  have randomized : options.randomizeWithinTop ≠ 0 := by omega
  have shows : options.ShowsOnce server ↔
      ((options.rows server).take options.randomizeWithinTop).Subperm (options.fetched server) ∧
        (options.fetched server).Subperm (options.rows server) := by
    unfold Options.ShowsOnce Options.pool
    simp only [collects_iff_wrapped paged, exists_eq_left, if_pos randomized]
    rfl
  have small := take_sublist options.randomizeWithinTop (options.rows server)
  rw [shows]
  constructor
  · rintro ⟨shown, -⟩
    by_contra fails
    obtain ⟨nonempty, notWhole, long⟩ := not_or.mp fails |>.imp_right not_or.mp
    have few := shown.length_le
    by_cases first : options.randomStartPage = 0
    · have large : options.totalPages * options.pageSize < (options.rows server).length :=
        Nat.lt_of_not_le fun short => long ⟨first, short⟩
      have notTop : options.totalPages * options.pageSize ≠ options.randomizeWithinTop :=
        fun same => notWhole ⟨options.totalPages, by rw [Nat.mul_comm]; exact same.symm⟩
      rw [fetched_of_first first, length_take, length_take] at few
      omega
    · have missing := length_fetched_lt paged notWhole first nonempty
      omega
  · rintro (none | whole | ⟨first, short⟩)
    · have none : options.rows server = [] := none
      have nothing : options.fetched server = [] := by
        unfold Options.fetched slice
        rw [none]
        simp
      rw [none, nothing, take_nil]
      exact ⟨List.Subperm.refl _, List.Subperm.refl _⟩
    · have perm := @fetched_perm server options paged whole
      exact ⟨perm.symm.subperm, perm.subperm.trans small.subperm⟩
    · have short : (options.rows server).length ≤ options.totalPages * options.pageSize := short
      rw [fetched_of_first first, take_of_length_le short]
      exact ⟨small.subperm, List.Subperm.refl _⟩

end

end Divine.Funnelcake
