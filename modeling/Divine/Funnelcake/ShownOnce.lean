/-
This file proves when an infinite feed shows every video once.
-/

import Divine.Funnelcake.Chronological
import Divine.Funnelcake.RandomPool

namespace Divine.Funnelcake

open List Paging

variable {server : Server} {options : Options}

/-! ### Offsets -/

theorem showsOnce_of_all {pages : List (List FunnelcakeVideoRaw)}
    (collects : Collects (options.fetchPage server.answer) (options.initialPageParam, 0) pages)
    (all : pages.flatten = options.rows server) : options.ShowsOnce server := by
  refine ⟨pages, collects, ?_, ?_⟩
  · rw [all]
    unfold Options.pool
    split
    · exact (take_sublist _ _).subperm
    · exact List.Subperm.refl _
  · rw [all]
    exact List.Subperm.refl _

theorem showsOnce_of_byOffsets (unwrapped : options.totalPages = 0)
    (byOffsets : options.byOffsets = true) : options.ShowsOnce server := by
  obtain ⟨pages, collects, all⟩ := @collects_slices _ _ (options.rows server) options.pageSize
    (options.fetchPage server.answer) options.cursorAt options.positive
    fun index _ => fetchPage_cursorAt unwrapped (.inl byOffsets)
  exact showsOnce_of_all collects all

/-! ### Sorted feeds -/

section Sorted

variable {index : Nat}

def Options.offsetPages (options : Options) : Nat :=
  (1000000000 + options.pageSize - 1) / options.pageSize

def Options.reach (options : Options) : Nat := options.offsetPages * options.pageSize

/-- A sorted feed ends before its offsets are taken for a time, or what is before that time is less
than a page and new. -/
def SortedCondition (options : Options) (content : Content) : Prop :=
  content.rows.length < options.reach ∨
    (rowsBefore content.newest options.reach).length < options.pageSize ∧
      (options.pool content).Subperm
        (content.rows.take options.reach ++ rowsBefore content.newest options.reach) ∧
      (rowsBefore content.newest options.reach).Subperm (content.rows.drop options.reach)

theorem offsetPages_pos (options : Options) : 0 < options.offsetPages := by
  have positive := options.positive
  exact Nat.div_pos (by omega) positive

theorem le_reach (options : Options) : 1000000000 ≤ options.reach := by
  have positive := options.positive
  have above := Nat.lt_mul_div_succ (1000000000 + options.pageSize - 1) positive
  unfold Options.reach Options.offsetPages
  rw [Nat.mul_succ, Nat.mul_comm] at above
  omega

theorem offset_lt_of_lt (below : index < options.offsetPages) :
    (↑(index * options.pageSize) : Int) < offsetLimit := by
  have bound : options.offsetPages * options.pageSize ≤ 1000000000 + options.pageSize - 1 :=
    Nat.div_mul_le_self _ _
  have next : (index + 1) * options.pageSize ≤ options.offsetPages * options.pageSize :=
    Nat.mul_le_mul_right _ below
  rw [Nat.succ_mul] at next
  unfold offsetLimit
  omega

theorem leads_reach (unwrapped : options.totalPages = 0) (sorted : options.sort ≠ .recent)
    (long : options.reach ≤ (options.rows server).length) (first : index ≤ options.offsetPages) :
    Leads (options.fetchPage server.answer) (options.cursorAt index)
      ((List.range (options.offsetPages - index)).map fun further =>
        slice (options.rows server) ((index + further) * options.pageSize) options.pageSize)
      (options.cursorAt options.offsetPages) := by
  have steps : ∀ further < options.offsetPages - index,
      options.fetchPage server.answer (options.cursorAt (index + further)) =
        (slice (options.rows server) ((index + further) * options.pageSize) options.pageSize,
          some (options.cursorAt (index + (further + 1)))) := by
    intro further below
    have full : (index + further + 1) * options.pageSize ≤ (options.rows server).length :=
      Nat.le_trans (Nat.mul_le_mul_right _ (by omega)) long
    rw [fetchPage_cursorAt unwrapped (.inr ⟨sorted, offset_lt_of_lt (by omega)⟩), if_pos full]
    rfl
  have leads := @Leads.of_steps _ _ _ (fun further => options.cursorAt (index + further)) _ _ steps
  rwa [Nat.add_zero, Nat.add_sub_cancel' first] at leads

theorem fetchPage_reach (unwrapped : options.totalPages = 0) (cursors : options.byOffsets = false)
    (sorted : options.sort ≠ .recent) :
    options.fetchPage server.answer (options.cursorAt options.offsetPages) =
      ((rowsBefore (options.newest server) options.reach).take options.pageSize,
        if options.pageSize ≤ (rowsBefore (options.newest server) options.reach).length then
          some (some (.cursor ↑options.pageSize), options.offsetPages + 1)
        else none) := by
  have large := le_reach options
  have nonzero : (↑options.reach : Int) ≠ 0 := by omega
  have isTime : offsetLimit ≤ ↑options.reach := by
    unfold offsetLimit
    omega
  have isCursor : options.cursorAt options.offsetPages =
      (some (.cursor ↑options.reach), options.offsetPages) := by
    unfold Options.cursorAt
    rw [if_neg (Nat.ne_of_gt (offsetPages_pos options)), param_of_cursors cursors]
    rfl
  rw [isCursor, fetchPage_of_unwrapped unwrapped,
    queryFn_before cursors nonzero (.inr isTime)]
  simp only [param_of_cursors cursors, if_pos sorted]
  split
  · rename_i full
    rw [if_pos (of_decide_eq_true full), if_pos (of_decide_eq_true full)]
    rfl
  · rename_i short
    rw [if_neg fun full => short (decide_eq_true full)]

theorem showsOnce_iff_sorted (unwrapped : options.totalPages = 0)
    (cursors : options.byOffsets = false) (sorted : options.sort ≠ .recent) :
    options.ShowsOnce server ↔ SortedCondition options (server.content options.query) := by
  by_cases short : (options.rows server).length < options.reach
  · refine iff_of_true ?_ (.inl short)
    obtain ⟨pages, collects, all⟩ := @collects_slices _ _ (options.rows server) options.pageSize
      (options.fetchPage server.answer) options.cursorAt options.positive fun index within => by
        have below : index < options.offsetPages := by
          by_contra beyond
          have far := Nat.mul_le_mul_right options.pageSize (Nat.le_of_not_lt beyond)
          exact Nat.lt_irrefl _ (Nat.lt_of_lt_of_le short (Nat.le_trans far within))
        exact fetchPage_cursorAt unwrapped (.inr ⟨sorted, offset_lt_of_lt below⟩)
    exact showsOnce_of_all collects all
  · have long := Nat.le_of_not_lt short
    have leads := leads_reach unwrapped sorted long (Nat.zero_le _)
    have answer := @fetchPage_reach server options unwrapped cursors sorted
    by_cases full : options.pageSize ≤
        (rowsBefore (options.newest server) options.reach).length
    · -- the page before that time is full, and the feed goes on with its second page
      rw [if_pos full] at answer
      refine iff_of_false ?_ fun condition => ?_
      · rintro ⟨pages, collects, -⟩
        have second := leads_reach unwrapped sorted long (offsetPages_pos options)
        have isSecond : options.cursorAt 1 = (some (.cursor ↑options.pageSize), 1) := by
          unfold Options.cursorAt
          rw [if_neg Nat.one_ne_zero, param_of_cursors cursors, Nat.one_mul]
        obtain ⟨rest, -, remains⟩ := leads.collects_iff.mp collects
        obtain ⟨rest, -, again⟩ := (collects_of_next answer).mp remains
        refine (second.snoc answer).not_collects (append_ne_nil_of_right_ne_nil _
          (cons_ne_nil _ _)) (fun others collected => ?_)
          (isSecond ▸ collects_of_unwrapped unwrapped rfl again)
        rw [isSecond]
        exact collects_of_unwrapped unwrapped rfl collected
      · rcases condition with few | ⟨few, -⟩
        · exact short few
        · exact absurd full (Nat.not_le_of_lt few)
    · rw [if_neg full] at answer
      have few := Nat.lt_of_not_le full
      have slices := flatten_slices (options.rows server) 0 options.pageSize options.offsetPages
      have flatten : ((range (options.offsetPages - 0)).map fun further =>
          slice (options.rows server) ((0 + further) * options.pageSize) options.pageSize).flatten =
            (options.rows server).take options.reach := by
        simpa only [Nat.sub_zero, Nat.zero_add, slice, drop_zero, Options.reach] using slices
      have once : ∀ before : List FunnelcakeVideoRaw,
          ((options.rows server).take options.reach ++ before).Subperm (options.rows server) ↔
            before.Subperm ((options.rows server).drop options.reach) := by
        intro before
        have parts := take_append_drop options.reach (options.rows server)
        refine Iff.trans ?_ (subperm_append_left ((options.rows server).take options.reach))
        rw [parts]
      constructor
      · rintro ⟨pages, collects, shown, unrepeated⟩
        obtain ⟨rest, rfl, remains⟩ := leads.collects_iff.mp collects
        obtain rfl := (collects_of_last answer).mp remains
        rw [flatten_append, flatten, flatten_singleton,
          take_of_length_le (Nat.le_of_lt few)] at shown unrepeated
        exact .inr ⟨few, shown, (once _).mp unrepeated⟩
      · rintro (low | ⟨-, shown, unrepeated⟩)
        · exact absurd low short
        · refine ⟨_, leads.collects_iff.mpr ⟨_, rfl, .last answer⟩, ?_⟩
          rw [flatten_append, flatten, flatten_singleton,
            take_of_length_le (Nat.le_of_lt few)]
          exact ⟨shown, (once _).mpr unrepeated⟩

end Sorted

/-! ### All feeds -/

def Condition (options : Options) (content : Content) : Prop :=
  if 0 < options.totalPages then PoolCondition options content
  else if options.byOffsets = true then True
  else if options.sort = .recent then ChronologicalCondition options content
  else SortedCondition options content

/-- An infinite feed shows every video once exactly when its content meets the condition. -/
theorem showsOnce_iff (options : Options) (server : Server) :
    options.ShowsOnce server ↔ Condition options (server.content options.query) := by
  unfold Condition
  by_cases paged : 0 < options.totalPages
  · rw [if_pos paged]
    exact showsOnce_iff_pool paged
  · have unwrapped : options.totalPages = 0 := Nat.eq_zero_of_not_pos paged
    rw [if_neg paged]
    cases cursors : options.byOffsets with
    | true => exact iff_of_true (showsOnce_of_byOffsets unwrapped cursors) trivial
    | false =>
      by_cases recent : options.sort = .recent
      · rw [if_pos recent]
        exact showsOnce_iff_chronological unwrapped cursors recent
      · rw [if_neg recent]
        exact showsOnce_iff_sorted unwrapped cursors recent

section Losses

def tiedServer : Server where
  content _ :=
    { rows := [⟨"a", "alice", 5, "1"⟩, ⟨"b", "alice", 5, "2"⟩, ⟨"c", "alice", 5, "3"⟩]
      newest := [⟨"a", "alice", 5, "1"⟩, ⟨"b", "alice", 5, "2"⟩, ⟨"c", "alice", 5, "3"⟩]
      perm := List.Perm.refl _
      descending := by decide }
  chronological _ _ := rfl

def pairs (feedType : FeedType) (top : Nat) : Options where
  feedType := feedType
  sortMode := none
  pageSize := 2
  positive := by decide
  randomizeWithinTop := top
  randomStartPage := 0
  drawn := .inl rfl

/-- The third video of the same time is lost from the recent feed, and from a pool of three on two
pages. -/
theorem loses_third : ¬ (pairs .recent 0).ShowsOnce tiedServer ∧
    ¬ (pairs .trending 3).ShowsOnce tiedServer := by
  constructor
  · rintro ⟨pages, collects, shown, -⟩
    obtain ⟨rest, rfl, remains⟩ := (@collects_of_next _ _ _ _ (some (.cursor 5), 1)
      [⟨"a", "alice", 5, "1"⟩, ⟨"b", "alice", 5, "2"⟩] _ rfl).mp collects
    obtain rfl := (@collects_of_last _ _ _ _ [] _ rfl).mp remains
    exact absurd shown.length_le (by decide)
  · rintro ⟨pages, collects, shown, -⟩
    obtain rfl := (@collects_of_last _ _ _ _ [⟨"a", "alice", 5, "1"⟩, ⟨"b", "alice", 5, "2"⟩] _
      rfl).mp collects
    exact absurd shown.length_le (by decide)

end Losses

end Divine.Funnelcake
