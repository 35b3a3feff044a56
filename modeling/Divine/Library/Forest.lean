/-
This file develops forests that are given by a link from each item to its parent, and
their listing in which every item is followed by what is below it.
-/

import Mathlib.Data.Set.Finite.List
import Mathlib.Data.Fintype.Order

namespace Divine.Forest

variable {Item : Type*}

/-- Items with links to their parents, and the items of each parent in the order they are listed in.
-/
structure Links (Item : Type*) where
  items : List Item
  parent : Item → Option Item
  roots : List Item
  children : Item → List Item
  mem_roots : ∀ item, item ∈ roots ↔ item ∈ items ∧ parent item = none
  mem_children : ∀ item ∈ items, ∀ child,
    child ∈ children item ↔ child ∈ items ∧ parent child = some item
  parent_mem : ∀ child ∈ items, ∀ item, parent child = some item → item ∈ items
  nodup_roots : roots.Nodup
  nodup_children : ∀ item, (children item).Nodup

variable (links : Links Item)

/-! ### Ancestors -/

inductive Ancestors : Item → List Item → Prop
  | root {item : Item} : item ∈ links.items → links.parent item = none → Ancestors item []
  | child {child item : Item} {above : List Item} : child ∈ links.items →
      links.parent child = some item → Ancestors item above → Ancestors child (item :: above)

variable {links} {item other : Item} {above more : List Item}

namespace Ancestors

theorem mem (ancestors : Ancestors links item above) : item ∈ links.items := by
  cases ancestors with
  | root member _ => exact member
  | child member _ _ => exact member

theorem subset (ancestors : Ancestors links item above) : above ⊆ links.items := by
  induction ancestors with
  | root _ _ => exact List.nil_subset _
  | child _ _ above ih => exact List.cons_subset.mpr ⟨above.mem, ih⟩

theorem unique (first : Ancestors links item above) (second : Ancestors links item more) :
    above = more := by
  induction first generalizing more with
  | root _ parentless =>
    cases second with
    | root _ _ => rfl
    | child _ linked _ => cases parentless.symm.trans linked
  | child _ linked _ ih =>
    cases second with
    | root _ parentless => cases linked.symm.trans parentless
    | child _ alsoLinked rest =>
      cases linked.symm.trans alsoLinked
      rw [ih rest]

section

variable (ancestors : Ancestors links item above)

include ancestors

theorem of_suffix (suffix : other :: more <:+ item :: above) : Ancestors links other more := by
  induction ancestors with
  | root member parentless =>
    obtain ⟨rfl, rfl⟩ := List.cons.inj (suffix.eq_of_length_le (by simp))
    exact .root member parentless
  | child member linked rest ih =>
    rcases List.suffix_cons_iff.mp suffix with same | inside
    · obtain ⟨rfl, rfl⟩ := List.cons.inj same
      exact .child member linked rest
    · exact ih inside

theorem not_mem_self : item ∉ above := by
  intro member
  obtain ⟨before, after, rfl⟩ := List.append_of_mem member
  have own : Ancestors links item after :=
    ancestors.of_suffix ⟨item :: before, List.cons_append⟩
  have lengths := congrArg List.length (ancestors.unique own)
  rw [List.length_append, List.length_cons] at lengths
  omega

theorem nodup : (item :: above).Nodup := by
  induction ancestors with
  | root member parentless => exact List.nodup_singleton _
  | child member linked rest ih =>
    exact List.nodup_cons.mpr ⟨(child member linked rest).not_mem_self, ih⟩

theorem length_lt :
    above.length < links.items.length :=
  (ancestors.nodup.subperm (List.cons_subset.mpr ⟨ancestors.mem, ancestors.subset⟩)).length_le

end

end Ancestors

/-! ### Forests without cycles -/

def Acyclic (links : Links Item) : Prop :=
  ∀ item ∈ links.items,
    ¬ Relation.TransGen (fun child item => links.parent child = some item) item item

theorem exists_ancestors (acyclic : Acyclic links) (member : item ∈ links.items) :
    ∃ above, Ancestors links item above := by
  let up (parent child : { item // item ∈ links.items }) : Prop :=
    links.parent child.val = some parent.val
  have finite : Finite { item // item ∈ links.items } := links.items.finite_toSet.to_subtype
  have lifted {first second : { item // item ∈ links.items }}
      (linked : Relation.TransGen up first second) :
      Relation.TransGen (fun child item => links.parent child = some item)
        second.val first.val := by
    induction linked with
    | single link => exact .single link
    | tail _ link ih => exact .head link ih
  have irreflexive : Std.Irrefl (Relation.TransGen up) :=
    ⟨fun own cycle => acyclic own.val own.property (lifted cycle)⟩
  have wellFounded : WellFounded up :=
    Subrelation.wf Relation.TransGen.single
      (Finite.wellFounded_of_trans_of_irrefl (Relation.TransGen up))
  suffices ∀ own : { item // item ∈ links.items }, ∃ above, Ancestors links own.val above from
    this ⟨item, member⟩
  intro own
  induction own using wellFounded.induction with
  | _ own ih =>
    cases linked : links.parent own.val with
    | none => exact ⟨[], .root own.property linked⟩
    | some parent =>
      obtain ⟨above, ancestors⟩ := ih
        ⟨parent, links.parent_mem _ own.property _ linked⟩ linked
      exact ⟨parent :: above, .child own.property linked ancestors⟩

/-! ### Listings -/

/-- The listing of some items of a depth, each followed by what is below it. -/
inductive Listed (children : Item → List Item) : Nat → List Item → List (Item × Nat) → Prop
  | nil {depth : Nat} : Listed children depth [] []
  | cons {depth : Nat} {item : Item} {rest : List Item} {below after : List (Item × Nat)} :
      Listed children (depth + 1) (children item) below → Listed children depth rest after →
        Listed children depth (item :: rest) ((item, depth) :: (below ++ after))

namespace Listed

variable {children : Item → List Item} {depth : Nat} {siblings : List Item}
  {listing : List (Item × Nat)}

section

variable (listed : Listed children depth siblings listing)

include listed

theorem sublist :
    (siblings.map fun item => (item, depth)).Sublist listing := by
  induction listed with
  | nil => exact .refl _
  | cons _ _ _ ih =>
    exact .cons_cons _ (ih.trans (List.sublist_append_right _ _))

theorem le_depth :
    ∀ entry ∈ listing, depth ≤ entry.2 := by
  induction listed with
  | nil => exact nofun
  | cons _ _ below after =>
    intro entry member
    rcases List.mem_cons.mp member with rfl | member
    · exact Nat.le_refl _
    · rcases List.mem_append.mp member with inside | behind
      · exact Nat.le_of_succ_le (below entry inside)
      · exact after entry behind

theorem children_sublist :
    ∀ entry ∈ listing,
      ((children entry.1).map fun child => (child, entry.2 + 1)).Sublist listing := by
  induction listed with
  | nil => exact nofun
  | @cons depth item rest below behind first second inBelow inBehind =>
    intro entry member
    rcases List.mem_cons.mp member with rfl | member
    · exact (first.sublist.trans (List.sublist_append_left below behind)).cons _
    · rcases List.mem_append.mp member with inside | after
      · exact ((inBelow entry inside).trans (List.sublist_append_left below behind)).cons _
      · exact ((inBehind entry after).trans (List.sublist_append_right below behind)).cons _

theorem nested :
    ∀ entry ∈ listing, ∀ child ∈ children entry.1, ∃ before between after,
      listing = before ++ entry :: (between ++ (child, entry.2 + 1) :: after) ∧
        ∀ other ∈ between, entry.2 < other.2 := by
  induction listed with
  | nil => exact nofun
  | @cons depth item rest below behind first second inBelow inBehind =>
    intro entry member child isChild
    rcases List.mem_cons.mp member with rfl | member
    · have present : (child, depth + 1) ∈ below :=
        first.sublist.subset (List.mem_map_of_mem isChild)
      obtain ⟨between, after, rfl⟩ := List.append_of_mem present
      refine ⟨[], between, after ++ behind, by simp, fun other inside => ?_⟩
      exact first.le_depth other (List.mem_append_left _ inside)
    · rcases List.mem_append.mp member with inside | later
      · obtain ⟨before, between, after, rfl, deeper⟩ := inBelow entry inside child isChild
        exact ⟨(item, depth) :: before, between, after ++ behind, by simp, deeper⟩
      · obtain ⟨before, between, after, rfl, deeper⟩ := inBehind entry later child isChild
        exact ⟨(item, depth) :: (below ++ before), between, after, by simp, deeper⟩

end

end Listed

/-! ### What is listed -/

/-- Items with the same ancestors. -/
structure Siblings (links : Links Item) (above siblings : List Item) : Prop where
  ancestors : ∀ item ∈ siblings, Ancestors links item above
  nodup : siblings.Nodup

theorem siblings_roots : Siblings links [] links.roots where
  ancestors item member := .root ((links.mem_roots item).mp member).1
    ((links.mem_roots item).mp member).2
  nodup := links.nodup_roots

theorem siblings_children (ancestors : Ancestors links item above) :
    Siblings links (item :: above) (links.children item) where
  ancestors child member :=
    have linked := (links.mem_children item ancestors.mem child).mp member
    .child linked.1 linked.2 ancestors
  nodup := links.nodup_children item

section Contents

variable {siblings : List Item} {listing : List (Item × Nat)}

theorem ancestors_of_listed {depth : Nat}
    (listed : Listed links.children depth siblings listing)
    (related : Siblings links above siblings) (length : above.length = depth) :
    ∀ entry ∈ listing, ∃ more, Ancestors links entry.1 more ∧ more.length = entry.2 ∧
      ∃ sibling ∈ siblings, sibling :: above <:+ entry.1 :: more := by
  induction listed generalizing above with
  | nil => exact nofun
  | @cons depth item rest below behind first second inBelow inBehind =>
    intro entry member
    have own := related.ancestors item List.mem_cons_self
    rcases List.mem_cons.mp member with rfl | member
    · exact ⟨above, own, length, item, List.mem_cons_self, List.suffix_rfl⟩
    · rcases List.mem_append.mp member with inside | later
      · obtain ⟨more, ancestors, deep, child, _, suffix⟩ :=
          inBelow (siblings_children own) (by rw [List.length_cons, length]) entry inside
        exact ⟨more, ancestors, deep, item, List.mem_cons_self,
          (List.suffix_cons child _).trans suffix⟩
      · have others : Siblings links above rest :=
          ⟨fun other member => related.ancestors other (List.mem_cons_of_mem item member),
            related.nodup.of_cons⟩
        obtain ⟨more, ancestors, deep, sibling, inRest, suffix⟩ :=
          inBehind others length entry later
        exact ⟨more, ancestors, deep, sibling, List.mem_cons_of_mem item inRest, suffix⟩

theorem nodup_listed {depth : Nat} (listed : Listed links.children depth siblings listing)
    (related : Siblings links above siblings) (length : above.length = depth) :
    (listing.map Prod.fst).Nodup := by
  induction listed generalizing above with
  | nil => exact List.nodup_nil
  | @cons depth item rest below behind first second inBelow inBehind =>
    have own := related.ancestors item List.mem_cons_self
    have others : Siblings links above rest :=
      ⟨fun other member => related.ancestors other (List.mem_cons_of_mem item member),
        related.nodup.of_cons⟩
    have deeper : (item :: above).length = depth + 1 := by rw [List.length_cons, length]
    -- what is listed below the item has it among its ancestors, what is listed behind has not
    have under : ∀ entry ∈ below, ∃ more, Ancestors links entry.1 more ∧
      item :: above <:+ more := by
      intro entry inside
      obtain ⟨more, ancestors, _, child, _, suffix⟩ :=
        ancestors_of_listed first (siblings_children own) deeper entry inside
      refine ⟨more, ancestors, ?_⟩
      rcases List.suffix_cons_iff.mp suffix with same | inner
      · exact (List.cons.inj same).2 ▸ List.suffix_rfl
      · exact (List.suffix_cons child _).trans inner
    have apart : ∀ entry ∈ behind, ∀ more, Ancestors links entry.1 more →
        ¬ item :: above <:+ entry.1 :: more := by
      intro entry later more ancestors suffix
      obtain ⟨also, alsoAncestors, _, sibling, inRest, alsoSuffix⟩ :=
        ancestors_of_listed second others length entry later
      obtain rfl := ancestors.unique alsoAncestors
      have same : item :: above = sibling :: above :=
        (List.suffix_of_suffix_length_le suffix alsoSuffix (by simp)).eq_of_length (by simp)
      exact (List.nodup_cons.mp related.nodup).1 ((List.cons.inj same).1 ▸ inRest)
    rw [List.map_cons, List.map_append, List.nodup_cons, List.nodup_append]
    refine ⟨fun member => ?_, inBelow (siblings_children own) deeper, inBehind others length, ?_⟩
    · rcases List.mem_append.mp member with inside | later
      · obtain ⟨entry, inBelow, same⟩ := List.mem_map.mp inside
        obtain ⟨more, ancestors, suffix⟩ := under entry inBelow
        rw [same] at ancestors
        exact ancestors.not_mem_self (suffix.subset List.mem_cons_self)
      · obtain ⟨entry, inBehind, same⟩ := List.mem_map.mp later
        have found : Ancestors links entry.1 above := same ▸ own
        exact apart entry inBehind above found (same ▸ List.suffix_rfl)
    · rintro first inside second later rfl
      obtain ⟨entry, inBelow, same⟩ := List.mem_map.mp inside
      obtain ⟨other, inBehind, alsoSame⟩ := List.mem_map.mp later
      obtain ⟨more, ancestors, suffix⟩ := under entry inBelow
      have found : Ancestors links other.1 more := (same.trans alsoSame.symm) ▸ ancestors
      exact apart other inBehind more found (suffix.trans (List.suffix_cons _ _))

theorem listed_of_ancestors (listed : Listed links.children 0 links.roots listing)
    (ancestors : Ancestors links item above) : (item, above.length) ∈ listing := by
  induction ancestors with
  | root member parentless =>
    exact listed.sublist.subset
      (List.mem_map_of_mem ((links.mem_roots _).mpr ⟨member, parentless⟩))
  | child member linked rest ih =>
    exact (listed.children_sublist _ ih).subset
      (List.mem_map_of_mem ((links.mem_children _ rest.mem _).mpr ⟨member, linked⟩))

theorem perm_of_listed (listed : Listed links.children 0 links.roots listing)
    (acyclic : Acyclic links) (distinct : links.items.Nodup) :
    (listing.map Prod.fst).Perm links.items := by
  refine (List.perm_ext_iff_of_nodup (nodup_listed listed siblings_roots rfl) distinct).mpr ?_
  intro item
  constructor
  · intro member
    obtain ⟨entry, inside, rfl⟩ := List.mem_map.mp member
    obtain ⟨more, ancestors, -⟩ := ancestors_of_listed listed siblings_roots rfl entry inside
    exact ancestors.mem
  · intro member
    obtain ⟨above, ancestors⟩ := exists_ancestors acyclic member
    exact List.mem_map_of_mem (listed_of_ancestors listed ancestors)

theorem filter_eq_of_sublist [DecidableEq Item] {part all : List Item} (sublist : part.Sublist all)
    (distinct : all.Nodup) : (all.filter fun item => item ∈ part) = part := by
  have within : part.Sublist (all.filter fun item => item ∈ part) := by
    have filtered := sublist.filter fun item => item ∈ part
    rwa [List.filter_eq_self.mpr fun item member => decide_eq_true member] at filtered
  refine (within.eq_of_length_le ?_).symm
  refine ((distinct.filter _).subperm fun item member => ?_).length_le
  exact of_decide_eq_true (List.mem_filter.mp member).2

theorem pairwise_listed (listed : Listed links.children 0 links.roots listing)
    {relation : Item → Item → Prop} (ofRoots : links.roots.Pairwise relation)
    (ofChildren : ∀ item, (links.children item).Pairwise relation) :
    (listing.map Prod.fst).Pairwise fun first second =>
      links.parent first = links.parent second → relation first second := by
  classical
  have distinct := nodup_listed listed siblings_roots rfl
  -- two items of a part that is listed in its order come in the order of the part
  have within {part : List Item} (sublist : part.Sublist (listing.map Prod.fst))
      (sorted : part.Pairwise relation) {first second : Item}
      (pair : [first, second].Sublist (listing.map Prod.fst)) (firstIn : first ∈ part)
      (secondIn : second ∈ part) : relation first second := by
    have filtered := pair.filter fun item => item ∈ part
    rw [filter_eq_of_sublist sublist distinct, List.filter_cons_of_pos (by simpa using firstIn),
      List.filter_cons_of_pos (by simpa using secondIn), List.filter_nil] at filtered
    exact List.pairwise_iff_forall_sublist.mp sorted filtered
  refine List.pairwise_iff_forall_sublist.mpr fun {first second} pair same => ?_
  obtain ⟨entry, inside, rfl⟩ := List.mem_map.mp (pair.subset List.mem_cons_self)
  obtain ⟨above, ancestors, -⟩ := ancestors_of_listed listed siblings_roots rfl entry inside
  obtain ⟨other, alsoInside, rfl⟩ := List.mem_map.mp
    (pair.subset (List.mem_cons_of_mem entry.1 List.mem_cons_self))
  obtain ⟨more, alsoAncestors, -⟩ :=
    ancestors_of_listed listed siblings_roots rfl other alsoInside
  cases ancestors with
  | root member parentless =>
    have sublist := listed.sublist.map Prod.fst
    rw [List.map_map] at sublist
    simp only [Function.comp_def, List.map_id'] at sublist
    exact within sublist ofRoots pair ((links.mem_roots _).mpr ⟨member, parentless⟩)
      ((links.mem_roots _).mpr ⟨alsoAncestors.mem, same ▸ parentless⟩)
  | @child _ parent rest member linked rootward =>
    have sublist :=
      (listed.children_sublist _ (listed_of_ancestors listed rootward)).map Prod.fst
    rw [List.map_map] at sublist
    simp only [Function.comp_def, List.map_id'] at sublist
    exact within sublist (ofChildren parent) pair
      ((links.mem_children _ rootward.mem _).mpr ⟨member, linked⟩)
      ((links.mem_children _ rootward.mem _).mpr ⟨alsoAncestors.mem, same ▸ linked⟩)

end Contents

end Divine.Forest
