import DurableAgent.Library.Ranking

/-!
# Reordered lists

What depends on the order of a list, and what every order of it has in common: the first
match, the first ranks of a stable sort, and the listed items of a longer list.
-/

set_option autoImplicit false

namespace DurableAgent.Library

variable {α β R : Type}

/-! ## Matches and lists -/

/-- The first match is the same in every order if there is one match at most. -/
theorem find?_eq_of_perm {items reordered : List α} {wanted : α → Bool}
    (perm : reordered.Perm items)
    (single : ∀ first ∈ items, ∀ second ∈ items, wanted first = true → wanted second = true →
      first = second) : reordered.find? wanted = items.find? wanted := by
  cases found : items.find? wanted with
  | none =>
      rw [List.find?_eq_none] at found ⊢
      exact fun item member => found item (perm.mem_iff.mp member)
  | some item =>
      have member := List.mem_of_find?_eq_some found
      have matched := List.find?_some found
      cases again : reordered.find? wanted with
      | none => exact absurd matched (List.find?_eq_none.mp again item (perm.mem_iff.mpr member))
      | some other =>
          rw [single other (perm.mem_iff.mp (List.mem_of_find?_eq_some again)) item member
            (List.find?_some again) matched]

/-- Every order of the listed items comes from an order of all of them. -/
theorem exists_perm_filterMap (f : α → Option β) {listed reordered : List β}
    (perm : listed.Perm reordered) {items : List α} (lists : items.filterMap f = listed) :
    ∃ arranged : List α, arranged.Perm items ∧ arranged.filterMap f = reordered := by
  induction perm generalizing items with
  | nil => exact ⟨items, .refl items, lists⟩
  | cons entry _ ih =>
      obtain ⟨before, item, behind, rfl, skipped, gives, rest⟩ :=
        List.filterMap_eq_cons_iff.mp lists
      obtain ⟨arranged, same, relisted⟩ := ih rest
      refine ⟨before ++ item :: arranged, (same.cons item).append_left before, ?_⟩
      rw [List.filterMap_append, List.filterMap_eq_nil_iff.mpr skipped,
        List.filterMap_cons_some gives, relisted, List.nil_append]
  | swap first second rest =>
      obtain ⟨before, item, behind, rfl, skipped, gives, later⟩ :=
        List.filterMap_eq_cons_iff.mp lists
      obtain ⟨between, other, tail, rfl, passed, givesToo, last⟩ :=
        List.filterMap_eq_cons_iff.mp later
      have inner : (before ++ (between ++ other :: tail)).Perm
          (other :: (before ++ (between ++ tail))) := by
        rw [← List.append_assoc, ← List.append_assoc]
        exact List.perm_middle
      have outer : (before ++ item :: (between ++ other :: tail)).Perm
          (other :: item :: (before ++ (between ++ tail))) :=
        (List.perm_middle.trans (inner.cons item)).trans (.swap other item _)
      refine ⟨_, outer.symm, ?_⟩
      rw [List.filterMap_cons_some givesToo, List.filterMap_cons_some gives,
        List.filterMap_append, List.filterMap_append, List.filterMap_eq_nil_iff.mpr skipped,
        List.filterMap_eq_nil_iff.mpr passed, last]
      rfl
  | trans _ _ firstIH secondIH =>
      obtain ⟨between, same, relisted⟩ := firstIH lists
      obtain ⟨arranged, sameToo, again⟩ := secondIH relisted
      exact ⟨arranged, sameToo.trans same, again⟩

/-- What nothing else precedes comes first. -/
theorem head?_eq_of_least {order : α → α → Prop} {items : List α} {least : α}
    (sorted : items.Pairwise order) (member : least ∈ items)
    (first : ∀ item ∈ items, item ≠ least → ¬ order item least) :
    items.head? = some least := by
  cases items with
  | nil => cases member
  | cons head rest =>
      rcases List.mem_cons.mp member with rfl | later
      · rfl
      · by_cases same : head = least
        · rw [same, List.head?_cons]
        · have ahead := (List.pairwise_cons.mp sorted).1 least later
          exact absurd ahead (first head List.mem_cons_self same)

/-! ## The first ranks -/

section Ranks

variable [LinearOrder R] [DecidableEq α] {key : α → R} {items rest before behind : List α}
  {item : α} {kept : Nat}

variable (key) in
/-- How many others have at least the key of the item. -/
def rivals (items : List α) (item : α) : Nat :=
  items.countP fun other => decide (other ≠ item ∧ key item ≤ key other)

variable (key) in
/-- How many have a higher key than the item. -/
def superiors (items : List α) (item : α) : Nat :=
  items.countP fun other => decide (key item < key other)

theorem rivals_lt_length (member : item ∈ items) : rivals key items item < items.length :=
  List.countP_lt_length_iff.mpr ⟨item, member, by simp⟩

omit [DecidableEq α] in
theorem mem_take_iff (distinct : (before ++ item :: behind).Nodup) :
    item ∈ (before ++ item :: behind).take kept ↔ before.length < kept := by
  have absent : item ∉ before := fun member =>
    (List.disjoint_of_nodup_append distinct) member List.mem_cons_self
  rw [List.take_append, List.mem_append]
  constructor
  · rintro (early | late)
    · exact absurd (List.mem_of_mem_take early) absent
    · by_contra short
      rw [Nat.sub_eq_zero_of_le (not_lt.mp short)] at late
      cases late
  · intro inside
    obtain ⟨more, count⟩ := Nat.exists_eq_add_of_lt inside
    right
    rw [count, Nat.add_assoc, Nat.add_sub_cancel_left, List.take_succ_cons]
    exact List.mem_cons_self

omit [DecidableEq α] in
/-- The ranking around one of its items. -/
theorem rankBy_split (key : α → R) {order : α → α → Prop} (distinct : items.Nodup)
    (member : item ∈ items) (ordered : items.Pairwise order) :
    ∃ before behind, rankBy key items = before ++ item :: behind ∧
      (before ++ item :: behind).Nodup ∧ (before ++ item :: behind).Perm items ∧
      (∀ earlier ∈ before, earlier ≠ item ∧
        (key item < key earlier ∨ key item = key earlier ∧ order earlier item)) ∧
      ∀ later ∈ behind, key later < key item ∨ key later = key item ∧ order item later := by
  obtain ⟨before, behind, split⟩ := List.append_of_mem
    (show item ∈ rankBy key items from mem_rankBy.mpr member)
  have perm := rankBy_perm key items
  have ranked : (rankBy key items).Pairwise _ := rankBy_stable ordered
  rw [split] at perm ranked
  have once := perm.nodup_iff.mpr distinct
  obtain ⟨_, tail, across⟩ := List.pairwise_append.mp ranked
  refine ⟨before, behind, split, once, perm, fun earlier early => ⟨?_, ?_⟩, ?_⟩
  · rintro rfl
    exact List.disjoint_of_nodup_append once early List.mem_cons_self
  · exact across earlier early item List.mem_cons_self
  · exact (List.pairwise_cons.mp tail).1

theorem mem_take_rankBy (distinct : items.Nodup) (member : item ∈ items)
    (few : rivals key items item < kept) : item ∈ (rankBy key items).take kept := by
  obtain ⟨before, behind, split, once, perm, early, _⟩ := rankBy_split key distinct member
    (List.pairwise_of_forall fun _ _ => trivial : items.Pairwise fun _ _ => True)
  rw [split, mem_take_iff once]
  refine lt_of_le_of_lt ?_ few
  have all : before.countP (fun other => decide (other ≠ item ∧ key item ≤ key other)) =
      before.length := by
    refine List.countP_eq_length.mpr fun other member => decide_eq_true ?_
    obtain ⟨differs, higher | ⟨same, _⟩⟩ := early other member
    · exact ⟨differs, higher.le⟩
    · exact ⟨differs, same.le⟩
  rw [rivals, ← perm.countP_eq, List.countP_append, all]
  exact Nat.le_add_right _ _

omit [DecidableEq α] in
theorem not_mem_take_rankBy (distinct : items.Nodup) (member : item ∈ items)
    (many : kept ≤ superiors key items item) : item ∉ (rankBy key items).take kept := by
  obtain ⟨before, behind, split, once, perm, _, late⟩ := rankBy_split key distinct member
    (List.pairwise_of_forall fun _ _ => trivial : items.Pairwise fun _ _ => True)
  rw [split, mem_take_iff once, not_lt]
  refine many.trans ?_
  have none : (item :: behind).countP (fun other => decide (key item < key other)) = 0 := by
    refine List.countP_eq_zero.mpr fun other member => ?_
    rcases List.mem_cons.mp member with rfl | later
    · simp
    · rcases late other later with lower | ⟨same, _⟩
      · simpa using lower.le
      · simpa using same.le
  rw [superiors, ← perm.countP_eq, List.countP_append, none]
  exact List.countP_le_length

omit [DecidableEq α] in
/-- In front of all others an item gives way to higher keys only. -/
theorem mem_take_rankBy_of_first (distinct : (item :: rest).Nodup)
    (few : superiors key (item :: rest) item < kept) :
    item ∈ (rankBy key (item :: rest)).take kept := by
  have ordered : (item :: rest).Pairwise fun _ second => second ≠ item := by
    obtain ⟨fresh, _⟩ := List.nodup_cons.mp distinct
    refine List.pairwise_cons.mpr ⟨fun other member same => fresh (same ▸ member), ?_⟩
    exact List.Pairwise.imp_of_mem (fun _ member _ same => fresh (same ▸ member))
      (List.pairwise_of_forall (fun _ _ => trivial) : rest.Pairwise fun _ _ => True)
  obtain ⟨before, behind, split, once, perm, early, _⟩ :=
    rankBy_split key distinct List.mem_cons_self ordered
  rw [split, mem_take_iff once]
  refine lt_of_le_of_lt ?_ few
  have all : before.countP (fun other => decide (key item < key other)) = before.length := by
    refine List.countP_eq_length.mpr fun other member => decide_eq_true ?_
    obtain ⟨_, higher | ⟨_, behindItself⟩⟩ := early other member
    · exact higher
    · exact absurd rfl behindItself
  rw [superiors, ← perm.countP_eq, List.countP_append, all]
  exact Nat.le_add_right _ _

/-- Behind all others an item gives way to equal keys too. -/
theorem not_mem_take_rankBy_of_last (distinct : (rest ++ [item]).Nodup)
    (many : kept ≤ rivals key (rest ++ [item]) item) :
    item ∉ (rankBy key (rest ++ [item])).take kept := by
  have absent : item ∉ rest := fun member =>
    List.disjoint_of_nodup_append distinct member List.mem_cons_self
  have ordered : (rest ++ [item]).Pairwise fun first _ => first ≠ item := by
    refine List.pairwise_append.mpr ⟨?_, List.pairwise_singleton _ _, ?_⟩
    · exact List.Pairwise.imp_of_mem (fun member _ _ same => absent (same ▸ member))
        (List.pairwise_of_forall (fun _ _ => trivial) : rest.Pairwise fun _ _ => True)
    · exact fun first member _ _ same => absent (same ▸ member)
  obtain ⟨before, behind, split, once, perm, _, late⟩ :=
    rankBy_split key distinct (List.mem_append_right rest List.mem_cons_self) ordered
  rw [split, mem_take_iff once, not_lt]
  refine many.trans ?_
  have none : (item :: behind).countP
      (fun other => decide (other ≠ item ∧ key item ≤ key other)) = 0 := by
    refine List.countP_eq_zero.mpr fun other member => ?_
    rcases List.mem_cons.mp member with rfl | later
    · simp
    · rcases late other later with lower | ⟨_, aheadOfItself⟩
      · simp [lower]
      · exact absurd rfl aheadOfItself
  rw [rivals, ← perm.countP_eq, List.countP_append, none]
  exact List.countP_le_length

end Ranks

end DurableAgent.Library
