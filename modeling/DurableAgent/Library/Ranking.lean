import DurableAgent.Library.DictUpdates
import Mathlib.Data.List.MinMax
import Mathlib.Data.List.Sort
import Mathlib.Data.Prod.Lex

/-!
# Rankings

Stable sorting by falling keys, and what two lists that are sorted by the same keys have
in common.
-/

set_option autoImplicit false

namespace DurableAgent.Library

variable {α β R : Type} [LinearOrder R]

/-- `sorted(items, key=key, reverse=True)`. -/
def rankBy (key : α → R) (items : List α) : List α :=
  items.insertionSort fun first second => key second ≤ key first

section Stable

variable {key : α → R} {items : List α} {before : α → α → Prop}

theorem rankBy_perm (key : α → R) (items : List α) : (rankBy key items).Perm items :=
  List.perm_insertionSort _ items

theorem mem_rankBy {item : α} : item ∈ rankBy key items ↔ item ∈ items :=
  (rankBy_perm key items).mem_iff

theorem rankBy_map (key : β → R) (f : α → β) (items : List α) :
    rankBy key (items.map f) = (rankBy (key ∘ f) items).map f :=
  (List.map_insertionSort _ _ f items fun _ _ _ _ => Iff.rfl).symm

theorem orderedInsert_stable {item : α}
    (ranked : items.Pairwise fun first second =>
      key second < key first ∨ key second = key first ∧ before first second)
    (ahead : ∀ other ∈ items, before item other) :
    (items.orderedInsert (fun first second => key second ≤ key first) item).Pairwise
      fun first second => key second < key first ∨ key second = key first ∧ before first second := by
  induction items with
  | nil => simp
  | cons head rest ih =>
      obtain ⟨first, others⟩ := List.pairwise_cons.mp ranked
      rw [List.orderedInsert_cons]
      split
      · next below =>
          refine List.pairwise_cons.mpr ⟨fun other member => ?_, ranked⟩
          have lower : key other ≤ key item := by
            rcases List.mem_cons.mp member with rfl | later
            · exact below
            · rcases first other later with less | ⟨same, _⟩
              · exact less.le.trans below
              · exact same.le.trans below
          exact lower.lt_or_eq.imp_right fun same => ⟨same, ahead other member⟩
      · next above =>
          have inserted := ih others fun other member =>
            ahead other (List.mem_cons_of_mem head member)
          refine List.pairwise_cons.mpr ⟨fun other member => ?_, inserted⟩
          rcases (List.mem_orderedInsert _).mp member with rfl | later
          · exact .inl (not_le.mp above)
          · exact first other later

/-- Items of one key keep their order. -/
theorem rankBy_stable (order : items.Pairwise before) :
    (rankBy key items).Pairwise fun first second =>
      key second < key first ∨ key second = key first ∧ before first second := by
  induction items with
  | nil => exact List.Pairwise.nil
  | cons item rest ih =>
      obtain ⟨ahead, others⟩ := List.pairwise_cons.mp order
      exact orderedInsert_stable (ih others) fun other member => ahead other (mem_rankBy.mp member)

theorem rankBy_sorted (key : α → R) (items : List α) :
    (rankBy key items).Pairwise fun first second => key second ≤ key first := by
  have any : items.Pairwise fun _ _ => True := List.pairwise_of_forall fun _ _ => trivial
  exact (rankBy_stable any).imp fun either => either.elim le_of_lt fun same => same.1.le

/-- Of two items, one stands ahead of the other. -/
theorem pair_sublist {first second : α} (firstIn : first ∈ items) (secondIn : second ∈ items)
    (differ : first ≠ second) :
    [first, second].Sublist items ∨ [second, first].Sublist items := by
  obtain ⟨before, behind, rfl⟩ := List.append_of_mem firstIn
  rcases List.mem_append.mp secondIn with earlier | later
  · right
    exact (List.singleton_sublist.mpr earlier).append
      (List.singleton_sublist.mpr List.mem_cons_self)
  · left
    have behindIt := (List.mem_cons.mp later).resolve_left differ.symm
    exact ((List.singleton_sublist.mpr behindIt).cons_cons first).trans
      (List.sublist_append_right before _)

/-- Of two items, the one with the higher key is ahead. -/
theorem rankBy_ahead_of_lt {first second : α} (firstIn : first ∈ items) (secondIn : second ∈ items)
    (higher : key second < key first) : [first, second].Sublist (rankBy key items) := by
  have firstRanked : first ∈ rankBy key items := mem_rankBy.mpr firstIn
  have differ : first ≠ second := fun same => higher.ne (congrArg key same.symm)
  rcases pair_sublist firstRanked (mem_rankBy.mpr secondIn) differ with ahead | behind
  · exact ahead
  · have lower := List.pairwise_iff_forall_sublist.mp (rankBy_sorted key items) behind
    exact absurd higher lower.not_gt

theorem orderedInsert_front {item : α} (lower : ∀ other ∈ items, key other ≤ key item) :
    items.orderedInsert (fun first second => key second ≤ key first) item = item :: items := by
  cases items with
  | nil => rfl
  | cons head rest => exact List.orderedInsert_cons_of_le _ rest (lower head List.mem_cons_self)

theorem orderedInsert_behind {item : α} {upper : List α}
    (higher : ∀ other ∈ upper, key item < key other) (lower : List α) :
    (upper ++ lower).orderedInsert (fun first second => key second ≤ key first) item =
      upper ++ lower.orderedInsert (fun first second => key second ≤ key first) item := by
  induction upper with
  | nil => rfl
  | cons head rest ih =>
      rw [List.cons_append, List.orderedInsert_of_not_le, List.cons_append,
        ih fun other member => higher other (List.mem_cons_of_mem head member)]
      exact (higher head List.mem_cons_self).not_ge

/-- Items of a higher class come first, and inside the classes nothing moves. -/
theorem rankBy_partition (upper : α → Bool)
    (higher : ∀ first ∈ items, ∀ second ∈ items, upper first = true → upper second = false →
      key second < key first)
    (sorted : items.Pairwise fun first second =>
      upper first = upper second → key second ≤ key first) :
    rankBy key items = items.filter upper ++ items.filter fun item => !upper item := by
  induction items with
  | nil => rfl
  | cons item rest ih =>
      obtain ⟨ahead, others⟩ := List.pairwise_cons.mp sorted
      have ranked := ih (fun first firstIn second secondIn =>
        higher first (List.mem_cons_of_mem item firstIn) second
          (List.mem_cons_of_mem item secondIn)) others
      have inserted : rankBy key (item :: rest) =
          (rankBy key rest).orderedInsert (fun first second => key second ≤ key first) item := rfl
      rw [inserted, ranked]
      cases kind : upper item with
      | true =>
          rw [orderedInsert_front]
          · simp [kind]
          · intro other member
            rcases List.mem_append.mp member with alike | unlike
            · obtain ⟨within, same⟩ := List.mem_filter.mp alike
              exact ahead other within (kind.trans same.symm)
            · obtain ⟨within, differs⟩ := List.mem_filter.mp unlike
              exact (higher item List.mem_cons_self other (List.mem_cons_of_mem item within) kind
                (by simpa using differs)).le
      | false =>
          rw [orderedInsert_behind, orderedInsert_front]
          · simp [kind]
          · intro other member
            obtain ⟨within, same⟩ := List.mem_filter.mp member
            exact ahead other within (kind.trans (by simpa using same.symm))
          · intro other member
            obtain ⟨within, above⟩ := List.mem_filter.mp member
            exact higher other (List.mem_cons_of_mem item within) item List.mem_cons_self above kind

end Stable

/-! ## The best item -/

section Best

variable {key : α → R} {items : List α} {best : α}

/-- An earlier item needs no more than a tie. -/
theorem argmax_head (highest : ∀ item ∈ items, key item ≤ key best) :
    (best :: items).argmax key = some best := by
  rw [List.argmax_cons]
  cases rest : items.argmax key with
  | none => rfl
  | some other => exact if_neg (highest other (List.argmax_mem rest)).not_gt

theorem argmax_of_lt (member : best ∈ items)
    (higher : ∀ item ∈ items, item ≠ best → key item < key best) :
    items.argmax key = some best := by
  cases found : items.argmax key with
  | none =>
      rw [List.argmax_eq_none.mp found] at member
      cases member
  | some other =>
      by_cases same : other = best
      · rw [same]
      · have above := higher other (List.argmax_mem found) same
        exact absurd (List.le_of_mem_argmax member found) above.not_ge

end Best

/-! ## Numbered items -/

theorem map_numbered (f : α → β) (start : Nat) (items : List α) :
    ((items.zipIdx start).map fun entry => f entry.1) = items.map f := by
  conv_rhs => rw [← List.zipIdx_map_fst start items, List.map_map]
  rfl

theorem pairwise_idxOf {items : List α} [DecidableEq α] (distinct : items.Nodup) :
    items.Pairwise fun first second => items.idxOf first < items.idxOf second := by
  refine List.pairwise_iff_getElem.mpr fun i j inI inJ less => ?_
  rwa [distinct.idxOf_getElem i inI, distinct.idxOf_getElem j inJ]

/-! ## Lists sorted by place -/

section Places

variable {place : α → R} {left right items : List α}

theorem map_place_eq (perm : left.Perm right)
    (leftSorted : left.Pairwise fun first second => place first ≤ place second)
    (rightSorted : right.Pairwise fun first second => place first ≤ place second) :
    left.map place = right.map place := by
  refine (perm.map place).eq_of_pairwise (fun _ _ _ _ => le_antisymm) ?_ ?_
  · exact List.pairwise_map.mpr leftSorted
  · exact List.pairwise_map.mpr rightSorted

/-- Whatever has an earlier place stands in front. -/
theorem countP_place_le {before behind : List α} {item : α}
    (sorted : (before ++ item :: behind).Pairwise fun first second => place first ≤ place second) :
    (before ++ item :: behind).countP (fun other => decide (place other < place item)) ≤
      before.length := by
  have later := (List.pairwise_cons.mp (List.pairwise_append.mp sorted).2.1).1
  have none : (item :: behind).countP (fun other => decide (place other < place item)) = 0 := by
    rw [List.countP_eq_zero]
    intro other member
    rcases List.mem_cons.mp member with rfl | within
    · simp
    · simpa using later other within
  rw [List.countP_append, none]
  exact List.countP_le_length

/-- An item ahead of all others of its place stands right behind the earlier places. -/
theorem countP_place_of_first {before behind : List α} {item : α}
    (sorted : (before ++ item :: behind).Pairwise fun first second =>
      place first < place second ∨ place first = place second ∧ second ≠ item) :
    (before ++ item :: behind).countP (fun other => decide (place other < place item)) =
      before.length := by
  refine le_antisymm (countP_place_le (sorted.imp fun either => ?_)) ?_
  · exact either.elim le_of_lt fun same => same.1.le
  · have earlier := (List.pairwise_append.mp sorted).2.2
    have all : before.countP (fun other => decide (place other < place item)) = before.length := by
      rw [List.countP_eq_length]
      intro other member
      rcases earlier other member item List.mem_cons_self with less | ⟨_, differs⟩
      · exact decide_eq_true less
      · exact absurd rfl differs
    rw [List.countP_append, all]
    exact Nat.le_add_right _ _

/-- Two sorted lists of the same items begin alike as far as no two items share a place. -/
theorem take_eq_of_places (leftPerm : left.Perm items) (rightPerm : right.Perm items)
    (leftSorted : left.Pairwise fun first second => place first ≤ place second)
    (rightSorted : right.Pairwise fun first second => place first ≤ place second) {kept : Nat}
    (settled : ∀ first ∈ items, ∀ second ∈ items, first ≠ second → place first = place second →
      kept ≤ items.countP fun other => decide (place other < place first)) :
    left.take kept = right.take kept := by
  have perm := leftPerm.trans rightPerm.symm
  have places := map_place_eq perm leftSorted rightSorted
  refine List.ext_getElem (by simp [perm.length_eq]) fun index inLeft inRight => ?_
  simp only [List.length_take, lt_inf_iff] at inLeft inRight
  rw [List.getElem_take, List.getElem_take]
  by_contra differ
  have same : place left[index] = place right[index] := by
    have equal := congrArg (fun list => list[index]?) places
    simpa [inLeft.2, inRight.2] using equal
  have late := settled left[index] (leftPerm.mem_iff.mp (List.getElem_mem _)) right[index]
    (rightPerm.mem_iff.mp (List.getElem_mem _)) differ same
  have split : left = left.take index ++ left[index] :: left.drop (index + 1) := by
    rw [List.getElem_cons_drop, List.take_append_drop]
  have early := leftSorted
  rw [split] at early
  have position := countP_place_le early
  rw [← split, leftPerm.countP_eq, List.length_take] at position
  omega

end Places

/-! ## First occurrences in a series of groups -/

section Groups

variable {γ : Type} [DecidableEq γ] (members : β → List γ)

/-- The first group with the item. -/
def firstGroup (groups : List β) (item : γ) : Nat :=
  groups.findIdx fun group => decide (item ∈ members group)

variable {members}

theorem firstGroup_lt_iff {groups : List β} {item : γ} :
    firstGroup members groups item < groups.length ↔ item ∈ groups.flatMap members := by
  rw [firstGroup, List.findIdx_lt_length, List.mem_flatMap]
  simp only [decide_eq_true_eq]

theorem firstGroup_concat_of_mem {groups : List β} {item : γ}
    (old : item ∈ groups.flatMap members) (group : β) :
    firstGroup members (groups ++ [group]) item = firstGroup members groups item := by
  rw [firstGroup, List.findIdx_append]
  exact if_pos (firstGroup_lt_iff.mpr old)

theorem firstGroup_concat_of_fresh {groups : List β} {group : β} {item : γ}
    (fresh : item ∉ groups.flatMap members) (within : item ∈ members group) :
    firstGroup members (groups ++ [group]) item = groups.length := by
  rw [firstGroup, List.findIdx_append]
  refine (if_neg fun inside => fresh (firstGroup_lt_iff.mp inside)).trans ?_
  simp [List.findIdx_cons, within]

/-- The first occurrences are ordered by group, and inside one as the group is. -/
theorem pairwise_firstGroup {within : β → γ → γ → Prop} {groups : List β}
    (each : ∀ group ∈ groups, (members group).Pairwise (within group)) :
    (groups.flatMap members).eraseDups.Pairwise fun first second =>
      firstGroup members groups first < firstGroup members groups second ∨
        firstGroup members groups first = firstGroup members groups second ∧
          ∃ group, groups[firstGroup members groups first]? = some group ∧
            within group first second := by
  induction groups using List.reverseRecOn with
  | nil => exact List.Pairwise.nil
  | append_singleton groups group ih =>
      have old : ∀ item ∈ (groups.flatMap members).eraseDups,
          firstGroup members (groups ++ [group]) item = firstGroup members groups item ∧
            firstGroup members groups item < groups.length := fun item member =>
        have known := List.mem_eraseDups.mp member
        ⟨firstGroup_concat_of_mem known group, firstGroup_lt_iff.mpr known⟩
      have new : ∀ item ∈ ((members group).removeAll (groups.flatMap members)).eraseDups,
          firstGroup members (groups ++ [group]) item = groups.length := by
        intro item member
        obtain ⟨within, fresh⟩ := List.mem_filter.mp (List.mem_eraseDups.mp member)
        exact firstGroup_concat_of_fresh (by simpa using fresh) within
      have inside : (((members group).removeAll (groups.flatMap members)).eraseDups).Pairwise
          (within group) := by
        refine (each group (by simp)).sublist ?_
        exact (eraseDups_sublist _).trans List.filter_sublist
      rw [List.flatMap_append, List.flatMap_singleton, List.eraseDups_append]
      refine List.pairwise_append.mpr ⟨?_, ?_, ?_⟩
      · refine (ih fun earlier among => each earlier (List.mem_append_left _ among)).imp_of_mem ?_
        intro first second firstOld secondOld order
        rwa [(old first firstOld).1, (old second secondOld).1,
          List.getElem?_append_left (old first firstOld).2]
      · refine inside.imp_of_mem ?_
        intro first second firstNew secondNew order
        refine .inr ⟨(new first firstNew).trans (new second secondNew).symm, group, ?_, order⟩
        rw [new first firstNew, List.getElem?_concat_length]
      · intro first firstOld second secondNew
        left
        rw [(old first firstOld).1, new second secondNew]
        exact (old first firstOld).2

end Groups

end DurableAgent.Library
