import Mathlib.Data.List.Basic
import Mathlib.Order.Lattice

/-!
# Valleys

Lists that fall and then rise with their high values at both ends, and what dealing a
sorted list into two makes of it: the second half begins again near the top, so that the two
make a valley only if all values but the greatest and the least are the same.
-/

set_option autoImplicit false

namespace DurableAgent.Library

variable {α β : Type}

/-- By turns to the left and to the right. -/
def deal : List α → List α × List α
  | [] => ([], [])
  | value :: rest => (value :: (deal rest).2, (deal rest).1)

@[simp] theorem deal_nil : deal ([] : List α) = ([], []) := rfl

@[simp] theorem deal_cons (value : α) (rest : List α) :
    deal (value :: rest) = (value :: (deal rest).2, (deal rest).1) := rfl

theorem deal_sublist (values : List α) :
    (deal values).1.Sublist values ∧ (deal values).2.Sublist values := by
  induction values with
  | nil => exact ⟨.slnil, .slnil⟩
  | cons value rest ih => exact ⟨ih.2.cons_cons value, ih.1.cons value⟩

theorem deal_map (f : α → β) (values : List α) :
    deal (values.map f) = ((deal values).1.map f, (deal values).2.map f) := by
  induction values with
  | nil => rfl
  | cons value rest ih => simp [ih]

theorem deal_length (values : List α) :
    (deal values).1.length = (values.length + 1) / 2 ∧
      (deal values).2.length = values.length / 2 := by
  induction values with
  | nil => simp
  | cons value rest ih =>
      obtain ⟨left, right⟩ := ih
      simp only [deal_cons, List.length_cons]
      omega

theorem deal_perm (values : List α) : ((deal values).1 ++ (deal values).2).Perm values := by
  induction values with
  | nil => exact .refl _
  | cons value rest ih => exact (List.perm_append_comm.trans ih).cons value

/-- After an odd number of values the sides are changed. -/
theorem deal_append (front back : List α) :
    deal (front ++ back) =
      if front.length % 2 = 0 then
        ((deal front).1 ++ (deal back).1, (deal front).2 ++ (deal back).2)
      else ((deal front).1 ++ (deal back).2, (deal front).2 ++ (deal back).1) := by
  induction front with
  | nil => simp
  | cons value front ih =>
      rw [List.cons_append, deal_cons, ih]
      by_cases even : front.length % 2 = 0
      · have odd : ¬ (value :: front).length % 2 = 0 := by
          rw [List.length_cons]
          omega
        rw [if_pos even, if_neg odd]
        rfl
      · have next : (value :: front).length % 2 = 0 := by
          rw [List.length_cons]
          omega
        rw [if_neg even, if_pos next]
        rfl

section Orders

variable [LinearOrder α]

def Falling (values : List α) : Prop := values.Pairwise fun first second => second ≤ first

def Rising (values : List α) : Prop := values.Pairwise fun first second => first ≤ second

/-- First the values never increase, then they never decrease. -/
def Valley (values : List α) : Prop :=
  ∃ falling rising, values = falling ++ rising ∧ Falling falling ∧ Rising rising

/-- Whatever level is drawn, the values above it stand at the two ends, at each as many as at
the other up to one, and those that are not above it stand in the middle. -/
def HighAtEnds (values : List α) : Prop :=
  ∀ level, ∃ front middle back, values = front ++ middle ++ back ∧
    (∀ value ∈ front ++ back, level < value) ∧ (∀ value ∈ middle, value ≤ level) ∧
    front.length ≤ back.length + 1 ∧ back.length ≤ front.length + 1

structure LowInMiddle (values : List α) : Prop where
  valley : Valley values
  ends : HighAtEnds values

theorem Valley.no_peak {values : List α} (valley : Valley values) {left peak right : α}
    (within : [left, peak, right].Sublist values) : peak ≤ left ∨ peak ≤ right := by
  obtain ⟨falling, rising, rfl, falls, rises⟩ := valley
  obtain ⟨first, second, parts, before, behind⟩ := List.sublist_append_iff.mp within
  have fallsFirst : Falling first := falls.sublist before
  have risesSecond : Rising second := rises.sublist behind
  match first, parts with
  | [], parts =>
      obtain rfl := parts
      simp only [Rising, List.pairwise_cons] at risesSecond
      exact .inr (risesSecond.2.1 right (by simp))
  | [_], parts =>
      obtain ⟨rfl, rfl⟩ := List.cons.inj parts
      simp only [Rising, List.pairwise_cons] at risesSecond
      exact .inr (risesSecond.1 right (by simp))
  | _ :: _ :: _, parts =>
      simp only [List.cons_append, List.cons.injEq] at parts
      obtain ⟨rfl, rfl, -⟩ := parts
      simp only [Falling, List.pairwise_cons] at fallsFirst
      exact .inl (fallsFirst.1 peak (by simp))

/-- At most one value lies above some level, and below it none, or one of an odd number. -/
def Level (values : List α) : Prop :=
  ∃ level, values.countP (fun value => decide (level < value)) ≤ 1 ∧
    values.countP (fun value => decide (value < level)) ≤ values.length % 2

/-- A falling list has its high values in front of the others. -/
theorem Falling.split {values : List α} (falls : Falling values) (isHigh : α → Prop)
    (upward : ∀ {low high}, isHigh low → low ≤ high → isHigh high) :
    ∃ high low, values = high ++ low ∧ (∀ value ∈ high, isHigh value) ∧
      ∀ value ∈ low, ¬ isHigh value := by
  induction values with
  | nil => exact ⟨[], [], rfl, by simp, by simp⟩
  | cons value rest ih =>
      obtain ⟨below, tail⟩ := List.pairwise_cons.mp falls
      by_cases first : isHigh value
      · obtain ⟨high, low, rfl, highs, lows⟩ := ih tail
        exact ⟨value :: high, low, rfl, List.forall_mem_cons.mpr ⟨first, highs⟩, lows⟩
      · refine ⟨[], value :: rest, rfl, by simp, List.forall_mem_cons.mpr ⟨first, ?_⟩⟩
        exact fun other member later => first (upward later (below other member))

omit [LinearOrder α] in
/-- A value of a sublist is counted in the list. -/
theorem length_le_countP {part values : List α} (within : part.Sublist values)
    (counted : α → Bool) (all : ∀ value ∈ part, counted value = true) :
    part.length ≤ values.countP counted := by
  rw [← List.countP_eq_length.mpr all]
  exact within.countP_le

/-- The second part has neither the value above the level nor the one below it. -/
theorem right_of_level {values : List α} {level : α} (falls : Falling values)
    (few : values.countP (fun value => decide (level < value)) ≤ 1)
    (last : values.countP (fun value => decide (value < level)) ≤ values.length % 2) :
    ∀ value ∈ (deal values).2, value = level := by
  intro value member
  refine le_antisymm ?_ ?_
  · by_contra above
    rw [not_le] at above
    cases values with
    | nil => cases member
    | cons head rest =>
        have later : value ∈ rest := (deal_sublist rest).1.subset member
        have higher : level < head := above.trans_le ((List.pairwise_cons.mp falls).1 value later)
        have within : [head, value].Sublist (head :: rest) :=
          (List.singleton_sublist.mpr later).cons_cons head
        have two := length_le_countP within (fun value => decide (level < value))
          (by simp [above, higher])
        exact absurd (two.trans few) (by simp)
  · by_contra below
    rw [not_le] at below
    have one := length_le_countP
      (List.singleton_sublist.mpr ((deal_sublist values).2.subset member))
      (fun value => decide (value < level)) (by simp [below])
    rw [List.length_singleton] at one
    rcases List.eq_nil_or_concat values with rfl | ⟨front, final, rfl⟩
    · cases member
    · rw [List.concat_eq_append] at *
      have even : front.length % 2 = 0 := by
        rw [List.length_append, List.length_singleton] at last
        omega
      rw [deal_append, if_pos even, deal_cons, deal_nil, List.append_nil] at member
      have earlier := (deal_sublist front).2.subset member
      have lower : final < level := lt_of_le_of_lt
        ((List.pairwise_append.mp falls).2.2 value earlier final (List.mem_singleton_self final))
        below
      have within : [value, final].Sublist (front ++ [final]) :=
        (List.singleton_sublist.mpr earlier).append (List.Sublist.refl [final])
      have two := length_le_countP within (fun value => decide (value < level))
        (by simp [below, lower])
      rw [List.length_cons, List.length_singleton] at two
      omega

theorem lowInMiddle_of_level {values : List α} (falls : Falling values) (level : Level values) :
    LowInMiddle ((deal values).1 ++ (deal values).2) := by
  obtain ⟨level, few, last⟩ := level
  have right := right_of_level falls few last
  obtain ⟨within, _⟩ := deal_sublist values
  obtain ⟨leftLength, rightLength⟩ := deal_length values
  refine ⟨⟨_, _, rfl, falls.sublist within, ?_⟩, fun cut => ?_⟩
  · apply List.pairwise_of_forall_mem_list
    intro value member other behind
    rw [right value member, right other behind]
  · have fallsLeft : Falling (deal values).1 := falls.sublist within
    obtain ⟨high, low, parts, highs, lows⟩ :=
      fallsLeft.split (cut < ·) fun above upper => above.trans_le upper
    replace lows : ∀ value ∈ low, value ≤ cut := fun value member => not_lt.mp (lows value member)
    have highWithin : high.Sublist values := (parts ▸ List.sublist_append_left high low).trans within
    have lowWithin : low.Sublist values := (parts ▸ List.sublist_append_right high low).trans within
    have sizes : high.length + low.length = (values.length + 1) / 2 := by
      rw [← leftLength, parts, List.length_append]
    by_cases under : cut < level
    · -- the second part is above the cut
      have few := length_le_countP lowWithin
        (fun value => decide (value < level)) fun value member =>
          decide_eq_true ((lows value member).trans_lt under)
      refine ⟨high, low, (deal values).2, by rw [parts], ?_, lows, by omega, by omega⟩
      intro value member
      rcases List.mem_append.mp member with inHigh | inRight
      · exact highs value inHigh
      · rw [right value inRight]
        exact under
    · have one := length_le_countP highWithin
        (fun value => decide (level < value)) fun value member =>
          decide_eq_true ((not_lt.mp under).trans_lt (highs value member))
      refine ⟨high, low ++ (deal values).2, [], by simp [parts], by simpa using highs, ?_,
        by simpa using one.trans few, Nat.zero_le _⟩
      intro value member
      rcases List.mem_append.mp member with inLow | inRight
      · exact lows value inLow
      · rw [right value inRight]
        exact not_lt.mp under

/-- In a list that ends below the cut at most one value is above it. -/
theorem HighAtEnds.few_above {front : List α} {last cut : α} (ends : HighAtEnds (front ++ [last]))
    (below : last ≤ cut) :
    (front ++ [last]).countP (fun value => decide (cut < value)) ≤ 1 := by
  obtain ⟨first, middle, back, same, above, under, more, _⟩ := ends cut
  have nothing : back = [] := by
    rcases List.eq_nil_or_concat back with nothing | ⟨others, final, rfl⟩
    · exact nothing
    · rw [List.concat_eq_append, ← List.append_assoc] at same
      obtain ⟨_, ending⟩ := List.append_inj' same rfl
      have higher := above final (by simp)
      rw [← List.singleton_inj.mp ending] at higher
      exact absurd below (not_le.mpr higher)
  have all : first.countP (fun value => decide (cut < value)) ≤ first.length :=
    List.countP_le_length
  have none : middle.countP (fun value => decide (cut < value)) = 0 :=
    List.countP_eq_zero.mpr fun value member => by simpa using under value member
  rw [same, nothing, List.append_nil, List.countP_append, none]
  rw [nothing, List.length_nil] at more
  omega

/-- Of the values below two others only the last can be dealt to the first part. -/
theorem HighAtEnds.few_below {high low : List α} {cut : α}
    (ends : HighAtEnds ((deal (high ++ low)).1 ++ (deal (high ++ low)).2))
    (highs : ∀ value ∈ high, cut < value) (lows : ∀ value ∈ low, value ≤ cut)
    (two : 2 ≤ high.length) : low.length ≤ (high ++ low).length % 2 := by
  have many := length_le_countP (List.sublist_append_left high low)
    (fun value => decide (cut < value)) fun value member =>
      decide_eq_true (highs value member)
  rw [← (deal_perm (high ++ low)).countP_eq] at many
  have closes : ∀ part : List α, part.Sublist low →
      (deal (high ++ low)).2 = (deal high).2 ++ part → part = [] := by
    intro part within second
    rcases List.eq_nil_or_concat part with nothing | ⟨front, last, rfl⟩
    · exact nothing
    · have below := lows last (within.subset (by simp))
      rw [second, List.concat_eq_append, ← List.append_assoc, ← List.append_assoc] at ends many
      have few := ends.few_above below
      omega
  obtain ⟨left, right⟩ := deal_sublist low
  obtain ⟨leftLength, rightLength⟩ := deal_length low
  have parts := deal_append high low
  rw [List.length_append]
  by_cases even : high.length % 2 = 0
  · rw [if_pos even] at parts
    have nothing := closes _ right (congrArg Prod.snd parts)
    rw [nothing, List.length_nil] at rightLength
    omega
  · rw [if_neg even] at parts
    have nothing := closes _ left (congrArg Prod.snd parts)
    rw [nothing, List.length_nil] at leftLength
    omega

theorem level_of_highAtEnds [Nonempty α] {values : List α} (falls : Falling values)
    (ends : HighAtEnds ((deal values).1 ++ (deal values).2)) : Level values := by
  match values with
  | [] =>
      obtain ⟨level⟩ := ‹Nonempty α›
      exact ⟨level, by simp, by simp⟩
  | [value] => exact ⟨value, by simp, by simp⟩
  | first :: second :: rest =>
      obtain ⟨firstAbove, tail⟩ := List.pairwise_cons.mp falls
      obtain ⟨secondAbove, later⟩ := List.pairwise_cons.mp tail
      have few : (first :: second :: rest).countP (fun value => decide (second < value)) ≤ 1 := by
        have none : rest.countP (fun value => decide (second < value)) = 0 :=
          List.countP_eq_zero.mpr fun value member => by simpa using secondAbove value member
        rw [List.countP_cons, List.countP_cons, none]
        simp only [lt_irrefl, decide_false, Bool.false_eq_true, if_false]
        split <;> omega
      refine ⟨second, few, ?_⟩
      have falling : Falling rest := later
      obtain ⟨same, low, parts, highs, lows⟩ := falling.split (second ≤ ·)
        fun above upper => le_trans above upper
      have whole : first :: second :: rest = (first :: second :: same) ++ low := by
        rw [parts]
        rfl
      have high : ∀ value ∈ first :: second :: same, second ≤ value := by
        intro value member
        simp only [List.mem_cons] at member
        rcases member with rfl | rfl | member
        · exact firstAbove second List.mem_cons_self
        · exact le_refl _
        · exact highs value member
      have none : (first :: second :: same).countP (fun value => decide (value < second)) = 0 :=
        List.countP_eq_zero.mpr fun value member => by simpa using high value member
      rw [whole, List.countP_append, none, Nat.zero_add]
      refine List.countP_le_length.trans ?_
      cases low with
      | nil => simp
      | cons cut more =>
          rw [whole] at ends
          have below := not_le.mp (lows cut List.mem_cons_self)
          have fallsLow : Falling (cut :: more) :=
            falling.sublist (parts ▸ List.sublist_append_right same _)
          have all : ∀ value ∈ cut :: more, value ≤ cut := by
            intro value member
            rcases List.mem_cons.mp member with rfl | behind
            · exact le_refl _
            · exact (List.pairwise_cons.mp fallsLow).1 value behind
          refine ends.few_below (fun value member => ?_) all (by simp)
          exact below.trans_le (high value member)

theorem lowInMiddle_deal_iff [Nonempty α] {values : List α} (falls : Falling values) :
    LowInMiddle ((deal values).1 ++ (deal values).2) ↔ Level values :=
  ⟨fun low => level_of_highAtEnds falls low.ends, lowInMiddle_of_level falls⟩

end Orders

end DurableAgent.Library
