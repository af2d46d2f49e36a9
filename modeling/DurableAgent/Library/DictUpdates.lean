import DurableAgent.Library.OrderedDict
import Mathlib.Data.Finset.Card
import Mathlib.Data.Finset.Dedup

/-!
# Series of dictionary updates

What a dictionary holds after a series of assignments: the keys in the order of their
first assignment, and under each the value of its last one.
-/

set_option autoImplicit false

namespace DurableAgent.Library

section FirstOccurrences

variable {α β : Type} [DecidableEq α] [DecidableEq β]

theorem eraseDups_concat (items : List α) (item : α) :
    (items ++ [item]).eraseDups =
      if item ∈ items then items.eraseDups else items.eraseDups ++ [item] := by
  rw [List.eraseDups_append]
  by_cases present : item ∈ items
  · simp [present, List.removeAll]
  · simp [present, List.removeAll, List.eraseDups_cons]

theorem nodup_eraseDups (items : List α) : items.eraseDups.Nodup := by
  induction items using List.reverseRecOn with
  | nil => exact List.nodup_nil
  | append_singleton items item ih =>
      rw [eraseDups_concat]
      split
      · exact ih
      · next absent =>
          have fresh : item ∉ items.eraseDups := fun member => absent (List.mem_eraseDups.mp member)
          rw [← List.concat_eq_append]
          exact ih.concat fresh

theorem eraseDups_sublist (items : List α) : items.eraseDups.Sublist items := by
  induction items using List.reverseRecOn with
  | nil => exact .slnil
  | append_singleton items item ih =>
      rw [eraseDups_concat]
      split
      · exact ih.trans (List.sublist_append_left _ _)
      · exact ih.append (.refl _)

theorem eraseDups_of_nodup {items : List α} (distinct : items.Nodup) :
    items.eraseDups = items := by
  induction items using List.reverseRecOn with
  | nil => rfl
  | append_singleton items item ih =>
      obtain ⟨before, _, apart⟩ := List.nodup_append.mp distinct
      have absent : item ∉ items := fun member =>
        apart item member item (List.mem_singleton_self item) rfl
      rw [eraseDups_concat, if_neg absent, ih before]

theorem length_eraseDups (items : List α) : items.eraseDups.length = items.toFinset.card := by
  have same : items.eraseDups.toFinset = items.toFinset := by
    ext item
    simp
  rw [← same, List.toFinset_card_of_nodup (nodup_eraseDups items)]

/-- Renaming loses none of the items exactly if it keeps them apart. -/
theorem length_eraseDups_map_iff (f : α → β) (items : List α) :
    (items.map f).eraseDups.length = items.eraseDups.length ↔
      ∀ first ∈ items, ∀ second ∈ items, f first = f second → first = second := by
  have image : (items.map f).toFinset = items.toFinset.image f := by
    ext item
    simp
  rw [length_eraseDups, length_eraseDups, image, Finset.card_image_iff]
  simp [Set.InjOn]

theorem eraseDups_map {f : α → β} {items : List α}
    (apart : ∀ first ∈ items, ∀ second ∈ items, f first = f second → first = second) :
    (items.map f).eraseDups = items.eraseDups.map f := by
  induction items using List.reverseRecOn with
  | nil => rfl
  | append_singleton items item ih =>
      have before := ih fun first member second other =>
        apart first (List.mem_append_left _ member) second (List.mem_append_left _ other)
      have renamed : f item ∈ items.map f ↔ item ∈ items := by
        constructor
        · intro present
          obtain ⟨other, member, same⟩ := List.mem_map.mp present
          have equal := apart other (List.mem_append_left _ member) item (by simp) same
          exact equal ▸ member
        · exact fun member => List.mem_map_of_mem member
      rw [List.map_append, List.map_singleton, eraseDups_concat, eraseDups_concat, before]
      by_cases present : item ∈ items
      · rw [if_pos present, if_pos (renamed.mpr present)]
      · rw [if_neg present, if_neg fun member => present (renamed.mp member), List.map_append,
          List.map_singleton]

end FirstOccurrences

namespace OrderedDict

variable {Key Value : Type} [DecidableEq Key]

/-- `dict.update(pairs)`. -/
def insertAll (dict : OrderedDict Key Value) (pairs : List (Key × Value)) :
    OrderedDict Key Value :=
  pairs.foldl (fun current pair => current.insert pair.1 pair.2) dict

/-- `dict(pairs)`. -/
def ofPairs (pairs : List (Key × Value)) : OrderedDict Key Value := empty.insertAll pairs

/-- The value of the last pair with the key. -/
def lastValue (key : Key) (pairs : List (Key × Value)) : Option Value :=
  (pairs.filter fun pair => decide (pair.1 = key)).getLast?.map Prod.snd

theorem insertAll_append (dict : OrderedDict Key Value) (pairs more : List (Key × Value)) :
    dict.insertAll (pairs ++ more) = (dict.insertAll pairs).insertAll more :=
  List.foldl_append

theorem insertAll_concat (dict : OrderedDict Key Value) (pairs : List (Key × Value))
    (pair : Key × Value) :
    dict.insertAll (pairs ++ [pair]) = (dict.insertAll pairs).insert pair.1 pair.2 :=
  insertAll_append dict pairs [pair]

theorem lastValue_concat (key : Key) (pairs : List (Key × Value)) (pair : Key × Value) :
    lastValue key (pairs ++ [pair]) =
      if key = pair.1 then some pair.2 else lastValue key pairs := by
  by_cases same : key = pair.1
  · simp [lastValue, List.filter_append, same]
  · have other : ¬ pair.1 = key := fun equal => same equal.symm
    simp [lastValue, List.filter_append, same, other]

/-- A loop that writes under the keys of its items. -/
theorem keys_foldl_insert {Item : Type} (key : Item → Key)
    (value : OrderedDict Key Value → Item → Value) (dict : OrderedDict Key Value)
    (items : List Item) :
    (items.foldl (fun current item => current.insert (key item) (value current item)) dict).keys =
      (dict.keys ++ items.map key).eraseDups := by
  induction items using List.reverseRecOn with
  | nil => simp [eraseDups_of_nodup dict.keys_nodup]
  | append_singleton items item ih =>
      rw [List.foldl_concat, keys_insert, List.map_append, ← List.append_assoc,
        List.map_singleton, eraseDups_concat, ih]
      simp only [List.mem_eraseDups]

/-- A loop that writes values of its items, under any keys. -/
theorem mem_values_foldl_insert {Item : Type} {key : OrderedDict Key Value → Item → Key}
    (value : Item → Value) {items : List Item} {dict : OrderedDict Key Value} {found : Value}
    (member : found ∈ (items.foldl
      (fun current item => current.insert (key current item) (value item)) dict).values) :
    found ∈ items.map value ∨ found ∈ dict.values := by
  induction items generalizing dict with
  | nil => exact .inr member
  | cons item rest ih =>
      rcases ih member with later | earlier
      · exact .inl (List.mem_cons_of_mem _ later)
      · rcases mem_values_insert earlier with rfl | older
        · exact .inl List.mem_cons_self
        · exact .inr older

theorem keys_insertAll (dict : OrderedDict Key Value) (pairs : List (Key × Value)) :
    (dict.insertAll pairs).keys = (dict.keys ++ pairs.map Prod.fst).eraseDups :=
  keys_foldl_insert Prod.fst (fun _ pair => pair.2) dict pairs

theorem get?_insertAll (dict : OrderedDict Key Value) (pairs : List (Key × Value)) (key : Key) :
    (dict.insertAll pairs).get? key = (lastValue key pairs).or (dict.get? key) := by
  induction pairs using List.reverseRecOn with
  | nil => rfl
  | append_singleton pairs pair ih =>
      rw [insertAll_concat, get?_insert, lastValue_concat, ih]
      split
      · rfl
      · rfl

theorem lastValue_isSome_iff {key : Key} {pairs : List (Key × Value)} :
    (lastValue key pairs).isSome = true ↔ key ∈ pairs.map Prod.fst := by
  induction pairs using List.reverseRecOn with
  | nil => simp [lastValue]
  | append_singleton pairs pair ih =>
      rw [lastValue_concat, List.map_append, List.mem_append, List.map_singleton,
        List.mem_singleton, ← ih]
      split
      · next same => simp [same]
      · next other => simp [other]

theorem values_eq (dict : OrderedDict Key Value) : dict.values = dict.keys.filterMap dict.get? := by
  have each : ∀ entry ∈ dict.entries, (dict.get? ∘ Prod.fst) entry = (some ∘ Prod.snd) entry :=
    fun entry member => get?_eq_some_iff.mpr member
  unfold values keys
  rw [List.filterMap_map, List.filterMap_congr each, List.filterMap_eq_map]

theorem values_ofPairs (pairs : List (Key × Value)) :
    (ofPairs pairs).values =
      (pairs.map Prod.fst).eraseDups.filterMap fun key => lastValue key pairs := by
  have stored : (ofPairs pairs).get? = fun key => lastValue key pairs := by
    funext key
    rw [ofPairs, get?_insertAll, get?_empty, Option.or_none]
  rw [values_eq, stored, ofPairs, keys_insertAll]
  rfl

/-- Names that keep the keys apart do not matter to the values. -/
theorem values_ofPairs_map {Name : Type} [DecidableEq Name] {f : Key → Name}
    {pairs : List (Key × Value)}
    (apart : ∀ first ∈ pairs.map Prod.fst, ∀ second ∈ pairs.map Prod.fst,
      f first = f second → first = second) :
    (ofPairs (pairs.map fun pair => (f pair.1, pair.2))).values = (ofPairs pairs).values := by
  have last : ∀ key ∈ pairs.map Prod.fst,
      lastValue (f key) (pairs.map fun pair => (f pair.1, pair.2)) = lastValue key pairs := by
    intro key member
    have same : pairs.filter (fun pair => decide (f pair.1 = f key)) =
        pairs.filter fun pair => decide (pair.1 = key) := by
      refine List.filter_congr fun pair within => ?_
      rw [decide_eq_decide]
      exact ⟨apart pair.1 (List.mem_map_of_mem within) key member, congrArg f⟩
    unfold lastValue
    rw [List.filter_map, List.getLast?_map, Option.map_map, ← same]
    rfl
  have keys : (pairs.map fun pair => (f pair.1, pair.2)).map Prod.fst =
      (pairs.map Prod.fst).map f := by
    simp [List.map_map, Function.comp_def]
  rw [values_ofPairs, values_ofPairs, keys, eraseDups_map apart, List.filterMap_map]
  exact List.filterMap_congr fun key member => last key (List.mem_eraseDups.mp member)

theorem size_ofPairs (pairs : List (Key × Value)) :
    (ofPairs pairs).size = (pairs.map Prod.fst).eraseDups.length := by
  have keyed : (ofPairs pairs).size = (ofPairs pairs).keys.length := by simp [size, keys]
  rw [keyed, ofPairs, keys_insertAll]
  rfl

theorem mem_of_lastValue {key : Key} {pairs : List (Key × Value)} {value : Value}
    (last : lastValue key pairs = some value) : (key, value) ∈ pairs := by
  obtain ⟨pair, found, rfl⟩ := Option.map_eq_some_iff.mp last
  obtain ⟨member, same⟩ := List.mem_filter.mp (List.mem_of_getLast? found)
  rwa [← of_decide_eq_true same]

theorem lastValue_eq_get? (dict : OrderedDict Key Value) (key : Key) :
    lastValue key dict.entries = dict.get? key := by
  cases last : lastValue key dict.entries with
  | none =>
      have absent : key ∉ dict.keys := by
        intro member
        have present := lastValue_isSome_iff.mpr member
        rw [last] at present
        cases present
      exact (get?_eq_none_iff.mpr absent).symm
  | some value => exact (get?_eq_some_iff.mpr (mem_of_lastValue last)).symm

/-- A dictionary is rebuilt from its own entries. -/
theorem ofPairs_entries (dict : OrderedDict Key Value) : ofPairs dict.entries = dict := by
  refine ext_get? ?_ fun key => ?_
  · rw [ofPairs, keys_insertAll]
    exact eraseDups_of_nodup dict.keys_nodup
  · rw [ofPairs, get?_insertAll, get?_empty, Option.or_none, lastValue_eq_get?]

theorem mem_of_ofPairs {pairs : List (Key × Value)} {entry : Key × Value}
    (member : entry ∈ (ofPairs pairs).entries) : entry ∈ pairs := by
  have stored := get?_eq_some_iff.mpr member
  rw [ofPairs, get?_insertAll, get?_empty, Option.or_none] at stored
  exact mem_of_lastValue stored

/-- The same assignments once more change nothing. -/
theorem insertAll_twice (dict : OrderedDict Key Value) (pairs : List (Key × Value)) :
    (dict.insertAll pairs).insertAll pairs = dict.insertAll pairs := by
  refine ext_get? ?_ fun key => ?_
  · have present : ∀ key ∈ pairs.map Prod.fst, key ∈ (dict.insertAll pairs).keys := by
      intro key member
      rw [keys_insertAll, List.mem_eraseDups]
      exact List.mem_append_right _ member
    have nothing : (pairs.map Prod.fst).removeAll (dict.insertAll pairs).keys = [] := by
      rw [List.removeAll, List.filter_eq_nil_iff]
      intro key member
      simp [present key member]
    rw [keys_insertAll, List.eraseDups_append, eraseDups_of_nodup (keys_nodup _), nothing,
      List.eraseDups_nil, List.append_nil]
  · rw [get?_insertAll, get?_insertAll, ← Option.or_assoc, Option.or_self]

end OrderedDict

end DurableAgent.Library
