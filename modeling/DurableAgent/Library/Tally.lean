import DurableAgent.Library.Arithmetic
import DurableAgent.Library.DictUpdates

/-!
# Tallies

Dictionaries that add up amounts under their keys, `d[key] = d.get(key, 0) + amount`.
-/

set_option autoImplicit false

namespace DurableAgent.Library

namespace OrderedDict

variable {Key Amount : Type} [DecidableEq Key]

section Add

variable [Zero Amount] [Add Amount]

def add (dict : OrderedDict Key Amount) (key : Key) (amount : Amount) : OrderedDict Key Amount :=
  dict.insert key ((dict.get? key).getD 0 + amount)

def addAll (dict : OrderedDict Key Amount) (pairs : List (Key × Amount)) :
    OrderedDict Key Amount :=
  pairs.foldl (fun current pair => current.add pair.1 pair.2) dict

/-- What a series of pairs adds up to for a key. -/
def total (key : Key) (pairs : List (Key × Amount)) : Amount :=
  runningSum ((pairs.filter fun pair => decide (pair.1 = key)).map Prod.snd)

theorem total_concat (key : Key) (pairs : List (Key × Amount)) (pair : Key × Amount) :
    total key (pairs ++ [pair]) =
      if pair.1 = key then total key pairs + pair.2 else total key pairs := by
  by_cases same : pair.1 = key
  · simp [total, List.filter_append, same, runningSum_concat]
  · simp [total, List.filter_append, same]

theorem addAll_concat (dict : OrderedDict Key Amount) (pairs : List (Key × Amount))
    (pair : Key × Amount) :
    dict.addAll (pairs ++ [pair]) = (dict.addAll pairs).add pair.1 pair.2 :=
  List.foldl_concat ..

theorem addAll_append (dict : OrderedDict Key Amount) (pairs more : List (Key × Amount)) :
    (dict.addAll pairs).addAll more = dict.addAll (pairs ++ more) :=
  List.foldl_append.symm

theorem keys_addAll (dict : OrderedDict Key Amount) (pairs : List (Key × Amount)) :
    (dict.addAll pairs).keys = (dict.keys ++ pairs.map Prod.fst).eraseDups :=
  keys_foldl_insert Prod.fst
    (fun current pair => (current.get? pair.1).getD 0 + pair.2) dict pairs

theorem getD_addAll (pairs : List (Key × Amount)) (key : Key) :
    (((empty : OrderedDict Key Amount).addAll pairs).get? key).getD 0 = total key pairs := by
  induction pairs using List.reverseRecOn with
  | nil => rfl
  | append_singleton pairs pair ih =>
      rw [addAll_concat, add, get?_insert, total_concat]
      split
      · next same =>
          subst same
          rw [Option.getD_some, if_pos rfl, ih]
      · next other => rw [ih, if_neg fun same => other same.symm]

/-- A tally has the sum for each of the keys. -/
theorem mem_addAll_iff {pairs : List (Key × Amount)} {entry : Key × Amount} :
    entry ∈ ((empty : OrderedDict Key Amount).addAll pairs).entries ↔
      entry.1 ∈ pairs.map Prod.fst ∧ entry.2 = total entry.1 pairs := by
  have keyed : entry.1 ∈ ((empty : OrderedDict Key Amount).addAll pairs).keys ↔
      entry.1 ∈ pairs.map Prod.fst := by
    rw [keys_addAll, List.mem_eraseDups, keys_empty, List.nil_append]
  rw [← keyed, ← get?_eq_some_iff, ← get?_isSome_iff, ← getD_addAll]
  cases ((empty : OrderedDict Key Amount).addAll pairs).get? entry.1 with
  | none => simp
  | some amount => simp [eq_comm]

theorem get?_addAll (pairs : List (Key × Amount)) (key : Key) :
    ((empty : OrderedDict Key Amount).addAll pairs).get? key =
      if key ∈ pairs.map Prod.fst then some (total key pairs) else none := by
  split
  · next among => exact get?_eq_some_iff.mpr (mem_addAll_iff.mpr ⟨among, rfl⟩)
  · next absent =>
      rw [get?_eq_none_iff, keys_addAll, List.mem_eraseDups, keys_empty, List.nil_append]
      exact absent

theorem entries_addAll (pairs : List (Key × Amount)) :
    ((empty : OrderedDict Key Amount).addAll pairs).entries =
      (pairs.map Prod.fst).eraseDups.map fun key => (key, total key pairs) := by
  have keyed := keys_addAll (empty : OrderedDict Key Amount) pairs
  rw [keys_empty, List.nil_append] at keyed
  rw [← keyed, keys, List.map_map]
  conv_lhs => rw [← List.map_id ((empty : OrderedDict Key Amount).addAll pairs).entries]
  exact List.map_congr_left fun entry member =>
    Prod.ext rfl (mem_addAll_iff.mp member).2

omit [Zero Amount] [Add Amount] in
/-- Pairs of distinct keys have at most one for a key. -/
theorem filter_pairs {keys : List Key} (distinct : keys.Nodup) (amount : Key → Amount)
    (key : Key) :
    (keys.map fun other => (other, amount other)).filter (fun pair => decide (pair.1 = key)) =
      if key ∈ keys then [(key, amount key)] else [] := by
  rw [List.filter_map]
  have own : keys.filter ((fun pair => decide (pair.1 = key)) ∘ fun other =>
      (other, amount other)) = if key ∈ keys then [key] else [] := by
    split
    · next among => exact (List.filter_eq _).trans (by simp [distinct.count, among])
    · next absent =>
        refine List.filter_eq_nil_iff.mpr fun other member => ?_
        simpa using fun same : other = key => absent (same ▸ member)
  rw [own]
  split
  · rfl
  · rfl

/-- A key is added to once by each of the groups that have it. -/
theorem total_flatMap {Group : Type} (key : Key) (groups : List Group)
    {members : Group → List Key} (distinct : ∀ group, (members group).Nodup)
    (amount : Group → Key → Amount) :
    total key (groups.flatMap fun group =>
        (members group).map fun other => (other, amount group other)) =
      runningSum ((groups.filter fun group => decide (key ∈ members group)).map fun group =>
        amount group key) := by
  rw [total, List.filter_flatMap]
  simp only [filter_pairs (distinct _)]
  refine congrArg runningSum ?_
  induction groups with
  | nil => rfl
  | cons group rest ih =>
      rw [List.flatMap_cons, List.map_append, ih, List.filter_cons]
      split
      · next among => simp [among]
      · next absent => simp [absent]

end Add

/-! ## Exact sums -/

section Sums

variable [AddMonoid Amount]

theorem total_eq_sum (key : Key) (pairs : List (Key × Amount)) :
    total key pairs = ((pairs.filter fun pair => decide (pair.1 = key)).map Prod.snd).sum :=
  runningSum_eq_sum _

theorem total_append (key : Key) (pairs more : List (Key × Amount)) :
    total key (pairs ++ more) = total key pairs + total key more := by
  simp [total_eq_sum]

theorem total_map {keys : List Key} (distinct : keys.Nodup) (amount : Key → Amount) (key : Key) :
    total key (keys.map fun other => (other, amount other)) =
      if key ∈ keys then amount key else 0 := by
  rw [total_eq_sum, filter_pairs distinct]
  split
  · simp
  · rfl

end Sums

end OrderedDict

end DurableAgent.Library
