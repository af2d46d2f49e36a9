import DurableAgent.Graph.Reducers
import DurableAgent.Library.DictUpdates
import DurableAgent.Python.Text

/-!
# What merging keeps

`reduce_artifact_refs` as an update of the entries in place. An entry without an
identifier gets a generated key on the right, and an identifier may be the same text.
-/

set_option autoImplicit false

namespace DurableAgent.Graph

open Library OrderedDict

variable {α : Type} [Mapping α]

/-- An entry's `artifact_id`, else its `job_id`. -/
def identifier (item : α) : Option String := (Mapping.artifactId item).or (Mapping.jobId item)

/-- Entries with one identifier share their slot, any other entry has one of its own. -/
inductive Slot where
  | named (identifier : String)
  | anonymous (position : Nat)
  deriving DecidableEq, Repr

def slotOf (item : α) (position : Nat) : Slot :=
  match identifier item with
  | some identifier => .named identifier
  | none => .anonymous position

def slotted (entries : List α) : List (Slot × α) :=
  entries.zipIdx.map fun entry => (slotOf entry.1 entry.2, entry.1)

def slots (entries : List α) : List Slot := (slotted entries).map Prod.fst

/-- The last entry of each slot, in the order of the first ones. -/
def upserted (entries : List α) : List α :=
  (slots entries).eraseDups.filterMap fun slot => lastValue slot (slotted entries)

def slotCount (entries : List α) : Nat := (slots entries).eraseDups.length

def genKey (size : Nat) : String := "gen_" ++ size.repr

/-- No identifier is the key that is generated for an entry on the right. -/
def Unclaimed (left right : List α) : Prop :=
  ∀ before item behind, right = before ++ item :: behind → identifier item = none →
    ∀ entry ∈ left ++ right, identifier entry ≠ some (genKey (slotCount (left ++ before)))

/-! ## Slots -/

theorem slotted_concat (entries : List α) (item : α) :
    slotted (entries ++ [item]) = slotted entries ++ [(slotOf item entries.length, item)] := by
  simp [slotted, List.zipIdx_append]

theorem slots_concat (entries : List α) (item : α) :
    slots (entries ++ [item]) = slots entries ++ [slotOf item entries.length] := by
  simp [slots, slotted_concat]

theorem slotted_items (entries : List α) : (slotted entries).map Prod.snd = entries := by
  simp [slotted, List.map_map, Function.comp_def]

theorem named_mem_slots {entries : List α} {name : String} :
    Slot.named name ∈ slots entries ↔ ∃ entry ∈ entries, identifier entry = some name := by
  induction entries using List.reverseRecOn with
  | nil => simp [slots, slotted]
  | append_singleton entries item ih =>
      rw [slots_concat, List.mem_append, ih, List.mem_singleton]
      cases found : identifier item with
      | none => simp [slotOf, found, or_and_right, exists_or]
      | some other => simp [slotOf, found, or_and_right, exists_or, eq_comm]

theorem anonymous_mem_slots {entries : List α} {position : Nat}
    (member : Slot.anonymous position ∈ slots entries) :
    ∃ before item behind, entries = before ++ item :: behind ∧ before.length = position ∧
      identifier item = none := by
  induction entries using List.reverseRecOn with
  | nil => simp [slots, slotted] at member
  | append_singleton entries item ih =>
      rw [slots_concat, List.mem_append, List.mem_singleton] at member
      rcases member with earlier | last
      · obtain ⟨before, found, behind, rfl, length, nameless⟩ := ih earlier
        exact ⟨before, found, behind ++ [item], by simp, length, nameless⟩
      · refine ⟨entries, item, [], rfl, ?_⟩
        cases found : identifier item with
        | none => simpa [slotOf, found, eq_comm] using last
        | some other => simp [slotOf, found] at last

theorem slotCount_concat (entries : List α) (item : α) :
    slotCount (entries ++ [item]) =
      if slotOf item entries.length ∈ slots entries then slotCount entries
      else slotCount entries + 1 := by
  unfold slotCount
  rw [slots_concat, eraseDups_concat]
  split
  · rfl
  · simp

theorem slotCount_le (entries more : List α) : slotCount entries ≤ slotCount (entries ++ more) := by
  induction more using List.reverseRecOn with
  | nil => simp
  | append_singleton more item ih =>
      rw [← List.append_assoc, slotCount_concat]
      split
      · exact ih
      · omega

/-- An entry without an identifier takes a slot of its own. -/
theorem slotOf_fresh {item : α} (nameless : identifier item = none) (entries : List α) :
    slotOf item entries.length ∉ slots entries := by
  intro member
  simp only [slotOf, nameless] at member
  obtain ⟨front, _, back, rfl, length, _⟩ := anonymous_mem_slots member
  simp at length

theorem slotCount_lt {before : List α} {item : α} (nameless : identifier item = none)
    (behind : List α) : slotCount before < slotCount (before ++ item :: behind) := by
  have grown : slotCount (before ++ [item]) = slotCount before + 1 := by
    rw [slotCount_concat, if_neg (slotOf_fresh nameless before)]
  have rest := slotCount_le (before ++ [item]) behind
  rw [List.append_assoc, List.singleton_append] at rest
  omega

/-! ## The keys of the merged dictionary -/

def merged (left right : List α) : OrderedDict MergeKey α := right.foldl upsertRef (seedRefs left)

theorem merged_concat (left right : List α) (item : α) :
    merged left (right ++ [item]) = upsertRef (merged left right) item :=
  List.foldl_concat ..

/-- The key under which a slot is merged. -/
def keyOf (left right : List α) : Slot → MergeKey
  | .named identifier => .text identifier
  | .anonymous position =>
      if position < left.length then .index position
      else .text (genKey (merged left (right.take (position - left.length))).size)

theorem mergeKey_eq (item : α) (default : MergeKey) :
    mergeKey item default = (identifier item).elim default .text := by
  unfold mergeKey identifier
  cases Mapping.artifactId item with
  | some found => rfl
  | none =>
      cases Mapping.jobId item with
      | some found => rfl
      | none => rfl

theorem keyOf_concat {left right : List α} {item : α} {slot : Slot}
    (member : slot ∈ slots (left ++ right)) :
    keyOf left (right ++ [item]) slot = keyOf left right slot := by
  cases slot with
  | named name => rfl
  | anonymous position =>
      obtain ⟨before, found, behind, split, rfl, _⟩ := anonymous_mem_slots member
      have bound := congrArg List.length split
      simp only [List.length_append, List.length_cons] at bound
      simp only [keyOf]
      rw [List.take_append_of_le_length (by omega)]

theorem merged_eq (left right : List α) :
    merged left right = ofPairs ((slotted (left ++ right)).map fun entry =>
      (keyOf left right entry.1, entry.2)) := by
  induction right using List.reverseRecOn with
  | nil =>
      have pairs : left.zipIdx.map (fun entry => (mergeKey entry.1 (.index entry.2), entry.1)) =
          (slotted left).map fun entry => (keyOf left [] entry.1, entry.2) := by
        unfold slotted
        rw [List.map_map]
        refine List.map_congr_left fun entry member => ?_
        have bound := (List.mem_zipIdx' member).1
        rw [mergeKey_eq]
        cases found : identifier entry.1 with
        | none => simp [slotOf, found, keyOf, bound]
        | some name => simp [slotOf, found, keyOf]
      rw [List.append_nil, ← pairs, ofPairs, insertAll, List.foldl_map]
      rfl
  | append_singleton right item ih =>
      have last : mergeKey item (.text ("gen_" ++ (merged left right).size.repr)) =
          keyOf left (right ++ [item]) (slotOf item (left ++ right).length) := by
        rw [mergeKey_eq]
        cases found : identifier item with
        | none => simp [slotOf, found, keyOf, genKey]
        | some name => simp [slotOf, found, keyOf]
      have earlier : (slotted (left ++ right)).map
            (fun entry => (keyOf left (right ++ [item]) entry.1, entry.2)) =
          (slotted (left ++ right)).map fun entry => (keyOf left right entry.1, entry.2) := by
        refine List.map_congr_left fun entry member => ?_
        rw [keyOf_concat (List.mem_map_of_mem member)]
      rw [merged_concat, ← List.append_assoc, slotted_concat, List.map_append, List.map_singleton,
        earlier, ofPairs, insertAll_concat]
      unfold upsertRef
      rw [last, ih]
      rfl

/-- Different slots are merged under different keys. -/
def KeysApart (left right : List α) : Prop :=
  ∀ first ∈ slots (left ++ right), ∀ second ∈ slots (left ++ right),
    keyOf left right first = keyOf left right second → first = second

theorem keys_slotted (left right : List α) :
    ((slotted (left ++ right)).map fun entry => (keyOf left right entry.1, entry.2)).map Prod.fst =
      (slots (left ++ right)).map (keyOf left right) := by
  simp [slots, List.map_map, Function.comp_def]

theorem merged_size_iff (left right : List α) :
    (merged left right).size = slotCount (left ++ right) ↔ KeysApart left right := by
  rw [merged_eq, size_ofPairs, keys_slotted]
  exact length_eraseDups_map_iff (keyOf left right) (slots (left ++ right))

theorem keyOf_generated (left before : List α) (item : α) (behind : List α) :
    keyOf left (before ++ item :: behind) (.anonymous (left ++ before).length) =
      .text (genKey (merged left before).size) := by
  simp [keyOf]

theorem slot_mem (before : List α) (item : α) (behind : List α) :
    slotOf item before.length ∈ slots (before ++ item :: behind) := by
  simp [slots, slotted, List.zipIdx_append]

theorem KeysApart.init {left right : List α} {item : α}
    (apart : KeysApart left (right ++ [item])) : KeysApart left right := by
  have grown : ∀ slot ∈ slots (left ++ right), slot ∈ slots (left ++ (right ++ [item])) := by
    intro slot member
    rw [← List.append_assoc, slots_concat]
    exact List.mem_append_left _ member
  intro first member second other same
  have kept : keyOf left (right ++ [item]) second = keyOf left right second := keyOf_concat other
  rw [← keyOf_concat member, ← kept] at same
  exact apart first (grown first member) second (grown second other) same

theorem KeysApart.before {left before behind : List α}
    (apart : KeysApart left (before ++ behind)) : KeysApart left before := by
  induction behind using List.reverseRecOn with
  | nil => simpa using apart
  | append_singleton behind item ih =>
      rw [← List.append_assoc] at apart
      exact ih apart.init

theorem KeysApart.unclaimed {left right : List α} (apart : KeysApart left right) :
    Unclaimed left right := by
  rintro before item behind rfl nameless entry member named
  have size := (merged_size_iff left before).mpr apart.before
  have own : Slot.anonymous (left ++ before).length ∈ slots (left ++ (before ++ item :: behind)) := by
    have placed := slot_mem (left ++ before) item behind
    rw [slotOf, nameless] at placed
    simpa using placed
  have same : keyOf left (before ++ item :: behind) (.anonymous (left ++ before).length) =
      keyOf left (before ++ item :: behind)
        (.named (genKey (slotCount (left ++ before)))) := by
    rw [keyOf_generated, size]
    rfl
  cases apart _ own _ (named_mem_slots.mpr ⟨entry, member, named⟩) same

theorem Unclaimed.init {left right : List α} {item : α}
    (unclaimed : Unclaimed left (right ++ [item])) : Unclaimed left right := by
  rintro before found behind rfl nameless entry member
  refine unclaimed before found (behind ++ [item]) (by simp) nameless entry ?_
  rw [← List.append_assoc]
  exact List.mem_append_left _ member

theorem genKey_injective {size other : Nat} (same : genKey size = genKey other) : size = other :=
  Python.repr_injective ((String.append_right_inj _).mp same)

theorem KeysApart.generated {left before : List α} {item : α} {behind : List α}
    (apart : KeysApart left (before ++ item :: behind)) :
    keyOf left (before ++ item :: behind) (.anonymous (left ++ before).length) =
      .text (genKey (slotCount (left ++ before))) := by
  rw [keyOf_generated, (merged_size_iff left before).mpr apart.before]

theorem anonymous_left_or_right {left right : List α} {position : Nat}
    (member : Slot.anonymous position ∈ slots (left ++ right)) :
    position < left.length ∨ ∃ before item behind, right = before ++ item :: behind ∧
      identifier item = none ∧ position = (left ++ before).length := by
  obtain ⟨front, item, behind, split, rfl, nameless⟩ := anonymous_mem_slots member
  rcases List.append_eq_append_iff.mp split with ⟨gap, rfl, rest⟩ | ⟨gap, rfl, rest⟩
  · exact .inr ⟨gap, item, behind, rest, nameless, rfl⟩
  · cases gap with
    | nil => exact .inr ⟨[], item, behind, rest.symm, nameless, by simp⟩
    | cons first gap => exact .inl (by simp)

/-- The keys of an earlier slot and of the last one differ where no identifier is the
generated key. -/
theorem keyOf_fresh {left right : List α} {item : α}
    (unclaimed : Unclaimed left (right ++ [item])) (apart : KeysApart left right)
    {slot : Slot} (member : slot ∈ slots (left ++ right))
    (same : keyOf left (right ++ [item]) slot =
      keyOf left (right ++ [item]) (slotOf item (left ++ right).length)) :
    slot = slotOf item (left ++ right).length := by
  rw [keyOf_concat member] at same
  cases found : identifier item with
  | some name =>
      simp only [slotOf, found] at same ⊢
      cases slot with
      | named other =>
          cases same
          rfl
      | anonymous position =>
          rcases anonymous_left_or_right member with inLeft | ⟨before, other, behind, rfl, absent, rfl⟩
          · simp [keyOf, inLeft] at same
          · rw [apart.generated] at same
            cases same
            exact absurd found (unclaimed before other (behind ++ [item]) (by simp) absent item
              (by simp))
  | none =>
      simp only [slotOf, found] at same ⊢
      rw [keyOf_generated, (merged_size_iff left right).mpr apart] at same
      cases slot with
      | named other =>
          cases same
          obtain ⟨entry, within, named⟩ := named_mem_slots.mp member
          have present : entry ∈ left ++ (right ++ [item]) := by
            rw [← List.append_assoc]
            exact List.mem_append_left _ within
          exact absurd named (unclaimed right item [] rfl found entry present)
      | anonymous position =>
          rcases anonymous_left_or_right member with inLeft | ⟨before, other, behind, rfl, absent, rfl⟩
          · simp [keyOf, inLeft] at same
          · rw [apart.generated] at same
            have sizes := genKey_injective (MergeKey.text.inj same)
            have less : slotCount (left ++ before) < slotCount (left ++ before ++ other :: behind) :=
              slotCount_lt absent behind
            rw [List.append_assoc] at less
            omega

theorem Unclaimed.keysApart {left right : List α} (unclaimed : Unclaimed left right) :
    KeysApart left right := by
  induction right using List.reverseRecOn with
  | nil =>
      intro first member second other same
      rw [List.append_nil] at member other
      have index : ∀ {position}, Slot.anonymous position ∈ slots left →
          keyOf left [] (.anonymous position) = .index position := by
        intro position member
        obtain ⟨before, _, behind, rfl, rfl, _⟩ := anonymous_mem_slots member
        simp [keyOf]
      cases first with
      | named name =>
          cases second with
          | named other => exact congrArg Slot.named (MergeKey.text.inj same)
          | anonymous position =>
              rw [index other] at same
              cases same
      | anonymous position =>
          rw [index member] at same
          cases second with
          | named other => cases same
          | anonymous beside =>
              rw [index other] at same
              exact congrArg Slot.anonymous (MergeKey.index.inj same)
  | append_singleton right item ih =>
      have earlier := ih unclaimed.init
      intro first member second other same
      rw [← List.append_assoc, slots_concat, List.mem_append, List.mem_singleton] at member other
      rcases member with before | rfl
      · rcases other with beside | rfl
        · rw [keyOf_concat before, keyOf_concat beside] at same
          exact earlier first before second beside same
        · exact keyOf_fresh unclaimed earlier before same
      · rcases other with beside | rfl
        · exact (keyOf_fresh unclaimed earlier beside same.symm).symm
        · rfl

theorem keysApart_iff (left right : List α) : KeysApart left right ↔ Unclaimed left right :=
  ⟨KeysApart.unclaimed, Unclaimed.keysApart⟩

/-! ## What merging keeps -/

theorem upserted_eq (entries : List α) : upserted entries = (ofPairs (slotted entries)).values :=
  (values_ofPairs (slotted entries)).symm

theorem length_upserted (entries : List α) : (upserted entries).length = slotCount entries := by
  have size : (ofPairs (slotted entries)).values.length = (ofPairs (slotted entries)).size := by
    simp [values, OrderedDict.size]
  rw [upserted_eq, size, size_ofPairs]
  rfl

theorem KeysApart.reduceArtifactRefs {left right : List α} (apart : KeysApart left right) :
    reduceArtifactRefs (some left) (some right) = upserted (left ++ right) := by
  have run : Graph.reduceArtifactRefs (some left) (some right) = (merged left right).values := rfl
  rw [run, merged_eq, upserted_eq]
  exact values_ofPairs_map apart

/-- Each identifier keeps its last entry, and no entry without one is lost. -/
structure Lossless (entries result : List α) : Prop where
  named : ∀ name, result.filter (fun item => decide (identifier item = some name)) =
    (entries.filter fun item => decide (identifier item = some name)).getLast?.toList
  anonymous : result.filter (fun item => decide (identifier item = none)) =
    entries.filter fun item => decide (identifier item = none)

theorem slotted_slot {entries : List α} {entry : Slot × α} (member : entry ∈ slotted entries) :
    ∃ position, entry.1 = slotOf entry.2 position := by
  obtain ⟨placed, _, rfl⟩ := List.mem_map.mp member
  exact ⟨placed.2, rfl⟩

theorem slotOf_eq_named_iff {item : α} {position : Nat} {name : String} :
    slotOf item position = .named name ↔ identifier item = some name := by
  cases found : identifier item with
  | none => simp [slotOf, found]
  | some other => simp [slotOf, found]

theorem lastValue_named (entries : List α) (name : String) :
    lastValue (.named name) (slotted entries) =
      (entries.filter fun item => decide (identifier item = some name)).getLast? := by
  have same : (slotted entries).filter (fun entry => decide (entry.1 = .named name)) =
      (slotted entries).filter fun entry => decide (identifier entry.2 = some name) := by
    refine List.filter_congr fun entry member => ?_
    obtain ⟨position, slot⟩ := slotted_slot member
    rw [slot, decide_eq_decide]
    exact slotOf_eq_named_iff
  have items : ((slotted entries).filter fun entry => decide (identifier entry.2 = some name)).map
      Prod.snd = entries.filter fun item => decide (identifier item = some name) := by
    conv_rhs => rw [← slotted_items entries]
    rw [List.filter_map]
    rfl
  rw [lastValue, ← List.getLast?_map, same, items]

theorem filterMap_only {β γ : Type} [DecidableEq β] {items : List β} (distinct : items.Nodup)
    {f : β → Option γ} {only : β} (elsewhere : ∀ item ∈ items, item ≠ only → f item = none)
    (absent : only ∉ items → f only = none) : items.filterMap f = (f only).toList := by
  induction items with
  | nil => simp [absent]
  | cons item rest ih =>
      obtain ⟨fresh, distinct⟩ := List.nodup_cons.mp distinct
      by_cases here : item = only
      · subst here
        have nothing : rest.filterMap f = [] := by
          rw [List.filterMap_eq_nil_iff]
          intro other member
          refine elsewhere other (List.mem_cons_of_mem _ member) fun same => fresh ?_
          exact same ▸ member
        cases found : f item with
        | none => simp [found, nothing]
        | some value => simp [found, nothing]
      · have silent := elsewhere item List.mem_cons_self here
        rw [List.filterMap_cons_none silent]
        refine ih distinct (fun other member => elsewhere other (List.mem_cons_of_mem _ member))
          fun missing => absent ?_
        simp [missing, Ne.symm here]

theorem lastValue_slot {entries : List α} {slot : Slot} {item : α}
    (last : lastValue slot (slotted entries) = some item) :
    ∃ position, slot = slotOf item position :=
  slotted_slot (mem_of_lastValue last)

theorem upserted_named (entries : List α) (name : String) :
    (upserted entries).filter (fun item => decide (identifier item = some name)) =
      (entries.filter fun item => decide (identifier item = some name)).getLast?.toList := by
  have kept : (lastValue (.named name) (slotted entries)).filter
      (fun item => decide (identifier item = some name)) =
        lastValue (.named name) (slotted entries) := by
    cases last : lastValue (.named name) (slotted entries) with
    | none => rfl
    | some item =>
        obtain ⟨position, slot⟩ := lastValue_slot last
        exact Option.filter_some_eq_some.mpr
          (decide_eq_true (slotOf_eq_named_iff.mp slot.symm))
  rw [upserted, List.filter_filterMap, ← lastValue_named, ← kept]
  refine filterMap_only (nodup_eraseDups _) (fun slot _ other => ?_) fun absent => ?_
  · rw [Option.filter_eq_none_iff]
    intro item last named
    obtain ⟨position, placed⟩ := lastValue_slot last
    exact other (placed.trans (slotOf_eq_named_iff.mpr (of_decide_eq_true named)))
  · have missing : lastValue (.named name) (slotted entries) = none := by
      rw [← Option.not_isSome_iff_eq_none, lastValue_isSome_iff]
      exact fun member => absent (List.mem_eraseDups.mpr member)
    rw [missing]
    rfl

/-- The entry of an identifier's slot is not one without an identifier. -/
theorem lastValue_identified {entries : List α} {name : String} :
    (lastValue (.named name) (slotted entries)).filter
      (fun item => decide (identifier item = none)) = none := by
  rw [Option.filter_eq_none_iff]
  intro item last nameless
  obtain ⟨position, slot⟩ := lastValue_slot last
  have named := slotOf_eq_named_iff.mp slot.symm
  simp [named] at nameless

theorem upserted_anonymous (entries : List α) :
    (upserted entries).filter (fun item => decide (identifier item = none)) =
      entries.filter fun item => decide (identifier item = none) := by
  induction entries using List.reverseRecOn with
  | nil => rfl
  | append_singleton entries item ih =>
      rw [upserted, List.filter_filterMap] at ih ⊢
      cases found : identifier item with
      | some name =>
          have slot : slotOf item entries.length = .named name := by simp [slotOf, found]
          have same : ∀ other : Slot, (lastValue other (slotted (entries ++ [item]))).filter
                (fun item => decide (identifier item = none)) =
              (lastValue other (slotted entries)).filter
                fun item => decide (identifier item = none) := by
            intro other
            by_cases here : other = slotOf item entries.length
            · rw [here, slot, lastValue_identified, lastValue_identified]
            · rw [slotted_concat, lastValue_concat, if_neg here]
          simp only [same]
          rw [slots_concat, eraseDups_concat, slot]
          split
          · simp [ih, found]
          · simp [ih, found, lastValue_identified]
      | none =>
          have absent := slotOf_fresh found entries
          have earlier : ∀ slot ∈ (slots entries).eraseDups,
              lastValue slot (slotted (entries ++ [item])) = lastValue slot (slotted entries) := by
            intro slot member
            rw [slotted_concat, lastValue_concat, if_neg]
            rintro rfl
            exact absent (List.mem_eraseDups.mp member)
          rw [slots_concat, eraseDups_concat, if_neg absent, List.filterMap_append, List.filter_append]
          congr 1
          · rw [← ih]
            exact List.filterMap_congr fun slot member => by rw [earlier slot member]
          · have kept : (some item).filter (fun item => decide (identifier item = none)) = some item :=
              Option.filter_some_eq_some.mpr (decide_eq_true found)
            simp [slotted_concat, lastValue_concat, kept, found]

theorem upserted_lossless (entries : List α) : Lossless entries (upserted entries) :=
  ⟨upserted_named entries, upserted_anonymous entries⟩

/-- Merging updates the entries in place exactly if no identifier is the key that is
generated for an entry without one. -/
theorem reduceArtifactRefs_upserts_iff (left right : List α) :
    reduceArtifactRefs (some left) (some right) = upserted (left ++ right) ↔
      Unclaimed left right := by
  rw [← keysApart_iff]
  constructor
  · intro upserts
    rw [← merged_size_iff, ← length_upserted, ← upserts]
    simp [reduceArtifactRefs, merged, values, OrderedDict.size]
  · exact KeysApart.reduceArtifactRefs

/-- `dict` entries with text values. -/
instance : Mapping (OrderedDict String String) where
  artifactId entry := entry.get? "artifact_id"
  jobId entry := entry.get? "job_id"

/-- A report named `gen_1`, followed by a note without an identifier. -/
theorem reduceArtifactRefs_loses_report :
    let report : OrderedDict String String := .ofPairs [("artifact_id", "gen_1")]
    let note : OrderedDict String String := .ofPairs [("note", "revised")]
    reduceArtifactRefs (some [report]) (some [note]) = [note] ∧
      ¬ Lossless ([report] ++ [note]) (reduceArtifactRefs (some [report]) (some [note])) := by
  refine ⟨by decide, fun lossless => ?_⟩
  have found := lossless.named "gen_1"
  revert found
  decide

/-! ## Batches and replays -/

section Updates

variable {β : Type}

/-- Two updates one after the other have the effect of both at once. -/
def Splits (reduce : Option (List β) → Option (List β) → List β) (valid : List β → Prop) : Prop :=
  ∀ left first second, valid left → valid first → valid second →
    reduce (some (reduce (some left) (some first))) (some second) =
      reduce (some left) (some (first ++ second))

/-- The same update once more changes nothing. -/
def Replays (reduce : Option (List β) → Option (List β) → List β) (valid : List β → Prop) : Prop :=
  ∀ left right, valid left → valid right →
    reduce (some (reduce (some left) (some right))) (some right) = reduce (some left) (some right)

end Updates

theorem appendUnseen_present {result : List String} {item : String} (present : item ∈ result) :
    appendUnseen result item = result :=
  if_pos present

theorem foldl_appendUnseen_present {result right : List String}
    (present : ∀ item ∈ right, item ∈ result) : right.foldl appendUnseen result = result := by
  induction right with
  | nil => rfl
  | cons item rest ih =>
      rw [List.foldl_cons, appendUnseen_present (present item List.mem_cons_self)]
      exact ih fun other member => present other (List.mem_cons_of_mem _ member)

theorem prefix_foldl_appendUnseen (left right : List String) :
    left <+: right.foldl appendUnseen left := by
  induction right using List.reverseRecOn with
  | nil => exact List.prefix_rfl
  | append_singleton right item ih =>
      rw [List.foldl_concat, appendUnseen]
      split
      · exact ih
      · exact ih.trans (List.prefix_append _ _)

theorem nodup_foldl_appendUnseen {left : List String} (distinct : left.Nodup)
    (right : List String) : (right.foldl appendUnseen left).Nodup := by
  induction right using List.reverseRecOn with
  | nil => exact distinct
  | append_singleton right item ih =>
      rw [List.foldl_concat, appendUnseen]
      split
      · exact ih
      · next fresh =>
          rw [← List.concat_eq_append]
          exact ih.concat fresh

theorem reduceUniqueStrList_splits : Splits reduceUniqueStrList fun _ => True :=
  fun _ _ _ _ _ _ => List.foldl_append.symm

theorem reduceUniqueStrList_replays : Replays reduceUniqueStrList fun _ => True := by
  intro left right _ _
  refine foldl_appendUnseen_present fun item member => ?_
  exact mem_reduceUniqueStrList.mpr (.inr member)

/-- Every entry has an identifier. -/
def Identified (entries : List α) : Prop := ∀ entry ∈ entries, identifier entry ≠ none

/-- An entry under its identifier; one without is not looked at. -/
def placed (item : α) : MergeKey × α := (mergeKey item (.index 0), item)

theorem keyOf_slotOf {left right : List α} {item : α} {position : Nat}
    (identified : identifier item ≠ none) :
    keyOf left right (slotOf item position) = mergeKey item (.index 0) := by
  rw [mergeKey_eq]
  cases found : identifier item with
  | none => exact absurd found identified
  | some name => simp [slotOf, found, keyOf]

theorem merged_identified {left right : List α} (leftIdentified : Identified left)
    (rightIdentified : Identified right) :
    merged left right = ofPairs ((left ++ right).map placed) := by
  have same : (slotted (left ++ right)).map (fun entry => (keyOf left right entry.1, entry.2)) =
      ((slotted (left ++ right)).map Prod.snd).map placed := by
    rw [List.map_map]
    refine List.map_congr_left fun entry member => ?_
    obtain ⟨position, slot⟩ := slotted_slot member
    have within : entry.2 ∈ left ++ right := by
      rw [← slotted_items (left ++ right)]
      exact List.mem_map_of_mem member
    have identified : identifier entry.2 ≠ none :=
      (List.mem_append.mp within).elim (leftIdentified _) (rightIdentified _)
    rw [slot, keyOf_slotOf identified]
    rfl
  rw [merged_eq, same, slotted_items]

theorem Identified.append {left right : List α} (first : Identified left)
    (second : Identified right) : Identified (left ++ right) :=
  fun entry member => (List.mem_append.mp member).elim (first entry) (second entry)

theorem Identified.reduceArtifactRefs {left right : List α} (leftIdentified : Identified left)
    (rightIdentified : Identified right) :
    Identified (reduceArtifactRefs (some left) (some right)) :=
  fun entry member =>
    (mem_reduceArtifactRefs member).elim (leftIdentified entry) (rightIdentified entry)

/-- What is stored under its own identifier is stored there again. -/
theorem placed_values (items : List α) :
    (ofPairs (items.map placed)).values.map placed = (ofPairs (items.map placed)).entries := by
  unfold values
  rw [List.map_map]
  conv_rhs => rw [← List.map_id (ofPairs (items.map placed)).entries]
  refine List.map_congr_left fun entry member => ?_
  obtain ⟨item, _, rfl⟩ := List.mem_map.mp (mem_of_ofPairs member)
  rfl

/-- The dictionary is rebuilt from the merged entries. -/
theorem merged_merged {left first second : List α} (leftIdentified : Identified left)
    (firstIdentified : Identified first) (secondIdentified : Identified second) :
    merged (reduceArtifactRefs (some left) (some first)) second =
      (merged left first).insertAll (second.map placed) := by
  have result : reduceArtifactRefs (some left) (some first) = (merged left first).values := rfl
  rw [merged_identified (leftIdentified.reduceArtifactRefs firstIdentified) secondIdentified,
    result, merged_identified leftIdentified firstIdentified, List.map_append, placed_values,
    ofPairs, insertAll_append]
  exact congrArg (insertAll · _) (ofPairs_entries _)

theorem reduceArtifactRefs_splits : Splits reduceArtifactRefs fun entries : List α => Identified entries := by
  intro left first second leftIdentified firstIdentified secondIdentified
  have joined : merged left (first ++ second) =
      (merged left first).insertAll (second.map placed) := by
    rw [merged_identified leftIdentified (firstIdentified.append secondIdentified),
      merged_identified leftIdentified firstIdentified, ← List.append_assoc, List.map_append,
      ofPairs, insertAll_append]
    rfl
  have run := merged_merged leftIdentified firstIdentified secondIdentified
  exact congrArg values (run.trans joined.symm)

theorem reduceArtifactRefs_replays : Replays reduceArtifactRefs fun entries : List α => Identified entries := by
  intro left right leftIdentified rightIdentified
  have again : (merged left right).insertAll (right.map placed) = merged left right := by
    rw [merged_identified leftIdentified rightIdentified, List.map_append, ofPairs,
      insertAll_append, insertAll_twice]
  have run := merged_merged leftIdentified rightIdentified rightIdentified
  exact congrArg values (run.trans again)

theorem reduceArtifactRefs_distinct {left right : List α} (leftIdentified : Identified left)
    (rightIdentified : Identified right) :
    ((reduceArtifactRefs (some left) (some right)).map identifier).Nodup := by
  have keys : (merged left right).keys =
      (reduceArtifactRefs (some left) (some right)).map fun item => mergeKey item (.index 0) := by
    have result : reduceArtifactRefs (some left) (some right) = (merged left right).values := rfl
    rw [result, merged_identified leftIdentified rightIdentified, keys,
      ← placed_values, List.map_map]
    rfl
  have distinct := (merged left right).keys_nodup
  rw [keys] at distinct
  refine List.Nodup.of_map (fun found => found.elim (MergeKey.index 0) MergeKey.text) ?_
  rw [List.map_map]
  simpa only [Function.comp_def, ← mergeKey_eq] using distinct

/-- A channel ends up with the same entries whether its updates come one by one or together,
and a replayed update does not change the deduplicated ones. -/
theorem reducers_batch_and_replay :
    (∀ β : Type, Splits reduceAppend fun _ : List β => True) ∧
      (Splits reduceUniqueStrList (fun _ => True) ∧ Replays reduceUniqueStrList (fun _ => True) ∧
        ∀ left right, left <+: reduceUniqueStrList (some left) (some right) ∧
          (left.Nodup → (reduceUniqueStrList (some left) (some right)).Nodup)) ∧
      (Splits reduceArtifactRefs (fun entries : List α => Identified entries) ∧
        Replays reduceArtifactRefs (fun entries : List α => Identified entries) ∧
        ∀ left right : List α, Identified left → Identified right →
          ((reduceArtifactRefs (some left) (some right)).map identifier).Nodup) :=
  ⟨fun _ _ _ _ _ _ _ => List.append_assoc .., ⟨reduceUniqueStrList_splits,
    reduceUniqueStrList_replays, fun left right => ⟨prefix_foldl_appendUnseen left right,
      fun distinct => nodup_foldl_appendUnseen distinct right⟩⟩,
    reduceArtifactRefs_splits, reduceArtifactRefs_replays,
    fun _ _ => reduceArtifactRefs_distinct⟩

end DurableAgent.Graph
