import Mathlib.Data.List.Infix

/-!
# Delimited texts

Where a pattern can stand in a text that is put together with delimiters, if
pattern and delimiters cannot overlap.
-/

set_option autoImplicit false

namespace DurableAgent.Library

variable {α : Type}

/-- An occurrence of the pattern and one of the delimiter have nothing in common,
unless they are the same. -/
structure Apart (pattern delimiter : List α) : Prop where
  before : ∀ overlap ∈ pattern.tails, overlap <+: delimiter →
    overlap = [] ∨ (overlap = pattern ∧ pattern = delimiter)
  behind : ∀ overlap ∈ delimiter.tails, overlap <+: pattern →
    overlap = [] ∨ (overlap = delimiter ∧ pattern = delimiter)
  within : pattern <:+: delimiter → pattern = delimiter
  around : delimiter <:+: pattern → pattern = delimiter

namespace Apart

variable {pattern delimiter first rest start after : List α}

private theorem alone {left part right : List α} (equal : part = left ++ (part ++ right)) :
    left = [] ∧ right = [] := by
  have lengths := congrArg List.length equal
  simp only [List.length_append] at lengths
  exact ⟨List.length_eq_zero_iff.mp (by omega), List.length_eq_zero_iff.mp (by omega)⟩

/-- A pattern that is not in the first part is the delimiter or stands behind it. -/
theorem locate (apart : Apart pattern delimiter) (nonempty : pattern ≠ [])
    (absent : ¬ pattern <:+: first)
    (same : first ++ delimiter ++ rest = start ++ pattern ++ after) :
    (start = first ∧ pattern = delimiter ∧ after = rest) ∨
      ∃ further, start = first ++ delimiter ++ further ∧ rest = further ++ pattern ++ after := by
  rw [List.append_assoc, List.append_assoc] at same
  rcases List.append_eq_append_iff.mp same with ⟨gap, rfl, tail⟩ | ⟨gap, rfl, tail⟩
  · -- the pattern starts at the delimiter or behind its start
    rcases List.append_eq_append_iff.mp tail with ⟨further, rfl, later⟩ | ⟨overlap, rfl, shared⟩
    · exact .inr ⟨further, by simp, by simpa using later⟩
    · rcases List.append_eq_append_iff.mp shared with ⟨more, rfl, later⟩ | ⟨more, rfl, later⟩
      · have equal := apart.within ⟨gap, more, by simp⟩
        obtain ⟨rfl, rfl⟩ := alone equal
        exact .inl ⟨by simp, by simp, by simpa using later⟩
      · rcases apart.behind overlap ((List.mem_tails _ _).mpr (List.suffix_append gap overlap))
          (List.prefix_append overlap more) with rfl | ⟨whole, equal⟩
        · exact .inr ⟨[], by simp, by simpa using later⟩
        · obtain rfl : gap = [] := by simpa using whole
          obtain rfl : more = [] := by simpa using equal
          exact .inl ⟨by simp, by simp, by simpa using later.symm⟩
  · -- the pattern starts in the first part
    rcases List.append_eq_append_iff.mp tail with ⟨more, rfl, later⟩ | ⟨overlap, rfl, shared⟩
    · exact absurd ⟨start, more, by simp⟩ absent
    · rcases List.append_eq_append_iff.mp shared with ⟨more, rfl, later⟩ | ⟨more, rfl, later⟩
      · have equal := apart.around ⟨gap, more, by simp⟩
        obtain ⟨rfl, rfl⟩ := alone equal.symm
        exact .inl ⟨by simp, by simp, by simpa using later.symm⟩
      · rcases apart.before overlap ((List.mem_tails _ _).mpr (List.suffix_append gap overlap))
          (List.prefix_append overlap more) with rfl | ⟨whole, equal⟩
        · exact absurd ⟨start, [], by simp⟩ absent
        · obtain rfl : gap = [] := by simpa using whole
          obtain rfl : more = [] := by simpa using equal
          exact .inl ⟨by simp, by simp, by simpa using later⟩

theorem parted (apart : Apart delimiter delimiter) (nonempty : delimiter ≠ [])
    (absent : ¬ delimiter <:+: first) (missing : ¬ delimiter <:+: start)
    (same : first ++ delimiter ++ rest = start ++ delimiter ++ after) :
    first = start ∧ rest = after := by
  rcases apart.locate nonempty absent same with ⟨equal, _, behind⟩ | ⟨further, longer, _⟩
  · exact ⟨equal.symm, behind.symm⟩
  · exact absurd ⟨first, further, longer.symm⟩ missing

end Apart

section Infixes

variable {pattern first rest : List α}

/-- A pattern does not reach across an element that it does not have. -/
theorem infix_separated_iff {separator : α} (absent : separator ∉ pattern) :
    pattern <:+: first ++ separator :: rest ↔ pattern <:+: first ∨ pattern <:+: rest := by
  constructor
  · intro within
    rcases List.infix_append_iff.mp within with
      front | back | ⟨leading, trailing, rfl, ending, reach⟩
    · exact .inl front
    · rcases List.infix_cons_iff.mp back with start | back
      · cases pattern with
        | nil => exact .inl (List.nil_infix)
        | cons head tail =>
            obtain ⟨rfl, _⟩ := List.cons_prefix_cons.mp start
            exact absurd List.mem_cons_self absent
      · exact .inr back
    · cases trailing with
      | nil =>
          rw [List.append_nil]
          exact .inl ending.isInfix
      | cons head tail =>
          obtain ⟨rfl, _⟩ := List.cons_prefix_cons.mp reach
          exact absurd (List.mem_append_right _ List.mem_cons_self) absent
  · rintro (front | back)
    · exact List.infix_append_of_infix_left front
    · exact List.infix_append_of_infix_right (List.infix_cons back)

theorem infix_cons_iff_of_head? {head : α} (nonempty : pattern ≠ [])
    (other : pattern.head? ≠ some head) : pattern <:+: head :: rest ↔ pattern <:+: rest := by
  rw [List.infix_cons_iff, or_iff_right]
  intro start
  cases pattern with
  | nil => exact nonempty rfl
  | cons first tail =>
      obtain ⟨rfl, _⟩ := List.cons_prefix_cons.mp start
      exact other rfl

theorem infix_intercalate_iff {separator : α} (absent : separator ∉ pattern)
    (nonempty : pattern ≠ []) (parts : List (List α)) :
    pattern <:+: [separator].intercalate parts ↔ ∃ part ∈ parts, pattern <:+: part := by
  induction parts with
  | nil => simpa [List.intercalate] using nonempty
  | cons part others ih =>
      cases others with
      | nil => simp [List.intercalate]
      | cons next others =>
          rw [List.intercalate_cons_cons, List.append_assoc, List.singleton_append,
            infix_separated_iff absent, ih]
          exact (List.exists_mem_cons_iff _ part (next :: others)).symm

theorem flatMap_intercalate {β : Type} (f : α → List β) {separator : α} {other : β}
    (separates : f separator = [other]) (parts : List (List α)) :
    ([separator].intercalate parts).flatMap f =
      [other].intercalate (parts.map fun part => part.flatMap f) := by
  induction parts with
  | nil => rfl
  | cons part rest ih =>
      cases rest with
      | nil => simp [List.intercalate]
      | cons next rest =>
          rw [List.intercalate_cons_cons, List.flatMap_append, List.flatMap_append, ih]
          simp [separates, List.intercalate_cons_cons]

/-- Behind a text with none of whose ends the pattern agrees, it stands in the rest. -/
theorem infix_append_iff_of_tails (foreign : ∀ tail ∈ first.tails, tail ≠ [] →
      ¬ tail <+: pattern ∧ ¬ pattern <+: tail) :
    pattern <:+: first ++ rest ↔ pattern <:+: rest := by
  induction first with
  | nil => rfl
  | cons head first ih =>
      obtain ⟨short, long⟩ := foreign (head :: first) (by simp) (List.cons_ne_nil head first)
      have behind := ih fun tail member =>
        foreign tail (List.mem_cons_of_mem _ (by simpa using member))
      rw [List.cons_append, List.infix_cons_iff, behind, or_iff_right]
      intro start
      rcases List.prefix_or_prefix_of_prefix start
        (List.prefix_append (head :: first) rest) with reaches | reached
      · exact long reaches
      · exact short reached

end Infixes

section Tails

variable {front tail start rest : List α} {separator : α}

/-- What stands behind the last separator of a text is determined, and so is what stands
before it. -/
theorem last_separator_unique (absent : separator ∉ tail) (missing : separator ∉ rest)
    (same : front ++ separator :: tail = start ++ separator :: rest) :
    front = start ∧ tail = rest := by
  rcases List.append_eq_append_iff.mp same with ⟨gap, rfl, behind⟩ | ⟨gap, rfl, behind⟩
  · cases gap with
    | nil => exact ⟨by simp, by simpa using behind⟩
    | cons head gap =>
        obtain ⟨_, rfl⟩ := List.cons.inj behind
        exact absurd (List.mem_append_right gap List.mem_cons_self) absent
  · cases gap with
    | nil => exact ⟨by simp, by simpa using behind.symm⟩
    | cons head gap =>
        obtain ⟨_, rfl⟩ := List.cons.inj behind
        exact absurd (List.mem_append_right gap List.mem_cons_self) missing

end Tails

end DurableAgent.Library
