import DurableAgent.Library.OrderedDict
import Mathlib.Data.List.Basic
import Mathlib.Data.List.Perm.Subperm

/-!
# Symbolic links

Where a path leads when every symbolic link on it is followed. The walk is a relation; a
bounded search computes it, and no more links can be nested than there are.
-/

set_option autoImplicit false

namespace DurableAgent.Library

variable {Name : Type} [DecidableEq Name]

inductive PathStep (Name : Type) where
  | up
  | down (name : Name)
  deriving DecidableEq

/-- What a link or a caller writes: the steps from the root, or from where it stands. -/
structure Route (Name : Type) where
  absolute : Bool
  steps : List (PathStep Name)
  deriving DecidableEq

/-- The links by the place at which each stands, given by the names from the root. -/
abbrev Links (Name : Type) := OrderedDict (List Name) (Route Name)

def Route.origin (route : Route Name) (place : List Name) : List Name :=
  if route.absolute then [] else place

/-- The steps lead from the first place to the second. -/
inductive Walks (links : Links Name) : List Name → List (PathStep Name) → List Name → Prop where
  | arrived (place : List Name) : Walks links place [] place
  | up {place target : List Name} {rest : List (PathStep Name)} :
      Walks links place.dropLast rest target → Walks links place (.up :: rest) target
  | enters {place target : List Name} {name : Name} {rest : List (PathStep Name)} :
      links.get? (place ++ [name]) = none → Walks links (place ++ [name]) rest target →
      Walks links place (.down name :: rest) target
  | follows {place target : List Name} {name : Name} {rest : List (PathStep Name)}
      {route : Route Name} :
      links.get? (place ++ [name]) = some route →
      Walks links (route.origin place) (route.steps ++ rest) target →
      Walks links place (.down name :: rest) target

/-- One step, where routes are followed by another search. -/
def enter (links : Links Name) (follow : List Name → List (PathStep Name) → Option (List Name))
    (place : List Name) : PathStep Name → Option (List Name)
  | .up => some place.dropLast
  | .down name =>
      match links.get? (place ++ [name]) with
      | none => some (place ++ [name])
      | some route => follow (route.origin place) route.steps

/-- The search with so many links nested in one another, less one. -/
def search (links : Links Name) : Nat → List Name → List (PathStep Name) → Option (List Name)
  | 0 => fun _ _ => none
  | depth + 1 => fun place steps => steps.foldlM (enter links (search links depth)) place

/-- The place that the steps lead to, if they lead anywhere. -/
def realPath (links : Links Name) (place : List Name) (steps : List (PathStep Name)) :
    Option (List Name) :=
  search links (links.keys.length + 1) place steps

/-! ## The walk -/

section Walk

variable {links : Links Name} {place middle target : List Name}
  {steps further : List (PathStep Name)}

theorem Walks.append (first : Walks links place steps middle)
    (second : Walks links middle further target) :
    Walks links place (steps ++ further) target := by
  induction first with
  | arrived place => exact second
  | up _ ih => exact .up (ih second)
  | enters plain _ ih => exact .enters plain (ih second)
  | follows linked _ ih =>
      have onward := ih second
      rw [List.append_assoc] at onward
      exact .follows linked onward

theorem Walks.split {whole : List (PathStep Name)} (walks : Walks links place whole target)
    (parts : whole = steps ++ further) :
    ∃ middle, Walks links place steps middle ∧ Walks links middle further target := by
  induction walks generalizing steps with
  | arrived place =>
      obtain ⟨rfl, rfl⟩ := List.append_eq_nil_iff.mp parts.symm
      exact ⟨place, .arrived place, .arrived place⟩
  | @up place target rest walks ih =>
      cases steps with
      | nil =>
          subst parts
          exact ⟨place, .arrived place, .up walks⟩
      | cons step others =>
          obtain ⟨rfl, rfl⟩ := List.cons_eq_cons.mp parts
          obtain ⟨middle, first, second⟩ := ih rfl
          exact ⟨middle, .up first, second⟩
  | @enters place target name rest plain walks ih =>
      cases steps with
      | nil =>
          subst parts
          exact ⟨place, .arrived place, .enters plain walks⟩
      | cons step others =>
          obtain ⟨rfl, rfl⟩ := List.cons_eq_cons.mp parts
          obtain ⟨middle, first, second⟩ := ih rfl
          exact ⟨middle, .enters plain first, second⟩
  | @follows place target name rest route linked walks ih =>
      cases steps with
      | nil =>
          subst parts
          exact ⟨place, .arrived place, .follows linked walks⟩
      | cons step others =>
          obtain ⟨rfl, rfl⟩ := List.cons_eq_cons.mp parts
          obtain ⟨middle, first, second⟩ := ih (List.append_assoc _ _ _).symm
          exact ⟨middle, .follows linked first, second⟩

theorem Walks.deterministic {other : List Name} (walks : Walks links place steps target)
    (again : Walks links place steps other) : target = other := by
  induction walks with
  | arrived place =>
      cases again with
      | arrived _ => rfl
  | up _ ih =>
      cases again with
      | up onward => exact ih onward
  | enters plain _ ih =>
      cases again with
      | enters _ onward => exact ih onward
      | follows linked _ => simp [plain] at linked
  | follows linked _ ih =>
      cases again with
      | enters plain _ => simp [linked] at plain
      | follows same onward =>
          rw [linked, Option.some.injEq] at same
          subst same
          exact ih onward

end Walk

/-! ## The search -/

section Search

variable {links : Links Name} {place target : List Name} {steps : List (PathStep Name)}

theorem enter_plain {follow : List Name → List (PathStep Name) → Option (List Name)} {name : Name}
    (plain : links.get? (place ++ [name]) = none) :
    enter links follow place (.down name) = some (place ++ [name]) := by
  rw [enter, plain]

theorem enter_link {follow : List Name → List (PathStep Name) → Option (List Name)} {name : Name}
    {route : Route Name} (linked : links.get? (place ++ [name]) = some route) :
    enter links follow place (.down name) = follow (route.origin place) route.steps := by
  rw [enter, linked]

theorem enter_walks {follow : List Name → List (PathStep Name) → Option (List Name)}
    (sound : ∀ place steps target, follow place steps = some target →
      Walks links place steps target) {step : PathStep Name}
    (entered : enter links follow place step = some target) :
    Walks links place [step] target := by
  cases step with
  | up =>
      cases entered
      exact .up (.arrived _)
  | down name =>
      cases linked : links.get? (place ++ [name]) with
      | none =>
          rw [enter_plain linked] at entered
          cases entered
          exact .enters linked (.arrived _)
      | some route =>
          rw [enter_link linked] at entered
          refine .follows linked ?_
          rw [List.append_nil]
          exact sound _ _ _ entered

theorem search_cons (depth : Nat) (step : PathStep Name) (rest : List (PathStep Name)) :
    search links (depth + 1) place (step :: rest) =
      (enter links (search links depth) place step).bind fun middle =>
        search links (depth + 1) middle rest := List.foldlM_cons

theorem search_append (depth : Nat) (rest : List (PathStep Name)) :
    search links (depth + 1) place (steps ++ rest) =
      (search links (depth + 1) place steps).bind fun middle =>
        search links (depth + 1) middle rest := List.foldlM_append

theorem search_walks {depth : Nat} (found : search links depth place steps = some target) :
    Walks links place steps target := by
  induction depth generalizing place steps target with
  | zero => cases found
  | succ depth ih =>
      induction steps generalizing place with
      | nil =>
          cases found
          exact .arrived _
      | cons step rest onward =>
          rw [search_cons, Option.bind_eq_some_iff] at found
          obtain ⟨middle, entered, further⟩ := found
          have first : Walks links place [step] middle :=
            enter_walks (fun _ _ _ => ih) entered
          exact first.append (onward further)

theorem enter_mono {follow other : List Name → List (PathStep Name) → Option (List Name)}
    (more : ∀ place steps target, follow place steps = some target →
      other place steps = some target) {step : PathStep Name}
    (entered : enter links follow place step = some target) :
    enter links other place step = some target := by
  cases step with
  | up => exact entered
  | down name =>
      cases linked : links.get? (place ++ [name]) with
      | none =>
          rwa [enter_plain linked] at entered ⊢
      | some route =>
          rw [enter_link linked] at entered ⊢
          exact more _ _ _ entered

theorem search_succ {depth : Nat} (found : search links depth place steps = some target) :
    search links (depth + 1) place steps = some target := by
  induction depth generalizing place steps target with
  | zero => cases found
  | succ depth ih =>
      induction steps generalizing place with
      | nil => exact found
      | cons step rest onward =>
          rw [search_cons, Option.bind_eq_some_iff] at found ⊢
          obtain ⟨middle, entered, further⟩ := found
          exact ⟨middle, enter_mono (fun _ _ _ => ih) entered, onward further⟩

theorem search_mono {depth more : Nat} (le : depth ≤ more)
    (found : search links depth place steps = some target) :
    search links more place steps = some target := by
  induction le with
  | refl => exact found
  | step _ ih => exact search_succ ih

theorem exists_search (walks : Walks links place steps target) :
    ∃ depth, search links depth place steps = some target := by
  induction walks with
  | arrived place => exact ⟨1, rfl⟩
  | up _ ih =>
      obtain ⟨depth, found⟩ := ih
      refine ⟨depth + 1, ?_⟩
      rw [search_cons, enter, Option.bind_some]
      exact search_succ found
  | enters plain _ ih =>
      obtain ⟨depth, found⟩ := ih
      refine ⟨depth + 1, ?_⟩
      rw [search_cons, enter_plain plain, Option.bind_some]
      exact search_succ found
  | follows linked _ ih =>
      obtain ⟨depth, found⟩ := ih
      cases depth with
      | zero => cases found
      | succ depth =>
          rw [search_append, Option.bind_eq_some_iff] at found
          obtain ⟨middle, first, onward⟩ := found
          refine ⟨depth + 2, ?_⟩
          rw [search_cons, enter_link linked, first, Option.bind_some]
          exact search_succ onward

end Search

/-! ## Nested links -/

/-- Following the link takes so many links within one another, itself not counted. -/
def Nested (links : Links Name) (depth : Nat) (place : List Name) : Prop :=
  ∃ route, links.get? place = some route ∧
    search links (depth + 1) (route.origin place.dropLast) route.steps ≠ none ∧
    search links depth (route.origin place.dropLast) route.steps = none

section Nesting

variable {links : Links Name} {place target : List Name} {steps : List (PathStep Name)}
  {depth : Nat}

theorem exists_nested (found : search links (depth + 2) place steps ≠ none)
    (missing : search links (depth + 1) place steps = none) :
    ∃ link, Nested links depth link := by
  induction steps generalizing place with
  | nil => cases missing
  | cons step rest ih =>
      rw [search_cons] at found missing
      cases step with
      | up => exact ih found missing
      | down name =>
          cases linked : links.get? (place ++ [name]) with
          | none =>
              rw [enter_plain linked, Option.bind_some] at found missing
              exact ih found missing
          | some route =>
              rw [enter_link linked] at found missing
              cases inner : search links depth (route.origin place) route.steps with
              | none =>
                  refine ⟨place ++ [name], route, linked, ?_, ?_⟩
                  · intro lost
                    rw [List.dropLast_concat] at lost
                    rw [lost] at found
                    exact found rfl
                  · rw [List.dropLast_concat]
                    exact inner
              | some middle =>
                  rw [inner, Option.bind_some] at missing
                  rw [search_succ inner, Option.bind_some] at found
                  exact ih found missing

theorem Nested.not_less {less : Nat} (nested : Nested links depth place)
    (fewer : Nested links less place) : depth ≤ less := by
  by_contra smaller
  obtain ⟨route, linked, -, missing⟩ := nested
  obtain ⟨other, same, found, -⟩ := fewer
  rw [linked, Option.some.injEq] at same
  subst same
  obtain ⟨target, reached⟩ := Option.ne_none_iff_exists'.mp found
  rw [search_mono (by omega) reached] at missing
  cases missing

/-- Links nested in one another are different. -/
theorem Nested.chain (nested : Nested links depth place) :
    ∃ chain : List (List Name), chain.length = depth + 1 ∧ chain.Nodup ∧
      ∀ link ∈ chain, ∃ less ≤ depth, Nested links less link := by
  induction depth generalizing place with
  | zero => exact ⟨[place], rfl, List.nodup_singleton place, by
      simpa using nested⟩
  | succ depth ih =>
      obtain ⟨route, linked, found, missing⟩ := nested
      obtain ⟨link, within⟩ := exists_nested found missing
      obtain ⟨chain, length, distinct, lesser⟩ := ih within
      refine ⟨place :: chain, by rw [List.length_cons, length], ?_, ?_⟩
      · refine List.nodup_cons.mpr ⟨fun member => ?_, distinct⟩
        obtain ⟨less, le, fewer⟩ := lesser place member
        have most := Nested.not_less ⟨route, linked, found, missing⟩ fewer
        omega
      · intro other member
        rcases List.mem_cons.mp member with rfl | later
        · exact ⟨depth + 1, Nat.le_refl _, route, linked, found, missing⟩
        · obtain ⟨less, le, fewer⟩ := lesser other later
          exact ⟨less, Nat.le_succ_of_le le, fewer⟩

theorem Nested.bounded (nested : Nested links depth place) : depth + 1 ≤ links.keys.length := by
  obtain ⟨chain, length, distinct, lesser⟩ := nested.chain
  have known : chain ⊆ links.keys := by
    intro link member
    obtain ⟨_, _, route, linked, -⟩ := lesser link member
    exact OrderedDict.mem_keys_iff.mpr ⟨route, OrderedDict.get?_eq_some_iff.mp linked⟩
  rw [← length]
  exact (distinct.subperm known).length_le

/-- No walk needs more depth than there are links. -/
theorem search_bounded (found : search links depth place steps = some target) :
    realPath links place steps = some target := by
  induction depth with
  | zero => cases found
  | succ depth ih =>
      by_cases within : depth ≤ links.keys.length
      · exact search_mono (by omega) found
      · cases less : search links depth place steps with
        | some other =>
            rw [search_succ less, Option.some.injEq] at found
            subst found
            exact ih less
        | none =>
            cases depth with
            | zero => omega
            | succ depth =>
                obtain ⟨link, nested⟩ :=
                  exists_nested (by rw [found]; exact Option.some_ne_none target) less
                have bounded := nested.bounded
                omega

/-- The search finds where a walk leads, and nothing exactly if there is no end to it. -/
theorem realPath_eq_some_iff : realPath links place steps = some target ↔
    Walks links place steps target := by
  constructor
  · exact search_walks
  · intro walks
    obtain ⟨depth, found⟩ := exists_search walks
    exact search_bounded found

end Nesting

/-! ## Places without links -/

/-- No link stands at the place or above it. -/
inductive Plain (links : Links Name) : List Name → Prop where
  | root : Plain links []
  | under {place : List Name} {name : Name} :
      Plain links place → links.get? (place ++ [name]) = none → Plain links (place ++ [name])

section Places

variable {links : Links Name} {place target : List Name} {steps : List (PathStep Name)}

theorem Plain.dropLast (plain : Plain links place) : Plain links place.dropLast := by
  cases plain with
  | root => exact .root
  | under above _ =>
      rw [List.dropLast_concat]
      exact above

theorem Walks.plain (walks : Walks links place steps target) (plain : Plain links place) :
    Plain links target := by
  induction walks with
  | arrived place => exact plain
  | up _ ih => exact ih plain.dropLast
  | enters free _ ih => exact ih (plain.under free)
  | @follows place target name rest route _ _ ih =>
      apply ih
      unfold Route.origin
      split
      · exact .root
      · exact plain

/-- The names of such a place lead to it. -/
theorem Plain.walks (plain : Plain links place) :
    Walks links [] (place.map PathStep.down) place := by
  induction plain with
  | root => exact .arrived []
  | under _ free ih =>
      rw [List.map_append]
      exact ih.append (.enters free (.arrived _))

end Places

end DurableAgent.Library
