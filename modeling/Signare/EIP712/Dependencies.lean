import Signare.EIP712.Encode
import Signare.Lib.Walk

/-!
# Dependencies of a struct

The walk of `findDependencies` collects the structs that can be reached through field types, and the
type string lists them with the first one moved to the front, in whatever order the map is ranged
over.
-/

namespace Signare

open Relation

/-- The structs that `findDependencies` goes to from a struct. -/
def Types.mentions (t : Types) (name : String) : List String :=
  ((t.fields name).map fun field => baseType field.type).filter fun T => (t.definition T).isSome

/-- A chain of mentions. -/
def Leads (t : Types) : String → String → Prop :=
  ReflTransGen fun name name' => name' ∈ t.mentions name

variable {env : HashEnv} {t : Types}

theorem definition_of_mem_mentions {name T : String} (h : T ∈ t.mentions name) :
    (t.definition T).isSome := by
  simpa using (List.mem_filter.mp h).2

theorem definition_of_leads {T name : String} (hT : (t.definition T).isSome) (h : Leads t T name) :
    (t.definition name).isSome := by
  rcases ReflTransGen.cases_tail h with rfl | ⟨mid, _, hstep⟩
  · exact hT
  · exact definition_of_mem_mentions hstep

theorem findDependencies_eq_walk {n : Nat} {T : String} {deps : List String}
    (hT : (t.definition T).isSome) : findDependencies t n T deps = walk t.mentions n T deps := by
  induction n generalizing T deps with
  | zero => rfl
  | succ n ih =>
    obtain ⟨fields, hfields⟩ := Option.isSome_iff_exists.mp hT
    rw [findDependencies, walk]
    split
    · rfl
    · rw [hfields, Types.mentions, Types.fields, hfields, Option.getD_some, List.foldl_filter,
        List.foldl_map]
      simp only
      congr 1
      funext seen field
      split
      · next hfield => exact ih hfield
      · rfl

/-- The names under which something is bound. -/
def Types.names (t : Types) : Finset String := (t.map Prod.fst).toFinset

theorem mem_names_of_definition {name : String} (h : (t.definition name).isSome) :
    name ∈ t.names := by
  obtain ⟨fields, hfields⟩ := Option.isSome_iff_exists.mp h
  exact List.mem_toFinset.mpr (List.mem_map_of_mem (f := Prod.fst) (mem_of_definition hfields))

theorem card_names_le (t : Types) : t.names.card ≤ t.length :=
  (List.toFinset_card_le _).trans (List.length_map _).le

theorem mem_dependencies_iff {T name : String} (hT : (t.definition T).isSome) :
    name ∈ dependencies env t T ↔ Leads t T name := by
  have hclosed : ∀ a ∈ t.names, ∀ b ∈ t.mentions a, b ∈ t.names := fun _ _ _ hb =>
    mem_names_of_definition (definition_of_mem_mentions hb)
  rw [dependencies, (env.mapOrder_perm _).mem_iff, findDependencies_eq_walk hT]
  exact mem_walk_iff hclosed (mem_names_of_definition hT) (Nat.lt_succ_of_le (card_names_le t))

theorem nodup_dependencies {T : String} (hT : (t.definition T).isSome) :
    (dependencies env t T).Nodup := by
  rw [dependencies, (env.mapOrder_perm _).nodup_iff, findDependencies_eq_walk hT]
  exact nodup_walk List.nodup_nil

/-- The struct itself, and then its other dependencies in order. -/
theorem orderedTypes_eq {T : String} (hT : (t.definition T).isSome) :
    orderedTypes T (dependencies env t T) =
      T :: ((dependencies env t T).insertionSort (· ≤ ·)).erase T := by
  have hmem : T ∈ (dependencies env t T).insertionSort (· ≤ ·) := by
    rw [List.mem_insertionSort]
    exact (mem_dependencies_iff hT).mpr .refl
  rw [orderedTypes, if_pos hmem]

theorem mem_orderedTypes_iff {T name : String} (hT : (t.definition T).isSome) :
    name ∈ orderedTypes T (dependencies env t T) ↔ Leads t T name := by
  rw [orderedTypes_eq hT, List.mem_cons]
  by_cases h : name = T
  · subst h
    exact iff_of_true (.inl rfl) .refl
  · rw [List.mem_erase_of_ne h, List.mem_insertionSort, mem_dependencies_iff hT]
    simp [h]

end Signare
