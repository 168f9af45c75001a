import Mathlib.Data.List.ReduceOption
import KrabkaGateway.Filter.Compile
import KrabkaGateway.Lib.Fallible

/-!
# Decisions on documents

A filter reads the fields of all its predicates into one row and gives up if one of them
is not a scalar. Its decision is nevertheless that of the predicates one by one.
-/

namespace KrabkaGateway.Filter

def Predicate.decides (floats : Floats) (predicate : Predicate) (document : Value) : Bool :=
  ((document.get predicate.field.asTopLevelName).bind FieldValue.fromJson).any
    (predicate.expected.matchesField floats predicate.operator)

variable {members : List (String × Value)} {predicates : List Predicate}

theorem mapM_fields (scalars : ∀ predicate ∈ predicates, ∀ value,
      members.lookup predicate.field.asTopLevelName = some value →
        (FieldValue.fromJson value).isSome) :
    ∃ row, rowOf (.object members) predicates = some row ∧
      ∀ name, row.lookup name =
        if name ∈ predicates.map (fun predicate => predicate.field.asTopLevelName) then
          (members.lookup name).bind FieldValue.fromJson
        else none := by
  induction predicates with
  | nil => exact ⟨[], rfl, by simp⟩
  | cons predicate remaining ih =>
    obtain ⟨row, read, fields⟩ := ih fun predicate member =>
      scalars predicate (List.mem_cons_of_mem _ member)
    simp only [rowOf, Value.asObject, Option.bind_eq_bind, Option.bind_some, Option.pure_def,
      Option.bind_eq_some_iff, Option.some.injEq] at read
    obtain ⟨parts, mapped, rfl⟩ := read
    cases found : members.lookup predicate.field.asTopLevelName with
    | none =>
      refine ⟨parts.reduceOption, ?_, fun name => ?_⟩
      · simp [rowOf, Value.asObject, found, mapped, List.reduceOption_cons_of_none]
      · rw [fields name]
        by_cases same : name = predicate.field.asTopLevelName
        · subst same
          simp [found]
        · simp [same]
    | some value =>
      obtain ⟨field, json⟩ := Option.isSome_iff_exists.mp
        (scalars predicate List.mem_cons_self value found)
      refine ⟨(predicate.field.asTopLevelName, field) :: parts.reduceOption, ?_, fun name => ?_⟩
      · simp [rowOf, Value.asObject, found, json, mapped, List.reduceOption_cons_of_some]
      · by_cases same : name = predicate.field.asTopLevelName
        · subst same
          simp [found, json]
        · rw [List.lookup_cons, beq_false_of_ne same]
          simp [fields name, same]

theorem rowOf_eq_none {predicate : Predicate} (listed : predicate ∈ predicates) {value : Value}
    (found : members.lookup predicate.field.asTopLevelName = some value)
    (compound : FieldValue.fromJson value = none) : rowOf (.object members) predicates = none := by
  simp only [rowOf, Value.asObject, Option.bind_eq_bind, Option.bind_some]
  rw [Lib.mapM_eq_none listed (by simp [found, compound])]
  rfl

/-- A filter with predicates accepts a document if each of them does. -/
theorem matchesStructuredJson_eq (floats : Floats) (read : Bytes → Option Value)
    {filter : CompiledFilter} (text : filter.sql ≠ []) (simple : filter.predicates ≠ [])
    (json : Option Bytes) :
    filter.matchesStructuredJson floats read json =
      (json.bind read).any fun document =>
        filter.predicates.all fun predicate => predicate.decides floats document := by
  simp only [CompiledFilter.matchesStructuredJson, List.isEmpty_iff, text, simple, if_false]
  cases json.bind read with
  | none => rfl
  | some document =>
    rw [Option.any_some]
    cases shape : document.asObject with
    | none =>
      -- Only an object has fields.
      obtain ⟨first, rest, listed⟩ := List.exists_cons_of_ne_nil simple
      simp [rowOf, shape, listed, Predicate.decides, Value.get]
    | some members =>
      obtain rfl : document = .object members := by
        cases document <;> simp_all [Value.asObject]
      by_cases scalars : ∀ predicate ∈ filter.predicates, ∀ value,
          members.lookup predicate.field.asTopLevelName = some value →
            (FieldValue.fromJson value).isSome
      · obtain ⟨row, found, fields⟩ := mapM_fields scalars
        simp only [found]
        rw [Bool.eq_iff_iff, List.all_eq_true, List.all_eq_true]
        apply forall₂_congr
        intro predicate member
        rw [Predicate.matchesRow, fields, if_pos (List.mem_map_of_mem member)]
        rfl
      · push Not at scalars
        obtain ⟨predicate, member, value, found, compound⟩ := scalars
        have undecided : predicate.decides floats (.object members) = false := by
          simp [Predicate.decides, Value.get, Value.asObject, found,
            Option.not_isSome_iff_eq_none.mp compound]
        simp only [rowOf_eq_none member found (Option.not_isSome_iff_eq_none.mp compound)]
        exact (List.all_eq_false.mpr ⟨predicate, member, by simp [undecided]⟩).symm

end KrabkaGateway.Filter
