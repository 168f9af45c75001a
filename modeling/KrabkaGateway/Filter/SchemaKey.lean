import KrabkaGateway.Filter.ArrowCache
import KrabkaGateway.Filter.Parity
import KrabkaGateway.Lib.Joined

/-!
# Keys of schemas

`arrow_schema_key` of `filter.rs` names the schema that a compiled filter is cached
for, and `arrow_schema_compatibility_key` of `streaming.rs` the schema that a group of
records has. Both join names, types and metadata with separators that may stand in
the names and the metadata themselves. Metadata is a map: it is listed here in the
order of its keys.
-/

namespace KrabkaGateway.Filter

open Lib

/-! ## Schemas that are written with some characters -/

def separators : List Char :=
  [':', '|', ',', '=']

structure SchemaField.Written (allowed : Char → Prop) (field : SchemaField) : Prop where
  name : ∀ char ∈ field.name.toList, allowed char
  keys : ∀ entry ∈ field.metadata, ∀ char ∈ entry.1.toList, allowed char
  values : ∀ entry ∈ field.metadata, ∀ char ∈ entry.2.toList, allowed char
  sorted : field.metadata.Pairwise fun first second => first.1 < second.1

variable {field : SchemaField}

theorem SchemaField.written_iff {allowed : Char → Prop} [DecidablePred allowed] :
    field.name.toList.all (allowed ·) = true ∧
      (field.metadata.all fun entry =>
        entry.1.toList.all (allowed ·) && entry.2.toList.all (allowed ·)) = true ∧
      (field.metadata.Pairwise fun first second => first.1 < second.1) ↔
    field.Written allowed := by
  simp only [List.all_eq_true, Bool.and_eq_true, decide_eq_true_eq]
  constructor
  · rintro ⟨name, metadata, sorted⟩
    exact ⟨name, fun entry listed => (metadata entry listed).1,
      fun entry listed => (metadata entry listed).2, sorted⟩
  · intro written
    exact ⟨written.name,
      fun entry listed => ⟨written.keys entry listed, written.values entry listed⟩,
      written.sorted⟩

instance (allowed : Char → Prop) [DecidablePred allowed] (field : SchemaField) :
    Decidable (field.Written allowed) :=
  decidable_of_iff _ SchemaField.written_iff

theorem SchemaField.Written.mono {allowed more : Char → Prop} (written : field.Written allowed)
    (wider : ∀ char, allowed char → more char) :
    field.Written more where
  name char member := wider char (written.name char member)
  keys entry listed char member := wider char (written.keys entry listed char member)
  values entry listed char member := wider char (written.values entry listed char member)
  sorted := written.sorted

/-- Schemas whose names and metadata have only such characters. -/
def Schema.Written (allowed : Char → Prop) (schema : Schema) : Prop :=
  ∀ field ∈ schema, field.Written allowed

/-- What is known of the debug text of a data type: it can be told where it ends, and what it is
the text of. -/
structure Library.ReadableTypes (library : Library) : Prop where
  unique {first second : DataType} {rest others : List Char}
    (same : (library.debug first).toList ++ ':' :: rest =
      (library.debug second).toList ++ ':' :: others) : first = second
  boolean : library.debug .boolean = "Boolean"

/-! ## Reading a key -/

section Reading

def entryText (entry : String × String) : String :=
  entry.1 ++ "=" ++ entry.2

def metadataText (field : SchemaField) : String :=
  ",".intercalate (field.metadata.map entryText).mergeSort

def fieldText (library : Library) (field : SchemaField) : String :=
  field.name ++ ":" ++ library.debug field.type ++ ":" ++ toString field.nullable ++ ":" ++
    metadataText field

theorem toList_entryText (entry : String × String) :
    (entryText entry).toList = entry.1.toList ++ '=' :: entry.2.toList := by
  simp [entryText]

theorem toList_fieldText (library : Library) (field : SchemaField) :
    (fieldText library field).toList = field.name.toList ++ ':' ::
      ((library.debug field.type).toList ++ ':' ::
        ((toString field.nullable).toList ++ ':' :: (metadataText field).toList)) := by
  simp [fieldText]

theorem toList_metadataText (field : SchemaField) :
    (metadataText field).toList =
      [','].intercalate ((field.metadata.map entryText).mergeSort.map String.toList) := by
  simp [metadataText, String.toList_intercalate]

theorem toList_arrowSchemaKey (library : Library) (schema : Schema) :
    (arrowSchemaKey library schema).toList =
      ['|'].intercalate (schema.map fun field => (fieldText library field).toList) := by
  have whole : arrowSchemaKey library schema =
      "|".intercalate (schema.map (fieldText library)) := rfl
  rw [whole, String.toList_intercalate, List.map_map]
  rfl

/-- A field without separators. -/
abbrev SchemaField.Plain (field : SchemaField) : Prop :=
  field.Written fun char => char ∉ separators

variable {field : SchemaField} {part : List Char}

theorem mem_sorted_entries
    (member : part ∈ (field.metadata.map entryText).mergeSort.map String.toList) :
    ∃ entry ∈ field.metadata, part = entry.1.toList ++ '=' :: entry.2.toList := by
  obtain ⟨text, sorted, rfl⟩ := List.mem_map.mp member
  obtain ⟨entry, listed, rfl⟩ := List.mem_map.mp ((List.mergeSort_perm _ _).mem_iff.mp sorted)
  exact ⟨entry, listed, toList_entryText entry⟩

theorem SchemaField.Plain.notMem_entry (plain : field.Plain) {separator : Char}
    (known : separator ∈ separators) (other : separator ≠ '=')
    (member : part ∈ (field.metadata.map entryText).mergeSort.map String.toList) :
    separator ∉ part := by
  obtain ⟨entry, listed, rfl⟩ := mem_sorted_entries member
  rw [List.mem_append, List.mem_cons]
  rintro (inKey | rfl | inValue)
  · exact plain.keys entry listed separator inKey known
  · exact other rfl
  · exact plain.values entry listed separator inValue known

theorem SchemaField.Plain.notMem_metadataText (plain : field.Plain) :
    '|' ∉ (metadataText field).toList := by
  rw [toList_metadataText]
  intro member
  rcases mem_intercalate member with same | ⟨part, listed, inside⟩
  · exact absurd same (by decide)
  · exact plain.notMem_entry (by decide) (by decide) listed inside

def entryOf (text : String) : String × String :=
  (String.ofList (text.toList.takeWhile (· ≠ '=')),
    String.ofList ((text.toList.dropWhile (· ≠ '=')).drop 1))

theorem entryOf_entryText {entry : String × String} (plain : '=' ∉ entry.1.toList) :
    entryOf (entryText entry) = entry := by
  have front := takeWhile_front plain (ends_cons '=' entry.2.toList)
  have back : ((entryText entry).toList.dropWhile (· ≠ '=')) = '=' :: entry.2.toList := by
    have whole := List.takeWhile_append_dropWhile (p := (· ≠ '=')) (l := (entryText entry).toList)
    rw [toList_entryText] at whole ⊢
    rw [front] at whole
    exact List.append_cancel_left whole
  rw [entryOf, back, toList_entryText, front]
  simp

theorem SchemaField.Plain.entries (plain : field.Plain) :
    (field.metadata.map entryText).map entryOf = field.metadata := by
  rw [List.map_map]
  refine (List.map_congr_left fun entry listed => ?_).trans (List.map_id _)
  exact entryOf_entryText fun inside => plain.keys entry listed '=' inside (by decide)

theorem metadata_unique {other : SchemaField} (plain : field.Plain) (otherPlain : other.Plain)
    (same : (metadataText field).toList = (metadataText other).toList) :
    field.metadata = other.metadata := by
  have parts : ∀ {field : SchemaField}, field.Plain →
      ∀ part ∈ (field.metadata.map entryText).mergeSort.map String.toList,
        part ≠ [] ∧ ',' ∉ part := by
    intro field plain part member
    refine ⟨?_, plain.notMem_entry (by decide) (by decide) member⟩
    obtain ⟨entry, _, rfl⟩ := mem_sorted_entries member
    simp
  rw [toList_metadataText, toList_metadataText] at same
  have sorted : (field.metadata.map entryText).mergeSort =
      (other.metadata.map entryText).mergeSort :=
    List.map_injective_iff.mpr (fun _ _ => String.toList_inj.mp)
      (intercalate_unique (parts plain) (parts otherPlain) same)
  have texts : (field.metadata.map entryText).Perm (other.metadata.map entryText) := by
    refine (List.mergeSort_perm _ fun first second => decide (first ≤ second)).symm.trans ?_
    rw [sorted]
    exact List.mergeSort_perm _ _
  have entries := texts.map entryOf
  rw [plain.entries, otherPlain.entries] at entries
  refine entries.eq_of_pairwise ?_ plain.sorted otherPlain.sorted
  intro first second _ _ less more
  exact absurd more (String.lt_asymm less)

variable {library : Library}

theorem field_unique (readable : library.ReadableTypes) {other : SchemaField} (plain : field.Plain)
    (otherPlain : other.Plain) {tail rest : List Char} (ends : Ends '|' tail)
    (otherEnds : Ends '|' rest)
    (same : (fieldText library field).toList ++ tail = (fieldText library other).toList ++ rest) :
    field = other ∧ tail = rest := by
  have colonFree : ∀ {field : SchemaField}, field.Plain → ':' ∉ field.name.toList :=
    fun plain inside => plain.name ':' inside (by decide)
  have boolFree : ∀ value : Bool, ':' ∉ (toString value).toList := by decide
  simp only [toList_fieldText, List.append_assoc, List.cons_append] at same
  obtain ⟨name, same⟩ := front_unique (colonFree plain) (colonFree otherPlain) (ends_cons _ _)
    (ends_cons _ _) same
  have types := readable.unique (List.cons.inj same).2
  rw [types] at same
  have same := List.append_cancel_left (List.cons.inj same).2
  obtain ⟨nullable, same⟩ := front_unique (boolFree _) (boolFree _) (ends_cons _ _) (ends_cons _ _)
    (List.cons.inj same).2
  obtain ⟨metadata, tails⟩ := front_unique plain.notMem_metadataText otherPlain.notMem_metadataText
    ends otherEnds (List.cons.inj same).2
  have bools : field.nullable = other.nullable := by
    revert nullable
    cases field.nullable <;> cases other.nullable <;> decide
  obtain ⟨_, _, _, _⟩ := field
  obtain ⟨_, _, _, _⟩ := other
  cases String.toList_inj.mp name
  cases types
  cases bools
  cases metadata_unique plain otherPlain metadata
  exact ⟨rfl, tails⟩

def keyTail (library : Library) : Schema → List Char
  | [] => []
  | field :: fields => '|' :: (arrowSchemaKey library (field :: fields)).toList

theorem ends_keyTail (schema : Schema) : Ends '|' (keyTail library schema) := by
  cases schema with
  | nil => exact ends_nil _
  | cons field fields => exact ends_cons _ _

theorem toList_arrowSchemaKey_cons (field : SchemaField) (fields : Schema) :
    (arrowSchemaKey library (field :: fields)).toList =
      (fieldText library field).toList ++ keyTail library fields := by
  cases fields with
  | nil => simp [toList_arrowSchemaKey, keyTail]
  | cons next fields =>
    simp only [keyTail, toList_arrowSchemaKey, List.map_cons, List.intercalate_cons_cons,
      List.append_assoc, List.singleton_append]

/-- Schemas without separators are determined by their keys. -/
theorem schema_unique (readable : library.ReadableTypes) {schema other : Schema}
    (plain : ∀ field ∈ schema, field.Plain) (otherPlain : ∀ field ∈ other, field.Plain)
    (same : arrowSchemaKey library schema = arrowSchemaKey library other) : schema = other := by
  have filled : ∀ {field : SchemaField} {fields : Schema},
      (arrowSchemaKey library (field :: fields)).toList ≠ [] := by
    intro field fields
    rw [toList_arrowSchemaKey_cons, toList_fieldText]
    simp
  induction schema generalizing other with
  | nil =>
    cases other with
    | nil => rfl
    | cons field fields => exact absurd (congrArg String.toList same).symm filled
  | cons field fields ih =>
    cases other with
    | nil => exact absurd (congrArg String.toList same) filled
    | cons first others =>
      have texts := congrArg String.toList same
      rw [toList_arrowSchemaKey_cons, toList_arrowSchemaKey_cons] at texts
      obtain ⟨rfl, tails⟩ := field_unique readable (plain _ List.mem_cons_self)
        (otherPlain _ List.mem_cons_self) (ends_keyTail _) (ends_keyTail _) texts
      refine congrArg _ (ih
        (fun field member => plain field (List.mem_cons_of_mem _ member))
        (fun field member => otherPlain field (List.mem_cons_of_mem _ member)) ?_)
      cases fields with
      | nil =>
        cases others with
        | nil => rfl
        | cons next others => cases tails
      | cons second fields =>
        cases others with
        | nil => cases tails
        | cons next others => exact String.toList_inj.mp (List.cons.inj tails).2

end Reading

/-! ## Keys that are shared -/

/-- A column of truth values. -/
def booleanField (name : String) (metadata : List (String × String)) : SchemaField where
  name
  type := .boolean
  nullable := true
  metadata

def sharedKey (separator : Char) : Schema × Schema :=
  if separator = ':' then
    ([booleanField "a:Boolean:true" [("k", "v")]], [booleanField "a" [("Boolean:true:k", "v")]])
  else if separator = '|' then
    ([booleanField "a" [("k", "v|x")], booleanField "b" []],
      [booleanField "a" [("k", "v")], booleanField "x|b" []])
  else if separator = ',' then
    ([booleanField "a" [("k", "p,x"), ("q", "r")]], [booleanField "a" [("k", "p"), ("x,q", "r")]])
  else ([booleanField "a" [("k", "v=x")]], [booleanField "a" [("k=v", "x")]])

theorem mergeSort_pair {first second : String} (ordered : first ≤ second) :
    [first, second].mergeSort = [first, second] :=
  List.mergeSort_of_pairwise (by simpa using ordered)

variable {separator : Char}

theorem sharedKey_same {library : Library} (readable : library.ReadableTypes)
    (known : separator ∈ separators) :
    arrowSchemaKey library (sharedKey separator).1 =
      arrowSchemaKey library (sharedKey separator).2 := by
  simp only [separators, List.mem_cons, List.not_mem_nil, or_false] at known
  rcases known with rfl | rfl | rfl | rfl <;>
    simp only [sharedKey, Char.reduceEq, reduceIte, arrowSchemaKey, booleanField, List.map_cons,
      List.map_nil, List.mergeSort_nil, List.mergeSort_singleton, readable.boolean]
  · decide
  · decide
  · rw [mergeSort_pair (by decide), mergeSort_pair (by decide)]
    decide
  · decide

theorem sharedKey_written (known : separator ∈ separators) :
    ((∀ field ∈ (sharedKey separator).1,
        field.Written fun char => char ∉ separators ∨ char = separator) ∧
      ∀ field ∈ (sharedKey separator).2,
        field.Written fun char => char ∉ separators ∨ char = separator) ∧
    (sharedKey separator).1 ≠ (sharedKey separator).2 := by
  rw [separators] at known
  simp only [List.mem_cons, List.not_mem_nil, or_false] at known
  rcases known with rfl | rfl | rfl | rfl <;> decide

/-! ## Types as texts -/

/-- A text that shows where it ends; it begins with a letter for the kind of type. -/
def typeText : DataType → List Char
  | .integer signed bits => 'i' :: (if signed then '+' else '-') ::
      (List.replicate bits '1' ++ ['.'])
  | .float32 => ['f']
  | .float64 => ['d']
  | .utf8 => ['s']
  | .boolean => ['B', 'o', 'o', 'l', 'e', 'a', 'n']
  | .dictionary key value => 'D' :: (typeText key ++ typeText value)
  | .other name => 'o' :: (List.replicate name.toList.length '1' ++ '.' :: name.toList)

def typeLetter : DataType → Char
  | .integer _ _ => 'i'
  | .float32 => 'f'
  | .float64 => 'd'
  | .utf8 => 's'
  | .boolean => 'B'
  | .dictionary _ _ => 'D'
  | .other _ => 'o'

theorem head_typeText (type : DataType) (rest : List Char) :
    (typeText type ++ rest).head? = some (typeLetter type) := by
  cases type <;> rfl

theorem replicate_unique {count other : Nat} {tail rest : List Char}
    (same : List.replicate count '1' ++ '.' :: tail = List.replicate other '1' ++ '.' :: rest) :
    count = other ∧ tail = rest := by
  have absent : ∀ count, '.' ∉ List.replicate count '1' := by
    intro count member
    exact absurd (List.eq_of_mem_replicate member) (by decide)
  obtain ⟨counts, tails⟩ := front_unique (absent count) (absent other) (ends_cons _ _)
    (ends_cons _ _) same
  exact ⟨by simpa using congrArg List.length counts, (List.cons.inj tails).2⟩

theorem typeLetter_eq {first second : DataType} {rest others : List Char}
    (same : typeText first ++ rest = typeText second ++ others) :
    typeLetter first = typeLetter second := by
  have heads := congrArg List.head? same
  rwa [head_typeText, head_typeText, Option.some.injEq] at heads

theorem typeText_unique {first second : DataType} {rest others : List Char}
    (same : typeText first ++ rest = typeText second ++ others) :
    first = second ∧ rest = others := by
  have letters := typeLetter_eq same
  induction first generalizing second rest others with
  | integer signed bits =>
    cases second with
    | integer otherSigned otherBits =>
      simp only [typeText, List.cons_append, List.append_assoc, List.nil_append,
        List.cons.injEq, true_and] at same
      obtain ⟨signs, counts⟩ := same
      obtain ⟨rfl, rfl⟩ := replicate_unique counts
      obtain rfl : signed = otherSigned := by
        revert signs
        cases signed <;> cases otherSigned <;> decide
      exact ⟨rfl, rfl⟩
    | _ => simp [typeLetter] at letters
  | dictionary key value keyHypothesis valueHypothesis =>
    cases second with
    | dictionary otherKey otherValue =>
      simp only [typeText, List.cons_append, List.append_assoc, List.cons.injEq, true_and] at same
      obtain ⟨rfl, values⟩ := keyHypothesis same (typeLetter_eq same)
      obtain ⟨rfl, tails⟩ := valueHypothesis values (typeLetter_eq values)
      exact ⟨rfl, tails⟩
    | _ => simp [typeLetter] at letters
  | other name =>
    cases second with
    | other otherName =>
      simp only [typeText, List.cons_append, List.append_assoc, List.cons.injEq, true_and] at same
      obtain ⟨lengths, names⟩ := replicate_unique same
      obtain ⟨names, tails⟩ := List.append_inj names lengths
      exact ⟨congrArg _ (String.toList_inj.mp names), tails⟩
    | _ => simp [typeLetter] at letters
  | _ =>
    cases second <;> first
      | exact ⟨rfl, List.append_cancel_left same⟩
      | simp [typeLetter] at letters

/-- Schemas whose names and metadata are written with some characters, plain ones among them, are
identified by both keys, and every batch is evaluated by a filter for its own schema, exactly if no
separator is one of the characters. -/
theorem schema_keys_identify_iff (floats : Floats) (library : Library)
    (read : Bytes → Option Value) (readable : library.ReadableTypes) (allowed : Char → Prop)
    (plain : ∀ char, char ∉ separators → allowed char) :
    ((∀ schema other : Schema, schema.Written allowed → other.Written allowed →
        (arrowSchemaKey library schema = arrowSchemaKey library other ∨
          arrowSchemaCompatibilityKey library schema = arrowSchemaCompatibilityKey library other) →
        schema = other) ∧
      ∀ (filter : CompiledFilter) (calls : List (Option Int × Batch)),
        (∀ call ∈ calls, call.2.schema.Written allowed) →
        filter.evaluateArrowBatches floats library read (fun _ => none) calls =
          calls.map fun call => filter.evaluateArrowBatch floats library read call.2) ↔
      ∀ separator ∈ separators, ¬allowed separator := by
  constructor
  · rintro ⟨identified, _⟩ separator known holds
    obtain ⟨⟨first, second⟩, different⟩ := sharedKey_written known
    have wider : ∀ char, (char ∉ separators ∨ char = separator) → allowed char := by
      rintro char (free | rfl)
      · exact plain char free
      · exact holds
    exact different (identified _ _ (fun field member => (first field member).mono wider)
      (fun field member => (second field member).mono wider)
      (Or.inl (sharedKey_same readable known)))
  · intro free
    have narrower : ∀ char, allowed char → char ∉ separators :=
      fun char holds known => free char known holds
    have identified : ∀ schema other : Schema, schema.Written allowed → other.Written allowed →
        arrowSchemaKey library schema = arrowSchemaKey library other → schema = other :=
      fun schema other written otherWritten same =>
        schema_unique readable (fun field member => (written field member).mono narrower)
          (fun field member => (otherWritten field member).mono narrower) same
    constructor
    · intro schema other written otherWritten same
      rw [← arrowSchemaKey_eq, ← arrowSchemaKey_eq, or_self] at same
      exact identified schema other written otherWritten same
    · intro filter calls schemas
      exact evaluateArrowBatches_eq identified (fun _ _ stored => by cases stored) schemas

def keyLibrary : Library :=
  { textLibrary exactFloats with debug := fun type => String.ofList (typeText type) }

theorem keyLibrary_readable : keyLibrary.ReadableTypes where
  unique {first second rest others} same := by
    have texts : ∀ type, (keyLibrary.debug type).toList = typeText type :=
      fun _ => String.toList_ofList
    rw [texts, texts] at same
    exact (typeText_unique same).1
  boolean := rfl

theorem plain_names_have_keys_of_their_own :
    arrowSchemaKey keyLibrary [booleanField "a" [("k", "v")]] ≠
      arrowSchemaKey keyLibrary [booleanField "b" [("k", "v")]] := by
  intro same
  have identified := ((schema_keys_identify_iff exactFloats keyLibrary (fun _ => none)
    keyLibrary_readable (· ∉ separators) (fun _ free => free)).mpr
      fun _ known free => free known).1
  exact absurd (identified _ _ (by unfold Schema.Written; decide) (by unfold Schema.Written; decide)
    (Or.inl same)) (by decide)

def columnFilter : CompiledFilter :=
  ⟨"b = true".toList, [⟨⟨["b"]⟩, .equal, .bool true⟩]⟩

def trueBatch (schema : Schema) : Batch where
  schema
  rows := 1
  cell _ _ := some (.bool true)

/-- Names and metadata that hold a separator: the filter that was compiled for a schema with a
column `b` is used for one that has none, and looks at the column in its place. -/
theorem filter_is_reused_for_another_schema :
    CompiledFilter.compile exactFloats true "b = true".toList = .ok columnFilter ∧
      (sharedKey '|').1 ≠ (sharedKey '|').2 ∧
      arrowSchemaKey keyLibrary (sharedKey '|').1 = arrowSchemaKey keyLibrary (sharedKey '|').2 ∧
      arrowSchemaCompatibilityKey keyLibrary (sharedKey '|').1 =
        arrowSchemaCompatibilityKey keyLibrary (sharedKey '|').2 ∧
      columnFilter.evaluateArrowBatches exactFloats keyLibrary (fun _ => none) (fun _ => none)
          [(none, trueBatch (sharedKey '|').1), (none, trueBatch (sharedKey '|').2)] =
        [.ok [true], .ok [true]] ∧
      columnFilter.evaluateArrowBatch exactFloats keyLibrary (fun _ => none)
          (trueBatch (sharedKey '|').2) = .error (.dataFusion "No field named b") := by
  have same : arrowSchemaKey keyLibrary (sharedKey '|').1 =
      arrowSchemaKey keyLibrary (sharedKey '|').2 := sharedKey_same keyLibrary_readable (by decide)
  have results : ((ArrowCompiledFilter.compile exactFloats keyLibrary (fun _ => none)
      columnFilter.sql (sharedKey '|').1).map fun compiled =>
        [compiled.evaluate keyLibrary (trueBatch (sharedKey '|').1),
          compiled.evaluate keyLibrary (trueBatch (sharedKey '|').2)]) =
      .ok [.ok [true], .ok [true]] := by
    decide +kernel
  refine ⟨by decide +kernel, by decide, same, same, ?_, by decide +kernel⟩
  cases compiles : ArrowCompiledFilter.compile exactFloats keyLibrary (fun _ => none)
      columnFilter.sql (sharedKey '|').1 with
  | error error =>
    rw [compiles] at results
    cases results
  | ok compiled =>
    rw [compiles] at results
    have shared := evaluateArrowBatches_shared (trueBatch (sharedKey '|').1)
      (trueBatch (sharedKey '|').2) (by decide) same.symm compiles none
    exact shared.trans (Except.ok.inj results)

end KrabkaGateway.Filter
