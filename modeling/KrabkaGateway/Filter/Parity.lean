import Mathlib.Data.List.Dedup
import KrabkaGateway.Filter.Groups
import KrabkaGateway.Filter.Sdk

/-!
# One filter on records with and without a schema

The row bridge and the comparisons of DataFusion are described by laws. On columns that
hold a predicate's literal and keep the values of its field, the lowered predicate decides
as the comparison of `filter.rs` does on the document itself.
-/

namespace KrabkaGateway.Filter

open Lib

/-! ## What the library does -/

namespace DataType

/-- The cell that a column of the type has for a value. Floating point columns take every number. -/
def cell? (floats : Floats) : DataType → FieldValue → Option FieldValue
  | .utf8, .string text => some (.string text)
  | .integer _ _, .number (.integer value) => some (.number (.integer value))
  | .float64, .number value => some (.number (.float (value.asF64 floats)))
  | .boolean, .bool value => some (.bool value)
  | .dictionary _ type, value => type.cell? floats value
  | _, _ => none

def Takes : DataType → FilterValue → Prop
  | .utf8, .string _ => True
  | .integer _ _, .number (.integer _) => True
  | .float64, .number (.float _) => True
  | .boolean, .bool _ => True
  | .dictionary _ type, literal => type.Takes literal
  | _, _ => False

end DataType

/-- Arrow tells the signs of two floating point zeros apart, which are not modelled. -/
def Zeros (literal : FilterValue) (cell : FieldValue) : Prop :=
  literal = .number (.float 0) ∧ cell = .number (.float 0)

/-- The name is not one of a flattened member, and no row has an array or an object there. -/
structure SimpleIn (rows : List Value) (name : String) : Prop where
  simple : isComplexName name.toList = false
  scalar : ∀ row ∈ rows, ∀ value, row.get name = some value →
    (FieldValue.fromScalarJson value).isSome

/-- A simple name has a column if a row has it, and a row has its value there or null. -/
structure Bridged (floats : Floats) (rows : List Value) (batch : Batch) : Prop where
  size : batch.rows = rows.length
  columns : ∀ name, SimpleIn rows name →
    ((batch.schema.column? name).isSome ↔ ∃ row ∈ rows, (row.get name).isSome)
  null : ∀ name column type, SimpleIn rows name →
    batch.schema.column? name = some (column, type) →
    ∀ index row, rows[index]? = some row → row.get name = none ∨ row.get name = some .null →
      batch.cell index column = none
  kept : ∀ name column type, SimpleIn rows name →
    batch.schema.column? name = some (column, type) →
    ∀ index row, rows[index]? = some row → ∀ value field cell, row.get name = some value →
      FieldValue.fromScalarJson value = some field → type.cell? floats field = some cell →
      batch.cell index column = some cell

structure Library.Lawful (floats : Floats) (library : Library) : Prop where
  bridge : ∀ rows batch, (∀ row ∈ rows, row.asObject.isSome) → library.bridge rows = .ok batch →
    Bridged floats rows batch
  binary : ∀ (type : DataType) (operator : ComparisonOperator) (literal : FilterValue),
    type.Takes literal → operator.acceptsLiteral literal = true →
    ∃ holds, library.binary type operator literal = .ok holds ∧
      ∀ field cell, type.cell? floats field = some cell → ¬Zeros literal cell →
        holds cell = literal.matchesField floats operator cell

variable {floats : Floats} {library : Library} {read : Bytes → Option Value}

/-! ## Predicates -/

/-- A value and a literal are compared in a column as they are by themselves: rounded to the type of
the column, two numbers stay in the same order. -/
def Compares (floats : Floats) (expected literal : FilterValue) (field cell : FieldValue) : Prop :=
  ¬Zeros literal cell ∧
    match expected, literal, field, cell with
    | .number expected, .number literal, .number field, .number cell =>
      field.compare floats expected = cell.compare floats literal
    | _, _, _, _ => True

/-- The column of a predicate has the values of the rows and takes the literal. For `= null` the
rows have the field: a column is null where the field is missing. -/
structure Predicate.Typed (floats : Floats) (library : Library) (schema : Schema)
    (rows : List Value) (predicate : Predicate) : Prop where
  simple : isComplexName predicate.field.asTopLevelName.toList = false
  typed : ∃ column type, schema.column? predicate.field.asTopLevelName = some (column, type) ∧
    (∀ row ∈ rows, ∀ value, row.get predicate.field.asTopLevelName = some value → value = .null ∨
      ∃ field cell, FieldValue.fromScalarJson value = some field ∧
        type.cell? floats field = some cell) ∧
    (predicate.expected ≠ .null → ∃ literal,
      predicate.expected.toDatafusionLiteral floats library type = .ok literal ∧
      type.Takes literal ∧ ∀ row ∈ rows, ∀ value field cell,
        row.get predicate.field.asTopLevelName = some value →
        FieldValue.fromScalarJson value = some field → type.cell? floats field = some cell →
        Compares floats predicate.expected literal field cell)
  present : predicate.expected = .null → predicate.operator = .equal →
    ∀ row ∈ rows, (row.get predicate.field.asTopLevelName).isSome

theorem acceptsLiteral_of_lowered {type : DataType} {expected literal : FilterValue}
    (lowered : expected.toDatafusionLiteral floats library type = .ok literal)
    {operator : ComparisonOperator} (accepts : operator.acceptsLiteral expected = true) :
    operator.acceptsLiteral literal = true := by
  cases expected with
  | number expected =>
    obtain ⟨number, _, rfl⟩ := ok_of_map lowered
    exact accepts
  | _ =>
    cases lowered
    try exact accepts

theorem matchesField_of_compares {type : DataType} {expected literal : FilterValue}
    {field cell : FieldValue}
    (lowered : expected.toDatafusionLiteral floats library type = .ok literal)
    (takes : type.Takes literal) (stored : type.cell? floats field = some cell)
    (compares : Compares floats expected literal field cell) (operator : ComparisonOperator) :
    literal.matchesField floats operator cell = expected.matchesField floats operator field := by
  have order := compares.2
  induction type with
  | dictionary key type _ ih =>
    rw [DataType.Takes] at takes
    rw [DataType.cell?] at stored
    refine ih ?_ takes stored
    cases expected <;> exact lowered
  | utf8 =>
    rcases field with text | _ | _ | _ <;> cases stored
    cases expected with
    | string expected =>
      cases lowered
      rfl
    | number | null => cases lowered
    | bool expected =>
      cases lowered
      cases takes
  | boolean =>
    rcases field with _ | _ | value | _ <;> cases stored
    cases expected with
    | bool expected =>
      cases lowered
      rfl
    | number | null => cases lowered
    | string expected =>
      cases lowered
      cases takes
  | integer signed bits =>
    rcases field with _ | (value | _) | _ | _ <;> cases stored
    cases expected with
    | number expected =>
      obtain ⟨number, _, rfl⟩ := ok_of_map lowered
      simp only [FilterValue.matchesField, order]
    | _ =>
      cases lowered
      try cases takes
  | float64 =>
    rcases field with _ | value | _ | _ <;> cases stored
    cases expected with
    | number expected =>
      cases lowered
      simp only [FilterValue.matchesField, order]
    | _ =>
      cases lowered
      try cases takes
  | float32 | other => cases field <;> cases stored

theorem fromJson_of_scalar {value : Value} {field : FieldValue}
    (scalar : FieldValue.fromScalarJson value = some field) :
    FieldValue.fromJson value = some field := by
  rw [FieldValue.fromJson, scalar]
  rfl

section Decides

variable {floats : Floats} {predicate : Predicate} {row : Value}

theorem decides_of_missing (missing : row.get predicate.field.asTopLevelName = none) :
    predicate.decides floats row = false := by
  simp [Predicate.decides, missing]

variable {field : FieldValue}

theorem decides_of_field {value : Value}
    (found : row.get predicate.field.asTopLevelName = some value)
    (json : FieldValue.fromJson value = some field) :
    predicate.decides floats row =
      predicate.expected.matchesField floats predicate.operator field := by
  simp [Predicate.decides, found, json]

theorem matchesField_null_of_ne (some : field ≠ .null) (operator : ComparisonOperator) :
    FilterValue.null.matchesField floats operator field = (operator == .notEqual) := by
  cases field with
  | null => exact absurd rfl some
  | _ => rfl

theorem matchesField_of_null {expected : FilterValue} (some : expected ≠ .null)
    (operator : ComparisonOperator) : expected.matchesField floats operator .null = false := by
  cases expected with
  | null => exact absurd rfl some
  | _ => rfl

end Decides

theorem cell?_null (floats : Floats) (type : DataType) : type.cell? floats .null = none := by
  induction type with
  | dictionary _ _ _ ih => rwa [DataType.cell?]
  | _ => rfl

variable {predicate : Predicate} {rows : List Value} {batch : Batch}

theorem Predicate.Typed.simpleIn {schema : Schema}
    (typed : predicate.Typed floats library schema rows) :
    SimpleIn rows predicate.field.asTopLevelName := by
  obtain ⟨_, _, _, values, _⟩ := typed.typed
  refine ⟨typed.simple, fun row member value found => ?_⟩
  obtain rfl | ⟨field, _, scalar, _⟩ := values row member value found
  · rfl
  · rw [scalar]
    rfl

variable {predicates : List Predicate}

section Lowered

variable (lawful : library.Lawful floats) (bridged : Bridged floats rows batch)

include lawful bridged

theorem toDatafusionExpr_ok
    (typed : predicate.Typed floats library batch.schema rows)
    (accepts : predicate.operator.acceptsLiteral predicate.expected = true) :
    ∃ expr, predicate.toDatafusionExpr floats library batch.schema = .ok expr ∧
      ∀ index row, rows[index]? = some row →
        (expr batch index = some true ↔ predicate.decides floats row = true) := by
  have simple := typed.simpleIn
  obtain ⟨_, ⟨column, type, found, values, literals⟩, present⟩ := typed
  -- A cell is null where the field is missing or null, and the value of the field otherwise.
  have cells : ∀ index row, rows[index]? = some row →
      (batch.cell index column = none ∧
        (row.get predicate.field.asTopLevelName = none ∨
          row.get predicate.field.asTopLevelName = some .null)) ∨
      ∃ value field cell, row.get predicate.field.asTopLevelName = some value ∧
        FieldValue.fromScalarJson value = some field ∧ type.cell? floats field = some cell ∧
        batch.cell index column = some cell := by
    intro index row at_
    have empty := bridged.null _ column type simple found index row at_
    cases own : row.get predicate.field.asTopLevelName with
    | none => exact Or.inl ⟨empty (Or.inl own), Or.inl rfl⟩
    | some value =>
      obtain rfl | ⟨field, cell, scalar, stored⟩ :=
        values row (List.mem_of_getElem? at_) value own
      · exact Or.inl ⟨empty (Or.inr own), Or.inr rfl⟩
      · exact Or.inr ⟨value, field, cell, rfl, scalar, stored,
          bridged.kept _ column type simple found index row at_ value field cell own scalar stored⟩
  unfold Predicate.toDatafusionExpr
  simp only [found]
  by_cases isNull : predicate.expected = .null
  · have notNull : ∀ {field cell}, type.cell? floats field = some cell → field ≠ .null := by
      rintro field cell stored rfl
      rw [cell?_null] at stored
      cases stored
    rw [if_pos isNull]
    rw [isNull] at accepts
    cases operator : predicate.operator <;> rw [operator] at accepts <;>
      simp only [ComparisonOperator.acceptsLiteral, ComparisonOperator.isOrdered, Bool.not_true,
        Bool.or_false, Bool.false_eq_true] at accepts
    · refine ⟨_, rfl, fun index row at_ => ?_⟩
      have has := present isNull operator row (List.mem_of_getElem? at_)
      rcases cells index row at_ with
        ⟨cell, none | null⟩ | ⟨value, field, _, found, scalar, stored, cell⟩
      · simp [none] at has
      · rw [decides_of_field null rfl, isNull, operator]
        simp [cell, FilterValue.matchesField]
      · rw [decides_of_field found (fromJson_of_scalar scalar), isNull, operator,
          matchesField_null_of_ne (notNull stored)]
        simp [cell]
    · refine ⟨_, rfl, fun index row at_ => ?_⟩
      rcases cells index row at_ with
        ⟨cell, none | null⟩ | ⟨value, field, _, found, scalar, stored, cell⟩
      · simp [decides_of_missing none, cell]
      · rw [decides_of_field null rfl, isNull, operator]
        simp [cell, FilterValue.matchesField]
      · rw [decides_of_field found (fromJson_of_scalar scalar), isNull, operator,
          matchesField_null_of_ne (notNull stored)]
        simp [cell]
  · rw [if_neg isNull]
    obtain ⟨literal, lowered, takes, compares⟩ := literals isNull
    obtain ⟨holds, compiled, agrees⟩ := lawful.binary type predicate.operator literal takes
      (acceptsLiteral_of_lowered lowered accepts)
    refine ⟨fun batch row => (batch.cell row column).map holds, ?_, fun index row at_ => ?_⟩
    · rw [lowered]
      simp only [compiled]
    · rcases cells index row at_ with
        ⟨cell, none | null⟩ | ⟨value, field, own, found, scalar, stored, cell⟩
      · simp [decides_of_missing none, cell]
      · rw [decides_of_field null rfl, matchesField_of_null isNull]
        simp [cell]
      · have pair := compares row (List.mem_of_getElem? at_) value field own found scalar stored
        rw [decides_of_field found (fromJson_of_scalar scalar),
          ← matchesField_of_compares lowered takes stored pair, ← agrees field own stored pair.1]
        simp [cell]

variable (typed : ∀ predicate ∈ predicates, predicate.Typed floats library batch.schema rows)
  (accepts : ∀ predicate ∈ predicates,
    predicate.operator.acceptsLiteral predicate.expected = true)

include typed accepts

theorem conjoin_ok (combined : Batch → Nat → Option Bool) :
    ∃ expr, conjoin floats library batch.schema combined predicates = .ok expr ∧
      ∀ index row, rows[index]? = some row →
        (expr batch index = some true ↔ combined batch index = some true ∧
          ∀ predicate ∈ predicates, predicate.decides floats row = true) := by
  induction predicates generalizing combined with
  | nil => exact ⟨combined, rfl, by simp⟩
  | cons predicate remaining ih =>
    obtain ⟨next, lowered, decides⟩ := toDatafusionExpr_ok lawful bridged
      (typed predicate List.mem_cons_self) (accepts predicate List.mem_cons_self)
    obtain ⟨expr, joined, all⟩ := ih
      (fun predicate member => typed predicate (List.mem_cons_of_mem _ member))
      (fun predicate member => accepts predicate (List.mem_cons_of_mem _ member))
      (fun batch row => sqlAnd (combined batch row) (next batch row))
    refine ⟨expr, ?_, fun index row at_ => ?_⟩
    · rw [conjoin, lowered]
      exact joined
    · rw [all index row at_, sqlAnd_eq_true, decides index row at_, List.forall_mem_cons, and_assoc]

theorem datafusionPredicateForSchema_ok :
    ∃ expr, datafusionPredicateForSchema floats library batch.schema predicates = .ok expr ∧
      ∀ index row, rows[index]? = some row →
        (expr batch index = some true ↔
          ∀ predicate ∈ predicates, predicate.decides floats row = true) := by
  cases predicates with
  | nil => exact ⟨_, rfl, by simp⟩
  | cons first remaining =>
    obtain ⟨expr, lowered, decides⟩ := toDatafusionExpr_ok lawful bridged
      (typed first List.mem_cons_self) (accepts first List.mem_cons_self)
    obtain ⟨whole, joined, all⟩ := conjoin_ok lawful bridged
      (fun predicate member => typed predicate (List.mem_cons_of_mem _ member))
      (fun predicate member => accepts predicate (List.mem_cons_of_mem _ member)) expr
    refine ⟨whole, ?_, fun index row at_ => ?_⟩
    · rw [datafusionPredicateForSchema, lowered]
      exact joined
    · rw [all index row at_, decides index row at_, List.forall_mem_cons]

end Lowered

/-! ## Accepted filters -/

variable {arrow : Bool}

theorem acceptsLiteral_of_parsePredicate {clause : List Char}
    (parsed : parsePredicate floats arrow clause = .ok predicate) :
    predicate.operator.acceptsLiteral predicate.expected = true := by
  unfold parsePredicate at parsed
  split at parsed
  · cases parsed
  · simp only [bind, Except.bind] at parsed
    split at parsed
    · cases parsed
    · split at parsed
      · cases parsed
      · split at parsed
        · cases parsed
        · rename_i accepted
          split at parsed
          · cases parsed
          · cases parsed
            simpa using accepted

theorem acceptsLiteral_of_parse {sql : List Char}
    (parsed : parseLegacyPredicates floats arrow sql = .ok predicates) :
    ∀ predicate ∈ predicates, predicate.operator.acceptsLiteral predicate.expected = true := by
  intro predicate member
  unfold parseLegacyPredicates at parsed
  cases split : splitAndClauses sql with
  | error error =>
    rw [split] at parsed
    cases parsed
  | ok clauses =>
    rw [split] at parsed
    obtain ⟨clause, _, own⟩ := mem_of_mapM_ok parsed predicate member
    exact acceptsLiteral_of_parsePredicate own

variable {text : List Char} {filter : CompiledFilter}

theorem parse_of_compile (compiled : CompiledFilter.compile floats arrow text = .ok filter)
    (simple : filter.predicates ≠ []) :
    filter.sql ≠ [] ∧ parseLegacyPredicates floats arrow filter.sql = .ok filter.predicates := by
  unfold CompiledFilter.compile at compiled
  simp only at compiled
  split at compiled
  · cases compiled
    exact absurd rfl simple
  · rename_i nonempty
    split at compiled
    · cases compiled
    · split at compiled
      · cases compiled
      · split at compiled
        · rename_i parsed
          cases compiled
          exact ⟨by simpa using nonempty, parsed⟩
        · split at compiled
          · cases compiled
            exact absurd rfl simple
          · cases compiled

/-! ## Groups -/

def PolledRecord.document (record : PolledRecord) : Bytes :=
  record.json.getD record.value

/-- The same JSON without a schema. -/
def unframed (document : Bytes) : PolledRecord :=
  ⟨document, none, none⟩

structure Carries (library : Library) (read : Bytes → Option Value) (record : PolledRecord) :
    Prop where
  object : ∃ members, read record.document = some (.object members)
  framed : decodeArrowIpcRecord library record = .ok none
  plain : decodeArrowIpcRecord library (unframed record.document) = .ok none

/-- No column is an enum, no column has a name that the filter text is rewritten for, and the
columns of the predicates are typed. -/
structure CompiledFilter.Typed (floats : Floats) (library : Library) (filter : CompiledFilter)
    (rows : List Value) (batch : Batch) : Prop where
  distinct : library.dfSchema batch.schema = .ok ()
  plain : ∀ field ∈ batch.schema, arrowFieldNeedsEnumSymbolProjection field = false
  unquoted : quoteComplexArrowFieldReferences filter.sql batch.schema = filter.sql
  predicates : ∀ predicate ∈ filter.predicates,
    predicate.Typed floats library batch.schema rows

variable {schema : Schema}

@[simp]
theorem arrowFilterSchema_nil (schema : Schema) : arrowFilterSchema [] schema = schema := by
  simp [arrowFilterSchema, List.zipIdx_map_fst]

theorem arrowEnumSymbolColumns_plain
    (plain : ∀ field ∈ schema, arrowFieldNeedsEnumSymbolProjection field = false) :
    arrowEnumSymbolColumns read schema = .ok [] := by
  have none : (schema.zipIdx.filter fun column =>
      arrowFieldNeedsEnumSymbolProjection column.1) = [] := by
    apply List.filter_eq_nil_iff.mpr
    intro column member
    simp [plain column.1 (List.fst_mem_of_mem_zipIdx member)]
  rw [arrowEnumSymbolColumns, none]
  rfl

theorem column?_eq_some {name : String} {column : Nat} {type : DataType}
    (found : schema.column? name = some (column, type)) :
    ∃ field, schema[column]? = some field ∧ field.name = name ∧ field.type = type := by
  obtain ⟨⟨field, index⟩, first, same⟩ := Option.map_eq_some_iff.mp found
  cases same
  have named := List.find?_some first
  exact ⟨field, List.mk_mem_zipIdx_iff_getElem?.mp (List.mem_of_find?_eq_some first),
    eq_of_beq named, rfl⟩

@[simp]
theorem boundIn_self (schema : Schema) (predicates : List Predicate) :
    boundIn schema predicates schema = true := by
  rw [boundIn, List.all_eq_true]
  intro predicate _
  rw [Option.all_eq_true]
  rintro ⟨column, type⟩ bound
  obtain ⟨field, listed, _, same⟩ := column?_eq_some bound
  simp [listed, same]

theorem evaluateArrowBatch_ok (read : Bytes → Option Value) (lawful : library.Lawful floats)
    (bridged : Bridged floats rows batch)
    (parsed : parseLegacyPredicates floats true filter.sql = .ok filter.predicates)
    (text : filter.sql ≠ []) (typed : filter.Typed floats library rows batch)
    (decision : Value → Bool)
    (decides : ∀ row ∈ rows, decision row = true ↔
      ∀ predicate ∈ filter.predicates, predicate.decides floats row = true) :
    filter.evaluateArrowBatch floats library read batch = .ok (rows.map decision) := by
  obtain ⟨expr, lowered, holds⟩ := datafusionPredicateForSchema_ok lawful bridged typed.predicates
    (acceptsLiteral_of_parse parsed)
  have compiled : ArrowCompiledFilter.compile floats library read filter.sql batch.schema =
      .ok ⟨fun other => if boundIn batch.schema filter.predicates other.schema then
          .ok (.mask (expr other)) else library.mistyped filter.predicates batch.schema other,
            []⟩ := by
    simp only [ArrowCompiledFilter.compile, arrowEnumSymbolColumns_plain typed.plain,
      arrowFilterSchema_nil, typed.distinct, typed.unquoted, parsed, lowered, bind, Except.bind,
      pure, Except.pure]
  have mask : (List.range batch.rows).map (fun row => expr batch row == some true) =
      rows.map decision := by
    apply List.ext_getElem?
    intro index
    rw [bridged.size, List.getElem?_map, List.getElem?_map]
    cases at_ : rows[index]? with
    | none =>
      rw [List.getElem?_eq_none (by simpa using List.getElem?_eq_none_iff.mp at_)]
      rfl
    | some row =>
      obtain ⟨bound, _⟩ := List.getElem?_eq_some_iff.mp at_
      rw [List.getElem?_range bound, Option.map_some, Option.map_some, Option.some.injEq,
        Bool.eq_iff_iff, beq_iff_eq, holds index row at_, decides row (List.mem_of_getElem? at_)]
  simp only [CompiledFilter.evaluateArrowBatch, List.isEmpty_iff, text, if_false, compiled, bind,
    Except.bind, ArrowCompiledFilter.evaluate, enumSymbolFilterBatch, boundIn_self, if_true, pure,
    Except.pure, mask]

variable {record : PolledRecord}

theorem filterPolledRecords_unframed (carries : Carries library read record) :
    filterPolledRecords floats library read filter [unframed record.document] =
      .ok [filter.sql.isEmpty ||
        filter.matchesStructuredJson floats read (some record.document)] := by
  obtain ⟨members, object⟩ := carries.object
  have plain := carries.plain
  rw [unframed] at plain
  simp [filterPolledRecords, filterPolledRecordsWithArrowBatches, pollRecord, plain,
    PollState.drainArrow,
    PollState.drainSchemaJson, RecordGroup.drainFilteringInto, RecordGroup.empty,
    schemaJsonFilterSchemaId, filterJsonFallbackRecord, structuredJsonOrUnframedValue, unframed,
    object, bind, Except.bind, pure, Except.pure, Except.map]

def PolledRecord.parsed (read : Bytes → Option Value) (record : PolledRecord) : Value :=
  (read record.document).getD .null

theorem mapM_row_ok (library : Library) {records : List PolledRecord}
    (json : ∀ record ∈ records, record.json.isSome)
    (objects : ∀ record ∈ records, ∃ members, read record.document = some (.object members)) :
    records.mapM (PolledRecord.row library read) =
      .ok (records.map (PolledRecord.parsed read)) := by
  induction records with
  | nil => rfl
  | cons record rest ih =>
    obtain ⟨members, object⟩ := objects record List.mem_cons_self
    obtain ⟨text, own⟩ := Option.isSome_iff_exists.mp (json record List.mem_cons_self)
    have first : record.row library read = .ok (record.parsed read) := by
      simp only [PolledRecord.document, own, Option.getD_some] at object
      simp [PolledRecord.row, PolledRecord.parsed, PolledRecord.document, own, object]
    have later := ih
      (fun record member => json record (List.mem_cons_of_mem _ member))
      (fun record member => objects record (List.mem_cons_of_mem _ member))
    rw [List.mapM_cons, first, later]
    rfl

def AsUnframed (floats : Floats) (library : Library) (read : Bytes → Option Value)
    (filter : CompiledFilter) (record : PolledRecord) (decision : FilteredRecordDecision) : Prop :=
  Carries library read record →
    filterPolledRecords floats library read filter [unframed record.document] =
      .ok [decision.delivers]

theorem alone_decided (record : PolledRecord) :
    (Segment.alone record).Decided floats library read filter
      (AsUnframed floats library read filter) := by
  refine ⟨_, rfl, .cons (fun carries => ?_) .nil⟩
  obtain ⟨members, object⟩ := carries.object
  rw [filterPolledRecords_unframed carries, filterJsonFallbackRecord,
    FilteredRecordDecision.delivers_of]
  have same : structuredJsonOrUnframedValue read record = some record.document := by
    unfold structuredJsonOrUnframedValue
    cases json : record.json with
    | some text => simp [PolledRecord.document, json]
    | none =>
      simp only [PolledRecord.document, json, Option.getD_none] at object ⊢
      simp [object]
  rw [same]

theorem ipc_decided {members : List ArrowIpcRecord} {all : List PolledRecord}
    (sourced : (Segment.ipc members).Sourced library all) (evaluated : ∃ decisions,
      filterArrowIpcGroup floats library read filter members = .ok decisions) :
    (Segment.ipc members).Decided floats library read filter
      (AsUnframed floats library read filter) := by
  obtain ⟨decisions, evaluated⟩ := evaluated
  refine ⟨decisions, evaluated, List.forall₂_iff_zip.mpr ⟨?_, fun {record decision} pair => ?_⟩⟩
  · simpa [Segment.records] using
      (congrArg List.length (record_filterArrowIpcGroup floats library read evaluated)).symm
  · -- An Arrow IPC record carries no JSON here.
    intro carries
    obtain ⟨ipc, member, rfl⟩ := List.mem_map.mp (List.of_mem_zip pair).1
    have both := carries.framed.symm.trans (sourced.1 ipc member).2
    cases both

/-- A group of records with one schema id is decided as its documents are. -/
theorem group_decided (lawful : library.Lawful floats)
    (compiled : CompiledFilter.compile floats true text = .ok filter)
    (simple : filter.sql = [] ∨ filter.predicates ≠ []) {members : List PolledRecord}
    (json : ∀ record ∈ members, record.json.isSome)
    (carries : ∀ record ∈ members, Carries library read record)
    (typed : ∃ rows batch, members.mapM (PolledRecord.row library read) = .ok rows ∧
      library.bridge rows = .ok batch ∧
      (filter.sql ≠ [] → filter.Typed floats library rows batch)) :
    (Segment.group members).Decided floats library read filter
      (AsUnframed floats library read filter) := by
  have mapped := mapM_row_ok library json fun record member => (carries record member).object
  have objects : ∀ row ∈ members.map (PolledRecord.parsed read), row.asObject.isSome := by
    intro row member
    obtain ⟨record, among, rfl⟩ := List.mem_map.mp member
    obtain ⟨fields, object⟩ := (carries record among).object
    simp [PolledRecord.parsed, object, Value.asObject]
  obtain ⟨rows, batch, decoded, built, typed⟩ := typed
  obtain rfl : members.map (PolledRecord.parsed read) = rows :=
    Except.ok.inj (mapped.symm.trans decoded)
  have bridged := lawful.bridge _ batch objects built
  -- The mask of the batch, and that it has the decision on each document.
  obtain ⟨decision, mask, agrees⟩ : ∃ decision : PolledRecord → Bool,
      filter.evaluateArrowBatch floats library read batch = .ok (members.map decision) ∧
      ∀ record ∈ members, decision record = (filter.sql.isEmpty ||
        filter.matchesStructuredJson floats read (some record.document)) := by
    by_cases empty : filter.sql = []
    · refine ⟨fun _ => true, ?_, by simp [empty]⟩
      simp [CompiledFilter.evaluateArrowBatch, empty, bridged.size, List.map_const']
    · have listed := simple.resolve_left empty
      refine ⟨fun record => filter.predicates.all fun predicate =>
        predicate.decides floats (record.parsed read), ?_, fun record among => ?_⟩
      · have evaluated := evaluateArrowBatch_ok read lawful bridged
          (parse_of_compile compiled listed).2 empty (typed empty)
          (fun row => filter.predicates.all fun predicate => predicate.decides floats row)
          (by simp)
        rw [evaluated, List.map_map]
        rfl
      · obtain ⟨fields, object⟩ := (carries record among).object
        simp [matchesStructuredJson_eq floats read empty listed, PolledRecord.parsed, object, empty]
  refine ⟨members.map fun record => .of record (decision record), ?_, ?_⟩
  · simp [Segment.decide, filterSchemaJsonGroup, schemaJsonDecisions, mapped, built, mask, bind,
      Except.bind, List.zipWith_map_right, List.zipWith_self]
  · apply List.forall₂_map_right_iff.mpr
    apply List.forall₂_same.mpr
    intro record among carried
    rw [filterPolledRecords_unframed carried, FilteredRecordDecision.delivers_of,
      agrees record among]

def textColumns (rows : List Value) : List String :=
  (rows.flatMap fun row => (row.asObject.getD []).map Prod.fst).dedup

def textCell (rows : List Value) (index : Nat) (name : String) : Option FieldValue :=
  match rows[index]?.bind fun row => row.get name with
  | some (.string text) => some (.string text)
  | _ => none

def textField (name : String) : SchemaField := ⟨name, .utf8, true, []⟩

/-- Every member of a row has a column, in which a text is kept and any other value is null. -/
def textLibrary (floats : Floats) : Library where
  display := fun _ => "Utf8"
  debug := fun _ => "Utf8"
  dfSchema := fun _ => .ok ()
  missing := fun name => "No field named " ++ name
  parseF32 := fun _ => none
  binary := fun _ operator literal => .ok (literal.matchesField floats operator)
  mistyped := fun _ _ _ => .error "not supported"
  sql := fun _ _ => .error "not supported"
  bridge := fun rows => .ok {
    schema := (textColumns rows).map textField
    rows := rows.length
    cell := fun row column => (textColumns rows)[column]?.bind (textCell rows row) }
  decodeError := fun _ => "expected value"
  stream := fun _ => none
  concat := fun _ _ => .error "not supported"

theorem column?_textField {names : List String} {name : String} {column : Nat} {type : DataType}
    (found : Schema.column? (names.map textField) name = some (column, type)) :
    names[column]? = some name ∧ type = .utf8 := by
  obtain ⟨field, listed, rfl, rfl⟩ := column?_eq_some found
  rw [List.getElem?_map] at listed
  obtain ⟨own, at_, rfl⟩ := Option.map_eq_some_iff.mp listed
  exact ⟨at_, rfl⟩

theorem isSome_column?_textField (names : List String) (name : String) :
    (Schema.column? (names.map textField) name).isSome ↔ name ∈ names := by
  rw [Schema.column?, Option.isSome_map, List.find?_isSome]
  constructor
  · rintro ⟨⟨field, index⟩, member, same⟩
    obtain ⟨own, listed, rfl⟩ := List.mem_map.mp (List.fst_mem_of_mem_zipIdx member)
    exact eq_of_beq same ▸ listed
  · intro listed
    obtain ⟨index, at_⟩ := List.getElem?_of_mem listed
    refine ⟨(textField name, index), List.mk_mem_zipIdx_iff_getElem?.mpr ?_, beq_self_eq_true name⟩
    rw [List.getElem?_map, at_]
    rfl

theorem isSome_lookup_iff (members : List (String × Value)) (name : String) :
    (members.lookup name).isSome ↔ name ∈ members.map Prod.fst := by
  induction members with
  | nil => simp
  | cons member members ih =>
    by_cases same : name = member.1
    · simp [same]
    · rw [List.lookup_cons, beq_false_of_ne same]
      simp [ih, same]

theorem textLibrary_lawful (floats : Floats) : (textLibrary floats).Lawful floats where
  bridge := by
    rintro rows _ objects ⟨⟩
    refine ⟨rfl, fun name _ => ?_, ?_, ?_⟩
    · rw [isSome_column?_textField, textColumns, List.mem_dedup, List.mem_flatMap]
      apply exists_congr
      intro row
      apply and_congr_right
      intro member
      obtain ⟨fields, object⟩ := Option.isSome_iff_exists.mp (objects row member)
      rw [Value.get, object, Option.bind_some, isSome_lookup_iff, Option.getD_some]
    · intro name column type _ found index row at_ empty
      obtain ⟨own, _⟩ := column?_textField found
      rcases empty with none | null
      · simp [own, textCell, at_, none]
      · simp [own, textCell, at_, null]
    · intro name column type _ found index row at_ value field cell has scalar stored
      obtain ⟨own, rfl⟩ := column?_textField found
      rcases field with text | _ | _ | _ <;> cases stored
      cases value with
      | string text =>
        cases scalar
        simp [own, textCell, at_, has]
      | number number => cases number <;> cases scalar
      | _ => cases scalar
  binary := fun _ _ _ _ _ => ⟨_, rfl, fun _ _ _ _ => rfl⟩

def paidOrder : Value := .object [("status", .string "PAID")]
def openOrder : Value := .object [("status", .string "OPEN")]
def bareOrder : Value := .object [("region", .string "eu")]

def readOrder : Bytes → Option Value :=
  fun bytes =>
    if bytes = [1] then some paidOrder
    else if bytes = [2] then some openOrder
    else if bytes = [3] then some bareOrder
    else none

def orderOf (document : Bytes) : PolledRecord := ⟨0 :: document, some document, some 7⟩

def statusFilter : CompiledFilter :=
  ⟨"status = 'PAID'".toList, [⟨⟨["status"]⟩, .equal, .string "PAID"⟩]⟩

theorem compile_statusFilter :
    CompiledFilter.compile exactFloats true "status = 'PAID'".toList = .ok statusFilter := by
  decide +kernel

theorem carries_order {members : List (String × Value)}
    (object : readOrder record.document = some (.object members)) :
    Carries (textLibrary exactFloats) readOrder record := by
  have noStream : ∀ record, decodeArrowIpcRecord (textLibrary exactFloats) record = .ok none := by
    intro record
    unfold decodeArrowIpcRecord arrowIpcStreamReader
    split <;> simp_all [textLibrary]
  exact ⟨⟨members, object⟩, noStream _, noStream _⟩

/-- The status column of a group in which one order has no status. -/
theorem typed_statusFilter {batch : Batch}
    (built : (textLibrary exactFloats).bridge [paidOrder, bareOrder] = .ok batch) :
    statusFilter.Typed exactFloats (textLibrary exactFloats) [paidOrder, bareOrder] batch := by
  cases built
  refine ⟨rfl, ?_, by decide +kernel, ?_⟩
  · intro field member
    obtain ⟨name, _, rfl⟩ := List.mem_map.mp member
    rfl
  · intro predicate member
    obtain rfl := List.mem_singleton.mp member
    refine ⟨by decide, ⟨0, .utf8, by decide +kernel, ?_, fun _ => ⟨_, rfl, trivial, ?_⟩⟩, by simp⟩
    · intro row among value found
      rcases List.mem_pair.mp among with rfl | rfl
      · obtain rfl : Value.string "PAID" = value := Option.some.inj found
        exact Or.inr ⟨_, _, rfl, rfl⟩
      · cases found
    · intro row among value field cell found scalar stored
      rcases List.mem_pair.mp among with rfl | rfl
      · obtain rfl : Value.string "PAID" = value := Option.some.inj found
        cases scalar
        exact ⟨by simp [Zeros], trivial⟩
      · cases found

/-- The source means an order without a status to fail the poll where no order has one. -/
example : filterPolledRecords exactFloats (textLibrary exactFloats) readOrder statusFilter
    [orderOf [3]] = .error (.dataFusion "No field named status") := by
  decide +kernel

def nullFilter : CompiledFilter :=
  ⟨"status = null".toList, [⟨⟨["status"]⟩, .equal, .null⟩]⟩

end KrabkaGateway.Filter
