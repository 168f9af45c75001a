import KrabkaGateway.Filter.Compile

/-!
# Filters over Arrow batches

`ArrowCompiledFilter` of `filter.rs`: a filter text is compiled for the schema of a batch
and evaluated on its rows. Simple predicates are lowered to comparisons of a column with a
literal of the column's type, other texts are left to DataFusion. Arrow and DataFusion are
a library. A compiled filter finds columns by their index. A filter is compiled here for
every batch; the cache of compiled filters is set over this in `ArrowCache`.
-/

namespace KrabkaGateway.Filter

open Lib.Quoted

inductive DataType where
  | integer (signed : Bool) (bits : Nat)
  | float32
  | float64
  | utf8
  | boolean
  | dictionary (key value : DataType)
  | other (name : String)
  deriving DecidableEq, Repr

structure SchemaField where
  name : String
  type : DataType
  nullable : Bool
  metadata : List (String × String)
  deriving DecidableEq, Repr

abbrev Schema := List SchemaField

/-- The first column of a name: its index and its type. -/
def Schema.column? (schema : Schema) (name : String) : Option (Nat × DataType) :=
  (schema.zipIdx.find? fun column => column.1.name == name).map fun column =>
    (column.2, column.1.type)

/-- A cell is found by its row and its column. One that is `none` is null, and one of a dictionary
column holds the value that its key stands for. -/
structure Batch where
  schema : Schema
  rows : Nat
  cell : Nat → Nat → Option FieldValue

/-- What an expression comes to: values of another type, or a truth value or null for each row. -/
inductive Evaluated where
  | values (type : DataType)
  | mask (holds : Nat → Option Bool)

structure Library where
  /-- The display and debug texts of a data type. -/
  display : DataType → String
  debug : DataType → String
  /-- `DFSchema::try_from`. -/
  dfSchema : Schema → Except String Unit
  /-- The error of `col` for a column that is not there. -/
  missing : String → String
  /-- The number that a text denotes in `f32`, if it is finite. -/
  parseF32 : String → Option Rat
  /-- A comparison of a column with a literal: an error of its compilation or evaluation, or the
  decision on a cell that is not null. -/
  binary : DataType → ComparisonOperator → FilterValue → Except String (FieldValue → Bool)
  /-- Predicates that are bound to the columns of a schema, on a batch in which these columns have
  other types or are not there. -/
  mistyped : List Predicate → Schema → Batch → Except String Evaluated
  /-- A text that is not a list of simple predicates. -/
  sql : List Char → Schema → Except String (Batch → Except String Evaluated)
  /-- The row bridge `json_rows_to_arrow_filter_batch`. -/
  bridge : List Value → Except String Batch
  /-- The error of `serde_json` for bytes that are no JSON. -/
  decodeError : Bytes → String
  /-- An Arrow IPC stream, if its reader opens, and the error of reading its batches. -/
  stream : Bytes → Option (Except String (List Batch))
  concat : Schema → List Batch → Except String Batch

variable (floats : Floats) (library : Library) (read : Bytes → Option Value)

/-! ## Literals -/

def NumericValue.asInteger : NumericValue → Option Int
  | .integer value => some value
  | .float value =>
    if value.den = 1 ∧ -2 ^ 127 ≤ value.num ∧ value.num < 2 ^ 127 then some value.num else none

def NumericValue.display : NumericValue → String
  | .integer value => toString value
  | .float value => String.ofList (floats.display value)

def numericLiteralTypeError (value : NumericValue) (type : DataType) : FilterCompileError :=
  .unsupportedSql ("numeric literal " ++ value.display floats ++ " cannot be represented as " ++
    library.display type)

def integerFits (signed : Bool) (bits : Nat) (value : Int) : Bool :=
  if signed then decide (-2 ^ (bits - 1) ≤ value ∧ value < 2 ^ (bits - 1))
  else decide (0 ≤ value ∧ value < 2 ^ bits)

def numericDatafusionLiteral (value : NumericValue) :
    DataType → Except FilterCompileError NumericValue
  | .integer signed bits =>
    match value.asInteger with
    | none => .error (numericLiteralTypeError floats library value (.integer signed bits))
    | some number =>
      if integerFits signed bits number then .ok (.integer number)
      else .error (numericLiteralTypeError floats library value (.integer signed bits))
  | .float32 =>
    match library.parseF32 (value.display floats) with
    | none => .error (numericLiteralTypeError floats library value .float32)
    | some number => .ok (.float number)
  | .float64 => .ok (.float (value.asF64 floats))
  | .dictionary _ type => numericDatafusionLiteral value type
  | type => .error (numericLiteralTypeError floats library value type)

def FilterValue.toDatafusionLiteral (type : DataType) :
    FilterValue → Except FilterCompileError FilterValue
  | .string value => .ok (.string value)
  | .number value => (numericDatafusionLiteral floats library value type).map .number
  | .bool value => .ok (.bool value)
  | .null => .error (.unsupportedSql "null literals must be lowered through IS NULL predicates")

/-! ## Predicates -/

def Predicate.toDatafusionExpr (schema : Schema) (predicate : Predicate) :
    Except FilterCompileError (Batch → Nat → Option Bool) :=
  let name := predicate.field.asTopLevelName
  match schema.column? name with
  | none => .error (.dataFusion (library.missing name))
  | some (column, type) =>
    if predicate.expected = .null then
      match predicate.operator with
      | .equal => .ok fun batch row => some (batch.cell row column).isNone
      | .notEqual => .ok fun batch row => some (batch.cell row column).isSome
      | _ => .error (.unsupportedSql "ordered comparisons against null are not supported")
    else
      match predicate.expected.toDatafusionLiteral floats library type with
      | .error error => .error error
      | .ok literal =>
        match library.binary type predicate.operator literal with
        | .error message => .error (.dataFusion message)
        | .ok holds => .ok fun batch row => (batch.cell row column).map holds

/-- `AND` of truth values and nulls. -/
def sqlAnd : Option Bool → Option Bool → Option Bool
  | some false, _ | _, some false => some false
  | some true, some true => some true
  | _, _ => none

theorem sqlAnd_eq_true {left right : Option Bool} :
    sqlAnd left right = some true ↔ left = some true ∧ right = some true := by
  rcases left with _ | _ | _ <;> rcases right with _ | _ | _ <;> simp [sqlAnd]

/-- `combined AND` the predicates. -/
def conjoin (schema : Schema) :
    (Batch → Nat → Option Bool) → List Predicate →
      Except FilterCompileError (Batch → Nat → Option Bool)
  | combined, [] => .ok combined
  | combined, predicate :: remaining =>
    match predicate.toDatafusionExpr floats library schema with
    | .error error => .error error
    | .ok next => conjoin schema (fun batch row => sqlAnd (combined batch row) (next batch row))
        remaining

def datafusionPredicateForSchema (schema : Schema) :
    List Predicate → Except FilterCompileError (Batch → Nat → Option Bool)
  | [] => .ok fun _ _ => some true
  | first :: remaining =>
    match first.toDatafusionExpr floats library schema with
    | .error error => .error error
    | .ok expr => conjoin floats library schema expr remaining

/-! ## Enum symbols -/

structure ArrowEnumSymbolColumn where
  index : Nat
  fieldName : String
  symbols : List (Int × String)

def arrowFieldNeedsEnumSymbolProjection (field : SchemaField) : Bool :=
  (field.metadata.lookup "krabka.enum" == some "true" ||
    (field.metadata.lookup "krabka.enum.symbols").isSome) &&
  match field.type with
  | .dictionary _ (.integer true bits) => bits == 32 || bits == 64
  | _ => false

def invalidEnumSymbols (field : SchemaField) : FilterCompileError :=
  .dataFusion ("arrow enum field " ++ field.name ++ " has invalid krabka.enum.symbols metadata")

def parseArrowEnumSymbols (field : SchemaField) :
    Except FilterCompileError (List (Int × String)) :=
  match field.metadata.lookup "krabka.enum.symbols" with
  | none =>
    .error (.dataFusion ("arrow enum field " ++ field.name ++
      " stores numeric values but has no krabka.enum.symbols descriptor metadata"))
  | some symbols =>
    match (read symbols.toUTF8.toList).bind Value.asObject with
    | none => .error (invalidEnumSymbols field)
    | some members =>
      members.mapM fun (number, name) =>
        match parseI64 number.toList, name.asStr with
        | some number, some name => .ok (number, name)
        | _, _ => .error (invalidEnumSymbols field)

def arrowEnumSymbolColumns (schema : Schema) :
    Except FilterCompileError (List ArrowEnumSymbolColumn) :=
  (schema.zipIdx.filter fun (field, _) => arrowFieldNeedsEnumSymbolProjection field).mapM
    fun (field, index) => (parseArrowEnumSymbols read field).map fun symbols =>
      { index, fieldName := field.name, symbols }

def arrowFilterSchema (columns : List ArrowEnumSymbolColumn) (schema : Schema) : Schema :=
  schema.zipIdx.map fun (field, index) =>
    if columns.any fun column => column.index == index then { field with type := .utf8 } else field

namespace ArrowEnumSymbolColumn

def symbolName (column : ArrowEnumSymbolColumn) (number : Int) : String :=
  (column.symbols.reverse.lookup number).getD ("UNKNOWN_" ++ toString number)

def symbol (column : ArrowEnumSymbolColumn) : FieldValue → FieldValue
  | .number (.integer number) => .string (column.symbolName number)
  | value => value

/-- Whether a column of the type has symbols. -/
def check (column : ArrowEnumSymbolColumn) : DataType → Except FilterCompileError Unit
  | .dictionary (.integer true 32) (.integer true 32)
  | .dictionary (.integer true 32) (.integer true 64) => .ok ()
  | .dictionary (.integer true 32) type =>
    .error (.dataFusion ("arrow enum field " ++ column.fieldName ++
      " has unsupported dictionary value type " ++ library.display type))
  | _ =>
    .error (.dataFusion ("arrow enum field " ++ column.fieldName ++
      " expected Dictionary<Int32, Int32|Int64> array values"))

end ArrowEnumSymbolColumn

def enumSymbolFilterBatch (columns : List ArrowEnumSymbolColumn) (batch : Batch) :
    Except FilterCompileError Batch :=
  if columns.isEmpty then .ok batch
  else do
    batch.schema.zipIdx.forM fun (field, index) =>
      match columns.find? fun column => column.index == index with
      | none => .ok ()
      | some column => column.check library field.type
    return { batch with
      schema := arrowFilterSchema columns batch.schema
      cell := fun row index =>
        match columns.find? fun column => column.index == index with
        | none => batch.cell row index
        | some column => (batch.cell row index).map column.symbol }

/-! ## Columns with complex names -/

def isComplexName (name : List Char) : Bool :=
  name.any fun char => char == '.' || char == '[' || char == ']'

def doubleQuoted (name : List Char) : List Char :=
  '"' :: name.flatMap (fun char => if char = '"' then ['"', '"'] else [char]) ++ ['"']

/-- Every round takes a character or a name that is not empty, so that the length of the text is
enough `fuel`. -/
def quoteFrom (names : List (List Char)) : Nat → Option Char → Bool → List Char → List Char
  | 0, _, _, rest => rest
  | _, _, _, [] => []
  | fuel + 1, previous, quoted, char :: rest =>
    if char = quote then
      if quoted ∧ rest.head? = some quote then
        quote :: quote :: quoteFrom names fuel (some quote) quoted rest.tail
      else char :: quoteFrom names fuel (some char) (!quoted) rest
    else if quoted then char :: quoteFrom names fuel (some char) quoted rest
    else
      match names.find? fun name => startsWithFieldReference name ⟨previous, char :: rest⟩ with
      | some name =>
        doubleQuoted name ++
          quoteFrom names fuel name.getLast? quoted ((char :: rest).drop name.length)
      | none => char :: quoteFrom names fuel (some char) quoted rest

/-- Longer names are looked for first. -/
def quoteComplexArrowFieldReferences (sql : List Char) (schema : Schema) : List Char :=
  let names := (schema.map fun field => field.name.toList).filter isComplexName
  if names.isEmpty then sql
  else
    let sorted := names.mergeSort fun left right =>
      decide ((String.ofList right).utf8ByteSize ≤ (String.ofList left).utf8ByteSize)
    quoteFrom sorted sql.length none false sql

/-! ## Compiling and evaluating -/

structure ArrowCompiledFilter where
  expr : Batch → Except String Evaluated
  enumSymbolColumns : List ArrowEnumSymbolColumn

/-- The columns that the predicates are bound to by a schema have the same types in another one. -/
def boundIn (schema : Schema) (predicates : List Predicate) (other : Schema) : Bool :=
  predicates.all fun predicate =>
    (schema.column? predicate.field.asTopLevelName).all fun (column, type) =>
      other[column]?.map SchemaField.type == some type

namespace ArrowCompiledFilter

def compile (sql : List Char) (schema : Schema) :
    Except FilterCompileError ArrowCompiledFilter := do
  let enumSymbolColumns ← arrowEnumSymbolColumns read schema
  let transformed := arrowFilterSchema enumSymbolColumns schema
  match library.dfSchema transformed with
  | .error message => .error (.dataFusion message)
  | .ok () =>
    let sql := quoteComplexArrowFieldReferences sql schema
    match parseLegacyPredicates floats true sql with
    | .ok predicates =>
      let holds ← datafusionPredicateForSchema floats library transformed predicates
      return {
        expr := fun batch =>
          if boundIn transformed predicates batch.schema then .ok (.mask (holds batch))
          else library.mistyped predicates transformed batch
        enumSymbolColumns }
    | .error _ =>
      match library.sql sql transformed with
      | .error message => .error (.dataFusion message)
      | .ok expr => return { expr, enumSymbolColumns }

def evaluate (filter : ArrowCompiledFilter) (batch : Batch) :
    Except FilterCompileError (List Bool) := do
  let batch ← enumSymbolFilterBatch library filter.enumSymbolColumns batch
  match filter.expr batch with
  | .error message => .error (.dataFusion message)
  | .ok (.values type) =>
    .error (.dataFusion ("predicate returned " ++ library.display type ++ ", expected Boolean"))
  | .ok (.mask holds) => return (List.range batch.rows).map fun row => holds row == some true

end ArrowCompiledFilter

def CompiledFilter.evaluateArrowBatch (filter : CompiledFilter) (batch : Batch) :
    Except FilterCompileError (List Bool) :=
  if filter.sql.isEmpty then .ok (List.replicate batch.rows true)
  else do
    let compiled ← ArrowCompiledFilter.compile floats library read filter.sql batch.schema
    compiled.evaluate library batch

end KrabkaGateway.Filter
