import KrabkaGateway.Filter.Conjunction

/-!
# String literals

`parse_quoted_string` looks at the first and the last character of a literal and takes
what is between them for the string, whether or not it is one quoted part. The text of
a string literal is the literal of its value if nothing in it stands outside quotes.
-/

namespace KrabkaGateway.Filter

open Lib Lib.Quoted

/-! ## One quoted part -/

variable {inner : List Char}

theorem escape_unescape {previous : Option Char}
    (whole : scan previous true (inner ++ [quote]) = ([], false)) :
    escape (unescape inner) = inner := by
  induction inner using unescape.induct generalizing previous with
  | case1 => rfl
  | case2 char doubled => simp at doubled
  | case3 char next more doubled ih =>
    obtain ⟨rfl, head⟩ := doubled
    obtain rfl : next = quote := Option.some.inj head
    rw [List.cons_append, List.cons_append, scan_quote, scan_quote] at whole
    have read : unescape (quote :: quote :: more) = quote :: unescape more := by
      rw [unescape.eq_def]
      simp
    have written : escape (quote :: unescape more) = quote :: quote :: escape (unescape more) := by
      simp [escape]
    rw [read, written, ih whole]
  | case4 char rest single ih =>
    have isPlain : char ≠ quote := by
      rintro rfl
      rw [List.cons_append, scan_quote] at whole
      -- The quote closes the part, and the text goes on outside or ends inside a new part.
      cases rest with
      | nil => simp [scan_quote, scan] at whole
      | cons next more =>
        have other : next ≠ quote := by simpa using single
        rw [List.cons_append, Bool.not_true, scan_outside _ other] at whole
        cases whole
    have kept : escape (char :: unescape rest) = char :: escape (unescape rest) := by
      simp [escape, isPlain]
    rw [List.cons_append, scan_inside _ isPlain] at whole
    rw [unescape_cons isPlain, kept, ih whole]

theorem quoteText_unescape (closed : (scan none false (quote :: (inner ++ [quote]))).2 = false) :
    quoteText (unescape inner) = quote :: (inner ++ [quote]) ↔
      (scan none false (quote :: (inner ++ [quote]))).1 = [] := by
  constructor
  · intro same
    rw [← same, scan_quoteText]
  · intro nothing
    have whole : scan (some quote) true (inner ++ [quote]) = ([], false) := by
      rw [scan_quote] at closed nothing
      exact Prod.ext nothing closed
    rw [quoteText, escape_unescape whole]

theorem trim_trim (text : List Char) : trim (trim text) = trim text := by
  have front : (trim text).dropWhile isWhitespace = trim text := by
    obtain ⟨rest, whole⟩ : trim text <+: text.dropWhile isWhitespace := List.rdropWhile_prefix ..
    cases shape : trim text with
    | nil => rfl
    | cons first more =>
      have solid := List.head?_dropWhile_not isWhitespace text
      rw [shape] at whole
      rw [← whole] at solid
      exact List.dropWhile_cons_of_neg (by simpa using solid)
  rw [trim, front]
  exact List.rdropWhile_idempotent ..

/-! ## Literals of clauses -/

/-- The text after the operator of a clause, without blanks around it. -/
def literalOf (clause : List Char) : Option (List Char) :=
  match ComparisonOperator.parse clause operatorTokens with
  | .ok (_, _, literal) => some (trim literal)
  | .error _ => none

variable {clause literal : List Char}

theorem closed_of_rejectExtraOperator {token : List Char} {tokens : List (List Char)}
    (alone : rejectExtraOperator clause literal (token :: tokens) = .ok ()) :
    (scan none false literal).2 = false := by
  rw [rejectExtraOperator] at alone
  obtain ⟨found, searched, _⟩ := ok_of_bind alone
  cases found with
  | some index =>
    rw [searched] at alone
    cases alone
  | none =>
    unfold findUnquotedToken at searched
    cases closed : (scan none false literal).2 with
    | false => rfl
    | true =>
      simp only [closed] at searched
      split at searched <;> cases searched

theorem closed_of_parse_operator {field : List Char} {operator : ComparisonOperator}
    {tokens : List (List Char × ComparisonOperator)}
    (parsed : ComparisonOperator.parse clause tokens = .ok (operator, field, literal)) :
    (scan none false literal).2 = false := by
  induction tokens with
  | nil => cases parsed
  | cons entry tokens ih =>
    rw [ComparisonOperator.parse] at parsed
    obtain ⟨found, searched, parsed⟩ := ok_of_bind parsed
    cases found with
    | none => exact ih parsed
    | some index =>
      obtain ⟨_, alone, parsed⟩ := ok_of_bind parsed
      cases parsed
      exact closed_of_rejectExtraOperator alone

variable {floats : Floats} {arrow : Bool} {predicate : Predicate}

theorem literal_of_parsePredicate (parsed : parsePredicate floats arrow clause = .ok predicate) :
    ∃ literal, literalOf clause = some literal ∧ trim literal = literal ∧
      (scan none false literal).2 = false ∧
      FilterValue.parse floats literal = .ok predicate.expected := by
  unfold parsePredicate at parsed
  split at parsed
  · cases parsed
  · obtain ⟨⟨operator, field, literal⟩, split, parsed⟩ := ok_of_bind parsed
    obtain ⟨expected, value, parsed⟩ := ok_of_bind parsed
    refine ⟨trim literal, by rw [literalOf, split], trim_trim literal, ?_, ?_⟩
    · rw [scan_snd_trim]
      exact closed_of_parse_operator split
    · split at parsed
      · cases parsed
      · obtain ⟨path, _, parsed⟩ := ok_of_bind parsed
        cases parsed
        exact value

variable {value : FilterValue}

theorem string_of_quote (trimmed : trim literal = literal)
    (parsed : FilterValue.parse floats literal = .ok value) (head : literal.head? = some quote) :
    ∃ inner, literal = quote :: (inner ++ [quote]) ∧
      value = .string (String.ofList (unescape inner)) := by
  rw [parse_value trimmed head (by decide), parseQuotedString, if_neg (by simp [head])] at parsed
  split at parsed
  · cases parsed
  · rename_i ends
    rw [not_or, not_not, Nat.not_lt] at ends
    cases parsed
    refine ⟨literal.tail.dropLast, ?_, rfl⟩
    obtain ⟨first, rest, rfl⟩ := List.exists_cons_of_ne_nil (show literal ≠ [] by
      rintro rfl
      cases head)
    obtain rfl : first = quote := Option.some.inj head
    have filled : rest ≠ [] := by
      rintro rfl
      simp at ends
    have last : rest.getLast? = some quote := by
      rw [← ends.1, List.getLast?_cons_of_ne_nil filled]
    rw [List.tail_cons, List.dropLast_append_getLast? _ last]

theorem not_string_of_other (trimmed : trim literal = literal)
    (parsed : FilterValue.parse floats literal = .ok value) (head : literal.head? ≠ some quote)
    (text : String) : value ≠ .string text := by
  rintro rfl
  have unquoted : parseQuotedString literal = .ok none := by rw [parseQuotedString, if_pos head]
  simp only [FilterValue.parse, trimmed, unquoted] at parsed
  split at parsed
  · cases parsed
  · split at parsed
    · cases parsed
    · split at parsed
      · cases parsed
      · simp only [bind, Except.bind, pure, Except.pure] at parsed
        split at parsed <;> cases parsed

def WrittenAsLiteral (clause : List Char) (predicate : Predicate) : Prop :=
  ∀ text, predicate.expected = .string text → literalOf clause = some (quoteText text.toList)

def WithinQuotes (clause : List Char) : Prop :=
  ∀ literal, literalOf clause = some literal → literal.head? = some quote →
    (scan none false literal).1 = []

theorem writtenAsLiteral_iff (parsed : parsePredicate floats arrow clause = .ok predicate) :
    WrittenAsLiteral clause predicate ↔ WithinQuotes clause := by
  obtain ⟨literal, found, trimmed, closed, value⟩ := literal_of_parsePredicate parsed
  unfold WrittenAsLiteral WithinQuotes
  rw [found]
  simp only [Option.some.injEq, forall_eq']
  by_cases head : literal.head? = some quote
  · obtain ⟨inner, rfl, read⟩ := string_of_quote trimmed value head
    rw [← quoteText_unescape closed, read]
    simp [eq_comm]
  · have other := not_string_of_other trimmed value head
    simp [head, other]

/-- For every accepted text, each string value was written as one string literal exactly if in every
clause whose literal begins with a quote everything after the operator is inside quotes. -/
theorem string_literals_iff {floats : Floats} {arrow : Bool} {text : List Char}
    {predicates : List Predicate} {clauses : List (List Char)}
    (split : trimmedClauses text = .ok clauses)
    (accepted : parseLegacyPredicates floats arrow text = .ok predicates) :
    List.Forall₂ WrittenAsLiteral clauses predicates ↔ ∀ clause ∈ clauses, WithinQuotes clause := by
  rw [parseLegacyPredicates_eq, split] at accepted
  have mapped : clauses.mapM (parsePredicate floats arrow) = .ok predicates := accepted
  have each := forall₂_of_mapM_ok mapped
  clear split accepted mapped
  induction each with
  | nil => simp
  | cons parsed _ ih =>
    rw [List.forall₂_cons, List.forall_mem_cons, writtenAsLiteral_iff parsed]
    exact and_congr_right fun _ => ih

theorem named_orders_are_written_as_literals :
    List.Forall₂ WrittenAsLiteral ["kind = 'it''s'".toList] [namedOrders] := by
  have split : trimmedClauses "kind = 'it''s'".toList = .ok ["kind = 'it''s'".toList] := by
    decide +kernel
  have accepted : parseLegacyPredicates exactFloats true "kind = 'it''s'".toList =
      .ok [namedOrders] := by
    decide +kernel
  refine (string_literals_iff split accepted).mpr ?_
  intro clause listed literal found _
  rw [List.mem_singleton.mp listed, show literalOf "kind = 'it''s'".toList =
    some "'it''s'".toList by decide +kernel] at found
  cases found
  decide +kernel

def adjacentLiterals : Predicate :=
  ⟨⟨["kind"]⟩, .equal, .string "new' 'old"⟩

/-- Two literals one after the other are taken for one. -/
theorem adjacent_literals_are_accepted :
    trimmedClauses "kind = 'new' 'old'".toList = .ok ["kind = 'new' 'old'".toList] ∧
      parseLegacyPredicates exactFloats true "kind = 'new' 'old'".toList =
        .ok [adjacentLiterals] ∧
      ¬ List.Forall₂ WrittenAsLiteral ["kind = 'new' 'old'".toList] [adjacentLiterals] := by
  refine ⟨by decide +kernel, by decide +kernel, fun written => ?_⟩
  have literal := (List.forall₂_cons.mp written).1 "new' 'old" rfl
  exact absurd literal (by decide +kernel)

end KrabkaGateway.Filter
