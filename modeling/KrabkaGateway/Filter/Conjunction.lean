import KrabkaGateway.Filter.Sdk
import KrabkaGateway.Lib.Fallible

/-!
# Filter texts joined by `AND`

Two filter texts with the word `AND` between them. Outside quotes the joined text has
the places of both texts and those of the word, so that it falls into the clauses of
both, and a document is accepted by the joined filter if both filters accept it.
-/

namespace KrabkaGateway.Filter

open Lib Lib.Quoted

/-! ## Places of words -/

section Words

variable {same : List Char → List Char → Bool} (comparison : WordComparison same)
  {word : List Char} (letters : ∀ char ∈ word, isIdentifierChar char = true)

include comparison letters

theorem wordAt_extend {tail : List Char} (bounded : tail.head?.any isIdentifierChar = false)
    (mark : Mark) : wordAt same word (mark.extend tail) = wordAt same word mark := by
  by_cases long : word.length ≤ mark.rest.length
  · have next : ((mark.rest ++ tail).drop word.length).head?.any isIdentifierChar =
        (mark.rest.drop word.length).head?.any isIdentifierChar := by
      rw [List.drop_append_of_le_length long]
      cases mark.rest.drop word.length with
      | nil => simpa using bounded
      | cons char rest => rfl
    simp only [wordAt, Mark.extend, List.take_append_of_le_length long, next]
  · have short : wordAt same word mark = false := by
      have differ : same (mark.rest.take word.length) word = false := by
        by_contra equal
        have lengths := comparison.length (Bool.not_eq_false _ ▸ equal)
        rw [List.length_take] at lengths
        omega
      simp [wordAt, differ]
    rw [short]
    cases tail with
    | nil => simpa [Mark.extend] using short
    | cons char rest =>
      have outside : isIdentifierChar char = false := by simpa using bounded
      have inside : char ∈ (mark.rest ++ char :: rest).take word.length := by
        rw [List.take_append, List.mem_append]
        right
        obtain ⟨count, positive⟩ : ∃ count, word.length - mark.rest.length = count + 1 :=
          ⟨word.length - mark.rest.length - 1, by omega⟩
        simp [positive]
      have differ : same ((mark.rest ++ char :: rest).take word.length) word = false := by
        by_contra equal
        have identifier := comparison.identifier (Bool.not_eq_false _ ▸ equal) letters char inside
        simp [outside] at identifier
      simp [wordAt, Mark.extend, differ]

variable {text : List Char}

/-- Whether a word stands at the beginning of a text depends on the character before it only if both
belong to an identifier. -/
theorem wordAt_previous (nonempty : word ≠ []) {first second : Option Char}
    (apart : first.any isIdentifierChar = second.any isIdentifierChar ∨
      text.head?.any isIdentifierChar = false) :
    wordAt same word ⟨first, text⟩ = wordAt same word ⟨second, text⟩ := by
  obtain alike | bounded := apart
  · simp only [wordAt, alike]
  · cases text with
    | nil => simp [wordAt, show same [] word = false by
        by_contra equal
        have lengths := comparison.length (Bool.not_eq_false _ ▸ equal)
        exact nonempty (List.length_eq_zero_iff.mp lengths.symm)]
    | cons char rest =>
      have outside : isIdentifierChar char = false := by simpa using bounded
      rw [wordAt_other comparison nonempty letters rfl outside,
        wordAt_other comparison nonempty letters rfl outside]

theorem rest_of_words_previous (nonempty : word ≠ []) {first second : Option Char}
    (apart : first.any isIdentifierChar = second.any isIdentifierChar ∨
      text.head?.any isIdentifierChar = false) :
    ((scan first false text).1.filter (wordAt same word)).map Mark.rest =
      ((scan second false text).1.filter (wordAt same word)).map Mark.rest := by
  cases text with
  | nil => rfl
  | cons char rest =>
    by_cases isQuote : char = quote
    · subst isQuote
      rw [scan_quote, scan_quote]
    · simp only [scan_outside _ isQuote, List.filter_cons,
        wordAt_previous comparison letters nonempty apart]
      split <;> rfl

end Words

/-! ## Clauses -/

theorem andWord_letters : ∀ char ∈ andWord, isIdentifierChar char = true :=
  List.all_eq_true.mp (by decide)

/-- The texts from each place of the word `AND` outside quotes on. -/
def andRests (previous : Option Char) (sql : List Char) : List (List Char) :=
  ((scan previous false sql).1.filter (startsWithKeywordAt andWord)).map Mark.rest

/-- The places of the word `AND` outside quotes. -/
def andPlaces (sql : List Char) : List Nat :=
  (andRests none sql).map fun rest => sql.length - rest.length

theorem splitAndClauses_eq (sql : List Char) :
    splitAndClauses sql =
      if (scan none false sql).2 then .error unterminated
      else .ok (clausesFrom sql 0 (andPlaces sql)) := by
  rw [andPlaces, andRests, List.map_map]
  rfl

variable {sql : List Char}

theorem andPlaces_le {place : Nat} (listed : place ∈ andPlaces sql) : place ≤ sql.length := by
  obtain ⟨rest, _, rfl⟩ := List.mem_map.mp listed
  omega

variable {previous : Option Char}

theorem length_of_mem_andRests {rest : List Char} (listed : rest ∈ andRests previous sql) :
    rest.length ≤ sql.length := by
  obtain ⟨mark, kept, rfl⟩ := List.mem_map.mp listed
  exact (shape_of_mem_scan (List.mem_filter.mp kept).1).1.length_le

variable {places : List Nat}

theorem clausesFrom_append {index : Nat} (before : ∀ place ∈ places, place ≤ index) (start : Nat)
    (later : List Nat) :
    clausesFrom sql start (places ++ index :: later) =
      clausesFrom (sql.take index) start places ++ clausesFrom sql (index + 3) later := by
  induction places generalizing start with
  | nil => rfl
  | cons place places ih =>
    rw [List.cons_append, clausesFrom, clausesFrom,
      ih fun other listed => before other (List.mem_cons_of_mem _ listed),
      List.take_take, Nat.min_eq_left (before place List.mem_cons_self)]
    rfl

theorem clausesFrom_shift (front sql : List Char) (start : Nat) (places : List Nat) :
    clausesFrom (front ++ sql) (front.length + start) (places.map (front.length + ·)) =
      clausesFrom sql start places := by
  induction places generalizing start with
  | nil => simp [clausesFrom, List.drop_append]
  | cons place places ih =>
    have piece : ((front ++ sql).take (front.length + place)).drop (front.length + start) =
        (sql.take place).drop start := by
      rw [List.take_length_add_append, List.drop_length_add_append]
    rw [List.map_cons, clausesFrom, clausesFrom, piece, Nat.add_assoc, ih]

theorem andRests_previous {first second : Option Char}
    (apart : first.any isIdentifierChar = second.any isIdentifierChar ∨
      sql.head?.any isIdentifierChar = false) : andRests first sql = andRests second sql :=
  rest_of_words_previous wordComparison_ignoreCase andWord_letters (by decide) apart

variable {char : Char}

theorem andRests_cons (outside : isIdentifierChar char = false) (plain : char ≠ quote)
    (previous : Option Char) (sql : List Char) :
    andRests previous (char :: sql) = andRests none sql := by
  have noWord : startsWithKeywordAt andWord ⟨previous, char :: sql⟩ = false :=
    wordAt_other wordComparison_ignoreCase (by decide) andWord_letters rfl outside
  have later : andRests (some char) sql = andRests none sql :=
    andRests_previous (Or.inl (by simpa using outside))
  rw [← later, andRests, andRests, scan_outside _ plain, List.filter_cons, noWord]
  rfl

variable {back : List Char}

theorem andRests_word (outside : previous.any isIdentifierChar = false)
    (head : back.head?.any isIdentifierChar = false) :
    andRests previous (andWord ++ back) = (andWord ++ back) :: andRests none back := by
  have wordAnd : andWord = ['A', 'N', 'D'] := by decide
  have own : eqIgnoreAsciiCase andWord andWord = true := by decide
  have word : startsWithKeywordAt andWord ⟨previous, andWord ++ back⟩ = true := by
    rw [startsWithKeywordAt, wordAt_run wordComparison_ignoreCase andWord_letters andWord_letters
      head outside, own]
  have inside : ∀ previous rest, isIdentifierChar previous = true →
      startsWithKeywordAt andWord ⟨some previous, rest⟩ = false :=
    fun previous rest identifier => wordAt_inside (by simpa using identifier)
  have later : andRests (some 'D') back = andRests none back := andRests_previous (Or.inr head)
  rw [← later, andRests, andRests]
  simp only [wordAnd, List.cons_append, List.nil_append] at word inside ⊢
  rw [scan_outside _ (by decide), scan_outside _ (by decide), scan_outside _ (by decide)]
  simp [word, inside 'A' _ (by decide), inside 'N' _ (by decide)]

theorem andRests_append {front : List Char} (closed : (scan none false front).2 = false)
    (head : back.head?.any isIdentifierChar = false) :
    andRests none (front ++ back) =
      (andRests none front).map (· ++ back) ++ andRests none back := by
  have front_words : startsWithKeywordAt andWord ∘ Mark.extend back =
      startsWithKeywordAt andWord := by
    funext mark
    exact wordAt_extend wordComparison_ignoreCase andWord_letters head mark
  have later : andRests (front.getLast?.or none) back = andRests none back :=
    andRests_previous (Or.inr head)
  rw [← later, andRests, scan_append, closed, List.filter_append, List.filter_map, front_words,
    List.map_append, andRests, andRests, List.map_map, List.map_map]
  rfl

/-- A text, a blank and the word: the places of the word in the text, its own place, and those in
the text behind it. -/
theorem andPlaces_append (front : List Char) (closed : (scan none false front).2 = false)
    (head : back.head?.any isIdentifierChar = false) :
    andPlaces (front ++ ' ' :: (andWord ++ back)) =
      andPlaces front ++ (front.length + 1) :: (andPlaces back).map (front.length + 4 + ·) := by
  have wordLength : andWord.length = 3 := by decide
  rw [andPlaces, andRests_append closed rfl, andRests_cons (by decide) (by decide),
    andRests_word rfl head, List.map_append, List.map_cons, List.map_map]
  congr 1
  · apply List.map_congr_left
    intro rest _
    simp only [Function.comp_apply, List.length_append, Nat.add_sub_add_right]
  · congr 1
    · simp only [List.length_append, List.length_cons]
      omega
    · rw [andPlaces, List.map_map]
      apply List.map_congr_left
      intro rest listed
      have bound := length_of_mem_andRests listed
      simp only [Function.comp_apply, List.length_append, List.length_cons, wordLength]
      omega

/-! ## Blanks around clauses -/

variable {blank : List Char}

theorem trim_append_blank (text : List Char) (white : ∀ char ∈ blank, isWhitespace char = true) :
    trim (text ++ blank) = trim text := by
  have cut : ∀ core : List Char, (core ++ blank).rdropWhile isWhitespace =
      core.rdropWhile isWhitespace := by
    intro core
    rw [List.rdropWhile, List.reverse_append,
      List.dropWhile_append_of_pos (by simpa using white), List.rdropWhile]
  rw [trim, trim, List.dropWhile_append]
  split
  · rename_i empty
    rw [List.dropWhile_eq_nil_iff.mpr white, List.isEmpty_iff.mp empty]
  · exact cut _

theorem trim_blank_append (white : ∀ char ∈ blank, isWhitespace char = true) (text : List Char) :
    trim (blank ++ text) = trim text := by
  rw [trim, trim, List.dropWhile_append_of_pos white]

theorem map_trim_clausesFrom_append (inside : ∀ place ∈ places, place ≤ sql.length)
    (white : ∀ char ∈ blank, isWhitespace char = true) (start : Nat) :
    (clausesFrom (sql ++ blank) start places).map trim =
      (clausesFrom sql start places).map trim := by
  induction places generalizing start with
  | nil =>
    have rest : ∀ char ∈ blank.drop (start - sql.length), isWhitespace char = true :=
      fun char listed => white char (List.mem_of_mem_drop listed)
    simp only [clausesFrom, List.map_cons, List.map_nil, List.drop_append,
      trim_append_blank _ rest]
  | cons place places ih =>
    rw [clausesFrom, clausesFrom, List.map_cons, List.map_cons,
      ih fun other listed => inside other (List.mem_cons_of_mem _ listed),
      List.take_append_of_le_length (inside place List.mem_cons_self)]

/-- The clauses as they are parsed. -/
def trimmedClauses (sql : List Char) : Except FilterCompileError (List (List Char)) :=
  (splitAndClauses sql).map (List.map trim)

theorem trimmedClauses_eq (sql : List Char) :
    trimmedClauses sql =
      if (scan none false sql).2 then .error unterminated
      else .ok ((clausesFrom sql 0 (andPlaces sql)).map trim) := by
  rw [trimmedClauses, splitAndClauses_eq]
  split <;> rfl

theorem scan_snd_previous (first second : Option Char) (quoted : Bool) (text : List Char) :
    (scan first quoted text).2 = (scan second quoted text).2 := by
  cases text with
  | nil => rfl
  | cons char rest =>
    by_cases isQuote : char = quote
    · subst isQuote
      rw [scan_quote, scan_quote]
    · cases quoted with
      | false => rw [scan_outside _ isQuote, scan_outside _ isQuote]
      | true => rw [scan_inside _ isQuote, scan_inside _ isQuote]

theorem plain_of_isWhitespace (white : isWhitespace char = true) :
    isIdentifierChar char = false ∧ char ≠ quote := by
  refine ⟨?_, ?_⟩
  · by_contra identifier
    have solid := not_whitespace_of_identifierChar (Bool.not_eq_false _ ▸ identifier)
    simp [white] at solid
  · rintro rfl
    exact absurd white (by decide)

theorem trimmedClauses_cons (white : isWhitespace char = true) (sql : List Char) :
    trimmedClauses (char :: sql) = trimmedClauses sql := by
  obtain ⟨outside, plain⟩ := plain_of_isWhitespace white
  have places : andPlaces (char :: sql) = (andPlaces sql).map ([char].length + ·) := by
    rw [andPlaces, andRests_cons outside plain, andPlaces, List.map_map]
    apply List.map_congr_left
    intro rest listed
    have bound := length_of_mem_andRests listed
    simp only [Function.comp_apply, List.length_cons, List.length_nil]
    omega
  have closed : (scan none false (char :: sql)).2 = (scan none false sql).2 := by
    rw [scan_outside _ plain, scan_snd_previous]
  -- The blank belongs to the first clause.
  have clauses : (clausesFrom (char :: sql) 0 (andPlaces (char :: sql))).map trim =
      (clausesFrom sql 0 (andPlaces sql)).map trim := by
    have blank : ∀ text, trim ([char] ++ text) = trim text :=
      trim_blank_append (by simpa using white)
    simp only [List.cons_append, List.nil_append] at blank
    rw [places]
    cases andPlaces sql with
    | nil => simp [clausesFrom, blank]
    | cons place later =>
      have moved := clausesFrom_shift [char] sql (place + 3) later
      simp only [List.cons_append, List.nil_append, List.length_cons, List.length_nil,
        Nat.zero_add, ← Nat.add_assoc, Nat.add_comm 1 place] at moved
      simp only [List.map_cons, clausesFrom, List.length_cons, List.length_nil, Nat.zero_add,
        List.drop_zero, moved, Nat.add_comm 1 place, List.take_succ_cons, blank]
  rw [trimmedClauses_eq, trimmedClauses_eq, closed, clauses]

theorem trimmedClauses_blank_append (white : ∀ char ∈ blank, isWhitespace char = true)
    (sql : List Char) : trimmedClauses (blank ++ sql) = trimmedClauses sql := by
  induction blank with
  | nil => rfl
  | cons char blank ih =>
    rw [List.cons_append, trimmedClauses_cons (white char List.mem_cons_self),
      ih fun other listed => white other (List.mem_cons_of_mem _ listed)]

variable {text : List Char}

theorem scan_snd_of_unquoted (unquoted : quote ∉ text) (previous : Option Char) (quoted : Bool) :
    (scan previous quoted text).2 = quoted := by
  induction text generalizing previous with
  | nil => rfl
  | cons char rest ih =>
    have here : char ≠ quote := fun isQuote => unquoted (isQuote ▸ List.mem_cons_self)
    have later : quote ∉ rest := fun inside => unquoted (List.mem_cons_of_mem _ inside)
    cases quoted with
    | false => rw [scan_outside _ here, ih later]
    | true => rw [scan_inside _ here, ih later]

theorem andRests_blank (white : ∀ char ∈ blank, isWhitespace char = true) :
    andRests none blank = [] := by
  induction blank with
  | nil => rfl
  | cons char blank ih =>
    obtain ⟨outside, plain⟩ := plain_of_isWhitespace (white char List.mem_cons_self)
    rw [andRests_cons outside plain,
      ih fun other listed => white other (List.mem_cons_of_mem _ listed)]

theorem trimmedClauses_append_blank (sql : List Char)
    (white : ∀ char ∈ blank, isWhitespace char = true) :
    trimmedClauses (sql ++ blank) = trimmedClauses sql := by
  have unquoted : quote ∉ blank := fun inside => (plain_of_isWhitespace (white _ inside)).2 rfl
  have closed : (scan none false (sql ++ blank)).2 = (scan none false sql).2 := by
    rw [scan_append, scan_snd_of_unquoted unquoted]
  rw [trimmedClauses_eq, trimmedClauses_eq, closed]
  cases ends : (scan none false sql).2 with
  | true => rfl
  | false =>
    have head : blank.head?.any isIdentifierChar = false := by
      cases blank with
      | nil => rfl
      | cons char rest => exact (plain_of_isWhitespace (white char List.mem_cons_self)).1
    have places : andPlaces (sql ++ blank) = andPlaces sql := by
      rw [andPlaces, andRests_append ends head, andRests_blank white, List.append_nil, andPlaces,
        List.map_map]
      apply List.map_congr_left
      intro rest _
      simp only [Function.comp_apply, List.length_append, Nat.add_sub_add_right]
    rw [places, map_trim_clausesFrom_append (fun place => andPlaces_le) white]

theorem exists_blanks (text : List Char) :
    ∃ before after, text = before ++ (trim text ++ after) ∧
      (∀ char ∈ before, isWhitespace char = true) ∧ ∀ char ∈ after, isWhitespace char = true := by
  refine ⟨text.takeWhile isWhitespace, (text.dropWhile isWhitespace).rtakeWhile isWhitespace, ?_,
    fun char => List.mem_takeWhile_imp, fun char => List.mem_rtakeWhile_imp⟩
  rw [trim, List.rdropWhile_append_rtakeWhile, List.takeWhile_append_dropWhile]

theorem trimmedClauses_trim (text : List Char) :
    trimmedClauses (trim text) = trimmedClauses text := by
  obtain ⟨before, after, whole, blankBefore, blankAfter⟩ := exists_blanks text
  conv_rhs => rw [whole, trimmedClauses_blank_append blankBefore,
    trimmedClauses_append_blank _ blankAfter]

/-! ## Two texts -/

def conjunctionText (left right : List Char) : List Char :=
  left ++ " AND ".toList ++ right

theorem conjunctionText_eq (left right : List Char) :
    conjunctionText left right = left ++ ' ' :: (andWord ++ ' ' :: right) := by
  have words : " AND ".toList = ' ' :: (andWord ++ [' ']) := by decide
  simp [conjunctionText, words]

theorem trimmedClauses_conjunction {left right : List Char} {lefts rights : List (List Char)}
    (leftClauses : trimmedClauses left = .ok lefts)
    (rightClauses : trimmedClauses right = .ok rights) :
    trimmedClauses (conjunctionText left right) = .ok (lefts ++ rights) := by
  have white : ∀ char ∈ [' '], isWhitespace char = true := blank_isWhitespace
  rw [← trimmedClauses_cons (show isWhitespace ' ' = true by decide)] at rightClauses
  rw [trimmedClauses_eq] at leftClauses rightClauses ⊢
  cases leftClosed : (scan none false left).2 with
  | true => simp [leftClosed] at leftClauses
  | false =>
    cases rightClosed : (scan none false (' ' :: right)).2 with
    | true => simp [rightClosed] at rightClauses
    | false =>
      rw [leftClosed] at leftClauses
      rw [rightClosed] at rightClauses
      cases leftClauses
      cases rightClauses
      have wordAnd : andWord = ['A', 'N', 'D'] := by decide
      have closed : (scan none false (conjunctionText left right)).2 = false := by
        rw [conjunctionText_eq, scan_append, leftClosed, wordAnd, List.cons_append,
          List.cons_append, List.cons_append, List.nil_append, scan_outside _ (by decide),
          scan_outside _ (by decide), scan_outside _ (by decide), scan_outside _ (by decide),
          scan_snd_previous _ none, rightClosed]
      have front : (left ++ ' ' :: (andWord ++ ' ' :: right)).take (left.length + 1) =
          left ++ [' '] := by
        rw [List.take_length_add_append]
        rfl
      have back := clausesFrom_shift (left ++ ' ' :: andWord) (' ' :: right) 0
        (andPlaces (' ' :: right))
      have frontLength : (left ++ ' ' :: andWord).length = left.length + 4 := by
        simp [wordAnd]
      rw [frontLength, List.append_assoc, List.cons_append, Nat.add_zero] at back
      rw [closed, conjunctionText_eq, andPlaces_append _ leftClosed rfl,
        clausesFrom_append (fun place listed => (andPlaces_le listed).trans (Nat.le_succ _)), front,
        back, List.map_append, map_trim_clausesFrom_append (fun place => andPlaces_le) white]
      rfl

theorem parseLegacyPredicates_eq (floats : Floats) (arrow : Bool) (sql : List Char) :
    parseLegacyPredicates floats arrow sql =
      trimmedClauses sql >>= fun clauses => clauses.mapM (parsePredicate floats arrow) := by
  rw [parseLegacyPredicates, trimmedClauses]
  cases splitAndClauses sql with
  | error error => rfl
  | ok clauses =>
    change clauses.mapM _ = (clauses.map trim).mapM _
    rw [List.mapM_map]
    rfl

theorem parseLegacyPredicates_trim (floats : Floats) (arrow : Bool) (text : List Char) :
    parseLegacyPredicates floats arrow (trim text) = parseLegacyPredicates floats arrow text := by
  rw [parseLegacyPredicates_eq, trimmedClauses_trim, parseLegacyPredicates_eq]

variable {floats : Floats} {arrow : Bool}

theorem parseLegacyPredicates_conjunction {left right : List Char} {lefts rights : List Predicate}
    (leftParsed : parseLegacyPredicates floats arrow left = .ok lefts)
    (rightParsed : parseLegacyPredicates floats arrow right = .ok rights) :
    parseLegacyPredicates floats arrow (conjunctionText left right) = .ok (lefts ++ rights) := by
  rw [parseLegacyPredicates_eq] at leftParsed rightParsed ⊢
  obtain ⟨leftClauses, leftSplit, leftMapped⟩ := ok_of_bind leftParsed
  obtain ⟨rightClauses, rightSplit, rightMapped⟩ := ok_of_bind rightParsed
  rw [trimmedClauses_conjunction leftSplit rightSplit]
  change (leftClauses ++ rightClauses).mapM _ = _
  rw [List.mapM_append, leftMapped, rightMapped]
  rfl

/-! ## Tests of places -/

/-- A test of places that takes blanks for boundaries: it fails at a blank, and does not see beyond
one. -/
structure BlankBound (test : Mark → Bool) : Prop where
  blank : ∀ {char}, isWhitespace char = true →
    ∀ previous rest, test ⟨previous, char :: rest⟩ = false
  previous : ∀ {char}, isWhitespace char = true → ∀ rest, test ⟨some char, rest⟩ = test ⟨none, rest⟩
  extend : ∀ {char}, isWhitespace char = true → ∀ rest mark, mark.rest ≠ [] →
    test (mark.extend (char :: rest)) = test mark

theorem blankBound_wordAt {same : List Char → List Char → Bool} (comparison : WordComparison same)
    {word : List Char} (nonempty : word ≠ [])
    (letters : ∀ char ∈ word, isIdentifierChar char = true) : BlankBound (wordAt same word) where
  blank white _ _ := wordAt_other comparison nonempty letters rfl (plain_of_isWhitespace white).1
  previous white rest := wordAt_previous comparison letters nonempty
    (Or.inl (by simpa using (plain_of_isWhitespace white).1))
  extend white rest mark _ := wordAt_extend comparison letters
    (by simpa using (plain_of_isWhitespace white).1) mark

theorem blankBound_head {target : Char} (solid : isWhitespace target = false) :
    BlankBound fun mark => mark.rest.head? == some target where
  blank {char} white _ _ := by
    have different : char ≠ target := by
      rintro rfl
      simp [white] at solid
    simpa using different
  previous _ _ := rfl
  extend white rest mark nonempty := by
    simp only [Mark.extend, List.head?_append_of_ne_nil _ nonempty]

theorem not_digit_of_isWhitespace (white : isWhitespace char = true) : char.isDigit = false := by
  by_contra digit
  have identifier : isIdentifierChar char = true := by
    simp [isIdentifierChar, Char.isAlphanum, Bool.not_eq_false _ ▸ digit]
  simp [(plain_of_isWhitespace white).1] at identifier

theorem blankBound_separator :
    BlankBound fun mark => mark.rest.head? == some '.' && !isDecimalLiteralPoint mark where
  blank {char} white _ _ := by
    have different : char ≠ '.' := by
      rintro rfl
      exact absurd white (by decide)
    simp [different]
  previous white rest := by
    simp [isDecimalLiteralPoint, not_digit_of_isWhitespace white]
  extend {char} white rest mark nonempty := by
    obtain ⟨first, later, shape⟩ := List.exists_cons_of_ne_nil nonempty
    have next : ((later ++ char :: rest).head?.any Char.isDigit) =
        later.head?.any Char.isDigit := by
      cases later with
      | nil => simp [not_digit_of_isWhitespace white]
      | cons second others => rfl
    simp only [isDecimalLiteralPoint, Mark.extend, shape, List.cons_append, List.head?_cons,
      List.drop_succ_cons, List.drop_zero, next]

section BlankBound

variable {test : Mark → Bool} (bound : BlankBound test)

include bound

variable {char : Char}

theorem any_scan_previous (white : isWhitespace char = true) (text : List Char) :
    (scan (some char) false text).1.any test = (scan none false text).1.any test := by
  cases text with
  | nil => rfl
  | cons first rest =>
    by_cases isQuote : first = quote
    · subst isQuote
      rw [scan_quote, scan_quote]
    · rw [scan_outside _ isQuote, scan_outside _ isQuote, List.any_cons, List.any_cons,
        bound.previous white]

theorem any_scan_cons (white : isWhitespace char = true) (previous : Option Char)
    (text : List Char) :
    (scan previous false (char :: text)).1.any test = (scan none false text).1.any test := by
  rw [scan_outside _ (plain_of_isWhitespace white).2, List.any_cons, bound.blank white,
    any_scan_previous bound white, Bool.false_or]

theorem any_scan_append {front : List Char} (closed : (scan none false front).2 = false)
    (white : isWhitespace char = true) (back : List Char) :
    (scan none false (front ++ char :: back)).1.any test =
      ((scan none false front).1.any test || (scan none false back).1.any test) := by
  have filled : ∀ mark ∈ (scan none false front).1, mark.rest ≠ [] := by
    intro mark listed
    obtain ⟨_, char, more, shape, _⟩ := shape_of_mem_scan listed
    simp [shape]
  have first : ((scan none false front).1.map (Mark.extend (char :: back))).any test =
      (scan none false front).1.any test := by
    rw [List.any_map, Bool.eq_iff_iff, List.any_eq_true, List.any_eq_true]
    apply exists_congr
    intro mark
    apply and_congr_right
    intro listed
    rw [Function.comp_apply, bound.extend white back mark (filled mark listed)]
  rw [scan_append, closed, List.any_append, first, any_scan_cons bound white]

variable {blank : List Char}

theorem any_scan_blank_append (white : ∀ char ∈ blank, isWhitespace char = true)
    (text : List Char) :
    (scan none false (blank ++ text)).1.any test = (scan none false text).1.any test := by
  induction blank with
  | nil => rfl
  | cons char blank ih =>
    rw [List.cons_append, any_scan_cons bound (white char List.mem_cons_self),
      ih fun other listed => white other (List.mem_cons_of_mem _ listed)]

variable {text : List Char}

theorem any_scan_append_blank (closed : (scan none false text).2 = false)
    (white : ∀ char ∈ blank, isWhitespace char = true) :
    (scan none false (text ++ blank)).1.any test = (scan none false text).1.any test := by
  cases blank with
  | nil => rw [List.append_nil]
  | cons char blank =>
    have rest := any_scan_blank_append bound
      (fun other listed => white other (List.mem_cons_of_mem _ listed)) []
    rw [List.append_nil] at rest
    rw [any_scan_append bound closed (white char List.mem_cons_self), rest]
    simp [scan]

omit bound in
theorem scan_snd_trim (text : List Char) :
    (scan none false (trim text)).2 = (scan none false text).2 := by
  obtain ⟨before, after, whole, blankBefore, blankAfter⟩ := exists_blanks text
  have unquoted : ∀ blank : List Char, (∀ char ∈ blank, isWhitespace char = true) →
      quote ∉ blank := fun blank white inside => (plain_of_isWhitespace (white _ inside)).2 rfl
  conv_rhs => rw [whole, scan_append, scan_append, scan_snd_of_unquoted (unquoted _ blankBefore),
    scan_snd_of_unquoted (unquoted _ blankAfter), scan_snd_previous _ none]

theorem any_scan_trim (closed : (scan none false text).2 = false) :
    (scan none false (trim text)).1.any test = (scan none false text).1.any test := by
  obtain ⟨before, after, whole, blankBefore, blankAfter⟩ := exists_blanks text
  rw [← scan_snd_trim] at closed
  conv_rhs => rw [whole, any_scan_blank_append bound blankBefore,
    any_scan_append_blank bound closed blankAfter]

theorem any_scan_conjunction (word : (scan none false andWord).1.any test = false)
    {left right : List Char} (leftClosed : (scan none false left).2 = false)
    (rightClosed : (scan none false right).2 = false) :
    (scan none false (trim (conjunctionText left right))).1.any test =
      ((scan none false (trim left)).1.any test || (scan none false (trim right)).1.any test) := by
  have white : isWhitespace ' ' = true := by decide
  have wordClosed : ∀ previous, (scan previous false andWord).2 = false :=
    fun previous => scan_snd_of_unquoted (by decide) previous false
  have closed : (scan none false (conjunctionText left right)).2 = false := by
    rw [conjunctionText_eq, scan_append, leftClosed, scan_outside _ (by decide), scan_append,
      wordClosed, scan_outside _ (by decide), scan_snd_previous _ none, rightClosed]
  rw [any_scan_trim bound closed, any_scan_trim bound leftClosed, any_scan_trim bound rightClosed,
    conjunctionText_eq, any_scan_append bound leftClosed white,
    any_scan_append bound (wordClosed none) white, word, Bool.false_or]

end BlankBound

/-! ## Joined filters -/

theorem any_or {Item : Type} {items : List Item} {whole first second : Item → Bool}
    (each : ∀ item ∈ items, whole item = (first item || second item)) :
    items.any whole = (items.any first || items.any second) := by
  induction items with
  | nil => rfl
  | cons item items ih =>
    obtain ⟨here, later⟩ := List.forall_mem_cons.mp each
    rw [List.any_cons, List.any_cons, List.any_cons, here, ih later]
    ac_rfl

section Joined

variable {left right : List Char} (leftClosed : (scan none false left).2 = false)
  (rightClosed : (scan none false right).2 = false)

include leftClosed rightClosed

theorem sqlReferencesReservedRowMarker_conjunction :
    sqlReferencesReservedRowMarker (trim (conjunctionText left right)) =
      (sqlReferencesReservedRowMarker (trim left) ||
        sqlReferencesReservedRowMarker (trim right)) := by
  have letters : reservedRowMarkerField.all isIdentifierChar = true := by decide
  exact any_scan_conjunction (blankBound_wordAt wordComparison_eq (by decide)
    (List.all_eq_true.mp letters)) (by decide) leftClosed rightClosed

theorem sqlRequiresArrowDataFusion_conjunction :
    sqlRequiresArrowDataFusion (trim (conjunctionText left right)) =
      (sqlRequiresArrowDataFusion (trim left) || sqlRequiresArrowDataFusion (trim right)) := by
  have words : ∀ word ∈ dataFusionWords,
      containsUnquotedWord (trim (conjunctionText left right)) word =
        (containsUnquotedWord (trim left) word || containsUnquotedWord (trim right) word) := by
    have shape : dataFusionWords.all (fun word => !word.isEmpty && word.all isIdentifierChar &&
        !(scan none false andWord).1.any (startsWithKeywordAt word)) = true := by decide
    intro word listed
    have facts := List.all_eq_true.mp shape word listed
    simp only [Bool.and_eq_true, Bool.not_eq_true', List.isEmpty_eq_false_iff] at facts
    exact any_scan_conjunction (blankBound_wordAt wordComparison_ignoreCase facts.1.1
      (List.all_eq_true.mp facts.1.2)) facts.2 leftClosed rightClosed
  have brackets : ∀ target ∈ ['(', ')', '[', ']'],
      containsUnquotedChar (trim (conjunctionText left right)) target =
        (containsUnquotedChar (trim left) target || containsUnquotedChar (trim right) target) := by
    have shape : ['(', ')', '[', ']'].all (fun target => !isWhitespace target &&
        !(scan none false andWord).1.any (fun mark => mark.rest.head? == some target)) = true := by
      decide
    intro target listed
    have facts := List.all_eq_true.mp shape target listed
    simp only [Bool.and_eq_true, Bool.not_eq_true'] at facts
    exact any_scan_conjunction (blankBound_head facts.1) facts.2 leftClosed rightClosed
  have separator := any_scan_conjunction blankBound_separator (by decide) leftClosed
    rightClosed
  simp only [sqlRequiresArrowDataFusion, any_or words, any_or brackets,
    containsUnquotedFieldPathSeparator, separator]
  ac_rfl

end Joined

variable {predicates : List Predicate}

theorem trim_ne_nil_of_parsed (parsed : parseLegacyPredicates floats arrow text = .ok predicates) :
    trim text ≠ [] := by
  intro empty
  rw [← parseLegacyPredicates_trim, empty] at parsed
  cases parsed

/-- Which texts of simple predicates `compile` accepts, and what it makes of them. -/
theorem compile_eq_ok_of_parsed (parsed : parseLegacyPredicates floats arrow text = .ok predicates)
    {filter : CompiledFilter} :
    CompiledFilter.compile floats arrow text = .ok filter ↔
      sqlReferencesReservedRowMarker (trim text) = false ∧
        (!arrow && sqlRequiresArrowDataFusion (trim text)) = false ∧
        filter = ⟨trim text, predicates⟩ := by
  have filled : (trim text).isEmpty = false := by simpa using trim_ne_nil_of_parsed parsed
  rw [← parseLegacyPredicates_trim] at parsed
  simp only [CompiledFilter.compile, filled, Bool.false_eq_true, if_false, parsed]
  cases sqlReferencesReservedRowMarker (trim text) with
  | true => simp
  | false =>
    cases !arrow && sqlRequiresArrowDataFusion (trim text) with
    | true => simp
    | false => simp [eq_comm]

theorem closed_of_parsed (parsed : parseLegacyPredicates floats arrow text = .ok predicates) :
    (scan none false text).2 = false := by
  rw [parseLegacyPredicates_eq, trimmedClauses_eq] at parsed
  cases closed : (scan none false text).2 with
  | false => rfl
  | true =>
    rw [closed] at parsed
    cases parsed

theorem predicates_ne_nil (parsed : parseLegacyPredicates floats arrow text = .ok predicates) :
    predicates ≠ [] := by
  have closed := closed_of_parsed parsed
  rw [parseLegacyPredicates_eq, trimmedClauses_eq, closed] at parsed
  obtain ⟨first, later, clauses⟩ : ∃ first later,
      (clausesFrom text 0 (andPlaces text)).map trim = first :: later := by
    cases andPlaces text <;> exact ⟨_, _, rfl⟩
  simp only [Bool.false_eq_true, if_false, clauses] at parsed
  obtain ⟨_, mapped, parsed⟩ := ok_of_bind parsed
  cases mapped
  rw [List.mapM_cons] at parsed
  obtain ⟨predicate, _, parsed⟩ := ok_of_bind parsed
  obtain ⟨rest, _, parsed⟩ := ok_of_bind parsed
  cases parsed
  exact List.cons_ne_nil _ _

/-- The accepted texts joined by `AND` give the predicates of both, and a filter that accepts what
both filters accept. -/
theorem and_is_conjunction (floats : Floats) (arrow : Bool) (read : Bytes → Option Value)
    {left right : List Char} {lefts rights : List Predicate}
    (leftParsed : parseLegacyPredicates floats arrow left = .ok lefts)
    (rightParsed : parseLegacyPredicates floats arrow right = .ok rights) :
    parseLegacyPredicates floats arrow (left ++ " AND ".toList ++ right) =
        .ok (lefts ++ rights) ∧
      ∀ leftFilter rightFilter, CompiledFilter.compile floats arrow left = .ok leftFilter →
        CompiledFilter.compile floats arrow right = .ok rightFilter →
        ∃ filter,
          CompiledFilter.compile floats arrow (left ++ " AND ".toList ++ right) = .ok filter ∧
          ∀ json, filter.matchesStructuredJson floats read json =
            (leftFilter.matchesStructuredJson floats read json &&
              rightFilter.matchesStructuredJson floats read json) := by
  have joined := parseLegacyPredicates_conjunction leftParsed rightParsed
  refine ⟨joined, ?_⟩
  intro leftFilter rightFilter leftCompiled rightCompiled
  have leftClosed := closed_of_parsed leftParsed
  have rightClosed := closed_of_parsed rightParsed
  obtain ⟨leftVisible, leftSimple, rfl⟩ := (compile_eq_ok_of_parsed leftParsed).mp leftCompiled
  obtain ⟨rightVisible, rightSimple, rfl⟩ :=
    (compile_eq_ok_of_parsed rightParsed).mp rightCompiled
  refine ⟨_, (compile_eq_ok_of_parsed joined).mpr ⟨?_, ?_, rfl⟩, ?_⟩
  · rw [sqlReferencesReservedRowMarker_conjunction leftClosed rightClosed, leftVisible,
      rightVisible]
    rfl
  · rw [sqlRequiresArrowDataFusion_conjunction leftClosed rightClosed, Bool.and_or_distrib_left,
      leftSimple, rightSimple]
    rfl
  · intro json
    rw [matchesStructuredJson_eq floats read (trim_ne_nil_of_parsed joined)
        (predicates_ne_nil joined),
      matchesStructuredJson_eq floats read (trim_ne_nil_of_parsed leftParsed)
        (predicates_ne_nil leftParsed),
      matchesStructuredJson_eq floats read (trim_ne_nil_of_parsed rightParsed)
        (predicates_ne_nil rightParsed)]
    cases json.bind read with
    | none => rfl
    | some document => simp only [Option.any_some, List.all_append]

def largeOrders : Predicate :=
  ⟨⟨["total"]⟩, .greaterThanOrEqual, .number (.integer 5)⟩

def namedOrders : Predicate :=
  ⟨⟨["kind"]⟩, .equal, .string "it's"⟩

theorem large_and_named_orders :
    ∃ filter,
      CompiledFilter.compile exactFloats false
        ("total >= 5".toList ++ " AND ".toList ++ "kind = 'it''s'".toList) = .ok filter ∧
      ∀ json, filter.matchesStructuredJson exactFloats (readOnly orderKind) json =
        (CompiledFilter.matchesStructuredJson exactFloats (readOnly orderKind)
            ⟨"total >= 5".toList, [largeOrders]⟩ json &&
          CompiledFilter.matchesStructuredJson exactFloats (readOnly orderKind)
            ⟨"kind = 'it''s'".toList, [namedOrders]⟩ json) := by
  have left : parseLegacyPredicates exactFloats false "total >= 5".toList = .ok [largeOrders] := by
    decide +kernel
  have right : parseLegacyPredicates exactFloats false "kind = 'it''s'".toList =
      .ok [namedOrders] := by
    decide +kernel
  exact (and_is_conjunction exactFloats false (readOnly orderKind) left right).2 _ _
    (by decide +kernel) (by decide +kernel)

end KrabkaGateway.Filter
