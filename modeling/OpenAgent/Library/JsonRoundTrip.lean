import OpenAgent.Library.JsonLaws
import OpenAgent.Library.Utf8

/-!
# Parsing inverts serialization

The serialized text of a value parses back to the value, whatever stands
behind it, and contains no line break.
-/

namespace OpenAgent.Library

theorem toNat_ofNat_char (valid : code < 0xD800 ∨ 0xDFFF < code ∧ code < 0x110000) :
    (Char.ofNat code).toNat = code := by
  have isValid : code.isValidChar := by
    rcases valid with low | high
    · exact Or.inl low
    · exact Or.inr high
  rw [Char.ofNat, dif_pos isValid]
  rfl

private theorem hexValue_hexDigit :
    ∀ digit, digit < 16 → hexValue (hexDigit digit) = some digit := by
  decide

private theorem hexUnit_hexDigits (unit : UInt16) :
    hexUnit (hexDigit (unit.toNat / 4096)) (hexDigit (unit.toNat / 256 % 16))
      (hexDigit (unit.toNat / 16 % 16)) (hexDigit (unit.toNat % 16)) = some unit := by
  have bound := unit.toNat_lt
  have sum : unit.toNat / 4096 * 4096 + unit.toNat / 256 % 16 * 256 +
      unit.toNat / 16 % 16 * 16 + unit.toNat % 16 = unit.toNat := by
    omega
  unfold hexUnit
  rw [hexValue_hexDigit _ (by omega), hexValue_hexDigit _ (by omega),
    hexValue_hexDigit _ (by omega), hexValue_hexDigit _ (by omega)]
  change some (UInt16.ofNat (unit.toNat / 4096 * 4096 + unit.toNat / 256 % 16 * 256 +
    unit.toNat / 16 % 16 * 16 + unit.toNat % 16)) = some unit
  rw [sum, UInt16.ofNat_toNat]

private theorem parseString_unicodeEscape {unit} :
    parseString (unicodeEscape unit ++ rest) = prependUnits [unit] (parseString rest) :=
  parseString_unicode (hexUnit_hexDigits unit) rest

/-- A code unit outside the escapes is its own character. -/
private theorem unitsOfChar_ofNat {unit} (notHigh : isHighSurrogate unit = false)
    (notLow : isLowSurrogate unit = false) :
    (Char.ofNat unit.toNat).toNat = unit.toNat ∧ unitsOfChar (Char.ofNat unit.toNat) = [unit] := by
  have bound := unit.toNat_lt
  have valid : unit.toNat < 0xD800 ∨ 0xDFFF < unit.toNat ∧ unit.toNat < 0x110000 := by
    simp only [isHighSurrogate, isLowSurrogate, Bool.and_eq_false_iff,
      decide_eq_false_iff_not] at notHigh notLow
    omega
  have code := toNat_ofNat_char valid
  unfold unitsOfChar codeUnitsOfChar
  rw [code, if_pos bound]
  simp

private theorem parseString_quoteUnit {unit} :
    parseString (quoteUnit unit ++ rest) = prependUnits [unit] (parseString rest) := by
  unfold quoteUnit
  iterate 7
    split
    · next same => exact same ▸ parseString_escape (by decide) rfl rest
  split
  · exact parseString_unicodeEscape
  · next notQuote notEscape plain =>
      rw [not_or, not_or, Bool.not_eq_true, Bool.not_eq_true] at plain
      obtain ⟨printable, notHigh, notLow⟩ := plain
      obtain ⟨code, units⟩ := unitsOfChar_ofNat notHigh notLow
      have distinct : ∀ other : UInt16, unit ≠ other →
          Char.ofNat unit.toNat ≠ Char.ofNat other.toNat ∨ other.toNat ≥ 0xD800 := by
        intro other different
        by_cases large : other.toNat ≥ 0xD800
        · exact Or.inr large
        · refine Or.inl fun same => different (UInt16.toNat_inj.mp ?_)
          rw [← code, same, toNat_ofNat_char (by omega)]
      rw [List.singleton_append, parseString_char, units]
      · exact (distinct 34 notQuote).resolve_right (by decide)
      · exact (distinct 92 notEscape).resolve_right (by decide)
      · rw [code]
        exact printable

private theorem parseString_pairChar (isHigh : isHighSurrogate high = true)
    (isLow : isLowSurrogate low = true) :
    parseString (pairChar high low :: rest) = prependUnits [high, low] (parseString rest) := by
  simp only [isHighSurrogate, isLowSurrogate, Bool.and_eq_true, decide_eq_true_eq]
    at isHigh isLow
  have code : (pairChar high low).toNat =
      0x10000 + (high.toNat - 0xD800) * 0x400 + (low.toNat - 0xDC00) :=
    toNat_ofNat_char (by omega)
  have units : unitsOfChar (pairChar high low) = [high, low] := by
    unfold unitsOfChar codeUnitsOfChar
    rw [code, if_neg (by omega)]
    have highPart : 0xD800 + (0x10000 + (high.toNat - 0xD800) * 0x400 +
        (low.toNat - 0xDC00) - 0x10000) / 0x400 = high.toNat := by
      omega
    have lowPart : 0xDC00 + (0x10000 + (high.toNat - 0xD800) * 0x400 +
        (low.toNat - 0xDC00) - 0x10000) % 0x400 = low.toNat := by
      omega
    rw [highPart, lowPart]
    simp
  rw [parseString_char, units]
  · intro same
    rw [same] at code
    have small : ('"').toNat = 34 := rfl
    omega
  · intro same
    rw [same] at code
    have small : ('\\').toNat = 92 := rfl
    omega
  · omega

theorem parseString_quoteUnits (units : List UInt16) (rest : List Char) :
    parseString (quoteUnits units ++ '"' :: rest) = some (units, rest) := by
  fun_induction quoteUnits units with
  | case1 => exact parseString_quote rest
  | case2 unit =>
    rw [parseString_quoteUnit, parseString_quote]
    rfl
  | case3 first second tail paired ih =>
    rw [Bool.and_eq_true] at paired
    rw [List.cons_append, parseString_pairChar paired.1 paired.2, ih]
    rfl
  | case4 first second tail _ ih =>
    rw [List.append_assoc, parseString_quoteUnit, ih]
    rfl

/-- A character that can begin a value. -/
def beginsValue (char : Char) : Prop :=
  char ≠ ' ' ∧ char ≠ '\t' ∧ char ≠ '\n' ∧ char ≠ '\r' ∧ char ≠ ']' ∧
    char ≠ '\x7d'

private theorem start_next_eq_some (next : NumberState.start.next char = some state) :
    char = '-' ∨ char.isDigit = true := by
  unfold NumberState.next at next
  by_cases minus : char = '-'
  · exact Or.inl minus
  · simp only [minus] at next
    by_cases zero : char = '0'
    · rw [zero]
      exact Or.inr (by decide)
    · simp only [zero] at next
      by_cases digit : char.isDigit = true
      · exact Or.inr digit
      · simp [digit] at next

private theorem numberLiteral_head (literal : NumberLiteral) :
    ∃ char rest, literal.text = char :: rest ∧ (char = '-' ∨ char.isDigit = true) := by
  obtain ⟨text, wellFormed⟩ := literal
  cases text with
  | nil => simp [scanNumber, NumberState.accepting] at wellFormed
  | cons char rest =>
    refine ⟨char, rest, rfl, ?_⟩
    unfold scanNumber at wellFormed
    cases next : NumberState.start.next char with
    | none => simp [next] at wellFormed
    | some state => exact start_next_eq_some next

private theorem ne_of_numberHead (isHead : char = '-' ∨ char.isDigit = true)
    (notMinus : other ≠ '-') (notDigit : other.isDigit = false) : char ≠ other := by
  rintro rfl
  rcases isHead with minus | digit
  · exact notMinus minus
  · rw [notDigit] at digit
    cases digit

theorem stringify_head (value : Json) :
    ∃ char rest, stringify value = char :: rest ∧ beginsValue char := by
  unfold beginsValue
  match value with
  | .null | .bool true | .bool false => exact ⟨_, _, rfl, by decide⟩
  | .number literal =>
    obtain ⟨char, rest, text, isHead⟩ := numberLiteral_head literal
    refine ⟨char, rest, by rw [stringify, text], ?_, ?_, ?_, ?_, ?_, ?_⟩ <;>
      exact ne_of_numberHead isHead (by decide) (by decide)
  | .string units | .array [] | .array (item :: items) | .object []
  | .object (member :: members) => exact ⟨_, _, rfl, by decide⟩

/-- What a value begins with. -/
theorem stringify_starts (value : Json) :
    ∃ char rest, stringify value = char :: rest ∧
      (char ∈ ['n', 't', 'f', '"', '[', '\x7b', '-'] ∨ char.isDigit = true) := by
  match value with
  | .null | .bool true | .bool false => exact ⟨_, _, rfl, by decide⟩
  | .number literal =>
    obtain ⟨char, rest, text, isMinus | isDigit⟩ := numberLiteral_head literal
    · exact ⟨char, rest, by rw [stringify, text], Or.inl (by simp [isMinus])⟩
    · exact ⟨char, rest, by rw [stringify, text], Or.inr isDigit⟩
  | .string units => exact ⟨_, _, rfl, Or.inl (by decide)⟩
  | .array [] | .array (item :: items) | .object [] | .object (member :: members) =>
    exact ⟨_, _, rfl, by decide⟩

private theorem skipBlank_stringify (value : Json) (rest : List Char) :
    skipBlank (stringify value ++ rest) = stringify value ++ rest := by
  obtain ⟨char, tail, text, begins⟩ := stringify_head value
  obtain ⟨space, tab, newline, carriage, _⟩ := begins
  rw [text, List.cons_append, skipBlank, if_neg (by simp [space, tab, newline, carriage])]

private theorem expect_stringify_eq_none
    (closing : wanted = ']' ∨ wanted = '\x7d')
    (value : Json)
    (rest : List Char) : expect wanted (stringify value ++ rest) = none := by
  obtain ⟨char, tail, text, begins⟩ := stringify_head value
  obtain ⟨_, _, _, _, notBracket, notBrace⟩ := begins
  have different : char ≠ wanted := by
    rcases closing with rfl | rfl
    · exact notBracket
    · exact notBrace
  simp [text, expect, different]

private theorem endsNumber_cons
    (separator : char = ',' ∨ char = ']' ∨ char = '\x7d')
    (rest : List Char) : endsNumber (char :: rest) := by
  intro state
  rcases separator with rfl | rfl | rfl <;> cases state <;> rfl

/-- The parser inverts the serializer at this value. -/
def RoundTrips (value : Json) : Prop :=
  ∀ fuel rest, (stringify value).length < fuel → endsNumber rest →
    parseValue fuel (stringify value ++ rest) = some (value, rest)

private theorem roundTrips_number :
    RoundTrips (.number literal) := by
  intro fuel rest enough ends
  obtain ⟨char, tail, text, isHead⟩ := numberLiteral_head literal
  obtain ⟨fuel, rfl⟩ := Nat.exists_eq_succ_of_ne_zero (Nat.ne_zero_of_lt enough)
  have scanned := scanNumber_literal_append literal.wellFormed ends
  rw [stringify, text, List.cons_append]
  rw [text, List.cons_append] at scanned
  rw [parseValue, if_neg (ne_of_numberHead isHead (by decide) (by decide)),
    if_neg (ne_of_numberHead isHead (by decide) (by decide)), parseScalar,
    if_neg (ne_of_numberHead isHead (by decide) (by decide)),
    if_neg (ne_of_numberHead isHead (by decide) (by decide)),
    if_neg (ne_of_numberHead isHead (by decide) (by decide)),
    if_neg (ne_of_numberHead isHead (by decide) (by decide)), scanned,
    Option.bind_some, ← text, dif_pos literal.wellFormed]

private theorem roundTrips_string (units : List UInt16) :
    RoundTrips (.string units) := by
  intro fuel rest enough _
  obtain ⟨fuel, rfl⟩ := Nat.exists_eq_succ_of_ne_zero (Nat.ne_zero_of_lt enough)
  have parsed := parseString_quoteUnits units rest
  simp [stringify, quote, parseValue, parseScalar, parsed]

private theorem parseItems_last (roundTrips : RoundTrips item)
    (enough : (stringify item).length < fuel) :
    parseItems (fuel + 1) (stringify item ++ ']' :: rest) = some ([item], rest) := by
  have parsed := roundTrips fuel (']' :: rest) enough
    (endsNumber_cons (Or.inr (Or.inl rfl)) rest)
  rw [parseItems, parsed]
  simp [skipBlank, expect]

private theorem parseItems_more (roundTrips : RoundTrips item)
    (enough : (stringify item).length < fuel)
    (later : parseItems fuel (stringify next ++ tail) = some result) :
    parseItems (fuel + 1) (stringify item ++ ',' :: (stringify next ++ tail)) =
      some (item :: result.1, result.2) := by
  have parsed := roundTrips fuel (',' :: (stringify next ++ tail)) enough
    (endsNumber_cons (Or.inl rfl) _)
  rw [parseItems, parsed]
  simp [skipBlank, expect, skipBlank_stringify, later]

private theorem parseMembers_last (roundTrips : RoundTrips value)
    (enough : (stringify value).length < fuel) (key : List UInt16) (rest : List Char) :
    parseMembers (fuel + 1) (quote key ++ ':' :: (stringify value ++ '\x7d' :: rest)) =
      some ([(key, value)], rest) := by
  have keyParsed := parseString_quoteUnits key
  have parsed := roundTrips fuel ('\x7d' :: rest) enough
    (endsNumber_cons (Or.inr (Or.inr rfl)) rest)
  rw [parseMembers, quote]
  simp [keyParsed, skipBlank, expect, skipBlank_stringify, parsed]

private theorem parseMembers_more (roundTrips : RoundTrips value)
    (enough : (stringify value).length < fuel) (key next : List UInt16)
    (later : parseMembers fuel (quote next ++ tail) = some result) :
    parseMembers (fuel + 1) (quote key ++ ':' :: (stringify value ++ ',' :: (quote next ++ tail))) =
      some ((key, value) :: result.1, result.2) := by
  have keyParsed := parseString_quoteUnits key
  have parsed := roundTrips fuel (',' :: (quote next ++ tail)) enough
    (endsNumber_cons (Or.inl rfl) _)
  have notBlank : skipBlank (quote next ++ tail) = quote next ++ tail := by
    simp [quote, skipBlank]
  rw [parseMembers, quote]
  simp [keyParsed, skipBlank, expect, skipBlank_stringify, parsed, notBlank, later]

mutual

/-- The parser inverts the serializer. -/
theorem roundTrips (value : Json) : RoundTrips value := by
  match value with
  | .null | .bool true | .bool false =>
    intro fuel rest enough _
    obtain ⟨fuel, rfl⟩ := Nat.exists_eq_succ_of_ne_zero (Nat.ne_zero_of_lt enough)
    simp [stringify, parseValue, parseScalar, expectWord, expect]
  | .number literal => exact roundTrips_number
  | .string units => exact roundTrips_string units
  | .array [] | .object [] =>
    intro fuel rest enough _
    obtain ⟨fuel, rfl⟩ := Nat.exists_eq_succ_of_ne_zero (Nat.ne_zero_of_lt enough)
    simp [stringify, parseValue, skipBlank, expect]
  | .array (item :: items) =>
    intro fuel rest enough _
    obtain ⟨fuel, rfl⟩ := Nat.exists_eq_succ_of_ne_zero (Nat.ne_zero_of_lt enough)
    have inner := parseItems_stringifyItems items (roundTrips item) fuel rest
      (by simpa [stringify] using enough)
    simp [stringify, parseValue, skipBlank_stringify, expect_stringify_eq_none (Or.inl rfl), inner]
  | .object ((key, value) :: members) =>
    intro fuel rest enough _
    obtain ⟨fuel, rfl⟩ := Nat.exists_eq_succ_of_ne_zero (Nat.ne_zero_of_lt enough)
    have inner := parseMembers_stringifyMembers members key (roundTrips value)
      fuel rest (by simpa [stringify] using enough)
    have notBlank : ∀ tail, skipBlank (quote key ++ tail) = quote key ++ tail := by
      simp [quote, skipBlank]
    have notClosing : ∀ tail, expect '\x7d' (quote key ++ tail) = none := by
      simp [quote, expect]
    simp [stringify, parseValue, notBlank, notClosing, inner]

theorem parseItems_stringifyItems (items : List Json) (first : RoundTrips item) (fuel : Nat)
    (rest : List Char) (enough : (stringify item).length + (stringifyItems items).length < fuel) :
    parseItems fuel (stringify item ++ (stringifyItems items ++ rest)) =
      some (item :: items, rest) := by
  match items with
  | [] =>
    obtain ⟨fuel, rfl⟩ := Nat.exists_eq_succ_of_ne_zero (Nat.ne_zero_of_lt enough)
    simp only [stringifyItems, List.length_singleton, Nat.succ_eq_add_one] at enough
    exact parseItems_last first (by omega)
  | next :: items =>
    obtain ⟨fuel, rfl⟩ := Nat.exists_eq_succ_of_ne_zero (Nat.ne_zero_of_lt enough)
    simp only [stringifyItems, List.length_cons, List.length_append,
      Nat.succ_eq_add_one, List.cons_append] at enough
    have later := parseItems_stringifyItems items (roundTrips next) fuel rest (by omega)
    have step := parseItems_more first (by omega) later
    simpa [stringifyItems] using step

theorem parseMembers_stringifyMembers (members : List (List UInt16 × Json)) (key : List UInt16)
    (first : RoundTrips value) (fuel : Nat) (rest : List Char)
    (enough : (quote key).length + ((stringify value).length +
      (stringifyMembers members).length + 1) < fuel) :
    parseMembers fuel
        (quote key ++ ':' :: (stringify value ++ (stringifyMembers members ++ rest))) =
      some ((key, value) :: members, rest) := by
  match members with
  | [] =>
    obtain ⟨fuel, rfl⟩ := Nat.exists_eq_succ_of_ne_zero (Nat.ne_zero_of_lt enough)
    exact parseMembers_last first (by omega) key rest
  | (next, nextValue) :: members =>
    obtain ⟨fuel, rfl⟩ := Nat.exists_eq_succ_of_ne_zero (Nat.ne_zero_of_lt enough)
    simp only [stringifyMembers, List.length_cons, List.length_append,
      Nat.succ_eq_add_one, List.cons_append] at enough
    have later := parseMembers_stringifyMembers members next
      (roundTrips nextValue) fuel rest (by omega)
    have step := parseMembers_more first (by omega) key next later
    simpa [stringifyMembers] using step

end

/-- `JSON.parse` after `JSON.stringify` gives the value back. -/
theorem parseJson_stringify (value : Json) : parseJson (stringify value) = some value := by
  have notBlank := skipBlank_stringify value []
  have parsed := roundTrips value ((stringify value).length + 1) []
    (Nat.lt_succ_self _) trivial
  rw [List.append_nil] at notBlank parsed
  rw [parseJson, notBlank, parsed]
  rfl

/-- The same for a text that ends its line. -/
theorem parseJson_stringify_newline (value : Json) :
    parseJson (stringify value ++ ['\n']) = some value := by
  have ends : endsNumber ['\n'] := by
    intro state
    cases state <;> rfl
  have enough : (stringify value).length < (stringify value ++ ['\n']).length + 1 := by
    rw [List.length_append]
    omega
  rw [parseJson, skipBlank_stringify, roundTrips value _ ['\n'] enough ends]
  rfl

theorem stringify_object (members : List (List UInt16 × Json)) :
    ∃ rest, stringify (.object members) = '\x7b' :: rest := by
  cases members with
  | nil | cons member members => exact ⟨_, rfl⟩

private theorem skipBlank_brace (rest : List Char) :
    skipBlank ('\x7b' :: rest) = '\x7b' :: rest := by
  simp [skipBlank]

private theorem skipBlank_replacement (text : List Char) :
    skipBlank (text ++ [replacement]) ≠ [] := by
  induction text with
  | nil => decide
  | cons char text ih =>
    rw [List.cons_append, skipBlank]
    split
    · exact ih
    · exact List.cons_ne_nil char _

section

variable (split : kept ++ lost = stringify (.object members))
include split

/-- The text of an object, cut short, is not JSON. -/
theorem parseJson_cut (cut : lost ≠ []) : parseJson kept = none := by
  obtain ⟨tail, text⟩ := stringify_object members
  cases kept with
  | nil => rfl
  | cons char kept =>
    have isBrace : char = '\x7b' := by
      rw [text] at split
      exact (List.cons.inj split).1
    subst isBrace
    rw [parseJson, skipBlank_brace]
    cases parsed : parseValue (('\x7b' :: kept).length + 1) ('\x7b' :: kept) with
    | none => rfl
    | some result =>
      have whole := parseValue_object_append parsed rfl lost
      have enough := parseValue_mono (Nat.le_max_left _
        ((stringify (.object members)).length + 1)) whole
      have expected := roundTrips (.object members) (max
        (('\x7b' :: kept).length + 1) ((stringify (.object members)).length + 1))
        [] (by omega) trivial
      rw [split] at enough
      rw [List.append_nil, enough] at expected
      have noRest := (Prod.mk.inj (Option.some.inj expected)).2
      exact absurd (List.append_eq_nil_iff.mp noRest).2 cut

/-- A cut inside a character leaves a replacement character behind, and the
text is not JSON either. -/
theorem parseJson_cut_replacement : parseJson (kept ++ [replacement]) = none := by
  obtain ⟨tail, text⟩ := stringify_object members
  cases kept with
  | nil => decide
  | cons char kept =>
    have isBrace : char = '\x7b' := by
      rw [text] at split
      exact (List.cons.inj split).1
    subst isBrace
    rw [parseJson, List.cons_append, skipBlank_brace]
    cases parsed : parseValue (('\x7b' :: (kept ++ [replacement])).length + 1)
        ('\x7b' :: (kept ++ [replacement])) with
    | none => rfl
    | some result =>
      obtain ⟨consumed, closing⟩ := parseValue_object_closed parsed
      cases ending : result.2.reverse with
      | nil =>
        rw [List.reverse_eq_nil_iff.mp ending] at closing
        have last := congrArg List.getLast? closing
        simp [replacement] at last
      | cons last before =>
        have restEq : result.2 = before.reverse ++ [last] := by
          rw [← List.reverse_reverse result.2, ending, List.reverse_cons]
        have isReplacement : last = replacement := by
          have lasts := congrArg List.getLast? closing
          rw [restEq, ← List.cons_append, ← List.append_assoc,
            List.getLast?_concat, List.getLast?_concat] at lasts
          exact Option.some.inj lasts
        have visible : skipBlank result.2 ≠ [] := by
          rw [restEq, isReplacement]
          intro blank
          have shorter := skipBlank_replacement before.reverse
          exact shorter blank
        simp [visible]

end

private theorem hexDigit_printed : ∀ digit, digit < 16 → 0x20 ≤ (hexDigit digit).toNat := by
  decide

private theorem printed_quoteUnit {unit} :
    ∀ char ∈ quoteUnit unit, 0x20 ≤ char.toNat := by
  have bound := unit.toNat_lt
  unfold quoteUnit
  repeat' split
  iterate 7 simp
  · intro char isChar
    simp only [unicodeEscape, List.mem_cons, List.not_mem_nil, or_false] at isChar
    rcases isChar with rfl | rfl | rfl | rfl | rfl | rfl
    · decide
    · decide
    · exact hexDigit_printed _ (by omega)
    · exact hexDigit_printed _ (by omega)
    · exact hexDigit_printed _ (by omega)
    · exact hexDigit_printed _ (by omega)
  · next plain =>
      rw [not_or, not_or, Bool.not_eq_true, Bool.not_eq_true] at plain
      have code := (unitsOfChar_ofNat plain.2.1 plain.2.2).1
      intro char isChar
      obtain rfl := List.mem_singleton.mp isChar
      omega

private theorem printed_quoteUnits :
    ∀ char ∈ quoteUnits units, 0x20 ≤ char.toNat := by
  fun_induction quoteUnits units with
  | case1 => exact fun _ isChar => absurd isChar List.not_mem_nil
  | case2 unit => exact printed_quoteUnit
  | case3 first second tail paired ih =>
    refine List.forall_mem_cons.mpr ⟨?_, ih⟩
    simp only [isHighSurrogate, isLowSurrogate, Bool.and_eq_true, decide_eq_true_eq] at paired
    rw [pairChar, toNat_ofNat_char (by omega)]
    omega
  | case4 first second tail _ ih => exact List.forall_mem_append.mpr ⟨printed_quoteUnit, ih⟩

private theorem printed_quote :
    ∀ char ∈ quote units, 0x20 ≤ char.toNat :=
  List.forall_mem_append.mpr
    ⟨List.forall_mem_cons.mpr ⟨by decide, printed_quoteUnits⟩, by simp⟩

private theorem printed_of_next {state : NumberState} (step : state.next char = some next) :
    0x20 ≤ char.toNat := by
  by_contra isControl
  have apart : ∀ other : Char, 0x20 ≤ other.toNat → char ≠ other := by
    rintro other large rfl
    exact isControl large
  have notDigit : char.isDigit = false := by
    by_contra isDigit
    have bounds : char.isDigit = true := by simpa using isDigit
    simp only [Char.isDigit, Bool.and_eq_true, decide_eq_true_eq] at bounds
    have large : 48 ≤ char.toNat := bounds.1
    omega
  have notMinus := apart '-' (by decide)
  have notZero := apart '0' (by decide)
  have notPoint := apart '.' (by decide)
  have notPlus := apart '+' (by decide)
  have notMark := apart 'e' (by decide)
  have notLargeMark := apart 'E' (by decide)
  cases state <;>
    simp [NumberState.next, notMinus, notZero, notPoint, notPlus, notMark, notLargeMark,
      notDigit] at step

private theorem printed_scanned {text} (success : scanNumber state text = some scanned) :
    ∀ char ∈ scanned.1, 0x20 ≤ char.toNat := by
  induction text generalizing state scanned with
  | nil =>
    unfold scanNumber at success
    split at success
    · cases success
      exact fun _ isChar => absurd isChar List.not_mem_nil
    · cases success
  | cons char rest ih =>
    unfold scanNumber at success
    cases step : state.next char with
    | none =>
      rw [step] at success
      simp only at success
      split at success
      · cases success
        exact fun _ isChar => absurd isChar List.not_mem_nil
      · cases success
    | some next =>
      rw [step] at success
      simp only [Option.map_eq_some_iff] at success
      obtain ⟨tail, later, rfl⟩ := success
      exact List.forall_mem_cons.mpr ⟨printed_of_next step, ih later⟩

mutual

/-- A serialized value has no control characters. -/
theorem printed_stringify (value : Json) : ∀ char ∈ stringify value, 0x20 ≤ char.toNat := by
  match value with
  | .null | .bool true | .bool false => simp [stringify]
  | .number literal => exact printed_scanned literal.wellFormed
  | .string units => exact printed_quote
  | .array [] => simp [stringify]
  | .array (item :: items) =>
    exact List.forall_mem_append.mpr ⟨List.forall_mem_cons.mpr ⟨by decide, printed_stringify item⟩,
        printed_stringifyItems⟩
  | .object [] => simp [stringify]
  | .object ((key, value) :: members) =>
    simp only [stringify, List.forall_mem_append, List.forall_mem_cons]
    exact ⟨⟨⟨by decide, printed_quote⟩, by decide, printed_stringify value⟩,
      printed_stringifyMembers⟩

theorem printed_stringifyItems : ∀ char ∈ stringifyItems items, 0x20 ≤ char.toNat := by
  match items with
  | [] => simp [stringifyItems]
  | item :: items =>
    exact List.forall_mem_append.mpr ⟨List.forall_mem_cons.mpr ⟨by decide, printed_stringify item⟩,
        printed_stringifyItems⟩

theorem printed_stringifyMembers : ∀ char ∈ stringifyMembers members, 0x20 ≤ char.toNat := by
  match members with
  | [] => simp [stringifyMembers]
  | (key, value) :: members =>
    simp only [stringifyMembers, List.forall_mem_append, List.forall_mem_cons]
    exact ⟨⟨⟨by decide, printed_quote⟩, by decide, printed_stringify value⟩,
      printed_stringifyMembers⟩

end

/-- A serialized value is one line. -/
theorem newline_notMem_stringify (value : Json) : '\n' ∉ stringify value := by
  intro isChar
  exact absurd (printed_stringify value _ isChar) (by decide)

end OpenAgent.Library
