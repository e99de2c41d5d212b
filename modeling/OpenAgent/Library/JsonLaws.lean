import OpenAgent.Library.Json

/-!
# Laws of the JSON parser

Three facts carry every argument about texts that were written to a file and
read back.  The parser inverts the serializer.  A successful parse is not
disturbed by more text behind it, unless it ended inside a number at the very
end.  A parsed object consumed its text up to a closing brace.
-/

namespace OpenAgent.Library

theorem skipBlank_append {text} (stopped : skipBlank text ≠ []) (more : List Char) :
    skipBlank (text ++ more) = skipBlank text ++ more := by
  induction text with
  | nil => exact absurd rfl stopped
  | cons char rest ih =>
    rw [List.cons_append]
    unfold skipBlank at stopped ⊢
    by_cases blank : char = ' ' ∨ char = '\t' ∨ char = '\n' ∨ char = '\r'
    · rw [if_pos blank] at stopped ⊢
      rw [if_pos blank]
      exact ih stopped
    · rw [if_neg blank, if_neg blank]
      rfl

theorem skipBlank_suffix (text : List Char) : skipBlank text <:+ text := by
  induction text with
  | nil => exact List.suffix_rfl
  | cons char rest ih =>
    unfold skipBlank
    split
    · exact ih.trans (List.suffix_cons char rest)
    · exact List.suffix_rfl

theorem expect_eq_some {text} : expect wanted text = some rest ↔ text = wanted :: rest := by
  cases text with
  | nil => simp [expect]
  | cons char tail =>
    by_cases same : char = wanted
    · simp [expect]
    · simp [expect]

theorem expect_append {text} (found : expect wanted text = some rest) (more : List Char) :
    expect wanted (text ++ more) = some (rest ++ more) := by
  rw [expect_eq_some] at found ⊢
  rw [found, List.cons_append]

theorem expect_append_eq_none {text} (missing : expect wanted text = none) (nonempty : text ≠ [])
    (more : List Char) : expect wanted (text ++ more) = none := by
  cases text with
  | nil => exact absurd rfl nonempty
  | cons char tail => simpa [expect] using missing

theorem ne_nil_of_expect {text} (found : expect wanted text = some rest) : text ≠ [] := by
  rw [expect_eq_some] at found
  rw [found]
  exact List.cons_ne_nil wanted rest

theorem expectWord_append {text} (found : expectWord word text = some rest) :
    rest <:+ text ∧ ∀ more, expectWord word (text ++ more) = some (rest ++ more) := by
  induction word generalizing text with
  | nil =>
    cases found
    exact ⟨List.suffix_rfl, fun _ => rfl⟩
  | cons char word ih =>
    obtain ⟨tail, first, later⟩ := Option.bind_eq_some_iff.mp found
    obtain ⟨suffix, onward⟩ := ih later
    obtain rfl := expect_eq_some.mp first
    exact ⟨suffix.trans (List.suffix_cons char tail), fun more =>
      Option.bind_eq_some_iff.mpr ⟨tail ++ more, expect_append first more, onward more⟩⟩

private theorem prependUnits_eq_some :
    prependUnits units parsed = some result ↔
      ∃ tail, parsed = some tail ∧ (units ++ tail.1, tail.2) = result := by
  simp [prependUnits]

theorem parseString_quote (rest : List Char) : parseString ('"' :: rest) = some ([], rest) := by
  rw [parseString.eq_def]
  rfl

theorem parseString_unicode {unit} (hex : hexUnit first second third fourth = some unit)
    (rest : List Char) :
    parseString ('\\' :: 'u' :: first :: second :: third :: fourth :: rest) =
      prependUnits [unit] (parseString rest) := by
  rw [parseString.eq_def]
  simp [hex]

theorem parseString_escape {unit} (notUnicode : escape ≠ 'u')
    (simple : simpleEscape escape = some unit) (rest : List Char) :
    parseString ('\\' :: escape :: rest) = prependUnits [unit] (parseString rest) := by
  rw [parseString.eq_def]
  simp [notUnicode, simple]

theorem parseString_char (notQuote : char ≠ '"') (notEscape : char ≠ '\\')
    (printable : ¬ char.toNat < 0x20) (rest : List Char) :
    parseString (char :: rest) = prependUnits (unitsOfChar char) (parseString rest) := by
  rw [parseString.eq_def]
  simp [notQuote, notEscape, printable]

theorem parseString_append {text} (parsed : parseString text = some result) :
    result.2 <:+ text ∧
      ∀ more, parseString (text ++ more) = some (result.1, result.2 ++ more) := by
  fun_induction parseString text generalizing result with
  | case1 => cases parsed
  | case2 rest =>
    cases parsed
    exact ⟨List.suffix_cons _ rest, fun more => parseString_quote (rest ++ more)⟩
  | case3 => cases parsed
  | case4 first second third fourth rest unit hex _ ih =>
    obtain ⟨tail, parsedTail, rfl⟩ := prependUnits_eq_some.mp parsed
    obtain ⟨suffix, onward⟩ := ih parsedTail
    refine ⟨suffix.trans (List.suffix_append ['\\', 'u', first, second, third, fourth] rest),
      fun more => ?_⟩
    simp only [List.cons_append]
    rw [parseString_unicode hex, onward more]
    rfl
  | case5 | case6 => cases parsed
  | case7 escape rest notUnicode unit simple _ ih =>
    obtain ⟨tail, parsedTail, rfl⟩ := prependUnits_eq_some.mp parsed
    obtain ⟨suffix, onward⟩ := ih parsedTail
    refine ⟨suffix.trans (List.suffix_append ['\\', escape] rest), fun more => ?_⟩
    simp only [List.cons_append]
    rw [parseString_escape notUnicode simple, onward more]
    rfl
  | case8 | case9 => cases parsed
  | case10 char rest notQuote notEscape printable ih =>
    obtain ⟨tail, parsedTail, rfl⟩ := prependUnits_eq_some.mp parsed
    obtain ⟨suffix, onward⟩ := ih parsedTail
    refine ⟨suffix.trans (List.suffix_cons char rest), fun more => ?_⟩
    rw [List.cons_append, parseString_char notQuote notEscape printable, onward more]
    simp [prependUnits]

theorem scanNumber_append {text} (success : scanNumber state text = some scanned) :
    text = scanned.1 ++ scanned.2 ∧ (scanned.2 ≠ [] → ∀ more,
      scanNumber state (text ++ more) = some (scanned.1, scanned.2 ++ more)) := by
  induction text generalizing state scanned with
  | nil =>
    unfold scanNumber at success
    split at success
    · cases success
      exact ⟨rfl, absurd rfl⟩
    · cases success
  | cons char rest ih =>
    simp only [List.cons_append]
    unfold scanNumber at success ⊢
    cases step : state.next char with
    | none =>
      rw [step] at success
      simp only at success ⊢
      split at success
      · cases success
        simp [*]
      · cases success
    | some next =>
      rw [step] at success
      simp only [Option.map_eq_some_iff] at success ⊢
      obtain ⟨tail, later, rfl⟩ := success
      obtain ⟨same, onward⟩ := ih later
      exact ⟨congrArg (char :: ·) same, fun stopped more =>
        ⟨(tail.1, tail.2 ++ more), onward stopped more, rfl⟩⟩

/-- Characters that continue no number literal. -/
def endsNumber : List Char → Prop
  | [] => True
  | char :: _ => ∀ state : NumberState, state.next char = none

theorem scanNumber_literal_append {text} (success : scanNumber state text = some (literal, []))
    (ends : endsNumber more) : scanNumber state (text ++ more) = some (literal, more) := by
  induction text generalizing state literal with
  | nil =>
    unfold scanNumber at success
    split at success
    · cases success
      cases more with
      | nil => simp [scanNumber, *]
      | cons char rest => simp [scanNumber, ends state, *]
    · cases success
  | cons char rest ih =>
    rw [List.cons_append]
    unfold scanNumber at success ⊢
    cases step : state.next char with
    | none =>
      rw [step] at success
      simp only at success
      split at success <;> simp at success
    | some next =>
      rw [step] at success
      simp only [Option.map_eq_some_iff, Prod.mk.injEq] at success ⊢
      obtain ⟨tail, later, rfl, noRest⟩ := success
      refine ⟨(tail.1, more), ih ?_, rfl, rfl⟩
      rw [later, ← noRest]

private theorem parseItems_succ {text} :
    parseItems (fuel + 1) text = some result ↔ ∃ item, parseValue fuel text = some item ∧
        ((∃ rest, expect ']' (skipBlank item.2) = some rest ∧ ([item.1], rest) = result) ∨
          expect ']' (skipBlank item.2) = none ∧ ∃ rest, expect ',' (skipBlank item.2) = some rest ∧
              ∃ items, parseItems fuel (skipBlank rest) = some items ∧
                (item.1 :: items.1, items.2) = result) := by
  rw [parseItems, Option.bind_eq_some_iff]
  refine exists_congr fun item => and_congr_right fun _ => ?_
  cases closing : expect ']' (skipBlank item.2) with
  | some rest => simp
  | none => simp [Option.bind_eq_some_iff]

private theorem parseMembers_succ {text} :
    parseMembers (fuel + 1) text = some result ↔ ∃ inside, expect '"' text = some inside ∧
      ∃ key, parseString inside = some key ∧
      ∃ afterColon, expect ':' (skipBlank key.2) = some afterColon ∧
      ∃ value, parseValue fuel (skipBlank afterColon) = some value ∧
        ((∃ rest, expect '\x7d' (skipBlank value.2) = some rest ∧
            ([(key.1, value.1)], rest) = result) ∨
          expect '\x7d' (skipBlank value.2) = none ∧
            ∃ rest, expect ',' (skipBlank value.2) = some rest ∧
              ∃ members, parseMembers fuel (skipBlank rest) = some members ∧
                ((key.1, value.1) :: members.1, members.2) = result) := by
  rw [parseMembers, Option.bind_eq_some_iff]
  refine exists_congr fun inside => and_congr_right fun _ => ?_
  rw [Option.bind_eq_some_iff]
  refine exists_congr fun key => and_congr_right fun _ => ?_
  rw [Option.bind_eq_some_iff]
  refine exists_congr fun afterColon => and_congr_right fun _ => ?_
  rw [Option.bind_eq_some_iff]
  refine exists_congr fun value => and_congr_right fun _ => ?_
  cases closing : expect '\x7d' (skipBlank value.2) with
  | some rest => simp
  | none => simp [Option.bind_eq_some_iff]

private theorem parseValue_object :
    parseValue (fuel + 1) ('\x7b' :: rest) = some result ↔
      (∃ after, expect '\x7d' (skipBlank rest) = some after ∧ (.object [], after) = result) ∨
        expect '\x7d' (skipBlank rest) = none ∧
          ∃ members, parseMembers fuel (skipBlank rest) = some members ∧
            (.object members.1, members.2) = result := by
  rw [parseValue]
  cases closing : expect '\x7d' (skipBlank rest) with
  | some after => simp
  | none => simp

private theorem parseValue_array :
    parseValue (fuel + 1) ('[' :: rest) = some result ↔
      (∃ after, expect ']' (skipBlank rest) = some after ∧ (.array [], after) = result) ∨
        expect ']' (skipBlank rest) = none ∧
          ∃ items, parseItems fuel (skipBlank rest) = some items ∧
            (.array items.1, items.2) = result := by
  rw [parseValue]
  cases closing : expect ']' (skipBlank rest) with
  | some after => simp
  | none => simp

private theorem parseValue_scalar (notObject : char ≠ '\x7b')
    (notArray : char ≠ '[')
    (fuel : Nat)
    (rest : List Char) : parseValue (fuel + 1) (char :: rest) = parseScalar char rest := by
  rw [parseValue, if_neg notObject, if_neg notArray]

theorem parseScalar_append (parsed : parseScalar char rest = some result) :
    result.2 <:+ char :: rest ∧ (result.2 ≠ [] → ∀ more,
      parseScalar char (rest ++ more) = some (result.1, result.2 ++ more)) := by
  have ofWord {word value}
      (found : (expectWord word rest).map (fun rest => (value, rest)) = some result) :
      result.2 <:+ char :: rest ∧ (result.2 ≠ [] → ∀ more,
        (expectWord word (rest ++ more)).map (fun rest => (value, rest)) =
          some (result.1, result.2 ++ more)) := by
    obtain ⟨tail, success, rfl⟩ := Option.map_eq_some_iff.mp found
    obtain ⟨suffix, onward⟩ := expectWord_append success
    exact ⟨suffix.trans (List.suffix_cons char rest), fun _ more =>
      Option.map_eq_some_iff.mpr ⟨_, onward more, rfl⟩⟩
  unfold parseScalar at parsed ⊢
  split at parsed
  next isQuote =>
    simp only [if_pos isQuote]
    obtain ⟨tail, success, rfl⟩ := Option.map_eq_some_iff.mp parsed
    obtain ⟨suffix, onward⟩ := parseString_append success
    exact ⟨suffix.trans (List.suffix_cons char rest), fun _ more =>
      Option.map_eq_some_iff.mpr ⟨_, onward more, rfl⟩⟩
  next notQuote =>
  simp only [if_neg notQuote]
  split at parsed
  next isNull => simpa only [if_pos isNull] using ofWord parsed
  next notNull =>
  simp only [if_neg notNull]
  split at parsed
  next isTrue => simpa only [if_pos isTrue] using ofWord parsed
  next notTrue =>
  simp only [if_neg notTrue]
  split at parsed
  next isFalse => simpa only [if_pos isFalse] using ofWord parsed
  next notFalse =>
  simp only [if_neg notFalse]
  obtain ⟨scanned, success, accepted⟩ := Option.bind_eq_some_iff.mp parsed
  obtain ⟨same, onward⟩ := scanNumber_append success
  split at accepted
  next wellFormed =>
    cases accepted
    refine ⟨same ▸ List.suffix_append scanned.1 scanned.2, fun stopped more => ?_⟩
    refine Option.bind_eq_some_iff.mpr ⟨_, onward stopped more, ?_⟩
    rw [dif_pos wellFormed]
  next => cases accepted

/-- What one more unit of fuel and more text behind do not change. -/
private structure Stable (fuel : Nat) : Prop where
  value : ∀ text result, parseValue fuel text = some result →
    parseValue (fuel + 1) text = some result
  items : ∀ text result, parseItems fuel text = some result →
    parseItems (fuel + 1) text = some result
  members : ∀ text result, parseMembers fuel text = some result →
    parseMembers (fuel + 1) text = some result

private theorem stable (fuel : Nat) : Stable fuel := by
  induction fuel with
  | zero =>
    constructor <;> intro text result parsed <;> simp [parseValue, parseItems,
      parseMembers] at parsed
  | succ fuel ih =>
    constructor
    · intro text result parsed
      cases text with
      | nil => simp [parseValue] at parsed
      | cons char rest =>
        by_cases isObject : char = '\x7b'
        · subst isObject
          rw [parseValue_object] at parsed ⊢
          rcases parsed with closed | ⟨opened, members, success, rfl⟩
          · exact Or.inl closed
          · exact Or.inr ⟨opened, members, ih.members _ _ success, rfl⟩
        · by_cases isArray : char = '['
          · subst isArray
            rw [parseValue_array] at parsed ⊢
            rcases parsed with closed | ⟨opened, items, success, rfl⟩
            · exact Or.inl closed
            · exact Or.inr ⟨opened, items, ih.items _ _ success, rfl⟩
          · rw [parseValue_scalar isObject isArray] at parsed ⊢
            exact parsed
    · intro text result parsed
      rw [parseItems_succ] at parsed ⊢
      obtain ⟨item, success, closed | ⟨opened, rest, comma, items, later, rfl⟩⟩ :=
        parsed
      · exact ⟨item, ih.value _ _ success, Or.inl closed⟩
      · exact ⟨item, ih.value _ _ success, Or.inr ⟨opened, rest,
          comma, items, ih.items _ _ later, rfl⟩⟩
    · intro text result parsed
      rw [parseMembers_succ] at parsed ⊢
      obtain ⟨inside, quoted, key, keyParsed, after, colon, value, success, ending⟩ :=
        parsed
      refine ⟨inside, quoted, key, keyParsed, after, colon, value, ih.value _ _ success, ?_⟩
      rcases ending with closed | ⟨opened, rest, comma, members, later, rfl⟩
      · exact Or.inl closed
      · exact Or.inr ⟨opened, rest, comma, members, ih.members _ _ later, rfl⟩

/-- More fuel does not change a successful parse. -/
theorem parseValue_mono {text} (enough : fuel ≤ more)
    (parsed : parseValue fuel text = some result) :
    parseValue more text = some result := by
  induction enough with
  | refl => exact parsed
  | step _ ih => exact (stable _).value _ _ ih

/-- What more text behind a parse does not change.  The rest of a parse is a suffix; behind members
stands a closing brace. -/
private structure Extends (fuel : Nat) : Prop where
  value : ∀ text result, parseValue fuel text = some result → result.2 <:+ text ∧
    (result.2 ≠ [] ∨ text.head? = some '\x7b' → ∀ more,
      parseValue fuel (text ++ more) = some (result.1, result.2 ++ more))
  items : ∀ text result, parseItems fuel text = some result → result.2 <:+ text ∧
    ∀ more, parseItems fuel (text ++ more) = some (result.1, result.2 ++ more)
  members : ∀ text result, parseMembers fuel text = some result → '\x7d' :: result.2 <:+ text ∧
    ∀ more, parseMembers fuel (text ++ more) = some (result.1, result.2 ++ more)

theorem expect_suffix {text} (found : expect wanted (skipBlank text) = some rest) :
    wanted :: rest <:+ text := by
  rw [expect_eq_some] at found
  rw [← found]
  exact skipBlank_suffix text

theorem expect_suffix_rest {text} (found : expect wanted (skipBlank text) = some rest) :
    rest <:+ text :=
  (List.suffix_cons wanted rest).trans (expect_suffix found)

private theorem expect_skipBlank_append {text} (found : expect wanted (skipBlank text) = some rest)
    (more : List Char) : expect wanted (skipBlank (text ++ more)) = some (rest ++ more) := by
  rw [skipBlank_append (ne_nil_of_expect found)]
  exact expect_append found more

private theorem expect_skipBlank_append_eq_none {text}
    (missing : expect wanted (skipBlank text) = none)
    (found : expect other (skipBlank text) = some rest) (more : List Char) :
    expect wanted (skipBlank (text ++ more)) = none := by
  rw [skipBlank_append (ne_nil_of_expect found)]
  exact expect_append_eq_none missing (ne_nil_of_expect found) more

private theorem ne_nil_of_expect_skipBlank {text}
    (found : expect wanted (skipBlank text) = some rest) :
    text ≠ [] := by
  rintro rfl
  exact ne_nil_of_expect found rfl

private theorem parse_nil (fuel : Nat) :
    parseValue fuel [] = none ∧ parseItems fuel [] = none ∧
      parseMembers fuel [] = none := by
  have noValue : ∀ fuel, parseValue fuel [] = none := by
    intro fuel
    cases fuel with
    | zero | succ fuel => rw [parseValue]
  refine ⟨noValue fuel, ?_, ?_⟩
  · cases fuel with
    | zero => rw [parseItems]
    | succ fuel => simp [parseItems, noValue]
  · cases fuel with
    | zero => rw [parseMembers]
    | succ fuel => simp [parseMembers, expect]

private theorem extends_value {text} (shorter : Extends fuel)
    (parsed : parseValue (fuel + 1) text = some result) :
    result.2 <:+ text ∧ (result.2 ≠ [] ∨ text.head? = some '\x7b' → ∀ more,
      parseValue (fuel + 1) (text ++ more) = some (result.1, result.2 ++ more)) := by
  cases text with
  | nil => simp [parseValue] at parsed
  | cons char rest =>
    simp only [List.cons_append]
    have inText := List.suffix_cons char rest
    by_cases isObject : char = '\x7b'
    · subst isObject
      simp only [parseValue_object] at parsed ⊢
      rcases parsed with ⟨after, found, rfl⟩ | ⟨opened, members, success, rfl⟩
      · exact ⟨(expect_suffix_rest found).trans inText, fun _ more =>
          .inl ⟨_, expect_skipBlank_append found more, rfl⟩⟩
      · have nonempty : skipBlank rest ≠ [] := by
          intro empty
          rw [empty, (parse_nil fuel).2.2] at success
          cases success
        obtain ⟨suffix, onward⟩ := shorter.members _ _ success
        refine ⟨((List.suffix_cons _ members.2).trans suffix).trans
          ((skipBlank_suffix rest).trans inText), fun _ more => ?_⟩
        rw [skipBlank_append nonempty]
        exact .inr ⟨expect_append_eq_none opened nonempty more, _, onward more, rfl⟩
    · by_cases isArray : char = '['
      · subst isArray
        simp only [parseValue_array] at parsed ⊢
        rcases parsed with ⟨after, found, rfl⟩ | ⟨opened, items, success, rfl⟩
        · exact ⟨(expect_suffix_rest found).trans inText, fun _ more =>
            .inl ⟨_, expect_skipBlank_append found more, rfl⟩⟩
        · have nonempty : skipBlank rest ≠ [] := by
            intro empty
            rw [empty, (parse_nil fuel).2.1] at success
            cases success
          obtain ⟨suffix, onward⟩ := shorter.items _ _ success
          refine ⟨suffix.trans ((skipBlank_suffix rest).trans inText), fun _ more => ?_⟩
          rw [skipBlank_append nonempty]
          exact .inr ⟨expect_append_eq_none opened nonempty more, _, onward more, rfl⟩
      · simp only [parseValue_scalar isObject isArray] at parsed ⊢
        obtain ⟨suffix, onward⟩ := parseScalar_append parsed
        exact ⟨suffix, fun closed => onward (closed.resolve_right (by simpa using isObject))⟩

private theorem extends_items {text} (shorter : Extends fuel)
    (parsed : parseItems (fuel + 1) text = some result) :
    result.2 <:+ text ∧
      ∀ more, parseItems (fuel + 1) (text ++ more) = some (result.1, result.2 ++ more) := by
  simp only [parseItems_succ] at parsed ⊢
  obtain ⟨item, success, ending⟩ := parsed
  obtain ⟨inText, onward⟩ := shorter.value _ _ success
  rcases ending with ⟨rest, found, rfl⟩ | ⟨opened, rest, comma, items, later, rfl⟩
  · exact ⟨(expect_suffix_rest found).trans inText, fun more =>
      ⟨_, onward (.inl (ne_nil_of_expect_skipBlank found)) more,
        .inl ⟨_, expect_skipBlank_append found more, rfl⟩⟩⟩
  · obtain ⟨suffix, itemsOnward⟩ := shorter.items _ _ later
    refine ⟨(suffix.trans (skipBlank_suffix rest)).trans ((expect_suffix_rest comma).trans inText),
      fun more => ⟨_, onward (.inl (ne_nil_of_expect_skipBlank comma)) more, .inr ?_⟩⟩
    have nonempty : skipBlank rest ≠ [] := by
      intro empty
      rw [empty, (parse_nil fuel).2.1] at later
      cases later
    refine ⟨expect_skipBlank_append_eq_none opened comma more, _,
      expect_skipBlank_append comma more, (items.1, items.2 ++ more), ?_, rfl⟩
    rw [skipBlank_append nonempty]
    exact itemsOnward more

private theorem extends_members {text} (shorter : Extends fuel)
    (parsed : parseMembers (fuel + 1) text = some result) :
    '\x7d' :: result.2 <:+ text ∧
      ∀ more, parseMembers (fuel + 1) (text ++ more) = some (result.1, result.2 ++ more) := by
  simp only [parseMembers_succ] at parsed ⊢
  obtain ⟨inside, quoted, key, keyParsed, after, colon, value, success, ending⟩ :=
    parsed
  obtain ⟨keySuffix, keyOnward⟩ := parseString_append keyParsed
  obtain ⟨valueSuffix, valueOnward⟩ := shorter.value _ _ success
  have inText : value.2 <:+ text := by
    rw [expect_eq_some.mp quoted]
    calc value.2 <:+ skipBlank after := valueSuffix
      _ <:+ after := skipBlank_suffix after
      _ <:+ key.2 := expect_suffix_rest colon
      _ <:+ inside := keySuffix
      _ <:+ '"' :: inside := List.suffix_cons '"' inside
  have afterNonempty : skipBlank after ≠ [] := by
    intro empty
    rw [empty, (parse_nil fuel).1] at success
    cases success
  have front (stopped : value.2 ≠ []) (more : List Char) :
      parseValue fuel (skipBlank (after ++ more)) = some (value.1, value.2 ++ more) := by
    rw [skipBlank_append afterNonempty]
    exact valueOnward (.inl stopped) more
  rcases ending with ⟨rest, found, rfl⟩ | ⟨opened, rest, comma, members, later, rfl⟩
  · exact ⟨(expect_suffix found).trans inText, fun more =>
      ⟨_, expect_append quoted more, _, keyOnward more, _, expect_skipBlank_append colon more, _,
        front (ne_nil_of_expect_skipBlank found) more,
        .inl ⟨_, expect_skipBlank_append found more, rfl⟩⟩⟩
  · obtain ⟨suffix, onward⟩ := shorter.members _ _ later
    refine ⟨(suffix.trans (skipBlank_suffix rest)).trans ((expect_suffix_rest comma).trans inText),
      fun more => ⟨_, expect_append quoted more, _, keyOnward more, _,
        expect_skipBlank_append colon more, _, front (ne_nil_of_expect_skipBlank comma) more, ?_⟩⟩
    have nonempty : skipBlank rest ≠ [] := by
      intro empty
      rw [empty, (parse_nil fuel).2.2] at later
      cases later
    refine .inr ⟨expect_skipBlank_append_eq_none opened comma more, _,
      expect_skipBlank_append comma more, (members.1, members.2 ++ more), ?_, rfl⟩
    rw [skipBlank_append nonempty]
    exact onward more

private theorem extendsAll (fuel : Nat) : Extends fuel := by
  induction fuel with
  | zero =>
    constructor <;> intro text result parsed <;>
      simp [parseValue, parseItems, parseMembers] at parsed
  | succ fuel ih =>
    exact ⟨fun _ _ => extends_value ih, fun _ _ => extends_items ih, fun _ _ => extends_members ih⟩

/-- A parsed object is not disturbed by the text behind it. -/
theorem parseValue_object_append {text} (parsed : parseValue fuel text = some result)
    (isObject : text.head? = some '\x7b') (more : List Char) :
    parseValue fuel (text ++ more) = some (result.1, result.2 ++ more) :=
  ((extendsAll fuel).value text result parsed).2 (.inr isObject) more

/-- A parsed object ends with its closing brace. -/
theorem parseValue_object_closed (parsed : parseValue fuel ('\x7b' :: rest) = some result) :
    '\x7d' :: result.2 <:+ rest := by
  cases fuel with
  | zero => simp [parseValue] at parsed
  | succ fuel =>
    rw [parseValue_object] at parsed
    rcases parsed with ⟨after, found, rfl⟩ | ⟨_, members, success, rfl⟩
    · exact expect_suffix found
    · exact ((extendsAll fuel).members _ _ success).1.trans (skipBlank_suffix rest)

end OpenAgent.Library
