import OpenAgent.Library.Collections
import Mathlib.Data.UInt
import Mathlib.Algebra.Order.Group.Nat

/-!
# JSON texts

Values, their serialization and a parser.  String contents are UTF-16 code
units, so that lone surrogates can be written down; they are serialized as
escapes, hence the text itself is a list of Unicode characters.  A number is
kept as its literal, and an object as the list of its members in text order.
-/

namespace OpenAgent.Library

/-- The UTF-16 code units of one character, as machine units. -/
def unitsOfChar (char : Char) : List UInt16 :=
  (codeUnitsOfChar char).map UInt16.ofNat

/-- The UTF-16 code units of a text. -/
def unitsOf (text : String) : List UInt16 :=
  text.toList.flatMap unitsOfChar

/-- The states of the number scanner. -/
inductive NumberState
  | start
  | minus
  | zero
  | integer
  | point
  | fraction
  | exponent
  | exponentSign
  | exponentDigits

/-- One character of a number literal. -/
def NumberState.next (state : NumberState) (char : Char) : Option NumberState :=
  match state with
  | .start =>
    if char = '-' then some .minus
    else if char = '0' then some .zero
    else if char.isDigit then some .integer
    else none
  | .minus =>
    if char = '0' then some .zero
    else if char.isDigit then some .integer
    else none
  | .zero =>
    if char = '.' then some .point
    else if char = 'e' ∨ char = 'E' then some .exponent
    else none
  | .integer =>
    if char.isDigit then some .integer
    else if char = '.' then some .point
    else if char = 'e' ∨ char = 'E' then some .exponent
    else none
  | .point => if char.isDigit then some .fraction else none
  | .fraction =>
    if char.isDigit then some .fraction
    else if char = 'e' ∨ char = 'E' then some .exponent
    else none
  | .exponent =>
    if char = '+' ∨ char = '-' then some .exponentSign
    else if char.isDigit then some .exponentDigits
    else none
  | .exponentSign => if char.isDigit then some .exponentDigits else none
  | .exponentDigits => if char.isDigit then some .exponentDigits else none

/-- The states in which a literal may end. -/
def NumberState.accepting : NumberState → Bool
  | .zero | .integer | .fraction | .exponentDigits => true
  | .start | .minus | .point | .exponent | .exponentSign => false

/-- Scan the longest literal. -/
def scanNumber : NumberState → List Char → Option (List Char × List Char)
  | state, [] => if state.accepting then some ([], []) else none
  | state, char :: rest =>
    match state.next char with
    | some state => (scanNumber state rest).map fun scanned =>
      (char :: scanned.1, scanned.2)
    | none => if state.accepting then some ([], char :: rest) else none

/-- A literal that the number grammar derives. -/
structure NumberLiteral where
  text : List Char
  wellFormed : scanNumber .start text = some (text, [])

/-- A JSON value. -/
inductive Json
  | null
  | bool (value : Bool)
  | number (literal : NumberLiteral)
  | string (units : List UInt16)
  | array (items : List Json)
  | object (members : List (List UInt16 × Json))

/-- A lowercase hexadecimal digit. -/
def hexDigit (value : Nat) : Char :=
  if value < 10 then Char.ofNat (48 + value) else Char.ofNat (87 + value)

section

variable (unit : UInt16)

/-- The escape `\uXXXX`. -/
def unicodeEscape : List Char :=
  ['\\', 'u', hexDigit (unit.toNat / 4096), hexDigit (unit.toNat / 256 % 16),
    hexDigit (unit.toNat / 16 % 16), hexDigit (unit.toNat % 16)]

def isHighSurrogate : Bool :=
  0xD800 ≤ unit.toNat && unit.toNat ≤ 0xDBFF

def isLowSurrogate : Bool :=
  0xDC00 ≤ unit.toNat && unit.toNat ≤ 0xDFFF

/-- The character of a surrogate pair. -/
def pairChar (high low : UInt16) : Char :=
  Char.ofNat (0x10000 + (high.toNat - 0xD800) * 0x400 + (low.toNat - 0xDC00))

/-- One code unit that is not half of a pair. -/
def quoteUnit : List Char :=
  if unit = 8 then ['\\', 'b']
  else if unit = 9 then ['\\', 't']
  else if unit = 10 then ['\\', 'n']
  else if unit = 12 then ['\\', 'f']
  else if unit = 13 then ['\\', 'r']
  else if unit = 34 then ['\\', '"']
  else if unit = 92 then ['\\', '\\']
  else if unit.toNat < 0x20 ∨ isHighSurrogate unit ∨ isLowSurrogate unit then
    unicodeEscape unit
  else [Char.ofNat unit.toNat]

end

/-- The inside of a string literal. -/
def quoteUnits : List UInt16 → List Char
  | [] => []
  | [unit] => quoteUnit unit
  | first :: second :: rest =>
    if isHighSurrogate first && isLowSurrogate second then
      pairChar first second :: quoteUnits rest
    else quoteUnit first ++ quoteUnits (second :: rest)

/-- A string literal. -/
def quote (units : List UInt16) : List Char :=
  '"' :: quoteUnits units ++ ['"']

mutual

/-- `JSON.stringify` without indentation. -/
def stringify : Json → List Char
  | .null => ['n', 'u', 'l', 'l']
  | .bool true => ['t', 'r', 'u', 'e']
  | .bool false => ['f', 'a', 'l', 's', 'e']
  | .number literal => literal.text
  | .string units => quote units
  | .array [] => ['[', ']']
  | .array (item :: items) => '[' :: stringify item ++ stringifyItems items
  | .object [] => ['\x7b', '\x7d']
  | .object ((key, value) :: members) =>
    '\x7b' :: quote key ++ ':' :: stringify value ++ stringifyMembers members

/-- The items after the first one, with the closing bracket. -/
def stringifyItems : List Json → List Char
  | [] => [']']
  | item :: items => ',' :: stringify item ++ stringifyItems items

/-- The members after the first one, with the closing brace. -/
def stringifyMembers : List (List UInt16 × Json) → List Char
  | [] => ['\x7d']
  | (key, value) :: members =>
    ',' :: quote key ++ ':' :: stringify value ++ stringifyMembers members

end

/-- A new line, indented. -/
def lineBreak (indent : Nat) : List Char :=
  '\n' :: List.replicate indent ' '

mutual

/-- `JSON.stringify(value, null, 2)` at an indentation. -/
def stringifyIndented (indent : Nat) : Json → List Char
  | .array (item :: items) =>
    '[' :: lineBreak (indent + 2) ++ stringifyIndented (indent + 2) item ++
      indentedItems indent items
  | .object ((key, value) :: members) =>
    '\x7b' :: lineBreak (indent + 2) ++ quote key ++ ':' :: ' ' ::
      stringifyIndented (indent + 2) value ++ indentedMembers indent members
  | value => stringify value

def indentedItems (indent : Nat) : List Json → List Char
  | [] => lineBreak indent ++ [']']
  | item :: items =>
    ',' :: lineBreak (indent + 2) ++ stringifyIndented (indent + 2) item ++
      indentedItems indent items

def indentedMembers (indent : Nat) : List (List UInt16 × Json) → List Char
  | [] => lineBreak indent ++ ['\x7d']
  | (key, value) :: members =>
    ',' :: lineBreak (indent + 2) ++ quote key ++ ':' :: ' ' ::
      stringifyIndented (indent + 2) value ++ indentedMembers indent members

end

/-- Skip the four blank characters. -/
def skipBlank : List Char → List Char
  | [] => []
  | char :: rest =>
    if char = ' ' ∨ char = '\t' ∨ char = '\n' ∨ char = '\r' then skipBlank rest
    else char :: rest

/-- Consume one given character. -/
def expect (wanted : Char) : List Char → Option (List Char)
  | [] => none
  | char :: rest => if char = wanted then some rest else none

/-- Consume a given word. -/
def expectWord : List Char → List Char → Option (List Char)
  | [], text => some text
  | char :: word, text => (expect char text).bind (expectWord word)

/-- The value of a hexadecimal digit. -/
def hexValue (char : Char) : Option Nat :=
  if '0' ≤ char ∧ char ≤ '9' then some (char.toNat - 48)
  else if 'a' ≤ char ∧ char ≤ 'f' then some (char.toNat - 87)
  else if 'A' ≤ char ∧ char ≤ 'F' then some (char.toNat - 55)
  else none

/-- The code unit of a two-character escape. -/
def simpleEscape (char : Char) : Option UInt16 :=
  if char = 'b' then some 8
  else if char = 't' then some 9
  else if char = 'n' then some 10
  else if char = 'f' then some 12
  else if char = 'r' then some 13
  else if char = '"' then some 34
  else if char = '\\' then some 92
  else if char = '/' then some 47
  else none

/-- The code unit of four hexadecimal digits. -/
def hexUnit (first second third fourth : Char) : Option UInt16 := do
  let first ← hexValue first
  let second ← hexValue second
  let third ← hexValue third
  let fourth ← hexValue fourth
  some (UInt16.ofNat (first * 4096 + second * 256 + third * 16 + fourth))

/-- Put code units in front of a parsed string. -/
def prependUnits (units : List UInt16) (parsed : Option (List UInt16 × List Char)) :
    Option (List UInt16 × List Char) :=
  parsed.map fun result => (units ++ result.1, result.2)

/-- The rest of a string literal after its opening quote. -/
def parseString : List Char → Option (List UInt16 × List Char)
  | [] => none
  | char :: rest =>
    if char = '"' then some ([], rest)
    else if char = '\\' then
      match rest with
      | [] => none
      | escape :: rest =>
        if escape = 'u' then
          match rest with
          | first :: second :: third :: fourth :: rest =>
            match hexUnit first second third fourth with
            | some unit => prependUnits [unit] (parseString rest)
            | none => none
          | _ => none
        else
          match simpleEscape escape with
          | some unit => prependUnits [unit] (parseString rest)
          | none => none
    else if char.toNat < 0x20 then none
    else prependUnits (unitsOfChar char) (parseString rest)

/-- Parse a value that is neither an object nor an array. -/
def parseScalar (char : Char) (rest : List Char) : Option (Json × List Char) :=
  if char = '"' then
    (parseString rest).map fun parsed => (.string parsed.1, parsed.2)
  else if char = 'n' then
    (expectWord ['u', 'l', 'l'] rest).map fun rest => (.null, rest)
  else if char = 't' then
    (expectWord ['r', 'u', 'e'] rest).map fun rest => (.bool true, rest)
  else if char = 'f' then
    (expectWord ['a', 'l', 's', 'e'] rest).map fun rest => (.bool false, rest)
  else
    (scanNumber .start (char :: rest)).bind fun scanned =>
      if wellFormed : scanNumber .start scanned.1 = some (scanned.1, []) then
        some (.number ⟨scanned.1, wellFormed⟩, scanned.2)
      else none

mutual

/-- Parse one value; `fuel` bounds the nesting. -/
def parseValue : Nat → List Char → Option (Json × List Char)
  | 0, _ => none
  | _ + 1, [] => none
  | fuel + 1, char :: rest =>
    if char = '\x7b' then
      match expect '\x7d' (skipBlank rest) with
      | some rest => some (.object [], rest)
      | none => (parseMembers fuel (skipBlank rest)).map fun parsed =>
        (.object parsed.1, parsed.2)
    else if char = '[' then
      match expect ']' (skipBlank rest) with
      | some rest => some (.array [], rest)
      | none => (parseItems fuel (skipBlank rest)).map fun parsed =>
        (.array parsed.1, parsed.2)
    else parseScalar char rest

/-- The items of a nonempty array, with the closing bracket. -/
def parseItems : Nat → List Char → Option (List Json × List Char)
  | 0, _ => none
  | fuel + 1, text =>
    (parseValue fuel text).bind fun item =>
      match expect ']' (skipBlank item.2) with
      | some rest => some ([item.1], rest)
      | none =>
        (expect ',' (skipBlank item.2)).bind fun rest =>
          (parseItems fuel (skipBlank rest)).map fun items =>
            (item.1 :: items.1, items.2)

/-- The members of a nonempty object, with the closing brace. -/
def parseMembers : Nat → List Char → Option (List (List UInt16 × Json) × List Char)
  | 0, _ => none
  | fuel + 1, text =>
    (expect '"' text).bind fun inside =>
    (parseString inside).bind fun key =>
    (expect ':' (skipBlank key.2)).bind fun afterColon =>
    (parseValue fuel (skipBlank afterColon)).bind fun value =>
      match expect '\x7d' (skipBlank value.2) with
      | some rest => some ([(key.1, value.1)], rest)
      | none =>
        (expect ',' (skipBlank value.2)).bind fun rest =>
          (parseMembers fuel (skipBlank rest)).map fun members =>
            ((key.1, value.1) :: members.1, members.2)

end

/-- `JSON.parse`, with `none` for a syntax error. -/
def parseJson (text : List Char) : Option Json :=
  (parseValue (text.length + 1) (skipBlank text)).bind fun parsed =>
    if (skipBlank parsed.2).isEmpty then some parsed.1 else none

/-- Read a member of an object; the last one of a repeated key counts. -/
def Json.member (key : String) : Json → Option Json
  | .object members =>
    (members.reverse.find? fun member => member.1 == unitsOf key).map (·.2)
  | _ => none

end OpenAgent.Library
