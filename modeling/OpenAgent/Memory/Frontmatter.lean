import OpenAgent.Library.Json
import OpenAgent.Library.Text

/-!
# Frontmatter of memory files

`parseMemoryFile` and `renderMemoryFile`.  A file opens with a block between two
lines of dashes; each line of the block is a key and a value around the first
colon, and later lines overwrite earlier ones.
-/

namespace OpenAgent.Memory

open Library

/-- The fields of the frontmatter. -/
structure Frontmatter where
  description : Text
  readOnly : Option Text
  kind : Option Text
  aliases : Option (List Text)

structure ParsedMemoryFile where
  frontmatter : Frontmatter
  body : Text

/-- The failures of `parseMemoryFile` and `renderMemoryFile`.  The three failures
of `parseAliases` are one. -/
inductive FrontmatterError
  | missingFrontmatter
  | missingDescription
  | emptyDescription
  | badAliases (rawLine : Text)
  deriving DecidableEq

def dashes : Text := text "---"

/-- What follows a match of `\r?\n`. -/
def afterBreak : Text → Option Text
  | [] => none
  | [char] => if char = newline then some [] else none
  | char :: next :: rest =>
    if char = newline then some (next :: rest)
    else if char = carriageReturn ∧ next = newline then some rest
    else none

section

variable (value : Text)

def afterDashes : Option Text :=
  if dashes.isPrefixOf value then some (value.drop dashes.length) else none

/-- What follows a match of `\r?\n?`. -/
def skipBreak : Text :=
  let rest := if value.head? = some carriageReturn then value.tail else value
  if rest.head? = some newline then rest.tail else rest

/-- What follows a match of `\r?\n---\r?\n?`. -/
def afterClosing : Option Text :=
  ((afterBreak value).bind afterDashes).map skipBreak

/-- The shortest match in front of the closing line, and the body. -/
def splitAtClosing (value : Text) : Option (Text × Text) :=
  match afterClosing value with
  | some body => some ([], body)
  | none =>
    match value with
    | [] => none
    | char :: rest => (splitAtClosing rest).map fun found => (char :: found.1, found.2)

/-- `content.match(FRONTMATTER_RE)`. -/
def matchFrontmatter (content : Text) : Option (Text × Text) :=
  ((afterDashes content).bind afterBreak).bind splitAtClosing

/-- The white space of JSON. -/
def skipJsonBlank : Text :=
  value.dropWhile fun char => char = 0x20 ∨ char = 0x9 ∨ char = 0xA ∨ char = 0xD

end

def hexDigitValue (char : CodeUnit) : Option Nat :=
  if unit '0' ≤ char ∧ char ≤ unit '9' then some (char.toNat - 48)
  else if unit 'a' ≤ char ∧ char ≤ unit 'f' then some (char.toNat - 87)
  else if unit 'A' ≤ char ∧ char ≤ unit 'F' then some (char.toNat - 55)
  else none

/-- The code unit of a one-letter escape. -/
def simpleEscapeUnit (char : CodeUnit) : Option CodeUnit :=
  if char = unit '"' ∨ char = unit '\\' ∨ char = unit '/' then some char
  else if char = unit 'b' then some 0x8
  else if char = unit 'f' then some 0xC
  else if char = unit 'n' then some 0xA
  else if char = unit 'r' then some 0xD
  else if char = unit 't' then some 0x9
  else none

/-- A string literal behind its opening quote, and what follows it. -/
def jsonString : Text → Option (Text × Text)
  | [] => none
  | char :: rest =>
    if char = unit '"' then some ([], rest)
    else if char = unit '\\' then
      match rest with
      | [] => none
      | escape :: more =>
        if escape = unit 'u' then
          match more with
          | first :: second :: third :: fourth :: tail =>
            match hexDigitValue first, hexDigitValue second, hexDigitValue third,
              hexDigitValue fourth with
            | some a, some b, some c, some d =>
              (jsonString tail).map fun found =>
                (UInt16.ofNat (((a * 16 + b) * 16 + c) * 16 + d) :: found.1, found.2)
            | _, _, _, _ => none
          | _ => none
        else
          match simpleEscapeUnit escape with
          | some decoded => (jsonString more).map fun found => (decoded :: found.1, found.2)
          | none => none
    else if char < 0x20 then none
    else (jsonString rest).map fun found => (char :: found.1, found.2)

/-- The rest of an array of strings, behind its bracket or a comma; the fuel
bounds the number of items. -/
def jsonStrings : Nat → Text → Option (List Text)
  | 0, _ => none
  | fuel + 1, value =>
    match skipJsonBlank value with
    | [] => none
    | char :: rest =>
      if char = unit '"' then
        match jsonString rest with
        | none => none
        | some (item, tail) =>
          match skipJsonBlank tail with
          | [] => none
          | separator :: more =>
            if separator = unit ',' then (jsonStrings fuel more).map (item :: ·)
            else if separator = unit ']' ∧ skipJsonBlank more = [] then some [item]
            else none
      else none

/-- `parseAliases`: a JSON array of strings that are not blank. -/
def parseAliases (value rawLine : Text) : Except FrontmatterError (List Text) :=
  let items :=
    match trim value with
    | [] => none
    | char :: rest =>
      if char = unit '[' then
        if skipJsonBlank rest = [unit ']'] then some [] else jsonStrings rest.length rest
      else none
  match items with
  | none => .error (.badAliases rawLine)
  | some aliases =>
    if aliases.all fun item => !(trim item).isEmpty then .ok aliases
    else .error (.badAliases rawLine)

/-- The values read so far. -/
structure FrontmatterFields where
  description : Option Text
  readOnly : Option Text
  kind : Option Text
  aliases : Option (List Text)

/-- The key and the value of a line of the block. -/
def lineEntry (line : Text) : Option (Text × Text) :=
  match indexOf line [unit ':'] 0 with
  | none | some 0 => none
  | some (index + 1) => some (trim (line.take (index + 1)), trim (line.drop (index + 2)))

/-- One line of the block. -/
def readFrontmatterLine (fields : FrontmatterFields)
    (line : Text) : Except FrontmatterError FrontmatterFields :=
  match lineEntry line with
  | none => .ok fields
  | some (key, value) =>
    if key = text "description" then .ok { fields with description := some value }
    else if key = text "read_only" then .ok { fields with readOnly := some value }
    else if key = text "kind" then .ok { fields with kind := some value }
    else if key = text "aliases" then
      (parseAliases value line).map fun aliases => { fields with aliases := some aliases }
    else .ok fields

def parseMemoryFile (content : Text) : Except FrontmatterError ParsedMemoryFile :=
  match matchFrontmatter content with
  | none => .error .missingFrontmatter
  | some (block, body) =>
    match (splitBreaks block).foldlM readFrontmatterLine ⟨none, none, none, none⟩ with
    | .error failure => .error failure
    | .ok fields =>
      match fields.description with
      | none => .error .missingDescription
      | some description =>
        if (trim description).isEmpty then .error .missingDescription
        else
          .ok
            { frontmatter :=
                { description
                  readOnly := fields.readOnly
                  kind := fields.kind
                  aliases := fields.aliases }
              body }

/-- `sanitizeFrontmatterValue`. -/
def sanitizeFrontmatterValue (value : Text) : Text :=
  trim ([unit ' '].intercalate (splitBreaks value))

/-- `JSON.stringify(aliases)`. -/
def renderAliases (aliases : List Text) : Text :=
  (stringify (.array (aliases.map .string))).flatMap unitsOfChar

def renderMemoryFile (frontmatter : Frontmatter) (body : Text) : Except FrontmatterError Text :=
  let description := trim frontmatter.description
  if description.isEmpty then .error .emptyDescription
  else
    let lines :=
      [dashes, text "description: " ++ sanitizeFrontmatterValue description] ++
        (frontmatter.readOnly.map fun value => text "read_only: " ++ value).toList ++
        (frontmatter.kind.map fun value =>
          text "kind: " ++ sanitizeFrontmatterValue value).toList ++
        (frontmatter.aliases.map fun value => text "aliases: " ++ renderAliases value).toList ++
        [dashes]
    .ok (joinLines lines ++ newline :: body)

end OpenAgent.Memory
