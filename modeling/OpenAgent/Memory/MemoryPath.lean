import OpenAgent.Library.Text

/-!
# Paths of memory files

`validateMemoryPath` for the paths of a tool, with the path functions of a POSIX
system.  A valid path names a markdown file by its segments under the memory
root.  Symbolic links matter in one place, whether the nearest existing ancestor
of a path lies under the root; what they lead to is part of the repository.
-/

namespace OpenAgent.Memory

open Library

/-- Where paths are resolved. -/
structure PathContext where
  /-- The segments of the memory root. -/
  root : List Text
  /-- The segments of the working directory. -/
  workingDirectory : List Text
  /-- `assertRealParentConfined` accepts the path. -/
  confined : Text → Bool

/-- The failures of `validateMemoryPath`, with the name of the field. -/
inductive MemoryPathError
  | empty (fieldName : Text)
  | nullBytes (fieldName : Text)
  | homeRelative (fieldName : Text)
  | outsideRoot
  | notRelative (fieldName : Text)
  | emptyLabel (fieldName : Text)
  | notMarkdown (fieldName : Text)
  | traversal (fieldName : Text)
  | gitPath (fieldName : Text)
  | escapes
  deriving DecidableEq

def slash : CodeUnit := unit '/'
def backslash : CodeUnit := unit '\\'

/-- `value.split("/")`. -/
def splitSlashes (value : Text) : List Text :=
  value.splitOn slash

def joinSlashes (segments : List Text) : Text :=
  [slash].intercalate segments

/-- Resolving segments against a directory; `.` and empty segments are dropped,
and `..` drops the segment before. -/
def resolveSegments (directory : List Text) : List Text → List Text
  | [] => directory
  | segment :: rest =>
    if segment.isEmpty || segment = text "." then resolveSegments directory rest
    else if segment = text ".." then resolveSegments directory.dropLast rest
    else resolveSegments (directory ++ [segment]) rest

/-- `resolve(path)`. -/
def resolvePathSegments (workingDirectory : List Text) (path : Text) : List Text :=
  if path.head? = some slash then resolveSegments [] (splitSlashes path)
  else resolveSegments workingDirectory (splitSlashes path)

/-- `relative(from, to)`. -/
def relativePath : List Text → List Text → Text
  | [], segments => joinSlashes segments
  | root, [] => joinSlashes (root.map fun _ => text "..")
  | directory :: root, segment :: segments =>
    if directory = segment then relativePath root segments
    else joinSlashes ((directory :: root).map (fun _ => text "..") ++ segment :: segments)

/-- `isConfinedRelative`. -/
def isConfinedRelative (path : Text) : Bool :=
  !(text "..").isPrefixOf path && path.head? ≠ some slash

/-- The test `/^[a-zA-Z]:[\\/]/`. -/
def isWindowsAbsolute : Text → Bool
  | drive :: colon :: separator :: _ =>
    ((unit 'a' ≤ drive && drive ≤ unit 'z') || (unit 'A' ≤ drive && drive ≤ unit 'Z')) &&
      colon = unit ':' && (separator = slash || separator = backslash)
  | _ => false

/-- `extname` of one segment: from its last dot on, unless that is its start. -/
def extensionOf (segment : Text) : Text :=
  let reversed := segment.reverse
  let extension := reversed.takeWhile (· ≠ unit '.')
  if segment = text ".." || extension.length + 1 ≥ segment.length then []
  else unit '.' :: extension.reverse

/-- `extname(path)`; separators at the end do not count. -/
def extname (path : Text) : Text :=
  match ((splitSlashes path).filter fun segment => !segment.isEmpty).getLast? with
  | none => []
  | some segment => extensionOf segment

/-- ASCII letters in lower case; no other letter has one of them. -/
def lowerAscii (char : CodeUnit) : CodeUnit :=
  if unit 'A' ≤ char && char ≤ unit 'Z' then char + 32 else char

/-- The check of one segment. -/
def checkSegment (fieldName segment : Text) : Except MemoryPathError Unit :=
  if segment = text "." || segment = text ".." then .error (.traversal fieldName)
  else if 0 ∈ segment then .error (.nullBytes fieldName)
  else if segment.map lowerAscii = text ".git" then .error (.gitPath fieldName)
  else .ok ()

/-- `path.replace(suffix, "")` at the end of a path. -/
def stripEnd (ending path : Text) : Text :=
  if ending.isSuffixOf path then path.take (path.length - ending.length) else path

/-- `path.replace(prefix, "")` at the start of a path. -/
def stripStart (beginning path : Text) : Text :=
  if beginning.isPrefixOf path then path.drop beginning.length else path

/-- `normalizeRelativePath` for the path of a tool. -/
def normalizeRelativePath (inputPath fieldName : Text) : Except MemoryPathError Text :=
  let normalized := (trim inputPath).map fun char => if char = backslash then slash else char
  if normalized.head? = some slash then .error (.notRelative fieldName)
  else
    let path := stripStart (text "memory/") normalized
    if path.isEmpty then .error (.emptyLabel fieldName)
    else if !(extname path).isEmpty && extname path ≠ text ".md" then
      .error (.notMarkdown fieldName)
    else
      let segments :=
        (splitSlashes (stripEnd (text ".md") path)).filter fun segment => !segment.isEmpty
      if segments.isEmpty then .error (.emptyLabel fieldName)
      else
        match segments.forM (checkSegment fieldName) with
        | .error failure => .error failure
        | .ok () => .ok (joinSlashes segments ++ text ".md")

variable (context : PathContext)

/-- The part of `validateMemoryPath` that leads to a relative input. -/
def relativeInput (raw : Text) : Except MemoryPathError Text :=
  if raw.head? = some slash || isWindowsAbsolute raw then
    let relToMemory :=
      relativePath context.root (resolvePathSegments context.workingDirectory raw)
    if !isConfinedRelative relToMemory || relToMemory.isEmpty then .error .outsideRoot
    else .ok relToMemory
  else .ok raw

/-- `validateMemoryPath`, as a path relative to the root. -/
def validateMemoryPath (inputPath fieldName : Text) : Except MemoryPathError Text :=
  let raw := trim inputPath
  if raw.isEmpty then .error (.empty fieldName)
  else if 0 ∈ raw then .error (.nullBytes fieldName)
  else if (text "~/").isPrefixOf raw || (text "$HOME/").isPrefixOf raw then
    .error (.homeRelative fieldName)
  else
    match relativeInput context raw with
    | .error failure => .error failure
    | .ok relative =>
      match normalizeRelativePath relative fieldName with
      | .error failure => .error failure
      | .ok normalized =>
        if isConfinedRelative normalized && context.confined normalized then .ok normalized
        else .error .escapes

end OpenAgent.Memory
