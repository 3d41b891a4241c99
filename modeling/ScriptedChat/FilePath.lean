/-!
# Paths of files

A path is a text in which slashes part the names of directories and, at the end, of a file. Slashes that
stand together count as one, and so do empty steps.

* `FilePath.splitAt`: the parts of a text between separators.
* `FilePath.names`: the names in a path.
* `FilePath.parent?`: the directory that holds what a path names.
* `FilePath.ending?`: what follows the last point of the last name.
* `FilePath.withEnding?`: a path with an ending after its last name.
-/

namespace ScriptedChat.FilePath

/-- The parts of a text between separators. -/
def splitAt (separator : Char) : List Char → List (List Char)
  | [] => [[]]
  | c :: text =>
    match splitAt separator text with
    | [] => [[c]]
    | part :: parts => if c = separator then [] :: part :: parts else (c :: part) :: parts

/-- The names in a path. A point alone is no name, since it leads nowhere. -/
def names (path : String) : List String :=
  ((splitAt '/' path.toList).filter fun name => ! name.isEmpty && name ≠ ['.']).map String.ofList

/-- A path of names. -/
def ofNames (isAbsolute : Bool) (names : List String) : String :=
  (if isAbsolute then "/" else "") ++ "/".intercalate names

/-- The directory that holds what a path names. A slash at the end of a path does not count. -/
def parent? (path : String) : Option String :=
  let names := names path
  if names.isEmpty then none else some (ofNames (path.toList.head? = some '/') names.dropLast)

/-- The ending of a file name: what follows its last point, unless the name begins there. -/
def ending? (path : String) : Option String :=
  let name := path.toList.reverse.takeWhile (· ≠ '/')
  match name.dropWhile (· ≠ '.') with
  | '.' :: _ :: _ => some (String.ofList (name.takeWhile (· ≠ '.')).reverse)
  | _ => none

/-- A path with an ending after its last name; two points alone are no name to which one could be added. -/
def withEnding? (path ending : String) : Option String :=
  let names := names path
  match names.getLast? with
  | none => none
  | some name =>
    if name = ".." then none
    else some (ofNames (path.toList.head? = some '/') (names.dropLast ++ [name ++ "." ++ ending]))

end ScriptedChat.FilePath
