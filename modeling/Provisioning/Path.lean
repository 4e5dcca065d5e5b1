import Provisioning.Text.Search

/-!
# Paths of files

A path is a text with `/` between its parts.  Empty parts and parts `.` do not count, except a
first `.` of a relative path.
-/

namespace Provisioning

namespace Path

/-- A part that does not count. -/
def isIdle (part : List Char) : Bool :=
  part == [] || part == ['.']

/-- Parts with `/` between them. -/
def joinParts : List (List Char) → List Char
  | [] => []
  | [p] => p
  | p :: ps => p ++ '/' :: joinParts ps

/-- The parts up to the last that counts, that one left out; none if no part counts. -/
def initParts? (parts : List (List Char)) : Option (List (List Char)) :=
  match parts.reverse.dropWhile isIdle with
  | [] => none
  | _ :: above => some (above.dropWhile isIdle).reverse

/-- The path of the directory that a path lies in; none for the root and the empty path. -/
def parent? (path : String) : Option String :=
  match path.toList with
  | '/' :: body =>
    (initParts? (Text.splitOn '/' body)).map fun ps => String.ofList ('/' :: joinParts ps)
  | ['.'] => some ""
  | '.' :: '/' :: body =>
    match initParts? (Text.splitOn '/' body) with
    | none => some ""
    | some [] => some "."
    | some ps => some (String.ofList ('.' :: '/' :: joinParts ps))
  | cs => (initParts? (Text.splitOn '/' cs)).map fun ps => String.ofList (joinParts ps)

/-- Whether a path starts at the root. -/
def isAbsolute (path : String) : Bool :=
  path.toList.head? == some '/'

/-- The path `below` seen from the directory `base`: an absolute one stands for itself. -/
def join (base below : String) : String :=
  if isAbsolute below then below
  else if base.toList.getLast? == some '/' || base == "" then base ++ below
  else base ++ "/" ++ below

end Path

end Provisioning
