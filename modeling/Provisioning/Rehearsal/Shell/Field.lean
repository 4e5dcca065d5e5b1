import Provisioning.Rehearsal.Files
import Provisioning.Rehearsal.Shell.Token
import Provisioning.Text.Decimal

/-!
# Fields

Before a command runs its words become fields: alternatives in braces are written out, what
variables and other scripts put in is split at blanks, and a field with the signs of a pattern
stands for the paths that fit it.
-/

namespace Provisioning

namespace Rehearsal

namespace Shell

/-! ### Braces -/

/-- The alternatives of a text up to the brace that closes it, and the text after it. -/
def alternatives : (depth : Nat) → List Char → Option (List (List Char) × List Char)
  | _, [] => none
  | 0, '\x7d' :: cs => some ([[]], cs)
  | 0, ',' :: cs => (alternatives 0 cs).map fun (as, rest) => ([] :: as, rest)
  | depth, c :: cs =>
    let inner := if c == '\x7b' then depth + 1 else if c == '\x7d' then depth - 1 else depth
    (alternatives inner cs).map fun
      | (a :: as, rest) => ((c :: a) :: as, rest)
      | ([], rest) => ([[c]], rest)

/-- The whole numbers from one to another, up or down. -/
def range (a b : Int) : List Int :=
  let n := (b - a).natAbs + 1
  (List.range n).map fun (i : Nat) => if a ≤ b then a + i else a - i

/-- The texts that the inside of braces stands for, if it is a range. -/
def rangeTexts? (inside : List Char) : Option (List (List Char)) :=
  match Text.cut ['.', '.'] inside with
  | none => none
  | some ([a], [b]) =>
    if a.isAlpha && b.isAlpha then
      some ((range a.toNat b.toNat).map fun n => [Char.ofNat n.toNat])
    else do
      let ns := range (← Decimal.readInt [a]) (← Decimal.readInt [b])
      return ns.map fun n => (toString n).toList
  | some (a, b) => do
    return (range (← Decimal.readInt a) (← Decimal.readInt b)).map fun n => (toString n).toList

/-- The texts that a text with braces stands for. -/
def writtenOut : (fuel : Nat) → List Char → List (List Char)
  | 0, cs => [cs]
  | _, [] => [[]]
  | fuel + 1, c :: cs =>
    let plainly : List (List Char) := (writtenOut fuel cs).map (c :: ·)
    if c != '\x7b' then plainly
    else
      match alternatives 0 cs with
      | none => plainly
      | some (as, rest) =>
        let texts? := match as with
          | [a] => rangeTexts? a
          | _ => some (as.flatMap (writtenOut fuel))
        match texts? with
        | none => plainly
        | some texts => texts.flatMap fun t => (writtenOut fuel rest).map (t ++ ·)

/-- The words that a word with braces stands for. -/
def bracesOut : Word → List Word
  | [] => [[]]
  | .text cs false :: rest =>
    (writtenOut (cs.length + 1) cs).flatMap fun cs =>
      (bracesOut rest).map fun w => if cs.isEmpty then w else .text cs false :: w
  | p :: rest => (bracesOut rest).map (p :: ·)

/-! ### Splitting -/

/-- What a word consists of once its parts are known. -/
inductive Atom where
  /-- A character; one that is not quoted may be the sign of a pattern, and one that was put in
  may split. -/
  | char (c : Char) (quoted putIn : Bool)
  /-- Something quoted stands here, even if it is empty. -/
  | quote
  /-- Here a field ends and another begins. -/
  | split

/-- A field: its characters, each with whether it is quoted. -/
abbrev Field := List (Char × Bool)

/-- The text of a field. -/
def Field.text (f : Field) : String := String.ofList (f.map Prod.fst)

/-- The fields that atoms form.  `current?` is the field under way, its last character first. -/
def fieldsFrom : (current? : Option Field) → List Atom → List Field
  | current?, [] => (current?.map List.reverse).toList
  | current?, .quote :: as => fieldsFrom (some (current?.getD [])) as
  | current?, .split :: as => (current?.map List.reverse).toList ++ fieldsFrom (some []) as
  | current?, .char c quoted putIn :: as =>
    if putIn && !quoted && (c == ' ' || c == '\t' || c == '\n') then
      (current?.map List.reverse).toList ++ fieldsFrom none as
    else fieldsFrom (some ((c, quoted) :: current?.getD [])) as

/-- The fields that atoms form. -/
def fieldsOf (as : List Atom) : List Field := fieldsFrom none as

/-- The atoms as one field that is never split. -/
def wholeOf (as : List Atom) : Field :=
  as.filterMap fun
    | .char c quoted _ => some (c, quoted)
    | .quote => none
    | .split => some (' ', true)

/-! ### Patterns -/

/-- Whether a character is in a set of a pattern. -/
def inSet (c : Char) : Field → Bool
  | (a, _) :: ('-', false) :: (b, _) :: rest => (a ≤ c && c ≤ b) || inSet c rest
  | (a, _) :: rest => a == c || inSet c rest
  | [] => false

/-- A set up to the bracket that closes it, and what comes after it.  A bracket right at the
beginning belongs to it. -/
def setOf : (first : Bool) → Field → Option (Field × Field)
  | _, [] => none
  | first, (c, quoted) :: rest =>
    if c == ']' && !first then some ([], rest)
    else (setOf false rest).map fun (set, rest) => ((c, quoted) :: set, rest)

/-- Whether a text fits a pattern. -/
def fits : (fuel : Nat) → Field → List Char → Bool
  | 0, _, _ => false
  | _, [], cs => cs.isEmpty
  | fuel + 1, ('*', false) :: p, cs =>
    fits fuel p cs || match cs with
      | [] => false
      | _ :: rest => fits fuel (('*', false) :: p) rest
  | fuel + 1, ('?', false) :: p, _ :: cs => fits fuel p cs
  | fuel + 1, (a, quoted) :: p, c :: cs =>
    let set? := if a == '[' && !quoted then setOf true p else none
    match set? with
    | some (('!', false) :: set, rest) | some (('^', false) :: set, rest) =>
      !inSet c set && fits fuel rest cs
    | some (set, rest) => inSet c set && fits fuel rest cs
    | none => a == c && fits fuel p cs
  | _, _ :: _, [] => false

/-- Whether a text fits a pattern. -/
def Field.fitsText (p : Field) (text : List Char) : Bool :=
  fits (2 * (p.length + text.length) + 2) p text

/-- Whether a field is a pattern. -/
def Field.isPattern (f : Field) : Bool :=
  f.any fun (c, quoted) => !quoted && (c == '*' || c == '?' || c == '[')

/-- The paths below a place that fit patterns for one name after another, sorted. -/
def pathsThatFit (fs : Files) (at_ : Place) (lead : String) : List Field → List String
  | [] => []
  | p :: ps =>
    let hidden := p.head? == some ('.', false) || p.head? == some ('.', true)
    let places :=
      if p.isPattern then
        ((fs.children at_).filter fun place =>
          match place.getLast? with
          | some name => (hidden || name.toList.head? != some '.') && p.fitsText name.toList
          | none => false).mergeSort fun a b => a.getLast?.getD "" ≤ b.getLast?.getD ""
      else if (fs.get? (at_ ++ [p.text])).isSome then [at_ ++ [p.text]]
      else []
    places.flatMap fun place =>
      let path := lead ++ place.getLast?.getD ""
      if ps.isEmpty then [path] else pathsThatFit fs place (path ++ "/") ps

/-- The texts that a field stands for: the paths that fit it if it is a pattern that some fit,
else its own. -/
def Field.texts (fs : Files) (cwd : Place) (f : Field) : List String :=
  if !f.isPattern then [f.text]
  else
    let parts := f.splitOnP fun (c, _) => c == '/'
    let found :=
      if (f.head?.map Prod.fst) == some '/' then pathsThatFit fs [] "/" (parts.drop 1)
      else pathsThatFit fs cwd "" parts
    if found.isEmpty then [f.text] else found

end Shell

end Rehearsal

end Provisioning
