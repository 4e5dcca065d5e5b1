import Provisioning.Rehearsal.Shell.Field

/-!
# Values of variables

A name between braces may be followed by what is to be done with its value: a part cut off, a
pattern replaced, letters changed.  What is put into a word keeps a note of whether it may split.
-/

namespace Provisioning

namespace Rehearsal

namespace Shell

/-- What stands between braces: the name, and what is to be done with its value. -/
def splitInner (inner : List Char) : List Char × List Char :=
  match inner with
  | c :: cs =>
    if beginsName c then (inner.takeWhile inName, inner.dropWhile inName)
    else if c.isDigit then (inner.takeWhile Char.isDigit, inner.dropWhile Char.isDigit)
    else ([c], cs)
  | [] => ([], [])

/-- A pattern as a field. -/
def patternOf (cs : List Char) : Field := cs.map fun c => (c, false)

/-- The text without what fits a pattern at its beginning, as little or as much as possible. -/
def withoutStart (long : Bool) (p : Field) (cs : List Char) : List Char :=
  let cuts := List.range (cs.length + 1)
  match (if long then cuts.reverse else cuts).find? fun i => p.fitsText (cs.take i) with
  | some i => cs.drop i
  | none => cs

/-- The text without what fits a pattern at its end, as little or as much as possible. -/
def withoutEnd (long : Bool) (p : Field) (cs : List Char) : List Char :=
  let cuts := List.range (cs.length + 1)
  match (if long then cuts else cuts.reverse).find? fun i => p.fitsText (cs.drop i) with
  | some i => cs.take i
  | none => cs

/-- The text with what fits a pattern replaced, once or everywhere. -/
def replacing (everywhere : Bool) (p : Field) (by_ : List Char) : (fuel : Nat) → List Char →
    List Char
  | 0, cs => cs
  | _, [] => []
  | fuel + 1, c :: cs =>
    let cuts := ((List.range ((c :: cs).length + 1)).drop 1).reverse
    match cuts.find? fun i => p.fitsText ((c :: cs).take i) with
    | some i =>
      by_ ++ if everywhere then replacing everywhere p by_ fuel ((c :: cs).drop i)
        else (c :: cs).drop i
    | none => c :: replacing everywhere p by_ fuel cs

/-- The value after what is to be done with it, if no other script has a part in that. -/
def edited (value : List Char) (edit : List Char) : List Char :=
  match edit with
  | '#' :: '#' :: p => withoutStart true (patternOf p) value
  | '#' :: p => withoutStart false (patternOf p) value
  | '%' :: '%' :: p => withoutEnd true (patternOf p) value
  | '%' :: p => withoutEnd false (patternOf p) value
  | '/' :: '/' :: rest =>
    let (p, by_) := (Text.cut ['/'] rest).getD (rest, [])
    replacing true (patternOf p) by_ (value.length + 1) value
  | '/' :: rest =>
    let (p, by_) := (Text.cut ['/'] rest).getD (rest, [])
    replacing false (patternOf p) by_ (value.length + 1) value
  | '^' :: '^' :: _ => value.map Char.toUpper
  | ',' :: ',' :: _ => value.map Char.toLower
  | '^' :: _ => (value.take 1).map Char.toUpper ++ value.drop 1
  | ',' :: _ => (value.take 1).map Char.toLower ++ value.drop 1
  | ':' :: rest =>
    let number (cs : List Char) : Int := (Decimal.readInt (cs.filter (· != ' '))).getD 0
    let (start, length?) := match Text.cut [':'] rest with
      | some (a, b) => (number a, some (number b))
      | none => (number rest, none)
    let start := if start < 0 then (value.length + start).toNat else start.toNat
    let tail := value.drop start
    match length? with
    | none => tail
    | some n => if n < 0 then tail.take (tail.length + n).toNat else tail.take n.toNat
  | _ => value

/-- A text as what is put into a word. -/
def putInto (quoted : Bool) (text : List Char) : List Atom :=
  text.map fun c => .char c quoted true

/-- Arguments as what is put into a word. -/
def putArgs (quoted joined : Bool) : List String → List Atom
  | [] => []
  | [a] => putInto quoted a.toList
  | a :: args =>
    putInto quoted a.toList
      ++ (if quoted && !joined then [.split] else putInto quoted [' '])
      ++ putArgs quoted joined args

/-- A word with its tilde written out. -/
def homeOut (home : String) : Word → Word
  | .text ('~' :: rest) false :: w =>
    if (rest.isEmpty && w.isEmpty) || rest.head? == some '/' then
      .text home.toList true :: .text rest false :: w
    else .text ('~' :: rest) false :: w
  | w => w

/-- The words between which arguments are placed without any. -/
def isAllArgs : Word → Bool
  | [.text [] true, .var "@" true] => true
  | _ => false

/-- Whether a word holds the output of another script. -/
def hasOutput (w : Word) : Bool :=
  w.any fun
    | .output .. => true
    | _ => false

end Shell

end Rehearsal

end Provisioning
