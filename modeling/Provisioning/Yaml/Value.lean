import Provisioning.Text.Blank
import Provisioning.Text.Quoted
import Provisioning.Yaml.Number
import Provisioning.Yaml.Reference

/-!
# Values of which no type is asked

`Value.ofNode` reads a node as what it is by itself: a plain scalar by its text, a quoted one as
text, a tag of the standard as it says, and a local tag as part of the value.
-/

namespace Provisioning

namespace Yaml

/-- A value of any type. -/
inductive Value where
  | null
  | bool (b : Bool)
  | number (n : Number)
  | string (s : String)
  | seq (items : List Value)
  | map (entries : List (Value × Value))
  | tagged (tag : String) (value : Value)
deriving Repr, Inhabited

namespace Value

/-! ### Sameness -/

mutual

/-- Whether two values count as the same.  The order of the entries of a mapping does not count. -/
def same : Value → Value → Bool
  | null, null => true
  | bool a, bool b => a = b
  | number m, number n => m.same n
  | string s, string t => s = t
  | seq vs, seq ws => sameItems vs ws
  | map es, map fs => es.length = fs.length && areWithin es fs
  | tagged s v, tagged t w => s = t && same v w
  | _, _ => false

/-- Whether two sequences have the same items in the same order. -/
def sameItems : List Value → List Value → Bool
  | [], [] => true
  | v :: vs, w :: ws => same v w && sameItems vs ws
  | _, _ => false

/-- Whether all of some entries are among others. -/
def areWithin : List (Value × Value) → List (Value × Value) → Bool
  | [], _ => true
  | (k, v) :: es, fs => fs.any (fun f => same k f.1 && same v f.2) && areWithin es fs

end

instance : BEq Value := ⟨same⟩

/-! ### Parts -/

/-- The word for what a value is. -/
def kindName : Value → String
  | null => "null"
  | bool _ => "bool"
  | number _ => "number"
  | string _ => "string"
  | seq _ => "sequence"
  | map _ => "mapping"
  | tagged .. => "tagged value"

/-! ### From nodes -/

/-- What a plain scalar stands for. -/
def ofPlain (text : String) : Except Error Value :=
  match Plain.ofText text with
  | .null => .ok null
  | .bool b => .ok (bool b)
  | .number n => .ok (number n)
  | .huge => .error (.wrongType "any value")
  | .text => .ok (string text)

/-- What a scalar without a tag of its own stands for. -/
def ofUntagged (style : Style) (text : String) : Except Error Value :=
  if style = .plain then ofPlain text else .ok (string text)

/-- What a scalar stands for, its tag obeyed. -/
def ofScalar (tag : Option Tag) (style : Style) (text : String) : Except Error Value :=
  match tag with
  | none => ofUntagged style text
  | some t =>
    if t = .standard "bool" then
      match bool? text with
      | some b => .ok (bool b)
      | none => .error (.wrongType "a boolean")
    else if t = .standard "int" then
      match (int? text).bind ofInt with
      | some (.number n) => .ok (number n)
      | _ => .error (.wrongType "an integer")
    else if t = .standard "float" then
      match float? text with
      | some x => .ok (number (.float x))
      | none => .error (.wrongType "a float")
    else if t = .standard "null" then
      if isNull text then .ok null else .error (.wrongType "null")
    else if t.isLocal then ofUntagged style text
    else .ok (string text)

/-- Whether an entry has a key. -/
def hasKey (key : Value) (entries : List (Value × Value)) : Bool :=
  entries.any fun e => key == e.1

/-- Reads the entries of a mapping, in which no key may come twice; `before` are those before
them. -/
def entriesWith (read : Node → Resolve Value) (before : List (Value × Value)) :
    List (Node × Node) → Resolve (List (Value × Value))
  | [] => return []
  | (k, v) :: es => do
    let key ← read k
    if hasKey key before then throw (.duplicateKey key.kindName)
    let value ← read v
    let more ← entriesWith read ((key, value) :: before) es
    return (key, value) :: more

/-- A value under the name of its tag, if that is local.  An exclamation mark before the name does
not count. -/
def underTag (tag : Option Tag) (value : Value) : Value :=
  match tag.bind Tag.name? with
  | some name => tagged (Tag.unmarked name) value
  | none => value

/-- What a node stands for by itself, if `room` collections may lie inside one another there. -/
def ofNode (room : Nat) (node : Node) : Resolve Value := do
  match ← Resolve.target node with
  | .scalar tag style text =>
    match tag.bind Tag.name? with
    | some _ => return underTag tag (← ofUntagged style text)
    | none => ofScalar tag style text
  | .seq tag items =>
    match room with
    | 0 => throw .tooDeep
    | n + 1 => return underTag tag (.seq (← items.mapM (ofNode n)))
  | .map tag entries =>
    match room with
    | 0 => throw .tooDeep
    | n + 1 => return underTag tag (.map (← entriesWith (ofNode n) [] entries))
  | .alias _ | .missing => return null

/-! ### As text -/

mutual

/-- A value spelled out. -/
def spelled : Value → String
  | null => "Null"
  | bool b => "Bool(" ++ (if b then "true" else "false") ++ ")"
  | number n => "Number(" ++ n.text ++ ")"
  | string s => "String(" ++ Text.quoted s ++ ")"
  | seq items => "Sequence [" ++ Text.join ", " (spelledItems items) ++ "]"
  | map entries => "Mapping \x7b" ++ Text.join ", " (spelledEntries entries) ++ "\x7d"
  | tagged tag value => "TaggedValue \x7b tag: !" ++ tag ++ ", value: " ++ spelled value ++ " \x7d"

/-- Items spelled out. -/
def spelledItems : List Value → List String
  | [] => []
  | v :: vs => spelled v :: spelledItems vs

/-- Entries spelled out; keys that are texts, numbers or truth values without their type. -/
def spelledEntries : List (Value × Value) → List String
  | [] => []
  | (k, v) :: es =>
    let key := match k with
      | bool b => if b then "true" else "false"
      | number n => n.text
      | string s => Text.quoted s
      | k => spelled k
    (key ++ ": " ++ spelled v) :: spelledEntries es

end

/-- The text that a value gives: nothing for null, scalars as they are, all else spelled out. -/
def text : Value → String
  | string s => s
  | number n => n.text
  | bool b => if b then "true" else "false"
  | null => ""
  | v => spelled v

end Value

/-- The value of the one document of a text. -/
def Value.ofText (text : String) : Except Error Value :=
  Document.readText text Value.ofNode

end Yaml

end Provisioning
