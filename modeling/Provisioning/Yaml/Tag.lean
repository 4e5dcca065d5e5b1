import Provisioning.Text.Utf8

/-!
# Tags

A tag is written as an address in which percent signs stand for bytes, so it is a row of bytes and
need not be a text.  A tag that begins with an exclamation mark is local: it has a name.
-/

namespace Provisioning

namespace Yaml

/-- The bytes of a tag. -/
structure Tag where
  bytes : List UInt8
deriving DecidableEq, Repr

namespace Tag

/-- The tag that bytes stand for: a zero byte ends it. -/
def ofBytes (bs : List UInt8) : Tag := ⟨bs.takeWhile (· != 0)⟩

/-- The tag that a text stands for. -/
def ofText (s : String) : Tag := ofBytes (textBytes s)

/-- The tag of the standard for a name. -/
def standard (name : String) : Tag := ofText ("tag:yaml.org,2002:" ++ name)

/-- A tag and more of it. -/
def append (t u : Tag) : Tag := ⟨t.bytes ++ u.bytes⟩

instance : Append Tag := ⟨append⟩

/-- Whether nothing is left of a tag. -/
def isEmpty (t : Tag) : Bool := t.bytes.isEmpty

/-- The byte of an exclamation mark. -/
def mark : UInt8 := 0x21

/-- Whether a tag is local. -/
def isLocal (t : Tag) : Bool := t.bytes.head? == some mark

/-- A text without the exclamation mark at its beginning, which stays if nothing follows it. -/
def unmarked (s : String) : String :=
  match s.toList with
  | '!' :: c :: cs => String.ofList (c :: cs)
  | _ => s

/-- The name of a local tag, if it is a text. -/
def name? (t : Tag) : Option String :=
  if t.isLocal then (Utf8.decode? t.bytes).map unmarked else none

end Tag

end Yaml

end Provisioning
