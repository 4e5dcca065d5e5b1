import Provisioning.Yaml.Scalar
import Provisioning.Yaml.Tag

/-!
# Tokens of a YAML text

`Token.ofText` turns a text into the marks, words and scalars that it is made of.  Indentation
becomes tokens that open and close block collections.  A key is known as one only at the colon
after it, so the place of every scalar or collection that may turn out to be a key is remembered
until its line ends.
-/

namespace Provisioning

namespace Yaml

/-- What a text is made of. -/
inductive Token where
  | versionDirective (major minor : Nat)
  | tagDirective (handle : String) (lead : Tag)
  | documentStart
  | documentEnd
  | blockSequenceStart
  | blockMappingStart
  | blockEnd
  | flowSequenceStart
  | flowSequenceEnd
  | flowMappingStart
  | flowMappingEnd
  | blockEntry
  | flowEntry
  | key
  | value
  | alias (name : String)
  | anchor (name : String)
  | tag (handle : String) (suffix : Tag)
  | scalar (style : Style) (text : String)
  | streamEnd
deriving DecidableEq, Repr

/-- A place that may turn out to be the beginning of a key. -/
structure Candidate where
  /-- Whether it must turn out so. -/
  required : Bool
  /-- The number of tokens before it. -/
  position : Nat
  /-- Where it is. -/
  start : Cursor

/-- Reading under way. -/
structure Reading where
  /-- What is left. -/
  cursor : Cursor
  /-- What has been read. -/
  tokens : Array Token := #[]
  /-- The candidate for a key, for every flow collection around and for the block context,
  innermost first. -/
  candidate : Option Candidate := none
  /-- The candidates around, innermost first; one for every open flow collection. -/
  outer : List (Option Candidate) := []
  /-- The column of the innermost block collection, −1 outside of all. -/
  indent : Int := -1
  /-- The columns around it. -/
  indents : List Int := []
  /-- Whether a key may begin here. -/
  keyAllowed : Bool := true

namespace Reading

/-- Whether a flow collection is open. -/
def inFlow (r : Reading) : Bool := !r.outer.isEmpty

/-- One more token. -/
def push (r : Reading) (t : Token) : Reading := { r with tokens := r.tokens.push t }

/-- One more token, for the next characters. -/
def take (r : Reading) (n : Nat) (t : Token) : Reading :=
  { r with tokens := r.tokens.push t, cursor := r.cursor.skip n }

/-! ### Between tokens -/

/-- Skips blanks, comments and line breaks.  A byte order mark may begin a line; what follows it
there is in the second column. -/
def skipBlanks (r : Reading) : Nat → Reading
  | 0 => r
  | n + 1 =>
    let c := r.cursor
    let c := if c.column == 0 && c.sees '\uFEFF' 0 then c.skip 1 else c
    let tabs := r.inFlow || !r.keyAllowed
    let c := (c.dropWhile fun ch => ch == ' ' || (tabs && ch == '\t')).skipComment
    if c.seesBreak then
      skipBlanks { r with cursor := c.skipBreak, keyAllowed := r.keyAllowed || !r.inFlow } n
    else { r with cursor := c }

/-- Whether a key may no longer begin at a candidate: its line has ended or is too long. -/
def isStale (c : Cursor) (k : Candidate) : Bool :=
  k.start.line < c.line || k.start.index + 1024 < c.index

/-- Drops the candidate if it is stale.  Those around wait until they are innermost again. -/
def refresh (r : Reading) : Except Error Reading :=
  match r.candidate with
  | none => .ok r
  | some k =>
    if isStale r.cursor k then
      if k.required then .error (k.start.fault "key") else .ok { r with candidate := none }
    else .ok r

/-- Gives up the candidate for a key. -/
def dropCandidate (r : Reading) : Except Error Reading :=
  match r.candidate with
  | some k => if k.required then .error (k.start.fault "key") else .ok { r with candidate := none }
  | none => .ok r

/-- Remembers this place as a candidate, if a key may begin here. -/
def saveCandidate (r : Reading) : Except Error Reading :=
  if r.keyAllowed then do
    let required := !r.inFlow && r.indent == (r.cursor.column : Int)
    let r ← r.dropCandidate
    return { r with candidate := some ⟨required, r.tokens.size, r.cursor⟩ }
  else .ok r

/-! ### Indentation -/

/-- Closes the block collections right of a column. -/
def closeTo (column : Int) : List Int → Reading → Reading
  | [], r => r
  | i :: is, r =>
    if column < r.indent then
      closeTo column is { r with tokens := r.tokens.push .blockEnd, indent := i, indents := is }
    else r

/-- Closes the block collections right of a column, outside of flow collections. -/
def unroll (r : Reading) (column : Int) : Reading :=
  if r.inFlow then r else closeTo column r.indents r

/-- Opens a block collection at a column, if that is right of the innermost one.  Its token goes to
a position among the tokens. -/
def roll (r : Reading) (column position : Nat) (t : Token) : Reading :=
  if r.inFlow || (column : Int) ≤ r.indent then r
  else
    { r with
      indents := r.indent :: r.indents
      indent := column
      tokens := r.tokens.insertIdxIfInBounds position t }

/-! ### Marks -/

/-- Reads a mark that parts documents. -/
def documentMark (r : Reading) (t : Token) : Except Error Reading := do
  let r ← (r.unroll (-1)).dropCandidate
  return { (r.take 3 t) with keyAllowed := false }

/-- Reads the end of the text. -/
def finish (r : Reading) : Except Error Reading := do
  let r ← (r.unroll (-1)).dropCandidate
  return r.push .streamEnd

/-- Reads what opens a flow collection. -/
def openFlow (r : Reading) (t : Token) : Except Error Reading := do
  let r ← r.saveCandidate
  return { (r.take 1 t) with
    outer := r.candidate :: r.outer, candidate := none, keyAllowed := true }

/-- Reads what closes a flow collection. -/
def closeFlow (r : Reading) (t : Token) : Except Error Reading := do
  let r ← r.dropCandidate
  let r := { (r.take 1 t) with keyAllowed := false }
  match r.outer with
  | k :: ks => return { r with candidate := k, outer := ks }
  | [] => return r

/-- Reads what parts the entries of a flow collection. -/
def flowEntry (r : Reading) : Except Error Reading := do
  let r ← r.dropCandidate
  return { (r.take 1 .flowEntry) with keyAllowed := true }

/-- Opens a block collection here, unless a flow collection is open. -/
def openBlock (r : Reading) (t : Token) (what : String) : Except Error Reading :=
  if r.inFlow then .ok r
  else if !r.keyAllowed then .error (r.cursor.fault what)
  else .ok (r.roll r.cursor.column r.tokens.size t)

/-- Reads the mark of an entry of a block sequence. -/
def blockEntry (r : Reading) : Except Error Reading := do
  let r ← (← r.openBlock .blockSequenceStart "sequence entry").dropCandidate
  return { (r.take 1 .blockEntry) with keyAllowed := true }

/-- Reads the mark of a key. -/
def keyMark (r : Reading) : Except Error Reading := do
  let r ← (← r.openBlock .blockMappingStart "mapping key").dropCandidate
  return { (r.take 1 .key) with keyAllowed := !r.inFlow }

/-- Reads the mark of a value.  If there is a candidate, it was a key. -/
def valueMark (r : Reading) : Except Error Reading :=
  match r.candidate with
  | some k =>
    let tokens := r.tokens.insertIdxIfInBounds k.position .key
    let r := { r with tokens, candidate := none, keyAllowed := false }
    .ok ((r.roll k.start.column k.position .blockMappingStart).take 1 .value)
  | none => do
    let r ← r.openBlock .blockMappingStart "mapping value"
    return { (r.take 1 .value) with keyAllowed := !r.inFlow }

/-! ### Words -/

/-- Reads the name of an anchor after its mark. -/
def anchorName (c : Cursor) : Except Error (String × Cursor) :=
  let (name, c) := (c.skip 1).takeWhile isWordChar
  let ends := c.seesBlank 0
    || (c.peek 0).any fun ch => "?:,]\x7d%@`".toList.contains ch
  if name.isEmpty || !ends then .error (c.fault "anchor") else .ok (String.ofList name, c)

/-- Whether a character may stand in the address of a tag. -/
def isUriChar (verbatim : Bool) (c : Char) : Bool :=
  isWordChar c || ";/?:@&=+$.%!~*'()".toList.contains c || (verbatim && ",[]".toList.contains c)

/-- How many bytes must continue the character that a byte begins, by its first bits. -/
def tailLength? (b : UInt8) : Option Nat :=
  if b < 0x80 then some 0
  else if b < 0xC0 then none
  else if b < 0xE0 then some 1
  else if b < 0xF0 then some 2
  else if b < 0xF8 then some 3
  else none

/-- The bytes that an address stands for: a percent sign takes two hexadecimal digits.  Bytes that
continue a character, of which `due` are to come, follow as such, too. -/
def uriBytes : Nat → List Char → Option (List UInt8)
  | 0, [] => some []
  | due, '%' :: a :: b :: r => do
    let byte := UInt8.ofNat (← hexValue? [a, b])
    let due ← match due with
      | 0 => tailLength? byte
      | n + 1 => if Utf8.isTail byte then some n else none
    return byte :: (← uriBytes due r)
  | 0, c :: r => if c == '%' then none else do return Utf8.encode [c] ++ (← uriBytes 0 r)
  | _ + 1, _ => none

/-- Reads the address of a tag, which may be empty. -/
def readUri (verbatim : Bool) (c : Cursor) : Except Error (List UInt8 × Cursor) :=
  let (cs, c') := c.takeWhile (isUriChar verbatim)
  match uriBytes 0 cs with
  | some bytes => .ok (bytes, c')
  | none => .error (c.fault "tag")

/-- Reads the handle of a tag: an exclamation mark, a word, and perhaps another one. -/
def readHandle (c : Cursor) : Except Error (List Char × Cursor) :=
  if !c.sees '!' 0 then .error (c.fault "tag")
  else
    let (word, c) := (c.skip 1).takeWhile isWordChar
    if c.sees '!' 0 then .ok ('!' :: word ++ ['!'], c.skip 1) else .ok ('!' :: word, c)

/-- Reads a tag as a handle and what follows it.  A mark alone has no handle. -/
def readTag (c : Cursor) : Except Error (String × Tag × Cursor) :=
  if c.sees '<' 1 then do
    let (uri, c) ← readUri true (c.skip 2)
    if uri.isEmpty || !c.sees '>' 0 then throw (c.fault "tag")
    return ("", .ofBytes uri, c.skip 1)
  else do
    let (handle, c') ← readHandle c
    if handle.length ≥ 2 && handle.getLast? == some '!' then
      let (uri, c) ← readUri false c'
      if uri.isEmpty then throw (c.fault "tag")
      return (String.ofList handle, .ofBytes uri, c)
    else
      let (uri, c) ← readUri false c'
      let suffix := Tag.ofBytes (Utf8.encode (handle.drop 1) ++ uri)
      if suffix.isEmpty then return ("", .ofText "!", c)
      return ("!", suffix, c)

/-- Reads a tag, which a blank must follow, or a comma in a flow collection. -/
def tag (r : Reading) : Except Error Reading := do
  let r ← r.saveCandidate
  let (handle, suffix, c) ← readTag r.cursor
  if !(c.seesBlank 0 || (r.inFlow && c.sees ',' 0)) then throw (c.fault "tag")
  return { r.push (.tag handle suffix) with cursor := c, keyAllowed := false }

/-- Reads a number of a version. -/
def readVersionNumber (c : Cursor) : Except Error (Nat × Cursor) :=
  let (digits, c') := c.takeWhile Char.isDigit
  match (if digits.length ≤ 9 then (String.ofList digits).toNat? else none) with
  | some n => .ok (n, c')
  | none => .error (c.fault "version")

/-- Reads the word after a percent sign and what belongs to it. -/
def readDirective (c : Cursor) : Except Error (Token × Cursor) := do
  let (name, c) := (c.skip 1).takeWhile isWordChar
  if !c.seesBlank 0 then throw (c.fault "directive")
  let c := c.dropWhile isGap
  match String.ofList name with
  | "YAML" =>
    let (major, c) ← readVersionNumber c
    if !c.sees '.' 0 then throw (c.fault "version")
    let (minor, c) ← readVersionNumber (c.skip 1)
    return (.versionDirective major minor, c)
  | "TAG" =>
    let (handle, c) ← readHandle c
    if handle != ['!'] && handle.getLast? != some '!' then throw (c.fault "tag")
    if !c.seesGap then throw (c.fault "tag")
    let c := c.dropWhile isGap
    let (uri, c) ← readUri true c
    if uri.isEmpty || !c.seesBlank 0 then throw (c.fault "tag")
    return (.tagDirective (String.ofList handle) (.ofBytes uri), c)
  | _ => throw (c.fault "directive")

/-- Reads a directive to the end of its line. -/
def directive (r : Reading) : Except Error Reading := do
  let r ← (r.unroll (-1)).dropCandidate
  let (t, c) ← readDirective r.cursor
  let c := (c.dropWhile isGap).skipComment
  if !c.seesLineEnd then throw (c.fault "directive")
  let c := if c.atEnd then c else c.skipBreak
  return { r.push t with cursor := c, keyAllowed := false }

/-! ### Scalars -/

/-- Reads a plain scalar; `n` bounds the characters left. -/
def plainScalar (n : Nat) (r : Reading) : Except Error Reading := do
  let r ← r.saveCandidate
  let (c, f) ← readPlain r.inFlow (r.indent + 1) (n + 1) r.cursor {}
  return { r.push (.scalar .plain (String.ofList f.out.reverse)) with
    cursor := c, keyAllowed := f.broken }

/-- Reads a quoted scalar; `n` bounds the characters left. -/
def quotedScalar (n : Nat) (r : Reading) (quote : Char) : Except Error Reading := do
  let r ← r.saveCandidate
  let (c, f) ← readQuoted quote (n + 1) (r.cursor.skip 1) {}
  return { r.push (.scalar .quoted (String.ofList f.out.reverse)) with
    cursor := c, keyAllowed := false }

/-- Reads a block scalar. -/
def blockScalar (r : Reading) (style : Style) : Except Error Reading := do
  let r ← r.dropCandidate
  let (cs, c) ← readBlock (style = .literal) r.indent (r.cursor.skip 1)
  return { r.push (.scalar style (String.ofList cs)) with cursor := c, keyAllowed := true }

/-! ### The next token -/

/-- Whether a plain scalar may begin with a character that is no mark of its own. -/
def beginsPlain (r : Reading) (ch : Char) : Bool :=
  if "-?:,[]\x7b\x7d#&*!|>'\"%@`".toList.contains ch then
    (ch == '-' && !(r.cursor.peek 1).any isGap)
      || (!r.inFlow && (ch == '?' || ch == ':') && !r.cursor.seesBlank 1)
  else !(isGap ch || isBreak ch)

/-- Reads the token that begins with a character; `n` bounds the characters left. -/
def token (n : Nat) (r : Reading) (ch : Char) : Except Error Reading :=
  let c := r.cursor
  if c.column == 0 && ch == '%' then r.directive
  else if c.seesMark '-' then r.documentMark .documentStart
  else if c.seesMark '.' then r.documentMark .documentEnd
  else if ch == '[' then r.openFlow .flowSequenceStart
  else if ch == '\x7b' then r.openFlow .flowMappingStart
  else if ch == ']' then r.closeFlow .flowSequenceEnd
  else if ch == '\x7d' then r.closeFlow .flowMappingEnd
  else if ch == ',' then r.flowEntry
  else if ch == '-' && c.seesBlank 1 then r.blockEntry
  else if ch == '?' && (r.inFlow || c.seesBlank 1) then r.keyMark
  else if ch == ':' && (r.inFlow || c.seesBlank 1) then r.valueMark
  else if ch == '*' || ch == '&' then do
    let r ← r.saveCandidate
    let (name, c) ← anchorName r.cursor
    let t := if ch == '*' then Token.alias name else .anchor name
    return { r.push t with cursor := c, keyAllowed := false }
  else if ch == '!' then r.tag
  else if ch == '|' && !r.inFlow then r.blockScalar .literal
  else if ch == '>' && !r.inFlow then r.blockScalar .folded
  else if ch == '\'' || ch == '"' then r.quotedScalar n ch
  else if r.beginsPlain ch then r.plainScalar n
  else .error (c.fault "token")

/-- Reads the tokens of what is left, of which every one takes a character. -/
def all : Nat → Reading → Except Error Reading
  | 0, r => .error (r.cursor.fault "token")
  | n + 1, r => do
    let r ← (r.skipBlanks (n + 1)).refresh
    let r := r.unroll r.cursor.column
    match r.cursor.peek 0 with
    | none => r.finish
    | some ch => all n (← r.token (n + 1) ch)

end Reading

/-- The tokens of a text, the last of which is its end. -/
def Token.ofText (text : String) : Except Error (List Token) := do
  let cs := text.toList
  if let some c := cs.find? fun c => !isAllowed c then throw (.control c.toNat)
  let r ← Reading.all (cs.length + 1) { cursor := { rest := cs } }
  return r.tokens.toList

end Yaml

end Provisioning
