import Provisioning.Yaml.Token

/-!
# Nodes of a YAML text

`Document.ofText` reads the one document of a text as a tree of scalars, sequences, mappings and
references.  A reference names its anchor by a number and is not followed here: a node may refer to
itself, and much of a document may never be looked at.
-/

namespace Provisioning

namespace Yaml

/-- A node of a document, with its tag if it has one. -/
inductive Node where
  | scalar (tag : Option Tag) (style : Style) (text : String)
  | seq (tag : Option Tag) (items : List Node)
  | map (tag : Option Tag) (entries : List (Node × Node))
  /-- A reference to the node under an anchor. -/
  | alias (number : Nat)
  /-- The root of a text without a document. -/
  | missing
deriving Inhabited

/-- The scalar that stands where nothing is written. -/
def Node.empty : Node := .scalar none .plain ""

/-- The one document of a text. -/
structure Document where
  root : Node
  /-- The nodes under anchors, by the numbers of the anchors. -/
  targets : Array Node
  /-- The number of beginnings and ends of nodes and of references. -/
  events : Nat

/-- Reading nodes under way. -/
structure Parsing where
  /-- What is left. -/
  tokens : List Token
  /-- The names of the anchors so far, each with the number of its latest anchor. -/
  anchors : List (String × Nat) := []
  /-- The nodes under anchors with their numbers, in the order of their beginnings.  `missing`
  stands for a node that is still being read. -/
  marked : Array (Nat × Node) := #[]
  /-- The beginnings of tags that the handles stand for. -/
  handles : List (String × Tag) := [("!", .ofText "!"), ("!!", .standard "")]
  /-- The beginnings and ends of nodes and the references so far. -/
  events : Nat := 0

/-- A step of reading nodes. -/
abbrev Parse := StateT Parsing (Except Error)

namespace Parse

/-- The next token; the last one stays. -/
def peek : Parse Token := do return (← get).tokens.headD .streamEnd

/-- Passes the next token. -/
def skip : Parse Unit := modify fun s => { s with tokens := s.tokens.drop 1 }

/-- Counts beginnings and ends of nodes and references. -/
def count (n : Nat) : Parse Unit := modify fun s => { s with events := s.events + n }

/-- The scalar that stands where nothing is written. -/
def emptyNode : Parse Node := do
  count 1
  return .empty

/-- The tag that a handle and a suffix stand for. -/
def resolveTag (handle : String) (suffix : Tag) : Parse Tag := do
  if handle.isEmpty then return suffix
  match (← get).handles.lookup handle with
  | some lead => return lead ++ suffix
  | none => throw (.misplaced ("tag handle " ++ handle))

/-- Reads the anchor and the tag before a node, in any order. -/
def properties : Parse (Option String × Option Tag) := do
  match ← peek with
  | .anchor name =>
    skip
    match ← peek with
    | .tag handle suffix =>
      skip
      return (some name, some (← resolveTag handle suffix))
    | _ => return (some name, none)
  | .tag handle suffix =>
    skip
    let tag ← resolveTag handle suffix
    match ← peek with
    | .anchor name =>
      skip
      return (some name, some tag)
    | _ => return (none, some tag)
  | _ => return (none, none)

/-- A reference by name.  The node of its anchor may still be under way. -/
def reference (name : String) : Parse Node := do
  count 1
  match (← get).anchors.lookup name with
  | some number => return .alias number
  | none => throw (.unknownAnchor name)

/-- Reads a node and keeps it under the anchor before it.  The number of an anchor is that of the
different names before it, so a name that comes again may share its number with the next one. -/
def anchored (anchor : Option String) (read : Parse Node) : Parse Node :=
  match anchor with
  | none => read
  | some name => do
    let s ← get
    let number := s.anchors.length
    let place := s.marked.size
    set { s with
      anchors := (name, number) :: s.anchors.filter fun a => a.1 != name
      marked := s.marked.push (number, .missing) }
    let node ← read
    modify fun s => { s with marked := s.marked.setIfInBounds place (number, node) }
    return node

mutual

/-- Reads a node.  `block` tells whether it may be a block collection, `flat` whether it may be a
block sequence that is not indented. -/
def node : Nat → Bool → Bool → Parse Node
  | 0, _, _ => throw .tooDeep
  | n + 1, block, flat => do
    if let .alias name ← peek then
      skip
      return ← reference name
    let (anchor, tag) ← properties
    anchored anchor do
      match ← peek with
      | .scalar style text =>
        skip
        count 1
        return .scalar tag style text
      | .flowSequenceStart =>
        skip
        count 2
        return .seq tag (← flowItems n true)
      | .flowMappingStart =>
        skip
        count 2
        return .map tag (← flowEntries n true)
      | .blockEntry =>
        if flat then
          count 2
          return .seq tag (← flatItems n)
        else bare anchor tag
      | .blockSequenceStart =>
        if block then
          skip
          count 2
          return .seq tag (← blockItems n)
        else bare anchor tag
      | .blockMappingStart =>
        if block then
          skip
          count 2
          return .map tag (← blockEntries n)
        else bare anchor tag
      | _ => bare anchor tag
where
  /-- A node of which nothing but its anchor or its tag is written. -/
  bare (anchor : Option String) (tag : Option Tag) : Parse Node :=
    if anchor.isSome || tag.isSome then do
      count 1
      return .scalar tag .plain ""
    else throw (.misplaced "node")

/-- Reads the items of a block sequence up to its end. -/
def blockItems : Nat → Parse (List Node)
  | 0 => throw .tooDeep
  | n + 1 => do
    match ← peek with
    | .blockEntry =>
      skip
      let item ← match ← peek with
        | .blockEntry | .blockEnd => emptyNode
        | _ => node n true false
      return item :: (← blockItems n)
    | .blockEnd =>
      skip
      return []
    | _ => throw (.misplaced "sequence entry")

/-- Reads the items of a block sequence that is not indented. -/
def flatItems : Nat → Parse (List Node)
  | 0 => throw .tooDeep
  | n + 1 => do
    match ← peek with
    | .blockEntry =>
      skip
      let item ← match ← peek with
        | .blockEntry | .key | .value | .blockEnd => emptyNode
        | _ => node n true false
      return item :: (← flatItems n)
    | _ => return []

/-- Reads what stands after the mark of a key or a value in a block mapping. -/
def blockPart : Nat → Parse Node
  | 0 => throw .tooDeep
  | n + 1 => do
    skip
    match ← peek with
    | .key | .value | .blockEnd => emptyNode
    | _ => node n true true

/-- Reads the entries of a block mapping up to its end. -/
def blockEntries : Nat → Parse (List (Node × Node))
  | 0 => throw .tooDeep
  | n + 1 => do
    match ← peek with
    | .blockEnd =>
      skip
      return []
    | .key =>
      let key ← blockPart n
      let value ← match ← peek with
        | .value => blockPart n
        | _ => emptyNode
      return (key, value) :: (← blockEntries n)
    | _ => throw (.misplaced "mapping entry")

/-- Reads the pair after the mark of a key in a flow sequence, as a mapping of its own. -/
def flowPair : Nat → Parse Node
  | 0 => throw .tooDeep
  | n + 1 => do
    count 2
    skip
    let key ← match ← peek with
      | .value | .flowEntry | .flowSequenceEnd =>
        skip
        emptyNode
      | _ => node n false false
    let value ← match ← peek with
      | .value =>
        skip
        match ← peek with
        | .flowEntry | .flowSequenceEnd => emptyNode
        | _ => node n false false
      | _ => emptyNode
    return .map none [(key, value)]

/-- Reads the items of a flow sequence up to its end. -/
def flowItems : Nat → Bool → Parse (List Node)
  | 0, _ => throw .tooDeep
  | n + 1, first => do
    if (← peek) = .flowSequenceEnd then
      skip
      return []
    if !first then
      if (← peek) = .flowEntry then skip else throw (.misplaced "sequence entry")
    match ← peek with
    | .flowSequenceEnd =>
      skip
      return []
    | .key =>
      let item ← flowPair n
      return item :: (← flowItems n false)
    | _ =>
      let item ← node n false false
      return item :: (← flowItems n false)

/-- Reads the entries of a flow mapping up to its end. -/
def flowEntries : Nat → Bool → Parse (List (Node × Node))
  | 0, _ => throw .tooDeep
  | n + 1, first => do
    if (← peek) = .flowMappingEnd then
      skip
      return []
    if !first then
      if (← peek) = .flowEntry then skip else throw (.misplaced "mapping entry")
    match ← peek with
    | .flowMappingEnd =>
      skip
      return []
    | .key =>
      skip
      let key ← match ← peek with
        | .value | .flowEntry | .flowMappingEnd => emptyNode
        | _ => node n false false
      let value ← match ← peek with
        | .value =>
          skip
          match ← peek with
          | .flowEntry | .flowMappingEnd => emptyNode
          | _ => node n false false
        | _ => emptyNode
      return (key, value) :: (← flowEntries n false)
    | _ =>
      let key ← node n false false
      let value ← emptyNode
      return (key, value) :: (← flowEntries n false)

end

/-- Reads directives: at most one version, which must be known, and no handle twice. -/
def directives : Nat → Bool → List String → Parse Unit
  | 0, _, _ => return ()
  | n + 1, versioned, seen => do
    match ← peek with
    | .versionDirective major minor =>
      if versioned || major != 1 || (minor != 1 && minor != 2) then throw (.misplaced "version")
      skip
      directives n true seen
    | .tagDirective handle uri =>
      if seen.contains handle then throw (.misplaced "tag directive")
      skip
      modify fun s => { s with handles := (handle, uri) :: s.handles }
      directives n versioned (handle :: seen)
    | _ => return ()

/-- Reads the content of a document that begins with its mark. -/
def content (fuel : Nat) : Parse Node := do
  match ← peek with
  | .versionDirective .. | .tagDirective .. | .documentStart | .documentEnd | .streamEnd =>
    emptyNode
  | _ => node fuel true false

/-- Passes the marks that end a document, and requires the end after them. -/
def finish : Nat → Parse Unit
  | 0 => return ()
  | n + 1 => do
    match ← peek with
    | .documentEnd =>
      skip
      finish n
    | .streamEnd => return ()
    | _ => throw .severalDocuments

/-- Reads the one document of a text. -/
def document (fuel : Nat) : Parse Node := do
  match ← peek with
  | .streamEnd => return .missing
  | .versionDirective .. | .tagDirective .. | .documentStart =>
    directives fuel false []
    if (← peek) != .documentStart then throw (.misplaced "directive")
    skip
    let root ← content fuel
    finish fuel
    return root
  | _ =>
    let root ← node fuel true false
    finish fuel
    return root

end Parse

/-- The one document of a text.  Of anchors with one number the last one counts. -/
def Document.ofText (text : String) : Except Error Document := do
  let tokens ← Token.ofText text
  let (root, s) ← (Parse.document (4 * tokens.length + 8)).run { tokens }
  let none := Array.replicate s.marked.size Node.missing
  let targets := s.marked.foldl (fun ts (number, node) => ts.setIfInBounds number node) none
  return { root, targets, events := s.events }

end Yaml

end Provisioning
