import Provisioning.Yaml.Node

/-!
# Following references

A `Resolve α` reads an `α` from nodes of a document and follows references where it meets them.
Two bounds keep that finite: how deep collections may lie inside one another, counted through
references, and how often references may be followed in all.
-/

namespace Provisioning

namespace Yaml

/-- Reading from a document; the state counts the references followed. -/
abbrev Resolve := ReaderT Document (StateT Nat (Except Error))

namespace Resolve

/-- How deep collections may lie inside one another. -/
def maxDepth : Nat := 128

/-- How many references may be followed for each beginning or end in the document. -/
def maxJumps : Nat := 100

/-- The node that a node stands for: a reference for the node under its anchor. -/
def target : Node → Resolve Node
  | .alias number => do
    let document ← read
    let jumps ← get
    if maxJumps * document.events ≤ jumps then throw .tooDeep
    set (jumps + 1)
    return document.targets.getD number .missing
  | node => return node

/-- Reads the inside of a collection, for which there must be room. -/
def inside {α : Type} (room : Nat) (read : Nat → Resolve α) : Resolve α :=
  match room with
  | 0 => throw .tooDeep
  | n + 1 => read n

end Resolve

/-- What is read from the root of the one document of a text. -/
def Document.readText {α : Type} (text : String) (read : Nat → Node → Resolve α) :
    Except Error α := do
  let document ← Document.ofText text
  ((read Resolve.maxDepth document.root).run document).run' 0

end Yaml

end Provisioning
