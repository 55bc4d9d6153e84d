/-!
# Nodes of a syntax tree

A node has no text of its own. It covers the bytes of its source from one up to another, and tells
the line and the column of the first of them; what it covers is looked up in the source.
-/

namespace Lineage.Source

/-! ## Positions -/

/-- A line and a column in bytes, both counted from zero. -/
structure Position where
  line : Nat
  column : Nat
  deriving DecidableEq, Repr

namespace Position

def start : Position := ⟨0, 0⟩

def next (position : Position) (c : Char) : Position :=
  if c = '\n' then ⟨position.line + 1, 0⟩
  else ⟨position.line, position.column + c.utf8Size⟩

def after (position : Position) (text : String) : Position :=
  text.toList.foldl next position

end Position

/-! ## Slices -/

/-- The first bytes of a text and the rest, unless they end past the text or inside a character. -/
def splitBytes? : Nat → List Char → Option (List Char × List Char)
  | 0, text => some ([], text)
  | _ + 1, [] => none
  | count + 1, c :: rest =>
      if c.utf8Size ≤ count + 1 then
        (splitBytes? (count + 1 - c.utf8Size) rest).map fun halves => (c :: halves.1, halves.2)
      else none

def slice? (text : String) (start stop : Nat) : Option String :=
  if start ≤ stop then
    (splitBytes? start text.toList).bind fun halves =>
      (splitBytes? (stop - start) halves.2).map fun halves => String.ofList halves.1
  else none

/-! ## Nodes -/

structure Label where
  /-- The word of the grammar for the node. A keyword or a punctuation mark is its own. -/
  kind : String
  field : Option String := none
  isNamed : Bool := true
  isExtra : Bool := false
  isError : Bool := false
  isMissing : Bool := false
  hasError : Bool := false
  startByte : Nat
  endByte : Nat
  start : Position
  deriving DecidableEq, Repr

structure Node extends Label where
  children : List Node
  deriving Repr

namespace Node

def isFault (node : Node) : Bool :=
  node.isError || node.isMissing

def isDeclaration (node : Node) : Bool :=
  ["class_declaration", "protocol_declaration"].contains node.kind

def child? (node : Node) (field : String) : Option Node :=
  node.children.find? (·.field == some field)

def namedChildren (node : Node) : List Node :=
  node.children.filter (·.isNamed)

/-- The text that a node covers, unless its bounds are outside the source or inside a character. -/
def text? (content : String) (node : Node) : Option String :=
  slice? content node.startByte node.endByte

end Node

/-! ## Places -/

/-- The way from the root of a tree to a node: the numbers of the children that lead there. -/
abbrev Place := List Nat

def Node.at? (root : Node) : Place → Option Node
  | [] => some root
  | index :: place => root.children[index]?.bind (at? · place)

end Lineage.Source
