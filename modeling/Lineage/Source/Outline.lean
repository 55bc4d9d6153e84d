import Lineage.Extraction
import Lineage.Source.Node

/-!
# Declarations and faults of a tree

A tree declares a type wherever a declaration node gives a name, inner types before outer ones. Its
faults are the errors and the missing tokens in it. They are gathered from the root down, and no
further below a node that does not claim to have an error in it; whether a fault is inside a
declaration is found out from the fault up, from parent to parent.

Texts are looked up in the source. Where a node does not cover whole characters of it there is no
answer at all.
-/

namespace Lineage.Source

namespace Node

/-! ## Entries -/

def partOf? (content : String) (node : Node) : Option Part :=
  if node.kind = "type_identifier" then (node.text? content).map .name
  else if node.kind = "type_arguments" then
    ((node.namedChildren.filter (!·.isExtra)).mapM (text? content)).map .arguments
  else some (.other node.kind)

def entryOf? (content : String) (type : Node) : Option Entry := do
  let text ← type.text? content
  if type.kind = "user_type" then
    let parts ← (type.children.filter (!·.isExtra)).mapM (partOf? content)
    return ⟨text, parts⟩
  else return ⟨text, [.other type.kind]⟩

/-- The type that a specifier inherits from: the child marked so, or else its first named one. -/
def inheritedType? (specifier : Node) : Option Node :=
  (specifier.child? "inherits_from").or specifier.namedChildren.head?

def isSpecifier (node : Node) : Bool :=
  node.kind == "inheritance_specifier"

def inheritedTypes (node : Node) : List Node :=
  (node.children.filter isSpecifier).filterMap inheritedType?

/-! ## Declarations -/

def isName (node : Node) : Bool :=
  node.kind == "type_identifier"

def nameNode? (node : Node) : Option Node :=
  (node.child? "name").or (node.children.find? isName)

def declaredKind (node : Node) : DeclarationKind :=
  if node.kind = "protocol_declaration" then .protocol
  else
    let keyword := node.child? "declaration_kind"
    ((keyword.bind fun child => DeclarationKind.ofKeyword? child.kind).or
      (node.children.findSome? fun child => DeclarationKind.ofKeyword? child.kind)).getD .class

def declarationOf? (content : String) (node name : Node) : Option Declaration := do
  let name ← name.text? content
  let inherited ← node.inheritedTypes.mapM (entryOf? content)
  return ⟨name, node.declaredKind, node.start.line + 1, inherited⟩

/-- What a node declares by itself. A declaration without a name declares nothing. -/
def declared? (content : String) (node : Node) : Option (List Declaration) :=
  if node.isDeclaration then node.nameNode?.toList.mapM (node.declarationOf? content) else some []

mutual

def declarations? (content : String) : Node → Option (List Declaration)
  | ⟨label, children⟩ => do
      let inner ← declarationsIn? content children
      let own ← declared? content ⟨label, children⟩
      return inner ++ own

def declarationsIn? (content : String) : List Node → Option (List Declaration)
  | [] => some []
  | node :: rest => do
      let first ← declarations? content node
      let others ← declarationsIn? content rest
      return first ++ others

end

/-! ## Faults -/

mutual

/-- The faults that are found from the node at `place` down, with their places. -/
def faults (place : Place) : Node → List (Place × Node)
  | ⟨label, children⟩ =>
      (if isFault ⟨label, children⟩ then [(place, ⟨label, children⟩)] else []) ++
        if label.hasError then faultsIn place 0 children else []

def faultsIn (place : Place) (index : Nat) : List Node → List (Place × Node)
  | [] => []
  | node :: rest => faults (place ++ [index]) node ++ faultsIn place (index + 1) rest

end

def isBelowDeclaration (root : Node) : List Nat → Bool
  | [] => false
  | _ :: parent => (root.at? parent.reverse).any isDeclaration || root.isBelowDeclaration parent

def isInside (root : Node) (place : Place) : Bool :=
  root.isBelowDeclaration place.reverse

/-! ## Outlines -/

/-- The declarations of a tree, or the first fault that does harm, by line and column, both counted
from one. A fault outside every declaration does none as long as anything is declared. -/
def outline? (content : String) (root : Node) : Option (Except ParseError (List Declaration)) := do
  let declarations ← root.declarations? content
  let harm := (root.faults []).find? fun fault => declarations.isEmpty || root.isInside fault.1
  return match harm with
    | some (_, node) => .error (.malformedSource (node.start.line + 1) (node.start.column + 1))
    | none => .ok declarations

end Node

end Lineage.Source
