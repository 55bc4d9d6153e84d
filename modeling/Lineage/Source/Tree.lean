import Lineage.Declaration

/-!
# Trees of a source

A tree keeps every character of the source: a leaf holds the white space that leads up to it
and its own text, and the leaves of a tree in order spell the source. Comments and errors are
ordinary trees, and a token that was missing is a tree without text.
-/

namespace Lineage.Source

/-! ## Trees -/

inductive Field where
  | name
  | declarationKind
  deriving DecidableEq, Repr

inductive LeafKind where
  | name
  | token
  | comment
  | separator
  deriving DecidableEq, Repr

inductive NodeKind where
  | sourceFile
  | typeDeclaration
  | protocolDeclaration
  | inheritanceSpecifier
  | userType
  | typeArguments
  | error
  /-- Several parts that count one by one when they are given up to an error. -/
  | group
  | phrase (name : String)
  deriving DecidableEq, Repr

inductive Tree where
  | leaf (field : Option Field) (kind : LeafKind) (lead text : String)
  | missing (text : String)
  | node (field : Option Field) (kind : NodeKind) (children : List Tree)
  deriving Repr

namespace Tree

def field? : Tree → Option Field
  | leaf field _ _ _ => field
  | missing _ => none
  | node field _ _ => field

/-- The kind of a token. A word is its own only if it introduces a declaration. -/
def tokenKind (text : String) : String :=
  if (DeclarationKind.ofKeyword? text).isNone &&
      text.toList.all (fun c => c.isAlphanum || c == '_') then "simple_identifier"
  else text

def kindName : Tree → String
  | leaf _ .name _ _ => "type_identifier"
  | leaf _ .comment _ _ => "comment"
  | leaf _ .separator _ _ => "separator"
  | leaf _ .token _ text => tokenKind text
  | missing text => tokenKind text
  | node _ .sourceFile _ => "source_file"
  | node _ .typeDeclaration _ => "class_declaration"
  | node _ .protocolDeclaration _ => "protocol_declaration"
  | node _ .inheritanceSpecifier _ => "inheritance_specifier"
  | node _ .userType _ => "user_type"
  | node _ .typeArguments _ => "type_arguments"
  | node _ .error _ => "ERROR"
  | node _ .group _ => "group"
  | node _ (.phrase name) _ => name

def isName : Tree → Bool
  | leaf _ .name _ _ => true
  | _ => false

def isSupplied : Tree → Bool
  | leaf _ .name _ text => text.isEmpty
  | _ => false

def isComment : Tree → Bool
  | leaf _ .comment _ _ => true
  | _ => false

def isMissing : Tree → Bool
  | missing _ => true
  | _ => false

def isError : Tree → Bool
  | node _ .error _ => true
  | _ => false

/-- Whether a tree may stand anywhere and is no part of its phrase. -/
def isExtra : Tree → Bool
  | leaf _ .comment _ _ => true
  | leaf _ .separator _ _ => true
  | node _ .error _ => true
  | _ => false

def isNode : Tree → Bool
  | node .. => true
  | _ => false

mutual

def weight : Tree → Nat
  | leaf _ .comment _ _ => 0
  | leaf _ .separator _ _ => 0
  | node _ .error _ => 0
  | node _ .group children => weights children
  | _ => 1

def weights : List Tree → Nat
  | [] => 0
  | tree :: rest => weight tree + weights rest

end

/-! ## Text -/

mutual

def source : Tree → String
  | leaf _ _ lead text => lead ++ text
  | missing _ => ""
  | node _ _ children => sources children

def sources : List Tree → String
  | [] => ""
  | tree :: rest => source tree ++ sources rest

end

mutual

def text : Tree → String
  | leaf _ _ _ text => text
  | missing _ => ""
  | node _ _ children => texts children

/-- The text of a row of trees: the white space before the first is left out. -/
def texts : List Tree → String
  | [] => ""
  | tree :: rest => text tree ++ sources rest

end

def lead : Tree → String
  | leaf _ _ lead _ => lead
  | missing _ => ""
  | node _ _ [] => ""
  | node _ _ (first :: _) => lead first

end Tree

end Lineage.Source
