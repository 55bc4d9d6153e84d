import Lineage.Source.Reader
import Lineage.Source.Recovery
import Lineage.Source.Token.Lexer

/-!
# A parser

A source is cut into tokens, the tokens are put together to a tree, and the nodes of the tree get
the bytes and the positions that come of the texts before them.

This is one parser among others. It knows a part of the language, and goes on after an error by its
own prices and within its own limits. What holds of every parser is stated of a `TreeParser`.
-/

namespace Lineage.Source

/-! ## Bytes and positions -/

structure Mark where
  byte : Nat
  position : Position
  deriving DecidableEq, Repr

namespace Mark

def start : Mark := ⟨0, .start⟩

def after (mark : Mark) (text : String) : Mark :=
  ⟨mark.byte + text.utf8ByteSize, mark.position.after text⟩

end Mark

/-! ## Nodes of a tree -/

def Field.word : Field → String
  | name => "name"
  | declarationKind => "declaration_kind"

/-- Marks the type in the parts of a specifier. -/
def markType (kind : NodeKind) (parts : List Node) : List Node :=
  match kind, parts with
  | .inheritanceSpecifier, first :: rest => { first with field := some "inherits_from" } :: rest
  | _, parts => parts

namespace Tree

/-- The label of a tree before which the source has been read up to `mark`. -/
def label (mark : Mark) (tree : Tree) (hasError : Bool) : Label :=
  let first := mark.after tree.lead
  let last := first.after tree.text
  { kind := tree.kindName
    field := tree.field?.map Field.word
    isNamed := tree.isName || tree.isComment || tree.isNode
    isExtra := tree.isExtra
    isError := tree.isError
    isMissing := tree.isMissing
    hasError
    startByte := first.byte
    endByte := last.byte
    start := first.position }

mutual

def nodeFrom (mark : Mark) : Tree → Node
  | leaf field kind lead text =>
      let tree := leaf field kind lead text
      ⟨label mark tree tree.isSupplied, []⟩
  | missing text => ⟨label mark (missing text) true, []⟩
  | node field kind trees =>
      let parts := nodesFrom mark trees
      ⟨label mark (node field kind trees) (kind == .error || parts.any (·.hasError)),
        markType kind parts⟩

def nodesFrom (mark : Mark) : List Tree → List Node
  | [] => []
  | tree :: rest => nodeFrom mark tree :: nodesFrom (mark.after tree.source) rest

end

end Tree

/-! ## Sources -/

def tree (source : String) : Tree :=
  treeOf (tokens source)

def syntaxTree : TreeParser :=
  fun source => .ok ((tree source).nodeFrom .start)

/-- Reads a source by this parser, whose trees fit every source. -/
def parse (source : String) : Except ParseError (List Declaration) :=
  (syntaxTree.parse? source).getD (.error .noTree)

end Lineage.Source
