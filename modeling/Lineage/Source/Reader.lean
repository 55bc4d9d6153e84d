import Lineage.Source.Outline

/-!
# Reading declarations

A source is read by a parser that makes a syntax tree of it. Which one does not matter here: what
it hands over is a tree, or the reason why there is none.
-/

namespace Lineage.Source

inductive TreeError where
  | language (text : String)
  | noTree
  deriving DecidableEq, Repr

def TreeError.cause : TreeError → ParseError
  | .language text => .language text
  | .noTree => .noTree

abbrev TreeParser := String → Except TreeError Node

/-- Reads the declarations of a source. There is no answer if the tree does not fit it. -/
def TreeParser.parse? (parser : TreeParser) (source : String) :
    Option (Except ParseError (List Declaration)) :=
  match parser source with
  | .ok root => root.outline? source
  | .error failure => some (.error failure.cause)

end Lineage.Source
