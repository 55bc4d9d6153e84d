import Lineage.FileError
import Lineage.Normalization

/-!
# The graph of one file

The declarations of a file become one graph. The first ill-shaped entry, in the order of
declarations and of the entries in each, fails the whole file.
-/

namespace Lineage

/-! ## Failures -/

inductive ParseError where
  | file (cause : FileError)
  | language (text : String)
  | noTree
  | malformedSource (line column : Nat)
  deriving DecidableEq, Repr

def ParseError.message : ParseError → String
  | .file cause => "IO error: " ++ cause.message
  | .language text => "Language error: " ++ text
  | .noTree => "Parser produced no tree"
  | .malformedSource line column => s!"Syntax error at {line}:{column}"

inductive ExtractError where
  | parse (cause : ParseError)
  | malformed (type entry : String) (cause : ShapeError)
  deriving DecidableEq, Repr

namespace ExtractError

def message : ExtractError → String
  | .parse cause => "Parse error: " ++ cause.message
  | .malformed type entry cause =>
      "Malformed inheritance entry `" ++ entry ++ "` on `" ++ type ++ "`: " ++ cause.message

def isMalformed : ExtractError → Bool
  | .parse _ => false
  | .malformed .. => true

end ExtractError

/-! ## Extraction -/

abbrev FileResult := Except ExtractError Graph

def Graph.declare? (strategy : Strategy) (graph : Graph) (declaration : Declaration) :
    FileResult :=
  declaration.inherited.foldlM (fun graph entry =>
    (graph.inherit? strategy declaration.name entry).mapError
      (.malformed declaration.name entry.text)) graph

def extract (strategy : Strategy) (declarations : List Declaration) : FileResult :=
  declarations.foldlM (Graph.declare? strategy) ∅

def extractFrom (strategy : Strategy)
    (declarations : Except ParseError (List Declaration)) : FileResult :=
  match declarations with
  | .ok declarations => extract strategy declarations
  | .error cause => .error (.parse cause)

end Lineage
