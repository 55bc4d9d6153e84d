import Lineage.Document.Data
import Lineage.Document.Object
import Lineage.Document.Page

/-!
# Documents

The formats in which a graph is written.
-/

namespace Lineage

inductive Format where
  | d3
  | vizjs
  | json
  deriving DecidableEq, Repr

instance : Inhabited Format := ⟨.d3⟩

def Graph.document (graph : Graph) : Format → String
  | .d3 => graph.data
  | .vizjs => graph.page Page.defaultDistance
  | .json => graph.json

end Lineage
