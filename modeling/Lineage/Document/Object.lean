import Lineage.Graph.Basic
import Lineage.Text.Json

/-!
# The JSON document

A graph as an object with its nodes in an array and its target lists in an object.
-/

namespace Lineage.Graph

def toJson (graph : Graph) : Json :=
  .object
    [("nodes", .array (graph.nodeList.map .string)),
     ("edges", .object (graph.edgeList.map fun edge =>
       (edge.1, .array (edge.2.map .string))))]

def json (graph : Graph) : String :=
  graph.toJson.render

/-! ## Reading -/

def stringOf? : Json → Option String
  | .string value => some value
  | _ => none

def stringsOf? : Json → Option (List String)
  | .array items => items.mapM stringOf?
  | _ => none

def ofJson? : Json → Option Graph
  | .object [("nodes", nodes), ("edges", .object edges)] => do
      let nodes ← stringsOf? nodes
      let edges ← edges.mapM fun edge => do
        let targets ← stringsOf? edge.2
        return (edge.1, targets)
      return ⟨.ofList nodes, .ofList edges⟩
  | _ => none

end Lineage.Graph
