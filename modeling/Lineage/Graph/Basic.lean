import Std.Data.ExtTreeMap
import Std.Data.ExtTreeSet

/-!
# Inheritance graphs

A directed multigraph on type names. Nodes and sources are kept in the order of their code
points, and each source keeps its targets in the order in which they were added, duplicates
included. Nothing is ever removed.
-/

open Std

namespace Lineage

structure Graph where
  nodes : ExtTreeSet String
  edges : ExtTreeMap String (List String)
  deriving DecidableEq

namespace Graph

/-! ## Building -/

def empty : Graph :=
  ⟨∅, ∅⟩

instance : EmptyCollection Graph := ⟨empty⟩

instance : Inhabited Graph := ⟨empty⟩

/-- Appends `targets` to the list of `source`. The source is registered even where there are
no targets. -/
def addEdges (graph : Graph) (source : String) (targets : List String) : Graph where
  nodes := targets.foldl ExtTreeSet.insert (graph.nodes.insert source)
  edges := graph.edges.alter source fun present => some (present.getD [] ++ targets)

def addEdge (graph : Graph) (source target : String) : Graph :=
  graph.addEdges source [target]

def merge (graph other : Graph) : Graph :=
  other.edges.toList.foldl (fun graph edge => graph.addEdges edge.1 edge.2) graph

/-! ## Reading -/

def nodeList (graph : Graph) : List String :=
  graph.nodes.toList

def edgeList (graph : Graph) : List (String × List String) :=
  graph.edges.toList

def links (graph : Graph) : List (String × String) :=
  graph.edgeList.flatMap fun edge => edge.2.map (edge.1, ·)

def targets (graph : Graph) (source : String) : List String :=
  (graph.edges[source]?).getD []

def contains (graph : Graph) (node : String) : Bool :=
  graph.nodes.contains node

def nodeCount (graph : Graph) : Nat :=
  graph.nodes.size

def edgeCount (graph : Graph) : Nat :=
  graph.edgeList.foldl (fun count edge => count + edge.2.length) 0

def isEmpty (graph : Graph) : Bool :=
  graph.nodes.isEmpty

end Graph
end Lineage
