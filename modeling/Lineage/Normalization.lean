import Lineage.Declaration
import Lineage.Graph.Basic
import Lineage.Text.WhiteSpace

/-!
# Entries as edges

How one entry of an inheritance clause becomes edges of the graph. A step either adds all
edges of its entry or, on an ill-shaped entry, none.
-/

namespace Lineage

/-- `decompose` splits a generic type into its base and its arguments; `verbatim` takes the
entry's text for the name of the supertype. -/
inductive Strategy where
  | decompose
  | verbatim
  deriving DecidableEq, Repr, Inhabited

inductive ShapeError where
  | empty
  | notAName (kind : String)
  | unexpectedClause (kind : String)
  deriving DecidableEq, Repr

def ShapeError.message : ShapeError → String
  | .empty => "inheritance entry has no children"
  | .notAName kind => "first child is `" ++ kind ++ "`, expected a type name"
  | .unexpectedClause kind =>
      "second child is `" ++ kind ++ "`, expected a generic argument clause"

/-- The edges of an entry on the type `heir`, in the order in which they are added. A
specialized type is tied to its base and to its arguments before the heir is tied to it. -/
def Entry.decomposed? (heir : String) (entry : Entry) :
    Except ShapeError (List (String × List String)) :=
  match entry.parts with
  | [] => .error .empty
  | .name base :: rest =>
      match rest with
      | [] => .ok [(heir, [base])]
      | .arguments arguments :: _ =>
          let specialized := specializedName base arguments
          .ok [(specialized, [base]), (specialized, arguments), (heir, [specialized])]
      | other :: _ => .error (.unexpectedClause other.kind)
  | other :: _ => .error (.notAName other.kind)

def Entry.edges? (strategy : Strategy) (heir : String) (entry : Entry) :
    Except ShapeError (List (String × List String)) :=
  match strategy with
  | .decompose => entry.decomposed? heir
  | .verbatim => .ok [(heir, [collapseText entry.text])]

namespace Graph

def addAll (graph : Graph) (edges : List (String × List String)) : Graph :=
  edges.foldl (fun graph edge => graph.addEdges edge.1 edge.2) graph

@[simp] theorem addAll_nil (graph : Graph) : graph.addAll [] = graph := rfl

@[simp] theorem addAll_cons (graph : Graph) (edge : String × List String)
    (edges : List (String × List String)) :
    graph.addAll (edge :: edges) = (graph.addEdges edge.1 edge.2).addAll edges := rfl

def inherit? (strategy : Strategy) (graph : Graph) (heir : String) (entry : Entry) :
    Except ShapeError Graph :=
  (entry.edges? strategy heir).map graph.addAll

/-- The graph after a step that may fail: a failed step leaves it as it was. -/
def inherit (strategy : Strategy) (graph : Graph) (heir : String) (entry : Entry) : Graph :=
  match graph.inherit? strategy heir entry with
  | .ok graph => graph
  | .error _ => graph

end Graph
end Lineage
