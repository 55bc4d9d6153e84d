import Lineage.Graph.Basic

/-!
# Histories of named graphs

A family of graphs grows by steps that add edges to one of them, merge one into another, or
replace one by a copy. Each graph starts empty.
-/

namespace Lineage.Graph

abbrev Family := String → Graph

def Family.initial : Family := fun _ => ∅

def Family.set (family : Family) (name : String) (graph : Graph) : Family :=
  fun other => if other = name then graph else family other

@[simp] theorem Family.set_self (family : Family) (name : String) (graph : Graph) :
    family.set name graph name = graph := by
  simp [Family.set]

theorem Family.set_of_ne (family : Family) {name other : String} (graph : Graph)
    (h : other ≠ name) : family.set name graph other = family other := by
  simp [Family.set, h]

/-- A step changes the graph called `name`. A merge or a copy reads the other graph as it was
before the step. -/
inductive Step where
  | addEdge (name source target : String)
  | addEdges (name source : String) (targets : List String)
  | merge (name other : String)
  | copy (name other : String)
  deriving DecidableEq, Repr

def Step.name : Step → String
  | .addEdge name _ _ => name
  | .addEdges name _ _ => name
  | .merge name _ => name
  | .copy name _ => name

def Step.apply (family : Family) : Step → Family
  | .addEdge name source target => family.set name ((family name).addEdge source target)
  | .addEdges name source targets => family.set name ((family name).addEdges source targets)
  | .merge name other => family.set name ((family name).merge (family other))
  | .copy name other => family.set name (family other)

def Family.after (steps : List Step) : Family :=
  steps.foldl Step.apply Family.initial

end Lineage.Graph
