import Lineage.Source.Grammar.Expressions
import Mathlib.Data.List.Forall2

/-!
# Shapes of phrases

A summary keeps what is known of the parts that an open phrase has so far.  The goals that are
still to be met carry the summaries of all open phrases along, and refuse to end a declaration of
whose parts too little is known.  No rule is answered by goals that do less than the rule promises.
So a declaration gives its name before it inherits anything.
-/

namespace Lineage.Source

/-! ## Trees of the grammar -/

def NodeKind.isDeclaration (kind : NodeKind) : Bool :=
  kind = .typeDeclaration || kind = .protocolDeclaration

/-- Kinds that no phrase without a kind of its own has. -/
def ownKinds : List String :=
  ["class_declaration", "protocol_declaration", "inheritance_specifier"]

namespace Tree

def isSpecifier : Tree → Bool
  | node _ .inheritanceSpecifier _ => true
  | _ => false

def Unnamed (trees : List Tree) : Prop :=
  ∀ tree ∈ trees, tree.field? ≠ some .name ∧ tree.isSpecifier = false

/-- A name is given, and nothing is inherited before it. -/
def NamedFirst (trees : List Tree) : Prop :=
  ∃ front name back, trees = front ++ name :: back ∧ Unnamed front ∧
    name.field? = some .name ∧ name.isSpecifier = false

/-- Every declaration in the tree has its name first, and nothing that may stand anywhere is the
name of one. -/
inductive IsShaped : Tree → Prop where
  | leaf {field : Option Field} {kind : LeafKind} {lead text : String}
      (extra : (leaf field kind lead text).isExtra = true → field = none) :
      IsShaped (leaf field kind lead text)
  | missing {text : String} : IsShaped (missing text)
  | node {field : Option Field} {kind : NodeKind} {children : List Tree}
      (declares : kind.isDeclaration = true → NamedFirst children)
      (plain : ∀ name, kind = .phrase name → name ∉ ownKinds)
      (extra : kind = .error → field = none)
      (children_shaped : ∀ child ∈ children, IsShaped child) :
      IsShaped (node field kind children)

end Tree

/-! ## Summaries -/

inductive Summary where
  | unnamed
  | named
  | unknown
  deriving DecidableEq

namespace Summary

def add (summary : Summary) (field : Option Field) (isSpecifier : Bool) : Summary :=
  match summary with
  | .unnamed =>
      if isSpecifier then .unknown
      else if field = some .name then .named
      else .unnamed
  | summary => summary

def addInherited : Summary → Summary
  | .unnamed => .unknown
  | summary => summary

def ends (summary : Summary) : NodeKind → Bool
  | .typeDeclaration | .protocolDeclaration => summary = .named
  | .error => false
  | .phrase name => !ownKinds.contains name
  | _ => true

def le (less summary : Summary) : Bool :=
  less = .unknown || less = summary

structure Holds (summary : Summary) (trees : List Tree) : Prop where
  unnamed : summary = .unnamed → Tree.Unnamed trees
  named : summary = .named → Tree.NamedFirst trees

variable {summary less : Summary} {trees : List Tree} {tree : Tree} {kind : NodeKind}

theorem holds_unnamed : unnamed.Holds [] where
  unnamed _ := nofun
  named := nofun

theorem holds_unknown (trees : List Tree) : unknown.Holds trees where
  unnamed := nofun
  named := nofun

theorem Holds.add {field : Option Field} {isSpecifier : Bool} (holds : summary.Holds trees)
    (names : tree.field? = some .name ↔ field = some .name)
    (specifies : tree.isSpecifier = isSpecifier) :
    (summary.add field isSpecifier).Holds (trees ++ [tree]) := by
  cases summary with
  | unnamed =>
      have before := holds.unnamed rfl
      rw [Summary.add]
      split_ifs with specified named
      · exact holds_unknown _
      · refine ⟨nofun, fun _ => ?_⟩
        have plain : tree.isSpecifier = false := by simpa [specifies] using specified
        exact ⟨trees, tree, [], rfl, before, names.mpr named, plain⟩
      · refine ⟨fun _ other listed => ?_, nofun⟩
        rcases List.mem_append.mp listed with older | newest
        · exact before other older
        · cases List.mem_singleton.mp newest
          exact ⟨fun name => named (names.mp name), by simpa [specifies] using specified⟩
  | named =>
      obtain ⟨front, name, back, rfl, before⟩ := holds.named rfl
      exact ⟨nofun, fun _ => ⟨front, name, back ++ [tree], by simp, before⟩⟩
  | unknown => exact holds_unknown _

/-- A comment or an error changes nothing that is known. -/
theorem Holds.add_extra (holds : summary.Holds trees) (extra : tree.isExtra = true)
    (shaped : tree.IsShaped) : summary.Holds (trees ++ [tree]) where
  unnamed same := by
    intro other listed
    rcases List.mem_append.mp listed with older | newest
    · exact holds.unnamed same other older
    · cases List.mem_singleton.mp newest
      cases shaped with
      | leaf bare => simp [Tree.field?, bare extra, Tree.isSpecifier]
      | missing => cases extra
      | @node field kind children declares plain bare below =>
          cases kind <;> cases extra
          simp [Tree.field?, bare rfl, Tree.isSpecifier]
  named same := by
    obtain ⟨front, name, back, rfl, before, named⟩ := holds.named same
    exact ⟨front, name, back ++ [tree], by simp, before, named⟩

theorem Holds.isShaped_node {field : Option Field} (holds : summary.Holds trees)
    (ended : summary.ends kind = true) (shaped : ∀ tree ∈ trees, tree.IsShaped) :
    (Tree.node field kind trees).IsShaped := by
  refine .node (fun declares => holds.named ?_) (fun name same => ?_) (fun error => ?_) shaped
  · cases kind <;> first | exact of_decide_eq_true ended | cases declares
  · subst same
    simpa [ends] using ended
  · rw [error] at ended
    cases ended

end Summary

end Lineage.Source
