import Lineage.Source.Tree

/-!
# Sources of trees

The source of a row of trees is that of its parts, and the source of a tree is its text after the
white space that leads up to it.
-/

namespace Lineage.Source.Tree

theorem sources_append (front back : List Tree) :
    sources (front ++ back) = sources front ++ sources back := by
  induction front with
  | nil => rw [List.nil_append, sources, String.empty_append]
  | cons tree front ih => rw [List.cons_append, sources, sources, ih, String.append_assoc]

theorem induction {motive : Tree → Prop}
    (leaf : ∀ field kind lead text, motive (.leaf field kind lead text))
    (missing : ∀ text, motive (.missing text))
    (node : ∀ field kind children, (∀ child ∈ children, motive child) →
      motive (.node field kind children)) (tree : Tree) : motive tree := by
  refine Tree.rec (motive_2 := fun trees => ∀ tree ∈ trees, motive tree) leaf missing node nofun ?_
    tree
  intro first rest here others tree listed
  rcases List.mem_cons.mp listed with rfl | listed
  · exact here
  · exact others tree listed

theorem lead_append_text (tree : Tree) : tree.lead ++ tree.text = tree.source := by
  induction tree using Tree.induction with
  | leaf field kind lead text => rfl
  | missing text => rfl
  | node field kind children ih =>
      cases children with
      | nil => rfl
      | cons first rest =>
          rw [lead, text, source, texts, sources, ← String.append_assoc, ih first (by simp)]

end Lineage.Source.Tree
