import Lineage.Text.WhiteSpace
import Mathlib.Data.List.Infix

/-!
# Texts within texts

Where a text lies in one that is put together.  A character that the text does not have
divides: the text lies on one side of it or on the other.
-/

namespace Lineage.Text

variable {part first block : List Char} {c : Char}

instance decidableDisjoint (first second : List Char) : Decidable (first.Disjoint second) :=
  decidable_of_iff (first.all fun c => !second.contains c) (by simp [List.disjoint_left])

theorem prefix_append_cons_iff (foreign : c ∉ part) (first second : List Char) :
    part <+: first ++ c :: second ↔ part <+: first := by
  induction first generalizing part with
  | nil =>
      cases part with
      | nil => simp
      | cons d part =>
          have differs : d ≠ c := fun same => foreign (by simp [same])
          simp [List.cons_prefix_cons, differs]
  | cons e first ih =>
      cases part with
      | nil => simp
      | cons d part =>
          have foreign' : c ∉ part := fun within => foreign (.tail _ within)
          simp only [List.cons_append, List.cons_prefix_cons, ih foreign']

theorem infix_append_cons_iff (foreign : c ∉ part) (first second : List Char) :
    part <:+: first ++ c :: second ↔ part <:+: first ∨ part <:+: second := by
  induction first with
  | nil =>
      have here := prefix_append_cons_iff foreign [] second
      rw [List.nil_append] at here ⊢
      rw [List.infix_cons_iff, here, List.prefix_nil, List.infix_nil]
  | cons e first ih =>
      have here := prefix_append_cons_iff foreign (e :: first) second
      rw [List.cons_append] at here ⊢
      rw [List.infix_cons_iff, here, ih, List.infix_cons_iff, or_assoc]

/-- A block of characters that a text does not have divides as one such character does. -/
theorem infix_append_block_append_iff (nonempty : part ≠ []) (foreign : block.Disjoint part)
    (some_character : block ≠ []) (first rest : List Char) :
    part <:+: first ++ block ++ rest ↔ part <:+: first ∨ part <:+: rest := by
  induction block generalizing first with
  | nil => exact absurd rfl some_character
  | cons d block ih =>
      obtain ⟨here, foreign'⟩ := List.disjoint_cons_left.mp foreign
      rw [List.append_assoc, List.cons_append, infix_append_cons_iff here]
      cases block with
      | nil => rfl
      | cons e block =>
          have others := ih foreign' (by simp) []
          rw [List.nil_append] at others
          rw [others]
          simp [nonempty]

theorem infix_block_append_iff (nonempty : part ≠ []) (foreign : block.Disjoint part)
    (rest : List Char) : part <:+: block ++ rest ↔ part <:+: rest := by
  cases block with
  | nil => rfl
  | cons d block =>
      have divided := infix_append_block_append_iff nonempty foreign (by simp) [] rest
      rw [List.nil_append] at divided
      rw [divided]
      simp [nonempty]

theorem infix_append_block_iff (nonempty : part ≠ []) (foreign : block.Disjoint part)
    (first : List Char) : part <:+: first ++ block ↔ part <:+: first := by
  cases block with
  | nil => rw [List.append_nil]
  | cons d block =>
      have divided := infix_append_block_append_iff nonempty foreign (by simp) first []
      rw [List.append_nil] at divided
      rw [divided]
      simp [nonempty]

theorem infix_joinWith_iff (nonempty : part ≠ []) {separator : List Char}
    (foreign : separator.Disjoint part) (some_character : separator ≠ [])
    (pieces : List (List Char)) :
    part <:+: joinWith separator pieces ↔ ∃ piece ∈ pieces, part <:+: piece := by
  induction pieces with
  | nil => simp [nonempty]
  | cons piece pieces ih =>
      cases pieces with
      | nil => simp
      | cons next others =>
          rw [joinWith_cons_cons,
            infix_append_block_append_iff nonempty foreign some_character, ih]
          simp

end Lineage.Text
