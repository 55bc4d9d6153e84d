import Mathlib.Data.List.Forall2

/-!
# Rows that may fail

A function that may fail is applied to a whole row, which fails as soon as it does once.  Where it
does not, every result is that of an item.
-/

namespace Lineage

variable {α β : Type} {f : α → Option β} {items : List α} {results : List β}

theorem mapM_eq_some_iff :
    items.mapM f = some results ↔
        List.Forall₂ (fun item result => f item = some result) items results := by
  induction items generalizing results with
  | nil => simp [eq_comm]
  | cons item items ih =>
      rw [List.mapM_cons, List.forall₂_cons_left_iff]
      simp only [Option.bind_eq_bind, Option.bind_eq_some_iff, Option.pure_def,
        Option.some.injEq, ih]
      constructor
      · rintro ⟨first, here, rest, below, rfl⟩
        exact ⟨first, rest, here, below, rfl⟩
      · rintro ⟨first, rest, here, below, rfl⟩
        exact ⟨first, here, rest, below, rfl⟩

theorem isSome_mapM_iff : (items.mapM f).isSome ↔ ∀ item ∈ items, (f item).isSome := by
  induction items with
  | nil => simp
  | cons item items ih =>
      rw [List.mapM_cons, List.forall_mem_cons, ← ih]
      cases f item <;> cases items.mapM f <;> simp

theorem exists_of_mem_right {relates : α → β → Prop} {result : β}
    (row : List.Forall₂ relates items results) (listed : result ∈ results) :
    ∃ item ∈ items, relates item result := by
  induction row with
  | nil => cases listed
  | cons here _ ih =>
      rcases List.mem_cons.mp listed with rfl | listed
      · exact ⟨_, .head _, here⟩
      · obtain ⟨item, among, related⟩ := ih listed
        exact ⟨item, .tail _ among, related⟩

end Lineage
