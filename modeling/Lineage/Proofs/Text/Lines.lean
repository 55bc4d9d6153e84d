import Lineage.Text.WhiteSpace
import Mathlib.Data.List.Basic

/-!
# Lines

Lines that hold no line break come back when the text made of them is cut at its line breaks,
whether each line ends with a break or breaks only stand between lines.
-/

namespace Lineage.Text

variable {cut : Char → Bool} {separator : Char} {piece : List Char} {lines : List (List Char)}

theorem pieces_cons_of_not_cut {c : Char} (kept : cut c = false) {rest first : List Char}
    {others : List (List Char)} (h : pieces cut rest = first :: others) :
    pieces cut (c :: rest) = (c :: first) :: others := by
  simp [pieces, kept, h]

theorem pieces_append_cut (stop : cut separator = true) (front rest : List Char) :
    pieces cut (front ++ separator :: rest) = pieces cut front ++ pieces cut rest := by
  induction front with
  | nil => simp [pieces, stop]
  | cons c front ih =>
      obtain ⟨first, others, parted⟩ := List.exists_cons_of_ne_nil (pieces_ne_nil cut front)
      simp only [List.cons_append, pieces, ih, parted]
      split <;> rfl

theorem pieces_eq_singleton (whole : ∀ c ∈ piece, cut c = false) : pieces cut piece = [piece] := by
  induction piece with
  | nil => rfl
  | cons c piece ih =>
      exact pieces_cons_of_not_cut (whole c (.head _)) (ih fun d within => whole d (.tail _ within))

theorem pieces_append_cons (whole : ∀ c ∈ piece, cut c = false) (stop : cut separator = true)
    (rest : List Char) : pieces cut (piece ++ separator :: rest) = piece :: pieces cut rest := by
  rw [pieces_append_cut stop, pieces_eq_singleton whole]
  rfl

/-- A text has no cut, or it has a first one. -/
theorem cut_induction {motive : List Char → Prop} (cut : Char → Bool)
    (whole : ∀ line, (∀ c ∈ line, cut c = false) → motive line)
    (parted : ∀ line c rest, (∀ d ∈ line, cut d = false) → cut c = true → motive rest →
      motive (line ++ c :: rest))
    (text : List Char) : motive text := by
  cases found : text.find? cut with
  | none => exact whole text (by simpa using found)
  | some c =>
      obtain ⟨stop, line, rest, split, before⟩ := List.find?_eq_some_iff_append.mp found
      have shorter : rest.length < text.length := by
        rw [split, List.length_append, List.length_cons]
        omega
      rw [split]
      exact parted line c rest (by simpa using before) stop (cut_induction cut whole parted rest)
termination_by text.length

theorem not_cut_of_mem_pieces {text : List Char} :
    ∀ piece ∈ pieces cut text, ∀ c ∈ piece, cut c = false := by
  induction text using cut_induction cut with
  | whole line kept =>
      rw [pieces_eq_singleton kept]
      exact List.forall_mem_singleton.mpr kept
  | parted line c rest kept stop ih =>
      rw [pieces_append_cons kept stop]
      exact List.forall_mem_cons.mpr ⟨kept, ih⟩

theorem joinWith_append {second : List (List Char)} (more : second ≠ []) (separator : List Char)
    (first : List (List Char)) :
    joinWith separator (first ++ second) =
      first.flatMap (· ++ separator) ++ joinWith separator second := by
  induction first with
  | nil => rfl
  | cons piece first ih =>
      obtain ⟨next, others, joined⟩ := List.exists_cons_of_ne_nil
        (List.append_ne_nil_of_right_ne_nil first more)
      rw [List.cons_append, joined, joinWith_cons_cons, ← joined, ih, List.flatMap_cons]
      simp only [List.append_assoc]

theorem mem_joinWith {between : List Char} {c : Char} (within : c ∈ joinWith between lines) :
    c ∈ between ∨ ∃ line ∈ lines, c ∈ line := by
  induction lines with
  | nil => simp at within
  | cons line rest ih =>
      cases rest with
      | nil => exact .inr ⟨line, .head _, within⟩
      | cons next others =>
          rw [joinWith_cons_cons, List.mem_append, List.mem_append] at within
          rcases within with (within | within) | within
          · exact .inr ⟨line, .head _, within⟩
          · exact .inl within
          · obtain inside | ⟨line', listed, inside⟩ := ih within
            · exact .inl inside
            · exact .inr ⟨line', .tail _ listed, inside⟩

theorem toList_intercalate (separator : String) (texts : List String) :
    (String.intercalate separator texts).toList =
      joinWith separator.toList (texts.map String.toList) := by
  induction texts with
  | nil => simp
  | cons text texts ih =>
      cases texts with
      | nil => simp
      | cons next others =>
          rw [String.intercalate_cons_cons, String.toList_append, String.toList_append, ih]
          rfl

def Unbroken (lines : List (List Char)) : Prop :=
  ∀ line ∈ lines, '\n' ∉ line

instance decidableUnbroken (lines : List (List Char)) : Decidable (Unbroken lines) :=
  inferInstanceAs (Decidable (∀ line ∈ lines, '\n' ∉ line))

theorem Unbroken.append {others : List (List Char)} (first : Unbroken lines)
    (second : Unbroken others) : Unbroken (lines ++ others) := by
  intro line listed
  rcases List.mem_append.mp listed with listed | listed
  · exact first line listed
  · exact second line listed

theorem unbroken_map {α : Type} {write : α → List Char} (unbroken : ∀ value, '\n' ∉ write value)
    (values : List α) : Unbroken (values.map write) := by
  intro line listed
  obtain ⟨value, -, rfl⟩ := List.mem_map.mp listed
  exact unbroken value

theorem not_cut_of_unbroken (unbroken : Unbroken lines) {line : List Char} (listed : line ∈ lines) :
    ∀ c ∈ line, (c == '\n') = false := by
  intro c within
  have differs : c ≠ '\n' := fun same => unbroken line listed (same ▸ within)
  simp [differs]

theorem pieces_flatMap_append (unbroken : Unbroken lines) (rest : List Char) :
    pieces (· == '\n') (lines.flatMap (· ++ ['\n']) ++ rest) = lines ++ pieces (· == '\n') rest := by
  induction lines with
  | nil => rfl
  | cons line lines ih =>
      have first := not_cut_of_unbroken unbroken (.head _)
      have others : Unbroken lines := fun other listed => unbroken other (.tail _ listed)
      simp only [List.flatMap_cons, List.append_assoc, List.cons_append, List.nil_append]
      rw [pieces_append_cons first rfl, ih others]

theorem flatMap_append_eq_joinWith {between : List Char} (some_line : lines ≠ []) :
    lines.flatMap (· ++ between) = joinWith between lines ++ between := by
  obtain rfl | ⟨others, last, rfl⟩ := List.eq_nil_or_concat' lines
  · exact absurd rfl some_line
  · rw [joinWith_append (List.cons_ne_nil _ _), joinWith_singleton]
    simp

theorem joinWith_append_append {between : List Char} {first second : List (List Char)}
    (some_line : first ≠ []) (more : second ≠ []) :
    joinWith between (first ++ second) =
      joinWith between first ++ between ++ joinWith between second := by
  rw [joinWith_append more, flatMap_append_eq_joinWith some_line]

theorem pieces_joinWith (unbroken : Unbroken lines) (some_line : lines ≠ []) :
    pieces (· == '\n') (joinWith ['\n'] lines) = lines := by
  obtain rfl | ⟨others, last, rfl⟩ := List.eq_nil_or_concat' lines
  · exact absurd rfl some_line
  · have unbroken' : Unbroken others :=
      fun line listed => unbroken line (List.mem_append_left _ listed)
    have whole := not_cut_of_unbroken unbroken (List.mem_append_right others (.head _))
    rw [joinWith_append (List.cons_ne_nil _ _), pieces_flatMap_append unbroken', joinWith_singleton,
      pieces_eq_singleton whole]

end Lineage.Text
