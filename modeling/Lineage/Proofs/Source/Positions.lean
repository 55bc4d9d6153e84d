import Lineage.Source.Node
import Lineage.Proofs.Text.Lines

/-!
# Positions and slices

A position after a text tells how many lines the text has and how far its last line reaches, so that
it is one of every longer text.  Between the bytes at which two prefixes of a text end there is a
slice of it.
-/

namespace Lineage.Source

/-! ## Lines of a text -/

def newlines (text : String) : Nat := text.toList.count '\n'

@[simp] theorem newlines_append (front back : String) :
    newlines (front ++ back) = newlines front + newlines back := by
  rw [newlines, String.toList_append, List.count_append]
  rfl

@[simp] theorem newlines_empty : newlines "" = 0 := rfl

namespace Position

theorem line_foldl_next (position : Position) (text : List Char) :
    (text.foldl next position).line = position.line + text.count '\n' := by
  induction text generalizing position with
  | nil => rfl
  | cons c text ih =>
      rw [List.foldl_cons, ih, List.count_cons]
      by_cases broken : c = '\n'
      · simp only [next, broken, if_true, beq_self_eq_true]
        omega
      · simp [next, broken]

@[simp] theorem line_after (position : Position) (text : String) :
    (position.after text).line = position.line + newlines text :=
  line_foldl_next position text.toList

theorem after_append (position : Position) (front back : String) :
    position.after (front ++ back) = (position.after front).after back := by
  rw [after, String.toList_append, List.foldl_append]
  rfl

end Position

/-! ## Positions -/

def linesOf (text : String) : List (List Char) :=
  Text.pieces (· == '\n') text.toList

theorem utf8ByteSize_ofList_cons (c : Char) (text : List Char) :
    (String.ofList (c :: text)).utf8ByteSize = c.utf8Size + (String.ofList text).utf8ByteSize := by
  rw [String.ofList_cons, String.utf8ByteSize_append, String.utf8ByteSize_singleton]

theorem exists_line (front back : List Char) (position : Position) :
    ∃ line, (Text.pieces (· == '\n') (front ++ back))[front.count '\n']? = some line ∧
      (front.foldl Position.next position).column ≤
        (if front.count '\n' = 0 then position.column else 0) +
          (String.ofList line).utf8ByteSize := by
  -- Until the first line feed the column goes on from that of `position`, after it from the start.
  induction front generalizing position with
  | nil =>
      obtain ⟨line, others, same⟩ :=
        List.exists_cons_of_ne_nil (Text.pieces_ne_nil (· == '\n') back)
      refine ⟨line, ?_, ?_⟩
      · rw [List.nil_append, same]
        rfl
      · simp
  | cons c front ih =>
      obtain ⟨line, found, short⟩ := ih (position.next c)
      by_cases broken : c = '\n'
      · subst broken
        refine ⟨line, ?_, ?_⟩
        · simpa [Text.pieces] using found
        · simp only [Position.next, if_true] at short
          rw [List.foldl_cons, Position.next, if_pos rfl, List.count_cons_self]
          split_ifs at short ⊢ <;> omega
      · obtain ⟨first, others, same⟩ :=
          List.exists_cons_of_ne_nil (Text.pieces_ne_nil (· == '\n') (front ++ back))
        have longer : Text.pieces (· == '\n') (c :: (front ++ back)) = (c :: first) :: others := by
          refine Text.pieces_cons_of_not_cut ?_ same
          exact beq_false_of_ne broken
        rw [same] at found
        rw [List.foldl_cons, List.cons_append, longer, List.count_cons_of_ne broken]
        simp only [Position.next, if_neg broken] at short ⊢
        split_ifs at short ⊢ with unbroken
        · rw [unbroken] at found ⊢
          cases found
          refine ⟨c :: line, rfl, ?_⟩
          rw [utf8ByteSize_ofList_cons]
          omega
        · refine ⟨line, ?_, short⟩
          obtain ⟨count, more⟩ := Nat.exists_eq_succ_of_ne_zero unbroken
          rw [more] at found ⊢
          exact found

theorem position_in (front back : String) :
    let position := Position.start.after front
    position.line ≤ newlines (front ++ back) ∧
      ∃ line, (linesOf (front ++ back))[position.line]? = some line ∧
        position.column ≤ (String.ofList line).utf8ByteSize := by
  obtain ⟨line, found, short⟩ := exists_line front.toList back.toList .start
  have number : (Position.start.after front).line = newlines front := by
    rw [Position.line_after]
    exact Nat.zero_add _
  refine ⟨?_, line, ?_, ?_⟩
  · rw [number, newlines_append]
    exact Nat.le_add_right _ _
  · rw [number, linesOf, String.toList_append]
    exact found
  · have zero : Position.start.column = 0 := rfl
    rw [zero, ite_self, Nat.zero_add] at short
    exact short

/-! ## Slices -/

theorem splitBytes?_append (front back : List Char) :
    splitBytes? (String.ofList front).utf8ByteSize (front ++ back) = some (front, back) := by
  induction front with
  | nil => simp [splitBytes?]
  | cons c front ih =>
      rw [utf8ByteSize_ofList_cons]
      have wide : 0 < c.utf8Size := c.utf8Size_pos
      obtain ⟨count, same⟩ :
          ∃ count, c.utf8Size + (String.ofList front).utf8ByteSize = count + 1 :=
        ⟨c.utf8Size + (String.ofList front).utf8ByteSize - 1, by omega⟩
      have rest : count + 1 - c.utf8Size = (String.ofList front).utf8ByteSize := by omega
      rw [same, List.cons_append, splitBytes?, if_pos (by omega), rest, ih]
      rfl

theorem eq_append_of_splitBytes? {count : Nat} {text front back : List Char}
    (split : splitBytes? count text = some (front, back)) :
    text = front ++ back ∧ (String.ofList front).utf8ByteSize = count := by
  fun_induction splitBytes? count text generalizing front with
  | case1 text =>
      cases split
      simp
  | case2 => cases split
  | case3 count c rest fits ih =>
      obtain ⟨⟨before, after⟩, parted, same⟩ := Option.map_eq_some_iff.mp split
      cases same
      obtain ⟨rfl, size⟩ := ih parted
      refine ⟨rfl, ?_⟩
      rw [utf8ByteSize_ofList_cons, size]
      omega
  | case4 => cases split

theorem slice?_append (front slice back : String) :
    slice? (front ++ (slice ++ back)) front.utf8ByteSize (front ++ slice).utf8ByteSize =
      some slice := by
  have first := splitBytes?_append front.toList (slice ++ back).toList
  have second := splitBytes?_append slice.toList back.toList
  rw [String.ofList_toList] at first second
  rw [slice?, String.utf8ByteSize_append, if_pos (Nat.le_add_right _ _), Nat.add_sub_cancel_left,
    String.toList_append, first, Option.bind_some, String.toList_append, second, Option.map_some,
    String.ofList_toList]

theorem utf8ByteSize_of_slice? {text slice : String} {start stop : Nat}
    (sliced : slice? text start stop = some slice) : start + slice.utf8ByteSize = stop := by
  rw [slice?] at sliced
  split_ifs at sliced with ordered
  obtain ⟨⟨front, rest⟩, -, sliced⟩ := Option.bind_eq_some_iff.mp sliced
  obtain ⟨⟨middle, back⟩, split, rfl⟩ := Option.map_eq_some_iff.mp sliced
  have size := (eq_append_of_splitBytes? split).2
  dsimp only
  omega

end Lineage.Source
