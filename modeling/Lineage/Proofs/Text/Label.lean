import Lineage.Proofs.Text.Quoted
import Lineage.Text.Label

/-!
# Reading labels back

A label reads as the segments of the name, one per line.  The segments are the name in pieces,
so that a label holds nothing that the name does not hold.
-/

namespace Lineage.Text

variable {part : List Char}

theorem flatten_segments (name : List Char) : (segments name).flatten = name := by
  fun_induction segments name with
  | case1 => rfl
  | case2 c => rfl
  | case3 c d rest empty ih =>
      rw [empty] at ih
      exact absurd ih (by simp)
  | case4 c d rest segment others cut seam ih => rw [← ih, cut]; simp
  | case5 c d rest segment others cut seam ih => rw [← ih, cut]; simp

theorem map_toList_labelSegments (name : String) :
    (labelSegments name).map String.toList = segments name.toList := by
  simp [labelSegments]

theorem written_joinWith (values : List (List Char)) :
    Quoted.Written (joinWith ['\\', 'n'] (values.map Quoted.escape)) (joinWith ['\n'] values) := by
  induction values with
  | nil => exact .nil
  | cons value values ih =>
      cases values with
      | nil => exact Quoted.written_escape value
      | cons next others =>
          have lineFeed : Quoted.Written ['\\', 'n'] ['\n'] := .escaped (by decide) .nil
          exact ((Quoted.written_escape value).append lineFeed).append ih

theorem written_label (name : List Char) :
    Quoted.Written (label name) (joinWith ['\n'] (segments name)) :=
  written_joinWith (segments name)

theorem newline_notMem_label (name : List Char) : '\n' ∉ label name :=
  (written_label name).unbroken.1

theorem exists_segment_of_infix_label (nonempty : part ≠ []) (divides : ['\\', 'n'].Disjoint part)
    {name : List Char} (within : part <:+: label name) :
    ∃ segment ∈ segments name, part <:+: Quoted.escape segment := by
  rw [label, infix_joinWith_iff nonempty divides (by simp)] at within
  obtain ⟨body, listed, within⟩ := within
  obtain ⟨segment, segmented, rfl⟩ := List.mem_map.mp listed
  exact ⟨segment, segmented, within⟩

theorem infix_of_infix_segment {segment name : List Char} (segmented : segment ∈ segments name)
    (within : part <:+: segment) : part <:+: name := by
  rw [← flatten_segments name]
  exact within.trans (List.infix_of_mem_flatten segmented)

theorem infix_of_infix_label (nonempty : part ≠ []) (plain : Quoted.special.Disjoint part)
    {name : List Char} (within : part <:+: label name) : part <:+: name := by
  have divides : ['\\', 'n'].Disjoint part := List.disjoint_of_subset_left (by decide) plain
  obtain ⟨segment, segmented, within⟩ := exists_segment_of_infix_label nonempty divides within
  rw [Quoted.infix_escape_iff nonempty plain] at within
  exact infix_of_infix_segment segmented within

theorem not_endTag_infix_label (name : List Char) : ¬['<', '/'] <:+: label name := by
  intro within
  obtain ⟨segment, -, within⟩ := exists_segment_of_infix_label (by simp) (by decide) within
  exact Quoted.not_endTag_infix_escape segment within

end Lineage.Text
