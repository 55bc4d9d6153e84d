import Lineage.Proofs.Text.Lines
import Mathlib.Data.List.DropRight

/-!
# Text on one line

A line break, with whatever white space stands around it, divides the lines of a text into those
before it and those after it.  From this one equation it follows that the layout of a break does
not show in the collapsed text, while the white space inside a line is left alone.
-/

namespace Lineage.Text

variable {text line front back space : List Char} {lines : List (List Char)} {c : Char}

/-! ## Trimming -/

structure Trimmed (text : List Char) : Prop where
  head : ∀ c ∈ text.head?, isWhiteSpace c = false
  last : ∀ c ∈ text.getLast?, isWhiteSpace c = false

theorem trim_eq_rdropWhile (text : List Char) :
    trim text = (text.dropWhile isWhiteSpace).rdropWhile isWhiteSpace := rfl

theorem exists_trim_between (text : List Char) :
    ∃ before after, text = before ++ trim text ++ after ∧
      (∀ c ∈ before, isWhiteSpace c = true) ∧ ∀ c ∈ after, isWhiteSpace c = true := by
  refine ⟨text.takeWhile isWhiteSpace, (text.dropWhile isWhiteSpace).rtakeWhile isWhiteSpace,
    ?_, fun c within => List.mem_takeWhile_imp within,
    fun c within => List.mem_rtakeWhile_imp within⟩
  rw [trim_eq_rdropWhile, List.append_assoc, List.rdropWhile_append_rtakeWhile,
    List.takeWhile_append_dropWhile]

theorem mem_of_mem_trim (within : c ∈ trim text) : c ∈ text := by
  obtain ⟨before, after, split, -, -⟩ := exists_trim_between text
  rw [split]
  simp [within]

theorem trimmed_trim (text : List Char) : Trimmed (trim text) where
  head c first := by
    have stopped := List.head?_dropWhile_not isWhiteSpace text
    obtain ⟨rest, longer⟩ : trim text <+: text.dropWhile isWhiteSpace :=
      List.rdropWhile_prefix isWhiteSpace _
    rw [← longer, List.head?_append, Option.mem_def.mp first] at stopped
    simpa using stopped
  last c last := by
    have stopped := List.head?_dropWhile_not isWhiteSpace (text.dropWhile isWhiteSpace).reverse
    rw [trim, List.getLast?_reverse, Option.mem_def] at last
    rw [last] at stopped
    simpa using stopped

theorem trim_eq_self_iff : trim text = text ↔ Trimmed text := by
  constructor
  · intro same
    exact same ▸ trimmed_trim text
  · intro trimmed
    have kept : text.dropWhile isWhiteSpace = text := by
      cases text with
      | nil => rfl
      | cons c rest => exact List.dropWhile_cons_of_neg (by simp [trimmed.head c rfl])
    rw [trim_eq_rdropWhile, kept, List.rdropWhile_eq_self_iff]
    intro some_character
    simp [trimmed.last _ (List.getLast?_eq_getLast_of_ne_nil some_character)]

instance decidableTrimmed (text : List Char) : Decidable (Trimmed text) :=
  decidable_of_iff _ trim_eq_self_iff

theorem trim_cons (blank : isWhiteSpace c = true) (text : List Char) :
    trim (c :: text) = trim text := by
  rw [trim, List.dropWhile_cons_of_pos blank, trim]

theorem trim_concat (blank : isWhiteSpace c = true) (text : List Char) :
    trim (text ++ [c]) = trim text := by
  rw [trim_eq_rdropWhile, trim_eq_rdropWhile, List.dropWhile_append]
  split
  · rename_i none
    rw [List.isEmpty_iff.mp none, List.dropWhile_cons_of_pos blank]
    rfl
  · exact List.rdropWhile_concat_pos _ _ _ blank

/-! ## Ink -/

/-- The characters of a text that are no white space, in their order. -/
def ink (text : List Char) : List Char :=
  text.filter fun c => !isWhiteSpace c

@[simp] theorem ink_nil : ink [] = [] := rfl

@[simp] theorem ink_append (first second : List Char) :
    ink (first ++ second) = ink first ++ ink second :=
  List.filter_append first second

theorem ink_eq_nil (blank : ∀ c ∈ text, isWhiteSpace c = true) : ink text = [] := by
  simpa [ink] using blank

@[simp] theorem ink_trim (text : List Char) : ink (trim text) = ink text := by
  obtain ⟨before, after, split, blank, blank'⟩ := exists_trim_between text
  conv_rhs => rw [split, ink_append, ink_append, ink_eq_nil blank, ink_eq_nil blank']
  simp

theorem ink_joinWith (lines : List (List Char)) :
    ink (joinWith [' '] lines) = lines.flatMap ink := by
  induction lines with
  | nil => rfl
  | cons line rest ih =>
      cases rest with
      | nil => simp
      | cons next others =>
          have blank : ink [' '] = [] := by decide
          rw [joinWith_cons_cons, ink_append, ink_append, ih, blank, List.append_nil]
          rfl

/-! ## Lines -/

def OneLine (text : List Char) : Prop :=
  ∀ c ∈ text, isLineBreak c = false

instance decidableOneLine (text : List Char) : Decidable (OneLine text) :=
  List.decidableBAll _ _

theorem solidLines_of_oneLine (unbroken : OneLine line) :
    solidLines line = [trim line].filter (!·.isEmpty) := by
  rw [solidLines, pieces_eq_singleton unbroken]
  rfl

theorem solidLines_append_cut (stop : isLineBreak c = true) (front back : List Char) :
    solidLines (front ++ c :: back) = solidLines front ++ solidLines back := by
  rw [solidLines, pieces_append_cut stop, List.map_append, List.filter_append]
  rfl

theorem solidLines_cons (blank : isWhiteSpace c = true) (text : List Char) :
    solidLines (c :: text) = solidLines text := by
  cases stop : isLineBreak c with
  | true => exact solidLines_append_cut stop [] text
  | false =>
      obtain ⟨first, others, cut⟩ := List.exists_cons_of_ne_nil (pieces_ne_nil isLineBreak text)
      rw [solidLines, solidLines, pieces_cons_of_not_cut stop cut, cut, List.map_cons,
        List.map_cons, trim_cons blank]

theorem solidLines_concat (blank : isWhiteSpace c = true) (text : List Char) :
    solidLines (text ++ [c]) = solidLines text := by
  cases stop : isLineBreak c with
  | true =>
      rw [solidLines_append_cut stop]
      exact List.append_nil _
  | false =>
      -- Only the last line grows, so that the lines before it are taken off first.
      induction text using cut_induction isLineBreak with
      | whole line unbroken =>
          have longer : OneLine (line ++ [c]) :=
            List.forall_mem_append.mpr ⟨unbroken, List.forall_mem_singleton.mpr stop⟩
          rw [solidLines_of_oneLine longer, solidLines_of_oneLine unbroken, trim_concat blank]
      | parted line d rest _ stop' ih =>
          rw [List.append_assoc, List.cons_append, solidLines_append_cut stop', ih,
            solidLines_append_cut stop']

theorem solidLines_blank_append (blank : ∀ c ∈ space, isWhiteSpace c = true) (text : List Char) :
    solidLines (space ++ text) = solidLines text := by
  induction space with
  | nil => rfl
  | cons c space ih =>
      obtain ⟨here, later⟩ := List.forall_mem_cons.mp blank
      rw [List.cons_append, solidLines_cons here, ih later]

theorem solidLines_append_blank (blank : ∀ c ∈ space, isWhiteSpace c = true) (text : List Char) :
    solidLines (text ++ space) = solidLines text := by
  induction space generalizing text with
  | nil => rw [List.append_nil]
  | cons c space ih =>
      obtain ⟨here, later⟩ := List.forall_mem_cons.mp blank
      rw [List.append_cons, ih later, solidLines_concat here]

structure BreaksLine (space : List Char) : Prop where
  blank : ∀ c ∈ space, isWhiteSpace c = true
  broken : ∃ c ∈ space, isLineBreak c = true

theorem breaksLine_iff :
    space.all isWhiteSpace = true ∧ space.any isLineBreak = true ↔ BreaksLine space := by
  rw [List.all_eq_true, List.any_eq_true]
  exact ⟨fun ⟨blank, broken⟩ => ⟨blank, broken⟩, fun breaks => ⟨breaks.blank, breaks.broken⟩⟩

instance decidableBreaksLine (space : List Char) : Decidable (BreaksLine space) :=
  decidable_of_iff _ breaksLine_iff

theorem solidLines_append_break (breaks : BreaksLine space) (front back : List Char) :
    solidLines (front ++ space ++ back) = solidLines front ++ solidLines back := by
  obtain ⟨c, within, stop⟩ := breaks.broken
  obtain ⟨before, after, rfl⟩ := List.append_of_mem within
  have blank := breaks.blank
  rw [List.forall_mem_append, List.forall_mem_cons] at blank
  obtain ⟨before_blank, -, after_blank⟩ := blank
  rw [List.append_assoc, List.append_assoc, List.cons_append, ← List.append_assoc,
    solidLines_append_cut stop, solidLines_append_blank before_blank,
    solidLines_blank_append after_blank]

structure Solid (line : List Char) : Prop where
  ne_nil : line ≠ []
  oneLine : OneLine line
  trimmed : Trimmed line

theorem solid_of_mem_solidLines : ∀ line ∈ solidLines text, Solid line := by
  intro line listed
  obtain ⟨known, filled⟩ := List.mem_filter.mp listed
  obtain ⟨piece, cut, rfl⟩ := List.mem_map.mp known
  exact ⟨by simpa using filled,
    fun c within => not_cut_of_mem_pieces piece cut c (mem_of_mem_trim within), trimmed_trim piece⟩

theorem flatMap_ink_pieces (text : List Char) :
    (pieces isLineBreak text).flatMap ink = ink text := by
  induction text using cut_induction isLineBreak with
  | whole line unbroken =>
      rw [pieces_eq_singleton unbroken]
      simp
  | parted line c rest unbroken stop ih =>
      have blank := isWhiteSpace_of_isLineBreak stop
      rw [pieces_append_cons unbroken stop, List.flatMap_cons, ih, ink_append]
      simp [ink, blank]

theorem flatMap_ink_filter (lines : List (List Char)) :
    (lines.filter (!·.isEmpty)).flatMap ink = lines.flatMap ink := by
  induction lines with
  | nil => rfl
  | cons line lines ih => cases line <;> simp_all

theorem flatMap_ink_solidLines (text : List Char) : (solidLines text).flatMap ink = ink text := by
  rw [solidLines, flatMap_ink_filter, List.flatMap_map]
  simp only [ink_trim]
  exact flatMap_ink_pieces text

/-! ## Lines joined -/

theorem oneLine_joinWith {between : List Char} (plain : OneLine between)
    (unbroken : ∀ line ∈ lines, OneLine line) : OneLine (joinWith between lines) := by
  intro c within
  rcases mem_joinWith within with inside | ⟨line, listed, inside⟩
  · exact plain c inside
  · exact unbroken line listed c inside

theorem trimmed_joinWith (solid : ∀ line ∈ lines, Solid line) :
    Trimmed (joinWith [' '] lines) where
  head := by
    cases lines with
    | nil => nofun
    | cons line rest =>
        obtain ⟨filled, -, trimmed⟩ := solid line (.head _)
        obtain ⟨c, line, rfl⟩ := List.exists_cons_of_ne_nil filled
        cases rest <;> exact trimmed.head
  last := by
    obtain rfl | ⟨front, line, rfl⟩ := List.eq_nil_or_concat' lines
    · nofun
    · obtain ⟨filled, -, trimmed⟩ := solid line (by simp)
      rw [joinWith_append (List.cons_ne_nil _ _), joinWith_singleton,
        List.getLast?_append_of_ne_nil _ filled]
      exact trimmed.last

/-! ## Collapsed text -/

theorem collapse_of_oneLine (unbroken : OneLine line) : collapse line = trim line := by
  rw [collapse, solidLines_of_oneLine unbroken]
  cases trim line <;> rfl

theorem collapse_eq_self (unbroken : OneLine line) (trimmed : Trimmed line) :
    collapse line = line := by
  rw [collapse_of_oneLine unbroken, trim_eq_self_iff.mpr trimmed]

theorem oneLine_collapse (text : List Char) : OneLine (collapse text) :=
  oneLine_joinWith (by decide) fun line listed => (solid_of_mem_solidLines line listed).oneLine

theorem trimmed_collapse (text : List Char) : Trimmed (collapse text) :=
  trimmed_joinWith solid_of_mem_solidLines

theorem ink_collapse (text : List Char) : ink (collapse text) = ink text := by
  rw [collapse, ink_joinWith, flatMap_ink_solidLines]

theorem collapse_eq_nil_iff : collapse text = [] ↔ solidLines text = [] := by
  constructor
  · intro none
    cases lines : solidLines text with
    | nil => rfl
    | cons line rest =>
        have solid : Solid line := solid_of_mem_solidLines line (lines ▸ List.mem_cons_self)
        rw [collapse, lines] at none
        cases rest with
        | nil => exact absurd none solid.ne_nil
        | cons next others => simp [joinWith_cons_cons] at none
  · intro none
    rw [collapse, none, joinWith_nil]

theorem collapse_append_break (breaks : BreaksLine space) (front back : List Char) :
    collapse (front ++ space ++ back) =
      joinWith [' '] ([collapse front, collapse back].filter (!·.isEmpty)) := by
  rw [collapse, solidLines_append_break breaks]
  by_cases none : solidLines front = []
  · rw [none, List.nil_append, collapse_eq_nil_iff.mpr none]
    change collapse back = _
    cases collapse back <;> rfl
  · by_cases none' : solidLines back = []
    · rw [none', List.append_nil, collapse_eq_nil_iff.mpr none']
      change collapse front = _
      cases collapse front <;> rfl
    · have filled : collapse front ≠ [] := mt collapse_eq_nil_iff.mp none
      have filled' : collapse back ≠ [] := mt collapse_eq_nil_iff.mp none'
      rw [joinWith_append_append none none']
      change collapse front ++ [' '] ++ collapse back = _
      simp [filled, filled', joinWith_cons_cons]

end Lineage.Text

namespace Lineage

open Text

theorem toList_collapseText (text : String) :
    (collapseText text).toList = collapse text.toList := by
  simp [collapseText]

theorem collapseText_eq_self {text : String} (unbroken : OneLine text.toList)
    (trimmed : Trimmed text.toList) : collapseText text = text := by
  rw [collapseText, collapse_eq_self unbroken trimmed, String.ofList_toList]

theorem collapseText_append_break {space : String} (breaks : BreaksLine space.toList)
    (front back : String) :
    collapseText (front ++ space ++ back) =
      String.intercalate " " ([collapseText front, collapseText back].filter (· ≠ "")) := by
  have texts : [collapse front.toList, collapse back.toList] =
      [collapseText front, collapseText back].map String.toList := by
    simp [toList_collapseText]
  have filled : (fun text => !text.isEmpty) ∘ String.toList = fun text => decide (text ≠ "") := by
    funext text
    rw [Bool.eq_iff_iff]
    simp
  apply String.toList_inj.mp
  rw [toList_intercalate, toList_collapseText, String.toList_append, String.toList_append,
    collapse_append_break breaks, texts, List.filter_map, filled]
  rfl

/-- A collapsed text is one line with no white space at its ends, it has the ink of the text it was
made of, and collapsing it again changes nothing.  Of a single line it leaves off the white space
at the ends and no more.  Where a line ends between two texts, it sets one space between what the
two collapse to, unless one of these is empty, and hence does not depend on the white space that
stands there. -/
theorem collapseText_exact :
    (∀ text : String,
      let collapsed := (collapseText text).toList
      OneLine collapsed ∧ Trimmed collapsed ∧ ink collapsed = ink text.toList ∧
        collapseText (collapseText text) = collapseText text) ∧
    (∀ line : String, OneLine line.toList →
      ∃ before after, line.toList = before ++ (collapseText line).toList ++ after ∧
        (∀ c ∈ before, isWhiteSpace c = true) ∧ ∀ c ∈ after, isWhiteSpace c = true) ∧
    ∀ front space back : String, BreaksLine space.toList →
      collapseText (front ++ space ++ back) =
        String.intercalate " " ([collapseText front, collapseText back].filter (· ≠ "")) ∧
      ∀ other : String, BreaksLine other.toList →
        collapseText (front ++ space ++ back) = collapseText (front ++ other ++ back) := by
  refine ⟨fun text => ?_, fun line unbroken => ?_, fun front space back breaks => ⟨?_, ?_⟩⟩
  · have unbroken := oneLine_collapse text.toList
    have trimmed := trimmed_collapse text.toList
    have inked := ink_collapse text.toList
    rw [← toList_collapseText] at unbroken trimmed inked
    exact ⟨unbroken, trimmed, inked, collapseText_eq_self unbroken trimmed⟩
  · rw [toList_collapseText, collapse_of_oneLine unbroken]
    exact exists_trim_between line.toList
  · exact collapseText_append_break breaks front back
  · intro other breaks'
    rw [collapseText_append_break breaks, collapseText_append_break breaks']

/-- A break with indentation, and one with carriage returns and a blank line.  The two spaces within
a line stay. -/
theorem collapseText_exact_of_indented :
    let front := "Dictionary<Key,\t"
    let space := "\n    "
    let other := "\r\n\t\r\n\u3000"
    let back := " Set<A,  B>> "
    BreaksLine space.toList ∧ BreaksLine other.toList ∧ OneLine back.toList ∧
      (∃ before after, back.toList = before ++ (collapseText back).toList ++ after ∧
        (∀ c ∈ before, isWhiteSpace c = true) ∧ ∀ c ∈ after, isWhiteSpace c = true) ∧
      collapseText (front ++ space ++ back) = "Dictionary<Key, Set<A,  B>>" ∧
      collapseText (front ++ space ++ back) = collapseText (front ++ other ++ back) := by
  intro front space other back
  have breaks : BreaksLine space.toList := by decide
  have breaks' : BreaksLine other.toList := by decide
  have unbroken : OneLine back.toList := by decide
  obtain ⟨-, trims, divides⟩ := collapseText_exact
  obtain ⟨joined, layout⟩ := divides front space back breaks
  refine ⟨breaks, breaks', unbroken, trims back unbroken, joined.trans ?_, layout other breaks'⟩
  decide +kernel

end Lineage
