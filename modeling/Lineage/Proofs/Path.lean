import Lineage.Path
import Lineage.Proofs.Text.Lines
import Mathlib.Data.List.TakeWhile

/-!
# Paths and names

Joining a name to a path adds one component to it, however the path is spelled, so that the
name of an entry relative to a directory is made of the names that lead to it and can be taken
apart again.
-/

namespace Lineage.Path

variable {name directory root : String} {names : List String}

/-! ## Pieces -/

theorem split_eq_pieces (text : List Char) : pieces.split text = Text.pieces (· == '/') text := by
  induction text with
  | nil => rfl
  | cons c rest ih =>
      by_cases cut : c = '/'
      · simp [pieces.split, Text.pieces, ih, cut]
      · cases parted : Text.pieces (· == '/') rest <;>
          simp [pieces.split, Text.pieces, ih, cut, parted]

theorem pieces_ne_nil (path : String) : pieces path ≠ [] := by
  rw [pieces, split_eq_pieces, ne_eq, List.map_eq_nil_iff]
  exact Text.pieces_ne_nil _ _

theorem pieces_append_solidus (first second : String) :
    pieces (first ++ "/" ++ second) = pieces first ++ pieces second := by
  have cut : Text.pieces (· == '/') (first.toList ++ '/' :: second.toList) =
      Text.pieces (· == '/') first.toList ++ Text.pieces (· == '/') second.toList :=
    Text.pieces_append_cut rfl first.toList second.toList
  simp [pieces, split_eq_pieces, cut]

theorem pieces_eq_singleton (plain : '/' ∉ name.toList) : pieces name = [name] := by
  have whole : ∀ c ∈ name.toList, (c == '/') = false := by
    intro c within
    have differs : c ≠ '/' := fun same => plain (same ▸ within)
    simp [differs]
  simp [pieces, split_eq_pieces, Text.pieces_eq_singleton whole]

theorem pieces_intercalate (some_name : names ≠ []) (plain : ∀ name ∈ names, '/' ∉ name.toList) :
    pieces (String.intercalate "/" names) = names := by
  induction names with
  | nil => exact absurd rfl some_name
  | cons name rest ih =>
      have first := pieces_eq_singleton (plain name (.head _))
      cases rest with
      | nil => simpa using first
      | cons next rest =>
          rw [String.intercalate_cons_cons, pieces_append_solidus, first,
            ih (List.cons_ne_nil _ _) fun other listed => plain other (.tail _ listed)]
          rfl

theorem intercalate_injective {others : List String} (plain : ∀ name ∈ names, '/' ∉ name.toList)
    (plainOthers : ∀ name ∈ others, '/' ∉ name.toList) (some_name : names ≠ [])
    (some_other : others ≠ [])
    (same : String.intercalate "/" names = String.intercalate "/" others) : names = others := by
  rw [← pieces_intercalate some_name plain, same, pieces_intercalate some_other plainOthers]

/-! ## Components -/

theorem innerComponent?_of_isName (h : IsName name) :
    innerComponent? name = some (.name name) := by
  obtain ⟨allowed, -⟩ := h
  unfold innerComponent?
  split <;> simp_all

def componentsOf (absolute : Bool) (pieces : List String) : List Component :=
  if absolute then .root :: pieces.filterMap innerComponent?
  else
    match pieces with
    | "." :: rest => .current :: rest.filterMap innerComponent?
    | pieces => pieces.filterMap innerComponent?

theorem components_eq (path : String) :
    components path = componentsOf (isAbsolute path) (pieces path) := rfl

theorem componentsOf_cons_of_ne {piece : String} (plain : piece ≠ ".") (rest : List String) :
    componentsOf false (piece :: rest) = (piece :: rest).filterMap innerComponent? := by
  unfold componentsOf
  simp only [Bool.false_eq_true, if_false]
  split
  · rename_i same
    exact absurd (List.cons.inj same).1 plain
  · rfl

theorem componentsOf_append (absolute : Bool) {first : List String} (some_piece : first ≠ [])
    (second : List String) :
    componentsOf absolute (first ++ second) =
      componentsOf absolute first ++ second.filterMap innerComponent? := by
  obtain ⟨piece, rest, rfl⟩ := List.exists_cons_of_ne_nil some_piece
  cases absolute with
  | true => exact congrArg (Component.root :: ·) List.filterMap_append
  | false =>
      by_cases current : piece = "."
      · simp [componentsOf, current]
      · rw [List.cons_append, componentsOf_cons_of_ne current, componentsOf_cons_of_ne current,
          ← List.cons_append, List.filterMap_append]

theorem isAbsolute_append (first second : String) (some_text : first ≠ "") :
    isAbsolute (first ++ second) = isAbsolute first := by
  have more : first.toList ≠ [] := by simpa using some_text
  obtain ⟨c, rest, text⟩ := List.exists_cons_of_ne_nil more
  simp [isAbsolute, text]

theorem pieces_append_solidus_end (path : String) : pieces (path ++ "/") = pieces path ++ [""] := by
  have split := pieces_append_solidus path ""
  rwa [String.append_empty] at split

theorem componentsOf_append_blank (absolute : Bool) (path : String) :
    componentsOf absolute (pieces path ++ [""]) = componentsOf absolute (pieces path) := by
  have blank : innerComponent? "" = none := rfl
  rw [componentsOf_append _ (pieces_ne_nil path)]
  simp [blank]

theorem components_append_solidus {path : String} (some_text : path ≠ "") :
    components (path ++ "/") = components path := by
  rw [components_eq, components_eq, isAbsolute_append _ _ some_text, pieces_append_solidus_end,
    componentsOf_append_blank]

theorem components_append (front back : String) :
    components (front ++ "/" ++ back) =
      components (front ++ "/") ++ (pieces back).filterMap innerComponent? := by
  have begun : front ++ "/" ≠ "" := by simp
  rw [components_eq, components_eq, isAbsolute_append _ back begun, pieces_append_solidus,
    pieces_append_solidus_end, componentsOf_append_blank, componentsOf_append _ (pieces_ne_nil _)]

theorem components_append_piece {piece : String} (plain : '/' ∉ piece.toList) (path : String) :
    components (path ++ "/" ++ piece) =
      components (path ++ "/") ++ (innerComponent? piece).toList := by
  rw [components_append, pieces_eq_singleton plain]
  cases h : innerComponent? piece <;> simp [h]

theorem components_of_isName (h : IsName name) : components name = [.name name] := by
  have first : name.toList.head? ≠ some '/' := fun head => h.2 (List.mem_of_head? head)
  have relative : isAbsolute name = false := by simpa [isAbsolute] using first
  have differs : name ≠ "." := fun same => h.1 (by simp [same])
  rw [components_eq, pieces_eq_singleton h.2, relative, componentsOf_cons_of_ne differs]
  simp [innerComponent?_of_isName h]

/-- A path is empty, ends in a solidus that joining does not repeat, or is given one. -/
theorem join_cases (directory name : String) :
    (directory = "" ∧ join directory name = name) ∨
    (∃ above, directory = above ++ "/" ++ "" ∧ join directory name = above ++ "/" ++ name) ∨
    (directory ≠ "" ∧ join directory name = directory ++ "/" ++ name) := by
  unfold join
  split
  · rename_i closed
    rw [Bool.or_eq_true, String.isEmpty_iff, beq_iff_eq, List.getLast?_eq_some_iff] at closed
    rcases closed with rfl | ⟨above, text⟩
    · exact .inl ⟨rfl, by simp⟩
    · have spelled : directory = String.ofList above ++ "/" := by
        apply String.toList_inj.mp
        simp [text]
      exact .inr (.inl ⟨String.ofList above, by simp [spelled], by rw [spelled]⟩)
  · rename_i open_
    have some_text : directory ≠ "" := fun same => open_ (by simp [same])
    exact .inr (.inr ⟨some_text, rfl⟩)

theorem join_ne_empty (h : IsName name) (directory : String) : join directory name ≠ "" := by
  have some_name : name ≠ "" := fun same => h.1 (by simp [same])
  rcases join_cases directory name with ⟨-, joined⟩ | ⟨above, -, joined⟩ | ⟨-, joined⟩
  all_goals simp [joined, some_name]

/-- Joining a name to a path adds a piece to those of the path. If the path ends in a solidus,
the piece takes the place of the empty one at the end. -/
theorem pieces_join (h : IsName name) (some_text : directory ≠ "") :
    ∃ above, above ≠ [] ∧ (pieces directory = above ∨ pieces directory = above ++ [""]) ∧
      isAbsolute (join directory name) = isAbsolute directory ∧
      pieces (join directory name) = above ++ [name] := by
  have whole := pieces_eq_singleton h.2
  rcases join_cases directory name with ⟨rfl, -⟩ | ⟨above, rfl, joined⟩ | ⟨-, joined⟩
  · exact absurd rfl some_text
  · have begun : above ++ "/" ≠ "" := by simp
    have blank : pieces "" = [""] := rfl
    refine ⟨pieces above, pieces_ne_nil _, .inr ?_, ?_, ?_⟩
    · rw [pieces_append_solidus, blank]
    · rw [joined, isAbsolute_append _ name begun, isAbsolute_append _ "" begun]
    · rw [joined, pieces_append_solidus, whole]
  · refine ⟨pieces directory, pieces_ne_nil _, .inl rfl, ?_, ?_⟩
    · rw [joined, String.append_assoc, isAbsolute_append _ _ some_text]
    · rw [joined, pieces_append_solidus, whole]

theorem components_join (h : IsName name) (directory : String) :
    components (join directory name) = components directory ++ [.name name] := by
  have inner : (innerComponent? name).toList = [.name name] := by
    rw [innerComponent?_of_isName h]
    rfl
  rcases join_cases directory name with ⟨rfl, joined⟩ | ⟨above, rfl, joined⟩ | ⟨some_text, joined⟩
  · rw [joined, components_of_isName h]
    rfl
  · rw [joined, components_append_piece h.2, inner, String.append_empty]
  · rw [joined, components_append_piece h.2, components_append_solidus some_text, inner]

theorem components_joinAll (all : ∀ name ∈ names, IsName name) (directory : String) :
    components (joinAll directory names) = components directory ++ names.map .name := by
  induction names generalizing directory with
  | nil => simp
  | cons name rest ih =>
      rw [joinAll_cons, ih (fun other listed => all other (.tail _ listed)),
        components_join (all name (.head _))]
      simp

/-! ## Relative names -/

theorem below?_append (root path : List Component) : below? root (root ++ path) = some path := by
  induction root with
  | nil => rfl
  | cons component root ih => simp [below?, ih]

theorem relativeName_joinAll (all : ∀ name ∈ names, IsName name) (root : String) :
    relativeName root (joinAll root names) = String.intercalate "/" names := by
  have texts : (names.map Component.name).map Component.text = names := by
    rw [List.map_map]
    exact List.map_id names
  rw [relativeName, components_joinAll all, below?_append]
  exact congrArg (String.intercalate "/") texts

/-! ## Extensions -/

def HasExtension (name extension : String) : Prop :=
  ∃ stem, stem ≠ "" ∧ name = stem ++ "." ++ extension ∧ '.' ∉ extension.toList

theorem hasExtension_of_extension? {extension : String}
    (h : extension? name = some extension) : HasExtension name extension := by
  let ending := name.toList.reverse.takeWhile (· != '.')
  have parted : ending ++ name.toList.reverse.dropWhile (· != '.') = name.toList.reverse :=
    List.takeWhile_append_dropWhile
  have dropped : name.toList.reverse.drop ending.length =
      name.toList.reverse.dropWhile (· != '.') := by
    rw [← parted, List.drop_left]
    rw [parted]
  have stopped := List.head?_dropWhile_not (· != '.') name.toList.reverse
  simp only [extension?] at h
  rw [dropped] at h
  cases rest : name.toList.reverse.dropWhile (· != '.') with
  | nil => simp [rest] at h
  | cons c stem =>
      rw [rest] at h stopped parted
      obtain rfl : c = '.' := by simpa using stopped
      cases stem with
      | nil => simp at h
      | cons d stem =>
          simp only [Option.ite_none_left_eq_some, Option.some.injEq] at h
          obtain ⟨-, rfl⟩ := h
          refine ⟨String.ofList (d :: stem).reverse, by simp, ?_, ?_⟩
          · apply String.toList_inj.mp
            simpa using congrArg List.reverse parted.symm
          · intro within
            have ended : '.' ∈ ending := by simpa using within
            simpa using List.mem_takeWhile_imp ended

theorem extension?_eq_some_iff (h : IsName name) {extension : String} :
    extension? name = some extension ↔ HasExtension name extension := by
  have differs : name ≠ ".." := fun same => h.1 (by simp [same])
  refine ⟨hasExtension_of_extension?, ?_⟩
  rintro ⟨stem, some_stem, rfl, plain⟩
  have more : stem.toList.reverse ≠ [] := by simpa using some_stem
  obtain ⟨c, rest, text⟩ := List.exists_cons_of_ne_nil more
  have kept : ∀ d ∈ extension.toList.reverse, (d != '.') = true := by
    intro d within
    have other : d ≠ '.' := fun same => plain (same ▸ List.mem_reverse.mp within)
    simp [other]
  have ending : (extension.toList.reverse ++ '.' :: c :: rest).takeWhile (· != '.') =
      extension.toList.reverse := by
    rw [List.takeWhile_append_of_pos kept]
    simp
  simp [extension?, text, ending, differs]

end Lineage.Path
