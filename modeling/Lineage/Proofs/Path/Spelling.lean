import Lineage.Proofs.Path

/-!
# Spellings of a path

A path text spells a list of components, and it spells one list only.  Two texts spell the same
components exactly if repeated solidi, inner full stops and what trails a path are all that they
differ in.  A name relative to a root is made of the components of two texts, and so it does not
depend on how either of them is spelled.
-/

namespace Lineage.Path

variable {root path other : String} {parts above : List Component} {names others : List String}

/-! ## Components of a text -/

/-- The components that a text spells.  A solidus or a full stop at its beginning is one of them;
after a solidus neither another one nor a full stop adds any. -/
inductive Spells : String → List Component → Prop where
  | empty : Spells "" []
  | root : Spells "/" [.root]
  | current : Spells "." [.current]
  | parent : Spells ".." [.parent]
  | name {text : String} : IsName text → Spells text [.name text]
  | solidus {path : String} {parts : List Component} :
      path ≠ "" → Spells path parts → Spells (path ++ "/") parts
  | inner {path : String} {parts : List Component} :
      Spells (path ++ "/") parts → Spells (path ++ "/" ++ ".") parts
  | up {path : String} {parts : List Component} :
      Spells (path ++ "/") parts → Spells (path ++ "/" ++ "..") (parts ++ [.parent])
  | down {path text : String} {parts : List Component} :
      IsName text → Spells (path ++ "/") parts →
      Spells (path ++ "/" ++ text) (parts ++ [.name text])

theorem components_append_current (path : String) :
    components (path ++ "/" ++ ".") = components (path ++ "/") := by
  have none : innerComponent? "." = none := rfl
  rw [components_append_piece (by decide), none, Option.toList_none, List.append_nil]

theorem Spells.components_eq (spells : Spells path parts) : components path = parts := by
  induction spells with
  | empty | root | current | parent => decide
  | name h => exact components_of_isName h
  | solidus some_text _ ih => rw [components_append_solidus some_text, ih]
  | inner _ ih => rw [components_append_current, ih]
  | up _ ih =>
      rw [components_append_piece (by decide), ih]
      rfl
  | down h _ ih =>
      rw [components_append_piece h.2, ih, innerComponent?_of_isName h]
      rfl

/-! ## Every text spells components -/

theorem exists_last_piece (within : '/' ∈ path.toList) :
    ∃ front piece, path = front ++ "/" ++ piece ∧ '/' ∉ piece.toList := by
  obtain ⟨ending, front, split, plain⟩ := List.eq_append_cons_of_mem (List.mem_reverse.mpr within)
  refine ⟨String.ofList front.reverse, String.ofList ending.reverse, ?_, by simpa using plain⟩
  apply String.toList_inj.mp
  simpa using congrArg List.reverse split

theorem piece_cases {piece : String} (plain : '/' ∉ piece.toList) :
    piece = "" ∨ piece = "." ∨ piece = ".." ∨ IsName piece := by
  by_cases special : piece ∈ ["", ".", ".."]
  · simp only [List.mem_cons, List.not_mem_nil, or_false] at special
    rcases special with rfl | rfl | rfl
    all_goals simp
  · exact .inr (.inr (.inr ⟨special, plain⟩))

theorem exists_spells (path : String) : ∃ parts, Spells path parts := by
  -- A text is one piece, or its last piece follows a shorter text and a solidus.
  by_cases within : '/' ∈ path.toList
  · obtain ⟨front, piece, parted, plain⟩ := exists_last_piece within
    have shorter : front.length < path.length := by
      have solidus : "/".length = 1 := rfl
      rw [parted, String.length_append, String.length_append]
      omega
    have begun : ∃ parts, Spells (front ++ "/") parts := by
      by_cases none : front = ""
      · subst none
        exact ⟨_, .root⟩
      · obtain ⟨parts, spells⟩ := exists_spells front
        exact ⟨parts, .solidus none spells⟩
    obtain ⟨parts, spells⟩ := begun
    rw [parted]
    rcases piece_cases plain with rfl | rfl | rfl | named
    · exact ⟨parts, by rwa [String.append_empty]⟩
    · exact ⟨_, .inner spells⟩
    · exact ⟨_, .up spells⟩
    · exact ⟨_, .down named spells⟩
  · rcases piece_cases within with rfl | rfl | rfl | named
    · exact ⟨_, .empty⟩
    · exact ⟨_, .current⟩
    · exact ⟨_, .parent⟩
    · exact ⟨_, .name named⟩
termination_by path.length

theorem spells_iff : Spells path parts ↔ components path = parts := by
  refine ⟨Spells.components_eq, ?_⟩
  rintro rfl
  obtain ⟨parts, spells⟩ := exists_spells path
  rwa [spells.components_eq]

/-! ## Other spellings -/

/-- Texts that differ in repeated solidi, in inner full stops, and in solidi at their end. -/
inductive Respelled : String → String → Prop where
  | repeated (front back : String) :
      Respelled (front ++ "/" ++ "/" ++ back) (front ++ "/" ++ back)
  | inner (front back : String) :
      Respelled (front ++ "/" ++ "." ++ "/" ++ back) (front ++ "/" ++ back)
  | trailing {path : String} : path ≠ "" → Respelled (path ++ "/") path
  | refl (path : String) : Respelled path path
  | symm {path other : String} : Respelled path other → Respelled other path
  | trans {path other third : String} :
      Respelled path other → Respelled other third → Respelled path third

theorem Respelled.components_eq (respelled : Respelled path other) :
    components path = components other := by
  induction respelled with
  | repeated front back =>
      rw [components_append, components_append_solidus (by simp), ← components_append]
  | inner front back =>
      rw [components_append, components_append_solidus (by simp), components_append_current,
        ← components_append]
  | trailing some_text => exact components_append_solidus some_text
  | refl _ => rfl
  | symm _ ih => exact ih.symm
  | trans _ _ ih ih' => exact ih.trans ih'

def closed : List Component → String
  | [] => ""
  | .root :: rest => "/" ++ closed rest
  | part :: rest => part.text ++ "/" ++ closed rest

theorem closed_append (first second : List Component) :
    closed (first ++ second) = closed first ++ closed second := by
  induction first with
  | nil => simp [closed]
  | cons part first ih => cases part <;> simp [closed, ih, String.append_assoc]

theorem Spells.respelled_append (some_text : path ≠ "") (spells : Spells path parts)
    (back : String) : Respelled (path ++ "/" ++ back) (closed parts ++ back) := by
  -- What is known of a text that ends in a solidus is about two solidi in a row.
  have double (path : String) (back : String) :
      Respelled (path ++ "/" ++ back) (path ++ "/" ++ "/" ++ back) :=
    (Respelled.repeated path back).symm
  induction spells generalizing back with
  | empty => exact absurd rfl some_text
  | root => exact .repeated "" back
  | current | parent | name _ =>
      simp only [closed, Component.text, String.append_empty]
      exact .refl _
  | @solidus path parts some_text' _ ih =>
      exact (Respelled.repeated path back).trans (ih some_text' back)
  | @inner path parts _ ih =>
      exact ((Respelled.inner path back).trans (double path back)).trans (ih (by simp) back)
  | @up path parts _ ih =>
      have added := (double path (".." ++ "/" ++ back)).trans (ih (by simp) _)
      simpa only [closed_append, closed, Component.text, String.append_assoc,
        String.append_empty] using added
  | @down path text parts h _ ih =>
      have added := (double path (text ++ "/" ++ back)).trans (ih (by simp) _)
      simpa only [closed_append, closed, Component.text, String.append_assoc,
        String.append_empty] using added

theorem respelled_closed (path : String) : Respelled path (closed (components path)) := by
  by_cases none : path = ""
  · rw [none]
    exact .refl ""
  · have ended := (spells_iff.mpr rfl).respelled_append none ""
    rw [String.append_empty, String.append_empty] at ended
    exact (Respelled.trailing none).symm.trans ended

theorem respelled_iff : Respelled path other ↔ components path = components other := by
  constructor
  · exact Respelled.components_eq
  · intro same
    have closed' := respelled_closed other
    rw [← same] at closed'
    exact (respelled_closed path).trans closed'.symm

/-! ## Relative names -/

theorem below?_eq_none (apart : ¬above <+: parts) : below? above parts = none := by
  induction above generalizing parts with
  | nil => exact absurd List.nil_prefix apart
  | cons first above ih =>
      cases parts with
      | nil => rfl
      | cons second parts =>
          by_cases same : first = second
          · subst same
            rw [below?, if_pos rfl]
            exact ih fun within => apart (List.prefix_cons_inj first |>.mpr within)
          · rw [below?, if_neg same]

theorem relativeName_of_append {below : List Component} (spells : Spells root above)
    (spells' : Spells path (above ++ below)) :
    relativeName root path = String.intercalate "/" (below.map Component.text) := by
  rw [relativeName, spells.components_eq, spells'.components_eq, below?_append]
  rfl

theorem relativeName_of_not_prefix (spells : Spells root above) (spells' : Spells path parts)
    (apart : ¬above <+: parts) :
    relativeName root path = String.intercalate "/" (parts.map Component.text) := by
  rw [relativeName, spells.components_eq, spells'.components_eq, below?_eq_none apart]
  rfl

theorem relativeName_respelled {root' : String} (respelled : Respelled root root')
    (respelled' : Respelled path other) : relativeName root path = relativeName root' other := by
  rw [relativeName, respelled.components_eq, respelled'.components_eq]
  rfl

theorem intercalate_ne_empty (named : ∀ name ∈ names, IsName name) (some_name : names ≠ []) :
    String.intercalate "/" names ≠ "" := by
  intro none
  have whole := pieces_intercalate some_name fun name listed => (named name listed).2
  have blank : pieces "" = [""] := rfl
  rw [none, blank] at whole
  exact (named "" (by simp [← whole])).1 (.head _)

theorem eq_of_relativeName_eq {root' : String} (named : ∀ name ∈ names, IsName name)
    (named' : ∀ name ∈ others, IsName name)
    (same : relativeName root (joinAll root names) = relativeName root' (joinAll root' others)) :
    names = others := by
  rw [relativeName_joinAll named, relativeName_joinAll named'] at same
  by_cases none : names = []
  · by_cases none' : others = []
    · rw [none, none']
    · rw [none] at same
      exact absurd same.symm (intercalate_ne_empty named' none')
  · by_cases none' : others = []
    · rw [none'] at same
      exact absurd same (intercalate_ne_empty named none)
    · exact intercalate_injective (fun name listed => (named name listed).2)
        (fun name listed => (named' name listed).2) none none' same

/-- A text spells one list of components, and texts that spell the same one are those that differ
in repeated solidi, inner full stops and solidi at their end.  The name of a path relative to a root
is made of the components that follow those of the root, or of all of them where the path does not
begin with these, and so it is the same for all spellings of the two.  A path that names lead to
from a root has these names, joined, for its relative name, and other names lead to another one. -/
theorem relativeName_exact :
    (∀ path, ∃! parts, Spells path parts) ∧
    (∀ path other, Respelled path other ↔ ∀ parts, Spells path parts ↔ Spells other parts) ∧
    (∀ root path above parts, Spells root above → Spells path parts →
      (∀ below, parts = above ++ below →
        relativeName root path = String.intercalate "/" (below.map Component.text)) ∧
      (¬above <+: parts →
        relativeName root path = String.intercalate "/" (parts.map Component.text))) ∧
    (∀ root root' path path', Respelled root root' → Respelled path path' →
      relativeName root path = relativeName root' path') ∧
    (∀ root names, (∀ name ∈ names, IsName name) →
      relativeName root (joinAll root names) = String.intercalate "/" names) ∧
    ∀ root root' names others, (∀ name ∈ names, IsName name) → (∀ name ∈ others, IsName name) →
      relativeName root (joinAll root names) = relativeName root' (joinAll root' others) →
      names = others := by
  refine ⟨fun path => ⟨components path, spells_iff.mpr rfl, fun parts spells => ?_⟩,
    fun path other => ?_, fun root path above parts spells spells' => ⟨?_, ?_⟩,
    fun _ _ _ _ => relativeName_respelled, fun root names named => relativeName_joinAll named root,
    fun _ _ _ _ => eq_of_relativeName_eq⟩
  · exact spells.components_eq.symm
  · simp only [respelled_iff, spells_iff]
    exact ⟨fun same parts => by rw [same], fun same => ((same _).mpr rfl)⟩
  · rintro below rfl
    exact relativeName_of_append spells spells'
  · exact relativeName_of_not_prefix spells spells'

/-- A root and a path below it, spelled in roundabout ways, and a root that a path begins with as a
text but not by its components. -/
theorem relativeName_exact_of_roundabout :
    let root := "a//b/."
    let path := "a/./b/../C.swift"
    let above : List Component := [.name "a", .name "b"]
    let other : List Component := [.root, .name "ws"]
    let parts : List Component := [.root, .name "ws2", .name "C.swift"]
    let names := ["Models", "User.swift"]
    Spells root above ∧ Spells path (above ++ [.parent, .name "C.swift"]) ∧
      Spells "/ws" other ∧ Spells "/ws2/C.swift" parts ∧ ¬other <+: parts ∧
      Respelled root "a/b" ∧ (∀ name ∈ names, IsName name) ∧
      relativeName root path = "../C.swift" ∧
      relativeName "/ws" "/ws2/C.swift" = "//ws2/C.swift" ∧
      relativeName "a/b" path = relativeName root path ∧
      relativeName "./x/" (joinAll "./x/" names) = "Models/User.swift" ∧
      relativeName root (joinAll root names) ≠ relativeName "" (joinAll "" ["User.swift"]) := by
  intro root path above other parts names
  obtain ⟨-, -, relative, respelled, joined, distinct⟩ := relativeName_exact
  have spells : Spells root above := spells_iff.mpr (by decide)
  have spells' : Spells path (above ++ [.parent, .name "C.swift"]) := spells_iff.mpr (by decide)
  have beside : Spells "/ws" other := spells_iff.mpr (by decide)
  have beside' : Spells "/ws2/C.swift" parts := spells_iff.mpr (by decide)
  have apart : ¬other <+: parts := by decide
  have again : Respelled root "a/b" := respelled_iff.mpr (by decide)
  have named : ∀ name ∈ names, IsName name := by decide
  refine ⟨spells, spells', beside, beside', apart, again, named, ?_, ?_,
    respelled _ _ _ _ again.symm (.refl path), (joined "./x/" names named).trans (by decide),
    fun same => absurd (distinct _ _ _ _ named (by decide) same) (by decide)⟩
  · exact ((relative _ _ _ _ spells spells').1 _ rfl).trans (by decide)
  · exact ((relative _ _ _ _ beside beside').2 apart).trans (by decide)

end Lineage.Path
