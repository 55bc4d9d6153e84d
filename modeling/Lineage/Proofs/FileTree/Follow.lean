import Lineage.FileTree
import Lineage.Proofs.Path
import Mathlib.Data.List.Induction

/-!
# Where paths lead

Following a path is described by one rule for each kind of piece.  From the rules it follows
that a path which starts in a tree stays in it, so that what it finds is as well-formed as the
tree, and that a path which leads somewhere can be gone on from there.
-/

namespace Lineage.FileTree

variable {tree node : FileTree} {trail last : Trail} {links : Nat} {place : Place}
variable {entries : List (String × FileTree)} {name : String} {names others : List String}

/-! ## Positions -/

@[simp] theorem at?_nil (tree : FileTree) : tree.at? [] = some tree := rfl

@[simp] theorem at?_directory_cons (entries : List (String × FileTree)) (name : String)
    (names : List String) :
    at? (.directory entries) (name :: names) = (member? entries name).bind (·.at? names) := rfl

@[simp] theorem at?_file_cons (content : ByteArray) (name : String) (names : List String) :
    at? (.file content) (name :: names) = none := rfl

@[simp] theorem at?_link_cons (target name : String) (names : List String) :
    at? (.link target) (name :: names) = none := rfl

theorem exists_directory_of_at?_cons (h : tree.at? (name :: names) = some node) :
    ∃ entries child, tree = .directory entries ∧ member? entries name = some child ∧
      child.at? names = some node := by
  cases tree with
  | directory entries =>
      rw [at?_directory_cons, Option.bind_eq_some_iff] at h
      obtain ⟨child, listed, below⟩ := h
      exact ⟨entries, child, rfl, listed, below⟩
  | file content | link target => cases h

theorem at?_append (tree : FileTree) (names others : List String) :
    tree.at? (names ++ others) = (tree.at? names).bind (·.at? others) := by
  induction names generalizing tree with
  | nil => rfl
  | cons name names ih =>
      cases tree with
      | directory entries =>
          rw [List.cons_append, at?_directory_cons, at?_directory_cons, Option.bind_assoc]
          congr 1
          exact funext fun child => ih child
      | file content | link target => rfl

@[simp] theorem member?_nil (name : String) : member? [] name = none := rfl

@[simp] theorem member?_cons (entry : String × FileTree) (rest : List (String × FileTree))
    (name : String) :
    member? (entry :: rest) name = if entry.1 = name then some entry.2 else member? rest name := by
  by_cases same : entry.1 = name <;> simp [member?, same]

theorem member?_eq_some_iff (distinct : (entries.map (·.1)).Nodup) :
    member? entries name = some node ↔ (name, node) ∈ entries := by
  induction entries with
  | nil => simp
  | cons entry rest ih =>
      obtain ⟨first, child⟩ := entry
      obtain ⟨fresh, distinct⟩ := List.nodup_cons.mp distinct
      by_cases same : first = name
      · subst same
        have absent : (first, node) ∉ rest := fun listed =>
          fresh (List.mem_map.mpr ⟨_, listed, rfl⟩)
        simp [absent, eq_comm]
      · have differs : name ≠ first := fun h => same h.symm
        simpa [same, differs] using ih distinct

theorem mem_of_member? (h : member? entries name = some node) : (name, node) ∈ entries := by
  rw [member?, Option.map_eq_some_iff] at h
  obtain ⟨entry, found, rfl⟩ := h
  have same : entry.1 = name := by simpa using List.find?_some found
  exact same ▸ List.mem_of_find?_eq_some found

theorem WellFormed.at? (wellFormed : tree.WellFormed) (h : tree.at? names = some node) :
    node.WellFormed := by
  induction names generalizing tree with
  | nil => exact Option.some.inj h ▸ wellFormed
  | cons name names ih =>
      obtain ⟨entries, child, rfl, listed, below⟩ := exists_directory_of_at?_cons h
      cases wellFormed with
      | directory _ _ inner => exact ih (inner _ (mem_of_member? listed)) below

theorem WellFormed.isName_of_at? (wellFormed : tree.WellFormed)
    (h : tree.at? names = some node) : ∀ name ∈ names, Path.IsName name := by
  induction names generalizing tree with
  | nil => nofun
  | cons name names ih =>
      obtain ⟨entries, child, rfl, listed, below⟩ := exists_directory_of_at?_cons h
      cases wellFormed with
      | directory _ isName inner =>
          have here := mem_of_member? listed
          exact List.forall_mem_cons.mpr ⟨isName _ here, ih (inner _ here) below⟩

/-! ## Trails -/

@[simp] theorem Trail.names_nil : Trail.names [] = [] := rfl

@[simp] theorem Trail.names_cons (entry : String × FileTree) (above : Trail) :
    Trail.names (entry :: above) = Trail.names above ++ [entry.1] := by
  simp [Trail.names]

theorem Trail.names_tail (trail : Trail) :
    Trail.names trail.tail = (Trail.names trail).dropLast := by
  cases trail <;> simp

theorem Trail.Within.at? (within : trail.Within tree) :
    tree.at? trail.names = some (trail.node tree) := by
  induction trail with
  | nil => rfl
  | cons entry above ih =>
      obtain ⟨inside, entries, directory, listed⟩ := within
      rw [names_cons, at?_append, ih inside, directory]
      simp [listed, node]

theorem Trail.Within.tail (within : trail.Within tree) : Trail.Within tree trail.tail := by
  cases trail with
  | nil => trivial
  | cons entry above => exact within.1

theorem Trail.Within.start (within : trail.Within tree) (absolute : Bool) :
    Trail.Within tree (if absolute then [] else trail) := by
  cases absolute with
  | true => trivial
  | false => exact within

/-! ## Rules -/

structure Named (piece : String) : Prop where
  not_here : ¬(piece = "" ∨ piece = ".")
  not_above : piece ≠ ".."
  fits : piece.utf8ByteSize ≤ maxNameLength

/-- `Leads tree links trail pieces place`: from the end of the trail the pieces lead to the
place, if at most `links` links may be followed. -/
inductive Leads (tree : FileTree) : Nat → Trail → List String → Place → Prop where
  | arrive (links : Nat) (trail : Trail) : Leads tree links trail [] (.node trail)
  | stay {links : Nat} {trail : Trail} {piece : String} {rest : List String} {place : Place}
      {entries : List (String × FileTree)} :
      trail.node tree = .directory entries → piece = "" ∨ piece = "." →
      Leads tree links trail rest place → Leads tree links trail (piece :: rest) place
  | rise {links : Nat} {trail : Trail} {rest : List String} {place : Place}
      {entries : List (String × FileTree)} :
      trail.node tree = .directory entries →
      Leads tree links trail.tail rest place → Leads tree links trail (".." :: rest) place
  | vacant {links : Nat} {trail : Trail} {piece : String}
      {entries : List (String × FileTree)} :
      trail.node tree = .directory entries → Named piece → member? entries piece = none →
      Leads tree links trail [piece] (.vacant trail piece)
  | enter {links : Nat} {trail : Trail} {piece : String} {rest : List String} {place : Place}
      {entries : List (String × FileTree)} {node : FileTree} :
      trail.node tree = .directory entries → Named piece →
      member? entries piece = some node → (∀ target, node ≠ .link target) →
      Leads tree links ((piece, node) :: trail) rest place →
      Leads tree links trail (piece :: rest) place
  | link {links : Nat} {trail : Trail} {piece : String} {rest : List String} {place : Place}
      {entries : List (String × FileTree)} {target : String} :
      trail.node tree = .directory entries → Named piece →
      member? entries piece = some (.link target) →
      Leads tree links (if Path.isAbsolute target then [] else trail)
        (Path.pieces target ++ rest) place →
      Leads tree (links + 1) trail (piece :: rest) place

theorem leads_of_follow {pieces : List String}
    (h : tree.follow links trail pieces = .ok place) : Leads tree links trail pieces place := by
  fun_induction follow tree links trail pieces with
  | case1 links trail =>
      cases h
      exact .arrive links trail
  | case2 links trail piece rest entries directory here ih =>
      exact .stay directory here (ih h)
  | case3 links trail rest entries directory _ ih => exact .rise directory (ih h)
  | case5 links trail piece rest entries directory notHere notAbove short absent last =>
      cases h
      obtain rfl := List.isEmpty_iff.mp last
      exact .vacant directory ⟨notHere, notAbove, Nat.le_of_not_lt short⟩ absent
  | case8 trail piece rest entries directory notHere notAbove short target listed links ih =>
      exact .link directory ⟨notHere, notAbove, Nat.le_of_not_lt short⟩ listed (ih h)
  | case9 links trail piece rest entries directory notHere notAbove short node real listed ih =>
      exact .enter directory ⟨notHere, notAbove, Nat.le_of_not_lt short⟩ listed real (ih h)
  | case4 | case6 | case7 | case10 => cases h

theorem Leads.follow_eq {pieces : List String} (h : Leads tree links trail pieces place) :
    tree.follow links trail pieces = .ok place := by
  induction h with
  | arrive links trail => rw [follow]
  | stay directory here _ ih => rw [follow, directory]; simp [here, ih]
  | rise directory _ ih => rw [follow, directory]; simp [ih]
  | vacant directory named absent =>
      have short := Nat.not_lt.mpr named.fits
      rw [follow, directory]
      simp [named.not_here, named.not_above, short, absent]
  | enter directory named listed real _ ih =>
      have short := Nat.not_lt.mpr named.fits
      rw [follow, directory]
      simp only [named.not_here, named.not_above, short, listed, if_false]
      exact ih
  | link directory named listed _ ih =>
      have short := Nat.not_lt.mpr named.fits
      rw [follow, directory]
      simp [named.not_here, named.not_above, short, listed, ih]

/-! ## What a path finds -/

def Place.Within (tree : FileTree) : Place → Prop
  | .node trail => trail.Within tree
  | .vacant trail name =>
      trail.Within tree ∧ Named name ∧
        ∃ entries, trail.node tree = .directory entries ∧ member? entries name = none

theorem Leads.within {pieces : List String} (h : Leads tree links trail pieces place)
    (within : trail.Within tree) : place.Within tree := by
  induction h with
  | arrive links trail => exact within
  | stay _ _ _ ih => exact ih within
  | rise _ _ ih => exact ih within.tail
  | vacant directory named absent => exact ⟨within, named, _, directory, absent⟩
  | enter directory _ listed _ _ ih => exact ih ⟨within, _, directory, listed⟩
  | link _ _ _ _ ih => exact ih (within.start _)

/-! ## Going on -/

theorem Leads.append {pieces rest : List String}
    (h : Leads tree links trail pieces (.node last))
    (onward : ∀ links, Leads tree links last rest place) :
    Leads tree links trail (pieces ++ rest) place := by
  generalize reached : Place.node last = middle at h
  induction h with
  | arrive links trail =>
      cases reached
      exact onward links
  | stay directory here _ ih => exact .stay directory here (ih reached)
  | rise directory _ ih => exact .rise directory (ih reached)
  | vacant => cases reached
  | enter directory named listed real _ ih => exact .enter directory named listed real (ih reached)
  | link directory named listed _ ih =>
      have onwards := ih reached
      rw [List.append_assoc] at onwards
      exact .link directory named listed onwards

private theorem exists_of_append_blank {pieces rest : List String} {piece : String}
    (spelled : pieces ++ [""] = piece :: rest) (some_text : piece ≠ "") :
    ∃ others, pieces = piece :: others ∧ others ++ [""] = rest := by
  rcases List.append_eq_cons_iff.mp spelled with ⟨-, same⟩ | ⟨others, first, same⟩
  · exact absurd (List.cons.inj same).1.symm some_text
  · exact ⟨others, first, same.symm⟩

theorem Named.ne_blank {piece : String} (named : Named piece) : piece ≠ "" :=
  fun same => named.not_here (.inl same)

/-- A solidus at the end of a path does not matter where the path leads. -/
theorem Leads.of_append_blank {pieces : List String}
    (h : Leads tree links trail (pieces ++ [""]) place) : Leads tree links trail pieces place := by
  generalize spelled : pieces ++ [""] = all at h
  induction h generalizing pieces with
  | arrive => simp at spelled
  | stay directory here below ih =>
      rcases List.append_eq_cons_iff.mp spelled with ⟨rfl, same⟩ | ⟨others, rfl, same⟩
      · cases same
        exact below
      · exact .stay directory here (ih same.symm)
  | rise directory below ih =>
      obtain ⟨others, rfl, same⟩ := exists_of_append_blank spelled (by decide)
      exact .rise directory (ih same)
  | vacant directory named absent =>
      obtain ⟨others, -, same⟩ := exists_of_append_blank spelled named.ne_blank
      simp at same
  | enter directory named listed real below ih =>
      obtain ⟨others, rfl, same⟩ := exists_of_append_blank spelled named.ne_blank
      exact .enter directory named listed real (ih same)
  | link directory named listed below ih =>
      obtain ⟨others, rfl, same⟩ := exists_of_append_blank spelled named.ne_blank
      refine .link directory named listed (ih ?_)
      rw [← same, List.append_assoc]

theorem place?_eq_ok {directory : Trail} {path : String}
    (h : tree.place? directory path = .ok place) :
    path ≠ "" ∧ path.utf8ByteSize ≤ maxPathLength ∧
      Leads tree maxLinks (if Path.isAbsolute path then [] else directory)
        (Path.pieces path) place := by
  unfold place? at h
  split at h
  · cases h
  split at h
  · cases h
  rename_i some_text short
  exact ⟨fun same => some_text (by simp [same]), Nat.le_of_not_lt short, leads_of_follow h⟩

theorem lookup?_eq_ok {directory : Trail} {path : String}
    (h : tree.lookup? directory path = .ok node) :
    ∃ last, tree.place? directory path = .ok (.node last) ∧ last.node tree = node := by
  unfold lookup? at h
  split at h
  · rename_i last found
    cases h
    exact ⟨last, found, rfl⟩
  · cases h
  · cases h

theorem place?_of_leads {directory : Trail} {path : String} (some_text : path ≠ "")
    (fits : path.utf8ByteSize ≤ maxPathLength)
    (leads : Leads tree maxLinks (if Path.isAbsolute path then [] else directory)
      (Path.pieces path) place) :
    tree.place? directory path = .ok place := by
  have nonempty : ¬path.isEmpty = true := by simpa using some_text
  rw [place?, if_neg nonempty, if_neg (Nat.not_lt.mpr fits), leads.follow_eq]

theorem lookup?_of_leads {directory : Trail} {path : String} (some_text : path ≠ "")
    (fits : path.utf8ByteSize ≤ maxPathLength)
    (leads : Leads tree maxLinks (if Path.isAbsolute path then [] else directory)
      (Path.pieces path) (.node last)) :
    tree.lookup? directory path = .ok (last.node tree) := by
  rw [lookup?, place?_of_leads some_text fits leads]

theorem lookup?_current {directory : Trail} (home : directory.node tree = .directory entries) :
    tree.lookup? directory "." = .ok (.directory entries) := by
  have some_text : "." ≠ "" := by decide
  have leads : Leads tree maxLinks directory ["."] (.node directory) :=
    .stay home (.inr rfl) (.arrive _ _)
  rw [lookup?_of_leads some_text (by decide) leads, home]

theorem lookup?_join {directory : Trail} {path : String}
    (found : tree.lookup? directory path = .ok (.directory entries))
    (listed : member? entries name = some node) (real : ∀ target, node ≠ .link target)
    (isName : Path.IsName name) (short : name.utf8ByteSize ≤ maxNameLength)
    (fits : (Path.join path name).utf8ByteSize ≤ maxPathLength) :
    tree.lookup? directory (Path.join path name) = .ok node := by
  obtain ⟨last, found, reached⟩ := lookup?_eq_ok found
  obtain ⟨some_text, -, leads⟩ := place?_eq_ok found
  have named : Named name :=
    ⟨fun same => isName.1 (by rcases same with rfl | rfl <;> decide),
      fun same => isName.1 (by simp [same]), short⟩
  have onward : ∀ links, Leads tree links last [name] (.node ((name, node) :: last)) := fun links =>
    .enter reached named listed real (.arrive _ _)
  have joined : Leads tree maxLinks
      (if Path.isAbsolute (Path.join path name) then [] else directory)
      (Path.pieces (Path.join path name)) (.node ((name, node) :: last)) := by
    obtain ⟨above, -, spelled, absolute, pieces⟩ := Path.pieces_join isName some_text
    rw [absolute, pieces]
    refine Leads.append ?_ onward
    rcases spelled with same | same
    · rwa [same] at leads
    · rw [same] at leads
      exact leads.of_append_blank
  exact lookup?_of_leads (Path.join_ne_empty isName path) fits joined

theorem exists_at?_of_lookup? {directory : Trail} {path : String}
    (within : directory.Within tree) (h : tree.lookup? directory path = .ok node) :
    ∃ names, tree.at? names = some node := by
  obtain ⟨last, found, rfl⟩ := lookup?_eq_ok h
  obtain ⟨-, -, leads⟩ := place?_eq_ok found
  have inside : last.Within tree := leads.within (within.start _)
  exact ⟨last.names, inside.at?⟩

end Lineage.FileTree
