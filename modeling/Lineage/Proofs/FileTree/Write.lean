import Lineage.Proofs.FileTree.Follow

/-!
# What writing changes

A file is written at the place where its path leads.  That place then holds the new content,
every other place is what it was before, and the path leads to it still.
-/

namespace Lineage.FileTree

variable {tree tree' node : FileTree} {trail last : Trail} {links : Nat} {place : Place}
variable {entries : List (String × FileTree)} {name path : String} {names other : List String}
variable {content : ByteArray} {directory : Trail}

/-- What a node is by itself: a directory without its entries. -/
def own : FileTree → FileTree
  | .directory _ => .directory []
  | node => node

/-- The names lead to a file, or to a free name. -/
inductive Slot : FileTree → List String → Prop where
  | file (content : ByteArray) : Slot (.file content) []
  | vacant {entries : List (String × FileTree)} {name : String} :
      member? entries name = none → Slot (.directory entries) [name]
  | inside {entries : List (String × FileTree)} {name : String} {child : FileTree}
      {rest : List String} :
      member? entries name = some child → Slot child rest →
      Slot (.directory entries) (name :: rest)

/-! ## Putting a file -/

theorem member?_setEntry (entries : List (String × FileTree)) (name other : String)
    (node : FileTree) :
    member? (setEntry name node entries) other =
      if name = other then some node else member? entries other := by
  induction entries with
  | nil => simp [setEntry]
  | cons entry rest ih =>
      by_cases same : entry.1 = name
      · by_cases here : name = other <;> simp [setEntry, same, here]
      · by_cases here : name = other
        · subst here
          simp [setEntry, same, ih]
        · simp [setEntry, same, ih, here]

namespace Slot

theorem at?_eq (slot : Slot tree names) :
    tree.at? names = none ∨ ∃ content, tree.at? names = some (.file content) := by
  induction slot with
  | file content => exact .inr ⟨content, rfl⟩
  | vacant free => exact .inl (by simp [free])
  | inside listed _ ih => simpa [listed] using ih

theorem ne_of_at? (slot : Slot tree names) (found : tree.at? other = some node)
    (differs : ∀ content, node ≠ .file content) : other ≠ names := by
  rintro rfl
  rcases slot.at?_eq with absent | ⟨content, file⟩
  · cases found.symm.trans absent
  · cases found.symm.trans file
    exact differs content rfl

theorem of_at? {below : FileTree} (found : tree.at? names = some below) (slot : Slot below other) :
    Slot tree (names ++ other) := by
  induction names generalizing tree with
  | nil =>
      cases found
      exact slot
  | cons name rest ih =>
      obtain ⟨entries, child, rfl, listed, deeper⟩ := exists_directory_of_at?_cons found
      exact .inside listed (ih deeper)

theorem at?_put (slot : Slot tree names) (content : ByteArray) :
    (tree.put (.file content) names).at? names = some (.file content) := by
  induction slot with
  | file => rfl
  | vacant free => simp [put, member?_setEntry]
  | inside listed _ ih => simpa [put, member?_setEntry, listed] using ih

theorem own_at?_put (slot : Slot tree names) (content : ByteArray) (differs : other ≠ names) :
    ((tree.put (.file content) names).at? other).map own = (tree.at? other).map own := by
  induction slot generalizing other with
  | file old =>
      cases other with
      | nil => exact absurd rfl differs
      | cons name rest => rfl
  | @vacant entries name free =>
      cases other with
      | nil => rfl
      | cons first rest =>
          by_cases same : name = first
          · subst same
            cases rest with
            | nil => exact absurd rfl differs
            | cons second rest => simp [put, member?_setEntry, free]
          · simp [put, member?_setEntry, same]
  | @inside entries name child rest listed _ ih =>
      cases other with
      | nil => rfl
      | cons first others =>
          by_cases same : name = first
          · subst same
            have deeper : others ≠ rest := fun same => differs (by rw [same])
            simpa [put, member?_setEntry, listed] using ih deeper
          · simp [put, member?_setEntry, same]

end Slot

/-! ## The place of a path -/

def Place.position : Place → List String
  | .node trail => trail.names
  | .vacant trail name => trail.names ++ [name]

/-- No path leads to a link: the link is followed. -/
theorem Leads.node_ne_link {pieces : List String} (h : Leads tree links trail pieces (.node last))
    (within : trail.Within tree) (root : ∀ target, tree ≠ .link target)
    (start : ∀ target, trail.node tree ≠ .link target) (target : String) :
    last.node tree ≠ .link target := by
  generalize reached : Place.node last = place at h
  induction h with
  | arrive links trail =>
      cases reached
      exact start target
  | stay _ _ _ ih => exact ih within start reached
  | @rise links trail rest place entries directory _ ih =>
      refine ih within.tail ?_ reached
      cases trail with
      | nil => exact start
      | cons entry above =>
          obtain ⟨-, others, here, -⟩ := within
          simp [here]
  | vacant => cases reached
  | enter directory _ listed real _ ih => exact ih ⟨within, _, directory, listed⟩ real reached
  | @link links trail piece rest place entries target directory _ _ _ ih =>
      refine ih (within.start _) ?_ reached
      split
      · exact root
      · exact start

theorem isDirectory_of_within (within : trail.Within tree)
    (home : (trail.node tree).isDirectory = true) : tree.isDirectory = true := by
  induction trail with
  | nil => exact home
  | cons entry above ih =>
      obtain ⟨inside, entries, here, -⟩ := within
      exact ih inside (by rw [here]; rfl)

theorem ne_link_of_isDirectory (h : node.isDirectory = true) (target : String) :
    node ≠ .link target := by
  rintro rfl
  cases h

/-- A path that can be written: it ends in a name, and leads to a file or to a free name. -/
def Writable (tree : FileTree) (directory : Trail) (path : String) : Prop :=
  namesFile path = true ∧ ∃ place, tree.place? directory path = .ok place ∧
    ∀ trail, place = .node trail → (trail.node tree).isDirectory = false

theorem slot_of_place? (within : directory.Within tree)
    (home : (directory.node tree).isDirectory = true)
    (found : tree.place? directory path = .ok place)
    (free : ∀ trail, place = .node trail → (trail.node tree).isDirectory = false) :
    Slot tree place.position := by
  obtain ⟨-, -, leads⟩ := place?_eq_ok found
  have start := within.start (Path.isAbsolute path)
  have inside : place.Within tree := leads.within start
  cases place with
  | node last =>
      have root := ne_link_of_isDirectory (isDirectory_of_within within home)
      have real := leads.node_ne_link start root (by
        split
        · exact root
        · exact ne_link_of_isDirectory home)
      have file := free last rfl
      have leaf : Slot (Trail.node tree last) [] := by
        cases reached : Trail.node tree last with
        | file content => exact .file content
        | link target => exact absurd reached (real target)
        | directory entries =>
            rw [reached] at file
            cases file
      have slot := leaf.of_at? (Trail.Within.at? inside)
      rwa [List.append_nil] at slot
  | vacant trail name =>
      obtain ⟨inside, -, entries, reached, absent⟩ := inside
      have here := inside.at?
      rw [reached] at here
      exact (Slot.vacant absent).of_at? here

theorem write?_eq_put {text : String} (named : namesFile path = true)
    (found : tree.place? directory path = .ok place)
    (free : ∀ trail, place = .node trail → (trail.node tree).isDirectory = false) :
    tree.write? directory path text = .ok (tree.put (.file text.toUTF8) place.position) := by
  simp only [write?, named, if_true, found]
  cases place with
  | vacant trail name => rfl
  | node trail =>
      have file := free trail rfl
      cases reached : Trail.node tree trail with
      | directory entries =>
          rw [reached] at file
          cases file
      | file content | link target => simp [reached, Place.position]

theorem write?_eq_error (unwritable : ¬Writable tree directory path) (text : String) :
    ∃ cause, tree.write? directory path text = .error cause := by
  unfold write?
  split
  · rename_i named
    split
    · exact ⟨_, rfl⟩
    · rename_i trail name found
      exact absurd ⟨named, _, found, nofun⟩ unwritable
    · rename_i trail found
      split
      · exact ⟨_, rfl⟩
      · rename_i file
        refine absurd ⟨named, _, found, fun other same => ?_⟩ unwritable
        cases same
        cases reached : Trail.node tree trail with
        | directory entries => exact absurd reached (file entries)
        | file content | link target => rfl
  · split
    · exact ⟨_, rfl⟩
    · simp only
      split
      · exact ⟨_, rfl⟩
      · exact ⟨_, rfl⟩
      · split
        all_goals exact ⟨_, rfl⟩

/-! ## Following the path again -/

/-- The second tree has the file at a position, and is the first one everywhere else. -/
structure Rewritten (tree tree' : FileTree) (position : List String) (content : ByteArray) :
    Prop where
  written : tree'.at? position = some (.file content)
  kept : ∀ names, names ≠ position → (tree'.at? names).map own = (tree.at? names).map own

theorem Slot.rewritten (slot : Slot tree names) (content : ByteArray) :
    Rewritten tree (tree.put (.file content) names) names content :=
  ⟨slot.at?_put content, fun _ => slot.own_at?_put content⟩

theorem at?_names_concat (within : trail.Within tree) (here : trail.node tree = .directory entries)
    (piece : String) : tree.at? (trail.names ++ [piece]) = member? entries piece := by
  rw [at?_append, within.at?, here]
  simp

theorem exists_trail_of_at? (found : tree.at? names = some node) :
    ∃ trail : Trail, trail.Within tree ∧ trail.names = names ∧ trail.node tree = node := by
  induction names using List.reverseRecOn generalizing node with
  | nil =>
      cases found
      exact ⟨[], trivial, rfl, rfl⟩
  | append_singleton names name ih =>
      rw [at?_append, Option.bind_eq_some_iff] at found
      obtain ⟨middle, above, last⟩ := found
      obtain ⟨entries, child, rfl, listed, same⟩ := exists_directory_of_at?_cons last
      cases same
      obtain ⟨trail, inside, rfl, reached⟩ := ih above
      exact ⟨(name, node) :: trail, ⟨inside, entries, reached, listed⟩, by simp, rfl⟩

structure Beside (tree tree' : FileTree) (trail trail' : Trail) : Prop where
  within : trail.Within tree
  within' : trail'.Within tree'
  names_eq : trail'.names = trail.names

namespace Beside

variable {trail' : Trail} {entries' : List (String × FileTree)} {node' : FileTree}

theorem tail (beside : Beside tree tree' trail trail') :
    Beside tree tree' trail.tail trail'.tail where
  within := beside.within.tail
  within' := beside.within'.tail
  names_eq := by rw [Trail.names_tail, Trail.names_tail, beside.names_eq]

theorem start (beside : Beside tree tree' trail trail') (absolute : Bool) :
    Beside tree tree' (if absolute then [] else trail) (if absolute then [] else trail') := by
  cases absolute with
  | true => exact ⟨trivial, trivial, rfl⟩
  | false => exact beside

theorem cons (beside : Beside tree tree' trail trail') (here : trail.node tree = .directory entries)
    (here' : trail'.node tree' = .directory entries') (listed : member? entries name = some node)
    (listed' : member? entries' name = some node') :
    Beside tree tree' ((name, node) :: trail) ((name, node') :: trail') where
  within := ⟨beside.within, entries, here, listed⟩
  within' := ⟨beside.within', entries', here', listed'⟩
  names_eq := by simp [beside.names_eq]

end Beside

namespace Rewritten

variable {position : List String} {trail' : Trail} {entries' : List (String × FileTree)}

theorem exists_of_at? (rewritten : Rewritten tree tree' position content)
    (differs : names ≠ position) (found : tree.at? names = some node) :
    ∃ node', tree'.at? names = some node' ∧ own node' = own node := by
  have kept := rewritten.kept names differs
  rw [found, Option.map_some, Option.map_eq_some_iff] at kept
  exact kept

theorem exists_directory (rewritten : Rewritten tree tree' position content)
    (slot : Slot tree position) (beside : Beside tree tree' trail trail')
    (here : trail.node tree = .directory entries) :
    ∃ entries', trail'.node tree' = .directory entries' := by
  have found := beside.within.at?
  rw [here] at found
  obtain ⟨node', found', same⟩ := rewritten.exists_of_at? (slot.ne_of_at? found nofun) found
  rw [← beside.names_eq, beside.within'.at?, Option.some.injEq] at found'
  subst found'
  cases reached : Trail.node tree' trail' with
  | directory entries' => exact ⟨entries', rfl⟩
  | file content | link target =>
      rw [reached] at same
      cases same

theorem exists_entry (rewritten : Rewritten tree tree' position content)
    (beside : Beside tree tree' trail trail') (here : trail.node tree = .directory entries)
    (here' : trail'.node tree' = .directory entries') (listed : member? entries name = some node)
    (real : ∀ target, node ≠ .link target) :
    ∃ node', member? entries' name = some node' ∧ ∀ target, node' ≠ .link target := by
  rw [← at?_names_concat beside.within here] at listed
  rw [← at?_names_concat beside.within' here', beside.names_eq]
  by_cases written : trail.names ++ [name] = position
  · rw [written, rewritten.written]
    exact ⟨_, rfl, nofun⟩
  · obtain ⟨node', found', same⟩ := rewritten.exists_of_at? written listed
    refine ⟨node', found', ?_⟩
    rintro target rfl
    cases node with
    | link other => exact real other rfl
    | file old | directory others => cases same

theorem member?_link (rewritten : Rewritten tree tree' position content)
    (slot : Slot tree position) (beside : Beside tree tree' trail trail')
    (here : trail.node tree = .directory entries) (here' : trail'.node tree' = .directory entries')
    {target : String} (listed : member? entries name = some (.link target)) :
    member? entries' name = some (.link target) := by
  rw [← at?_names_concat beside.within here] at listed
  rw [← at?_names_concat beside.within' here', beside.names_eq]
  obtain ⟨node', found', same⟩ := rewritten.exists_of_at? (slot.ne_of_at? listed nofun) listed
  cases node' with
  | link other =>
      cases same
      exact found'
  | file old | directory others => cases same

theorem leads (rewritten : Rewritten tree tree' position content) (slot : Slot tree position)
    {pieces : List String} (h : Leads tree links trail pieces place)
    (reached : place.position = position) (beside : Beside tree tree' trail trail') :
    ∃ last, Leads tree' links trail' pieces (.node last) ∧ last.node tree' = .file content := by
  induction h generalizing trail' with
  | arrive links trail =>
      have position_eq : trail.names = position := reached
      have found := beside.within'.at?
      rw [beside.names_eq, position_eq, rewritten.written] at found
      exact ⟨trail', .arrive _ _, (Option.some.inj found).symm⟩
  | stay here blank _ ih =>
      obtain ⟨entries', here'⟩ := rewritten.exists_directory slot beside here
      obtain ⟨last, leads, file⟩ := ih reached beside
      exact ⟨last, .stay here' blank leads, file⟩
  | rise here _ ih =>
      obtain ⟨entries', here'⟩ := rewritten.exists_directory slot beside here
      obtain ⟨last, leads, file⟩ := ih reached beside.tail
      exact ⟨last, .rise here' leads, file⟩
  | @vacant links trail piece entries here named absent =>
      obtain ⟨entries', here'⟩ := rewritten.exists_directory slot beside here
      have position_eq : trail.names ++ [piece] = position := reached
      have listed' : member? entries' piece = some (.file content) := by
        rw [← at?_names_concat beside.within' here', beside.names_eq, position_eq,
          rewritten.written]
      exact ⟨_, .enter here' named listed' nofun (.arrive _ _), rfl⟩
  | enter here named listed real _ ih =>
      obtain ⟨entries', here'⟩ := rewritten.exists_directory slot beside here
      obtain ⟨node', listed', real'⟩ := rewritten.exists_entry beside here here' listed real
      obtain ⟨last, leads, file⟩ := ih reached (beside.cons here here' listed listed')
      exact ⟨last, .enter here' named listed' real' leads, file⟩
  | link here named listed _ ih =>
      obtain ⟨entries', here'⟩ := rewritten.exists_directory slot beside here
      have listed' := rewritten.member?_link slot beside here here' listed
      obtain ⟨last, leads, file⟩ := ih reached (beside.start _)
      exact ⟨last, .link here' named listed' leads, file⟩

theorem exists_beside (rewritten : Rewritten tree tree' position content)
    (within : trail.Within tree) : ∃ trail', Beside tree tree' trail trail' := by
  have found : ∃ node', tree'.at? trail.names = some node' := by
    by_cases written : trail.names = position
    · exact ⟨_, written ▸ rewritten.written⟩
    · obtain ⟨node', found', -⟩ := rewritten.exists_of_at? written within.at?
      exact ⟨node', found'⟩
  obtain ⟨node', found'⟩ := found
  obtain ⟨trail', within', names_eq, -⟩ := exists_trail_of_at? found'
  exact ⟨trail', within, within', names_eq⟩

end Rewritten

/-! ## Writing -/

/-- What writing a file does to a tree: the place of the path has the content, all other places
are kept, and the path leads to the content from the directory of that name. -/
structure Written (tree : FileTree) (directory : Trail) (path : String) (content : ByteArray)
    (tree' : FileTree) : Prop where
  place : ∃ place, tree.place? directory path = .ok place ∧
    Rewritten tree tree' place.position content
  found : ∃ directory' : Trail, directory'.Within tree' ∧ directory'.names = directory.names ∧
    tree'.lookup? directory' path = .ok (.file content)

theorem exists_written (within : directory.Within tree)
    (home : (directory.node tree).isDirectory = true) (writable : Writable tree directory path)
    (text : String) :
    ∃ tree', tree.write? directory path text = .ok tree' ∧
      Written tree directory path text.toUTF8 tree' := by
  obtain ⟨named, place, found, free⟩ := writable
  have slot := slot_of_place? within home found free
  have rewritten := slot.rewritten text.toUTF8
  obtain ⟨some_text, fits, leads⟩ := place?_eq_ok found
  obtain ⟨directory', beside⟩ := rewritten.exists_beside within
  obtain ⟨last, leads', file⟩ := rewritten.leads slot leads rfl (beside.start _)
  refine ⟨_, write?_eq_put named found free, ⟨place, found, rewritten⟩, directory', ?_⟩
  refine ⟨beside.within', beside.names_eq, ?_⟩
  rw [lookup?_of_leads some_text fits leads', file]

end Lineage.FileTree
