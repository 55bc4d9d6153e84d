import Lineage.Proofs.Except
import Lineage.Proofs.FileTree.Follow
import Lineage.Proofs.Path
import Lineage.Proofs.Run.SinglePass
import Lineage.Scan

/-!
# What a scan finds

A scan goes through a tree entry by entry.  What it collects is described first along the same
recursion, and then by the names that lead to an entry: these have to be names of directories
that are not skipped, and the last one the name of a file with the wanted extension.
-/

namespace Lineage.Scan

open FileTree

variable {scan : Scan} {lookup : String → Except FileError FileTree} {tree node : FileTree}
variable {entries : List (String × FileTree)} {path name : String} {names found : List String}

/-! ## Along the recursion -/

/-- `Chosen scan lookup path name node names`: the names lead from an entry to a source. The
entry is called `name` and has the path `path`; it is the source itself if there are no names. -/
inductive Chosen (scan : Scan) (lookup : String → Except FileError FileTree) :
    String → String → FileTree → List String → Prop where
  | file {path name : String} {content : ByteArray} : scan.wants name = true →
      Chosen scan lookup path name (.file content) []
  | link {path name target : String} : scan.wants name = true →
      leadsToFile lookup path = true → Chosen scan lookup path name (.link target) []
  | inside {path name inner : String} {entries : List (String × FileTree)} {node : FileTree}
      {names : List String} : name ∉ scan.skipped → (inner, node) ∈ entries →
      Chosen scan lookup (Path.join path inner) inner node names →
      Chosen scan lookup path name (.directory entries) (inner :: names)

def ChosenBelow (scan : Scan) (lookup : String → Except FileError FileTree) (directory : String)
    (entries : List (String × FileTree)) (names : List String) : Prop :=
  ∃ inner node rest, names = inner :: rest ∧ (inner, node) ∈ entries ∧
    Chosen scan lookup (Path.join directory inner) inner node rest

def Lists (directory : String) (wanted : List String → Prop) (found : List String) : Prop :=
  ∃ chosen : List (List String), found = chosen.map (Path.joinAll directory) ∧ chosen.Nodup ∧
    ∀ names, names ∈ chosen ↔ wanted names

theorem lists_of_single {directory : String} {wanted : List String → Prop} {condition : Bool}
    (only : ∀ names, wanted names ↔ names = [] ∧ condition = true) :
    Lists directory wanted (if condition then [directory] else []) := by
  cases condition with
  | true => exact ⟨[[]], rfl, List.nodup_singleton _, fun names => by simp [only]⟩
  | false => exact ⟨[], rfl, List.nodup_nil, fun names => by simp [only]⟩

theorem Lists.cons {directory first : String} {rest : List (String × FileTree)}
    {here others : List String} (fresh : first ∉ rest.map (·.1))
    (listsHere : Lists (Path.join directory first)
      (Chosen scan lookup (Path.join directory first) first node) here)
    (listsOthers : Lists directory (ChosenBelow scan lookup directory rest) others) :
    Lists directory (ChosenBelow scan lookup directory ((first, node) :: rest))
      (here ++ others) := by
  obtain ⟨chosen, rfl, distinct, mem⟩ := listsHere
  obtain ⟨chosen', rfl, distinct', mem'⟩ := listsOthers
  have apart : ∀ names ∈ chosen.map (first :: ·), names ∉ chosen' := by
    intro names mapped listed
    obtain ⟨below, -, rfl⟩ := List.mem_map.mp mapped
    obtain ⟨inner, other, rest', same, known, -⟩ := (mem' _).mp listed
    cases same
    exact fresh (List.mem_map.mpr ⟨_, known, rfl⟩)
  refine ⟨chosen.map (first :: ·) ++ chosen', ?_, ?_, fun names => ?_⟩
  · simp [Function.comp_def]
  · rw [List.nodup_append']
    exact ⟨distinct.map (List.cons_injective), distinct', fun _ => apart _⟩
  · rw [List.mem_append, List.mem_map, mem', ChosenBelow, ChosenBelow]
    constructor
    · rintro (⟨below, chosen, rfl⟩ | ⟨inner, other, below, rfl, known, chosen⟩)
      · exact ⟨first, node, below, rfl, .head _, (mem _).mp chosen⟩
      · exact ⟨inner, other, below, rfl, .tail _ known, chosen⟩
    · rintro ⟨inner, other, below, rfl, known, chosen⟩
      rcases List.mem_cons.mp known with same | known
      · cases same
        exact .inl ⟨below, (mem _).mpr chosen, rfl⟩
      · exact .inr ⟨inner, other, below, rfl, known, chosen⟩

theorem lists_paths {directory : String} (distinct : (entries.map (·.1)).Nodup)
    (lists : ∀ entry ∈ entries, ∀ path found,
      entryPaths scan lookup path entry.1 entry.2 = .ok found →
      Lists path (Chosen scan lookup path entry.1 entry.2) found)
    (h : paths scan lookup directory entries = .ok found) :
    Lists directory (ChosenBelow scan lookup directory entries) found := by
  induction entries generalizing found with
  | nil =>
      cases h
      exact ⟨[], rfl, List.nodup_nil, fun names => by simp [ChosenBelow]⟩
  | cons entry rest ih =>
      obtain ⟨first, node⟩ := entry
      obtain ⟨fresh, distinct⟩ := List.nodup_cons.mp distinct
      simp only [paths, bind_eq_ok_iff] at h
      obtain ⟨mine, here, others, there, same⟩ := h
      cases same
      exact Lists.cons fresh (lists _ (.head _) _ _ here)
        (ih distinct (fun other listed => lists other (.tail _ listed)) there)

theorem chosen_directory_iff :
    Chosen scan lookup path name (.directory entries) names ↔
      name ∉ scan.skipped ∧ ChosenBelow scan lookup path entries names := by
  constructor
  · rintro (_ | _ | ⟨entered, known, chosen⟩)
    exact ⟨entered, _, _, _, rfl, known, chosen⟩
  · rintro ⟨entered, inner, node, rest, rfl, known, chosen⟩
    exact .inside entered known chosen

theorem lists_entryPaths (wellFormed : node.WellFormed)
    (h : entryPaths scan lookup path name node = .ok found) :
    Lists path (Chosen scan lookup path name node) found := by
  induction node using FileTree.induction generalizing path name found with
  | file content =>
      cases h
      refine lists_of_single fun names => ⟨?_, ?_⟩
      · rintro ⟨wanted⟩
        exact ⟨rfl, wanted⟩
      · rintro ⟨rfl, wanted⟩
        exact .file wanted
  | link target =>
      cases h
      refine lists_of_single fun names => ⟨?_, ?_⟩
      · rintro (_ | ⟨wanted, leads⟩)
        exact ⟨rfl, by simp [wanted, leads]⟩
      · rintro ⟨rfl, both⟩
        obtain ⟨wanted, leads⟩ := Bool.and_eq_true_iff.mp both
        exact .link wanted leads
  | directory entries ih =>
      cases wellFormed with
      | directory distinct _ inner =>
          rw [entryPaths] at h
          split at h
          · rename_i skipped
            cases h
            exact ⟨[], rfl, List.nodup_nil, fun names => by simp [chosen_directory_iff, skipped]⟩
          rename_i entered
          split at h
          · cases h
          have lists := lists_paths distinct
            (fun entry listed path found => ih entry listed (inner entry listed)) h
          obtain ⟨chosen, same, apart, mem⟩ := lists
          refine ⟨chosen, same, apart, fun names => ?_⟩
          rw [mem, chosen_directory_iff, and_iff_right entered]

/-! ## Directories that cannot be read -/

/-- A directory that the scan comes to below an entry, and that cannot be read under its path. -/
def Blocked (scan : Scan) (lookup : String → Except FileError FileTree) (path : String)
    (node : FileTree) (names : List String) (cause : FileError) : Prop :=
  (∃ entries, node.at? names = some (.directory entries)) ∧
    (∀ name ∈ names, name ∉ scan.skipped) ∧
    lookup (Path.joinAll path names) = .error cause

theorem exists_entry_of_paths_eq_error {directory : String} {failure : ScanError}
    (h : paths scan lookup directory entries = .error failure) :
    ∃ entry ∈ entries,
      entryPaths scan lookup (Path.join directory entry.1) entry.1 entry.2 = .error failure := by
  induction entries with
  | nil => cases h
  | cons entry rest ih =>
      obtain ⟨first, node⟩ := entry
      simp only [paths, bind_eq_error_iff] at h
      rcases h with failed | ⟨mine, -, failed | ⟨others, -, same⟩⟩
      · exact ⟨_, .head _, failed⟩
      · obtain ⟨entry, listed, failed⟩ := ih failed
        exact ⟨entry, .tail _ listed, failed⟩
      · cases same

theorem Blocked.cons {inner : String} {cause : FileError} (distinct : (entries.map (·.1)).Nodup)
    (known : (inner, node) ∈ entries) (entered : inner ∉ scan.skipped)
    (blocked : Blocked scan lookup (Path.join path inner) node names cause) :
    Blocked scan lookup path (.directory entries) (inner :: names) cause := by
  obtain ⟨⟨others, at_⟩, unskipped, unreadable⟩ := blocked
  refine ⟨⟨others, ?_⟩, List.forall_mem_cons.mpr ⟨entered, unskipped⟩, unreadable⟩
  rw [at?_directory_cons, (member?_eq_some_iff distinct).mpr known]
  exact at_

theorem blocked_of_entryPaths (wellFormed : node.WellFormed) {failure : ScanError}
    (h : entryPaths scan lookup path name node = .error failure) :
    name ∉ scan.skipped ∧ ∃ names, failure.path = Path.joinAll path names ∧
      Blocked scan lookup path node names failure.cause := by
  induction node using FileTree.induction generalizing path name with
  | file content | link target => cases h
  | directory entries ih =>
      rw [entryPaths] at h
      split at h
      · cases h
      rename_i entered
      refine ⟨entered, ?_⟩
      split at h
      · rename_i cause unreadable
        cases h
        exact ⟨[], rfl, ⟨entries, rfl⟩, nofun, unreadable⟩
      · cases wellFormed with
        | directory distinct _ inner =>
            obtain ⟨entry, listed, failed⟩ := exists_entry_of_paths_eq_error h
            obtain ⟨entered', names, path_eq, blocked⟩ :=
              ih entry listed (inner entry listed) failed
            exact ⟨entry.1 :: names, path_eq, blocked.cons distinct listed entered'⟩

/-! ## By the names -/

/-- A regular file, or a link that leads to one. -/
def IsSource (lookup : String → Except FileError FileTree) (path : String) (leaf : FileTree) : Prop :=
  (∃ content, leaf = .file content) ∨
    ∃ target content, leaf = .link target ∧ lookup path = .ok (.file content)

theorem leadsToFile_iff :
    leadsToFile lookup path = true ↔ ∃ content, lookup path = .ok (.file content) := by
  unfold leadsToFile
  split
  · rename_i node found
    cases node <;> simp [found, isFile]
  · simp_all

theorem wants_iff (h : Path.IsName name) :
    scan.wants name = true ↔ Path.HasExtension name scan.extension := by
  rw [wants, beq_iff_eq, Path.extension?_eq_some_iff h]

/-- What makes the entry called `name`, to which the names of its parents lead from a directory,
a source of the scan. -/
structure Selected (scan : Scan) (lookup : String → Except FileError FileTree)
    (directory : String) (node : FileTree) (parents : List String) (name : String) : Prop where
  leaf : ∃ leaf, node.at? (parents ++ [name]) = some leaf ∧
    IsSource lookup (Path.joinAll directory (parents ++ [name])) leaf
  unskipped : ∀ parent ∈ parents, parent ∉ scan.skipped
  extension : Path.HasExtension name scan.extension

theorem chosen_nil_iff :
    Chosen scan lookup path name node [] ↔ scan.wants name = true ∧ IsSource lookup path node := by
  constructor
  · rintro (wanted | ⟨wanted, leads⟩)
    · exact ⟨wanted, .inl ⟨_, rfl⟩⟩
    · obtain ⟨content, found⟩ := leadsToFile_iff.mp leads
      exact ⟨wanted, .inr ⟨_, content, rfl, found⟩⟩
  · rintro ⟨wanted, ⟨content, rfl⟩ | ⟨target, content, rfl, found⟩⟩
    · exact .file wanted
    · exact .link wanted (leadsToFile_iff.mpr ⟨content, found⟩)

theorem Selected.cons {parents : List String} {inner parent : String}
    (entered : parent ∉ scan.skipped) (listed : member? entries parent = some node)
    (selected : Selected scan lookup (Path.join path parent) node parents inner) :
    Selected scan lookup path (.directory entries) (parent :: parents) inner where
  leaf := by
    obtain ⟨leaf, at_, source⟩ := selected.leaf
    exact ⟨leaf, by rw [List.cons_append, at?_directory_cons, listed]; exact at_, source⟩
  unskipped := List.forall_mem_cons.mpr ⟨entered, selected.unskipped⟩
  extension := selected.extension

theorem selected_of_single (wellFormed : (directory entries).WellFormed)
    (known : (name, node) ∈ entries)
    (chosen : Chosen scan lookup (Path.join path name) name node []) :
    Selected scan lookup path (.directory entries) [] name := by
  obtain ⟨wanted, source⟩ := chosen_nil_iff.mp chosen
  cases wellFormed with
  | directory distinct isName _ =>
      have listed := (member?_eq_some_iff distinct).mpr known
      exact ⟨⟨node, by simp [listed], source⟩, nofun, (wants_iff (isName _ known)).mp wanted⟩

theorem selected_of_chosen {above : String} (chosen : Chosen scan lookup path name node names)
    (joined : path = Path.join above name) (wellFormed : (directory entries).WellFormed)
    (known : (name, node) ∈ entries) :
    ∃ parents last, name :: names = parents ++ [last] ∧
      Selected scan lookup above (.directory entries) parents last := by
  induction chosen generalizing above entries with
  | file wanted =>
      subst joined
      exact ⟨[], _, rfl, selected_of_single wellFormed known (.file wanted)⟩
  | link wanted leads =>
      subst joined
      exact ⟨[], _, rfl, selected_of_single wellFormed known (.link wanted leads)⟩
  | inside entered knownInner chosen ih =>
      subst joined
      cases wellFormed with
      | directory distinct _ inner =>
          have listed := (member?_eq_some_iff distinct).mpr known
          obtain ⟨parents, last, same, selected⟩ := ih rfl (inner _ known) knownInner
          exact ⟨_ :: parents, last, by rw [same, List.cons_append], selected.cons entered listed⟩

theorem chosenBelow_of_selected {parents : List String} {last : String}
    (wellFormed : (directory entries).WellFormed)
    (selected : Selected scan lookup path (.directory entries) parents last) :
    ChosenBelow scan lookup path entries (parents ++ [last]) := by
  induction parents generalizing path entries with
  | nil =>
      obtain ⟨⟨leaf, at_, source⟩, -, extension⟩ := selected
      have isName := wellFormed.isName_of_at? at_ last (.head _)
      obtain ⟨_, child, same, listed, found⟩ := exists_directory_of_at?_cons at_
      cases same
      cases found
      have wanted := (wants_iff isName).mpr extension
      exact ⟨last, _, [], rfl, mem_of_member? listed, chosen_nil_iff.mpr ⟨wanted, source⟩⟩
  | cons parent parents ih =>
      obtain ⟨⟨leaf, at_, source⟩, unskipped, extension⟩ := selected
      obtain ⟨_, child, same, listed, below⟩ := exists_directory_of_at?_cons at_
      cases same
      obtain ⟨entered, unskipped⟩ := List.forall_mem_cons.mp unskipped
      have known := mem_of_member? listed
      cases wellFormed with
      | directory _ _ inner =>
          cases child with
          | directory others =>
              have deeper := ih (inner _ known) ⟨⟨leaf, below, source⟩, unskipped, extension⟩
              exact ⟨parent, _, _, rfl, known, chosen_directory_iff.mpr ⟨entered, deeper⟩⟩
          | file content | link target => cases parents <;> simp at below

/-- At the root of a scan it does not matter what the root is called. -/
theorem chosenBelow_iff (wellFormed : (directory entries).WellFormed) :
    ChosenBelow scan lookup path entries names ↔
      ∃ parents last, names = parents ++ [last] ∧
        Selected scan lookup path (.directory entries) parents last := by
  constructor
  · rintro ⟨inner, node, rest, rfl, known, chosen⟩
    exact selected_of_chosen chosen rfl wellFormed known
  · rintro ⟨parents, last, rfl, selected⟩
    exact chosenBelow_of_selected wellFormed selected

theorem lists_selected {directory : String} (wellFormed : (FileTree.directory entries).WellFormed)
    (h : paths scan lookup directory entries = .ok found) :
    Lists directory (fun names => ∃ parents last, names = parents ++ [last] ∧
      Selected scan lookup directory (.directory entries) parents last) found := by
  cases id wellFormed with
  | directory distinct _ inner =>
      obtain ⟨chosen, same, apart, mem⟩ :=
        lists_paths distinct (fun entry known _ _ => lists_entryPaths (inner entry known)) h
      exact ⟨chosen, same, apart, fun names => (mem names).trans (chosenBelow_iff wellFormed)⟩

theorem blocked_of_paths {directory : String} {failure : ScanError}
    (wellFormed : (FileTree.directory entries).WellFormed)
    (h : paths scan lookup directory entries = .error failure) :
    ∃ names, failure.path = Path.joinAll directory names ∧
      Blocked scan lookup directory (.directory entries) names failure.cause := by
  cases wellFormed with
  | directory distinct _ inner =>
      obtain ⟨entry, known, failed⟩ := exists_entry_of_paths_eq_error h
      obtain ⟨entered, names, path_eq, blocked⟩ := blocked_of_entryPaths (inner entry known) failed
      exact ⟨entry.1 :: names, path_eq, blocked.cons distinct known entered⟩

end Lineage.Scan
