import Lineage.Proofs.Scan.Sources
import Lineage.Proofs.Text.Order

/-!
# The files of a scan

A scan of a directory lists one file for every source below it, under a name that is made of
the names on the way and in the order of these names.  It fails only where a directory cannot
be read, and directories with paths and names that are short enough can be read.
-/

namespace Lineage.Scan

open FileTree

variable {scan : Scan} {lookup : String → Except FileError FileTree} {tree node : FileTree}
variable {entries : List (String × FileTree)} {directory : Trail} {names : List String}
variable {files : List SourceFile}

def fileAt (root : String) (names : List String) : SourceFile :=
  ⟨Path.joinAll root names, String.intercalate "/" names⟩

/-- The files are those of the selected entries below a node, each once. -/
structure Exact (scan : Scan) (lookup : String → Except FileError FileTree) (node : FileTree)
    (files : List SourceFile) : Prop where
  each : ∃ chosen : List (List String), files = chosen.map (fileAt scan.root) ∧ chosen.Nodup ∧
    ∀ names, names ∈ chosen ↔
      ∃ parents name, names = parents ++ [name] ∧
        Selected scan lookup scan.root node parents name
  ascending : (files.map fun file => Text.bytes file.name).Pairwise (· < ·)

/-! ## Names -/

theorem isName_of_selected (wellFormed : node.WellFormed) {parents : List String} {name : String}
    (selected : Selected scan lookup scan.root node parents name) :
    ∀ other ∈ parents ++ [name], Path.IsName other := by
  obtain ⟨leaf, found, -⟩ := selected.leaf
  exact wellFormed.isName_of_at? found

theorem nodup_names_fileAt {chosen : List (List String)} (root : String)
    (all : ∀ names ∈ chosen, names ≠ [] ∧ ∀ name ∈ names, Path.IsName name)
    (distinct : chosen.Nodup) : ((chosen.map (fileAt root)).map SourceFile.name).Nodup := by
  rw [List.map_map]
  refine List.Nodup.map_on ?_ distinct
  intro first listed second listed' same
  obtain ⟨some_first, isName⟩ := all first listed
  obtain ⟨some_second, isName'⟩ := all second listed'
  exact Path.intercalate_injective (fun name within => (isName name within).2)
    (fun name within => (isName' name within).2) some_first some_second same

theorem inOrder_map_fileAt (root : String) (chosen : List (List String)) :
    inOrder SourceFile.name (chosen.map (fileAt root)) =
      (inOrder (fun names => (fileAt root names).name) chosen).map (fileAt root) := by
  unfold inOrder
  exact (List.map_mergeSort (f := fileAt root) fun _ _ _ _ => rfl).symm

theorem Exact.nodup_names (exact : Exact scan lookup node files) :
    (files.map SourceFile.name).Nodup := by
  have ascending := List.pairwise_map.mp exact.ascending
  refine List.pairwise_map.mpr (ascending.imp fun less same => ?_)
  rw [same] at less
  exact List.lt_irrefl _ less

/-! ## Scanning a directory -/

theorem exact_inOrder {chosen : List (List String)} (wellFormed : node.WellFormed)
    (distinct : chosen.Nodup)
    (mem : ∀ names, names ∈ chosen ↔
      ∃ parents name, names = parents ++ [name] ∧
        Selected scan lookup scan.root node parents name) :
    Exact scan lookup node (inOrder SourceFile.name (chosen.map (fileAt scan.root))) where
  each := by
    refine ⟨_, inOrder_map_fileAt _ _, (inOrder_perm _ _).nodup_iff.mpr distinct, fun names => ?_⟩
    rw [(inOrder_perm _ _).mem_iff, mem]
  ascending := by
    have all : ∀ names ∈ chosen, names ≠ [] ∧ ∀ name ∈ names, Path.IsName name := by
      intro names listed
      obtain ⟨parents, name, rfl, selected⟩ := (mem names).mp listed
      exact ⟨by simp, isName_of_selected wellFormed selected⟩
    have names :=
      List.pairwise_map.mp (pairwise_inOrder (nodup_names_fileAt scan.root all distinct))
    exact List.pairwise_map.mpr (names.imp Text.bytes_lt)

theorem exact_of_files?_eq_ok (wellFormed : (FileTree.directory entries).WellFormed)
    (found : lookup scan.root = .ok (.directory entries)) (h : scan.files? lookup = .ok files) :
    Exact scan lookup (.directory entries) files := by
  simp only [files?, found] at h
  obtain ⟨listed, read, same⟩ := bind_eq_ok_iff.mp h
  cases same
  obtain ⟨chosen, rfl, distinct, mem⟩ := lists_selected wellFormed read
  have spelled : (chosen.map (Path.joinAll scan.root)).map
      (fun path => SourceFile.mk path (Path.relativeName scan.root path)) =
        chosen.map (fileAt scan.root) := by
    rw [List.map_map]
    refine List.map_congr_left fun names listed => ?_
    obtain ⟨parents, name, rfl, selected⟩ := (mem names).mp listed
    exact congrArg (SourceFile.mk _)
      (Path.relativeName_joinAll (isName_of_selected wellFormed selected) scan.root)
  rw [spelled]
  exact exact_inOrder wellFormed distinct mem

theorem blocked_of_files?_eq_error {failure : ScanError}
    (wellFormed : (FileTree.directory entries).WellFormed)
    (found : lookup scan.root = .ok (.directory entries))
    (h : scan.files? lookup = .error failure) :
    ∃ names, failure.path = Path.joinAll scan.root names ∧
      Blocked scan lookup scan.root (.directory entries) names failure.cause := by
  simp only [files?, found] at h
  rcases bind_eq_error_iff.mp h with failed | ⟨listed, -, same⟩
  · exact blocked_of_paths wellFormed failed
  · cases same

theorem nodup_names_of_files?_eq_ok (wellFormed : tree.WellFormed)
    (within : directory.Within tree) (h : scan.files? (tree.lookup? directory) = .ok files) :
    (files.map SourceFile.name).Nodup := by
  cases found : tree.lookup? directory scan.root with
  | error cause => simp [files?, found] at h
  | ok node =>
      cases node with
      | directory entries =>
          obtain ⟨names, inside⟩ := exists_at?_of_lookup? within found
          exact (exact_of_files?_eq_ok (wellFormed.at? inside) found h).nodup_names
      | file content | link target =>
          simp only [files?, found, Except.ok.injEq] at h
          subst h
          exact List.nodup_nil

/-! ## Directories that can be read -/

/-- Every directory that the scan comes to below its root can be read. -/
def Readable (scan : Scan) (lookup : String → Except FileError FileTree) : Prop :=
  ∀ entries, lookup scan.root = .ok (.directory entries) →
    ∀ names cause, ¬Blocked scan lookup scan.root (.directory entries) names cause

theorem lookup_root_of_files?_eq_error {failure : ScanError} (wellFormed : tree.WellFormed)
    (within : directory.Within tree) (readable : scan.Readable (tree.lookup? directory))
    (h : scan.files? (tree.lookup? directory) = .error failure) :
    tree.lookup? directory scan.root = .error failure.cause := by
  cases found : tree.lookup? directory scan.root with
  | error cause =>
      simp only [files?, found, Except.error.injEq] at h
      rw [← h]
  | ok node =>
      cases node with
      | directory entries =>
          obtain ⟨names, inside⟩ := exists_at?_of_lookup? within found
          obtain ⟨below, -, blocked⟩ :=
            blocked_of_files?_eq_error (wellFormed.at? inside) found h
          exact absurd blocked (readable entries found below failure.cause)
      | file content | link target => simp [files?, found] at h

theorem lookup?_joinAll {path : String} (wellFormed : node.WellFormed)
    (found : tree.lookup? directory path = .ok node)
    (fits : ∀ names entries, node.at? names = some (.directory entries) →
      (∀ name ∈ names, name.utf8ByteSize ≤ maxNameLength) ∧
        (Path.joinAll path names).utf8ByteSize ≤ maxPathLength)
    (below : node.at? names = some (.directory entries)) :
    tree.lookup? directory (Path.joinAll path names) = .ok (.directory entries) := by
  induction names using List.reverseRecOn generalizing entries with
  | nil =>
      cases below
      exact found
  | append_singleton names name ih =>
      obtain ⟨short, fitting⟩ := fits _ _ below
      have isName := wellFormed.isName_of_at? below name (by simp)
      have joined : Path.joinAll path (names ++ [name]) =
          Path.join (Path.joinAll path names) name := by
        simp [Path.joinAll]
      rw [at?_append, Option.bind_eq_some_iff] at below
      obtain ⟨middle, above, last⟩ := below
      obtain ⟨others, child, rfl, listed, same⟩ := exists_directory_of_at?_cons last
      cases same
      rw [joined] at fitting ⊢
      exact lookup?_join (ih above) listed nofun isName (short name (by simp)) fitting

/-- Only names and paths that are too long keep a directory from being read. -/
theorem readable_of_fits (wellFormed : (FileTree.directory entries).WellFormed)
    (found : tree.lookup? directory scan.root = .ok (.directory entries))
    (fits : ∀ names others, (FileTree.directory entries).at? names = some (.directory others) →
      (∀ name ∈ names, name.utf8ByteSize ≤ maxNameLength) ∧
        (Path.joinAll scan.root names).utf8ByteSize ≤ maxPathLength) :
    scan.Readable (tree.lookup? directory) := by
  rintro entries' found' names cause ⟨⟨others, below⟩, -, unreadable⟩
  cases found.symm.trans found'
  rw [lookup?_joinAll wellFormed found fits below] at unreadable
  cases unreadable

/-! ## Scanning a tree -/

/-- A scan of a directory lists exactly the sources below it: every regular file, and every link
that leads to one, with the wanted extension, to which directories lead that are not to be skipped.
It needs all those directories to be readable. A root that is no directory has no sources, and a
root that leads nowhere is an error. -/
theorem files?_exact (scan : Scan) (wellFormed : tree.WellFormed)
    (within : directory.Within tree) :
    let lookup := tree.lookup? directory
    (∀ cause, lookup scan.root = .error cause →
      scan.files? lookup = .error ⟨scan.root, cause⟩) ∧
    (∀ node, lookup scan.root = .ok node → node.isDirectory = false →
      scan.files? lookup = .ok []) ∧
    ∀ entries, lookup scan.root = .ok (.directory entries) →
      scan.Readable lookup →
      ∃ files, scan.files? lookup = .ok files ∧
        Exact scan lookup (.directory entries) files := by
  intro lookup
  refine ⟨fun cause missing => ?_, fun node found other => ?_, fun entries found readable => ?_⟩
  · simp [files?, missing]
  · cases node with
    | directory entries => cases other
    | file content | link target => simp [files?, found]
  · obtain ⟨names, inside⟩ := exists_at?_of_lookup? within found
    have wellFormedRoot := wellFormed.at? inside
    cases scanned : scan.files? lookup with
    | error failure =>
        have missing := lookup_root_of_files?_eq_error wellFormed within readable scanned
        cases missing.symm.trans found
    | ok files => exact ⟨files, rfl, exact_of_files?_eq_ok wellFormedRoot found scanned⟩

/-- A project whose root is a link named like a directory to skip. Below it a directory to skip,
a directory named like a source, a link to a source, a link to itself and a link to a directory. -/
theorem files?_exact_of_linked_root :
    let sources : List (String × FileTree) :=
      [("Pods", .directory [("A.swift", .file .empty)]),
        ("B.swift", .directory [("C.swift", .file .empty), (".swift", .file .empty)]),
        ("D.swift", .link "B.swift/C.swift"), ("E.swift", .link "E.swift"),
        ("F.swift", .link "B.swift")]
    let tree : FileTree := .directory [("project", .directory sources), ("Pods", .link "project")]
    let scan : Scan := { root := "Pods//." }
    let lookup := tree.lookup? []
    tree.WellFormed ∧ Trail.Within tree [] ∧ lookup scan.root = .ok (.directory sources) ∧
    scan.Readable lookup ∧
    ∃ files, scan.files? lookup = .ok files ∧
      Exact scan lookup (.directory sources) files := by
  intro sources tree scan lookup
  have pods : (FileTree.directory [("A.swift", .file .empty)]).WellFormed :=
    .directory (by decide) (by decide) (by simp [WellFormed.file])
  have inner : (FileTree.directory
      [("C.swift", .file .empty), (".swift", .file .empty)]).WellFormed :=
    .directory (by decide) (by decide) (by simp [WellFormed.file])
  have project : (FileTree.directory sources).WellFormed :=
    .directory (by decide) (by decide) (by simp [sources, pods, inner, WellFormed.link])
  have wellFormed : tree.WellFormed :=
    .directory (by decide) (by decide) (by simp [project, WellFormed.link])
  have found : lookup scan.root = .ok (.directory sources) := by
    have leads : Leads tree maxLinks [] ["Pods", "", "."]
        (.node [("project", .directory sources)]) := by
      refine .link rfl ⟨by decide, by decide, by decide⟩ rfl ?_
      refine .enter rfl ⟨by decide, by decide, by decide⟩ rfl (by simp) ?_
      exact .stay rfl (.inl rfl) (.stay rfl (.inr rfl) (.arrive _ _))
    have some_text : scan.root ≠ "" := by decide
    have pieces : Path.pieces scan.root = ["Pods", "", "."] := by decide
    exact lookup?_of_leads some_text (by decide) (by rwa [pieces, ite_self])
  have readable : scan.Readable lookup := by
    refine readable_of_fits project found fun names entries h => ?_
    have positions : names ∈ [[], ["Pods"], ["B.swift"]] := by
      rcases names with _ | ⟨first, _ | ⟨second, _ | ⟨third, rest⟩⟩⟩
      · exact .head _
      all_goals
        simp only [sources, at?_directory_cons, member?_cons, member?_nil] at h
        split_ifs at h
        all_goals simp at h ⊢
      · rename_i same
        exact .inl same.symm
      · rename_i same
        exact .inr same.symm
      all_goals
        split_ifs at h
        all_goals simp at h
    clear h
    revert names
    decide
  have within : Trail.Within tree [] := trivial
  obtain ⟨-, -, scanned⟩ := files?_exact scan wellFormed within
  exact ⟨wellFormed, within, found, readable, scanned sources found readable⟩

end Lineage.Scan
