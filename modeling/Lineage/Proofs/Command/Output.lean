import Lineage.Proofs.Command.Outcome
import Lineage.Proofs.FileTree.Write
import Lineage.Proofs.Run.Outcome

/-!
# What a command prints and writes

A command fails for one of three reasons, and then it prints no document and leaves all files as
they are.  Otherwise the document goes to one place: to the standard output, or to the file that
is asked for.
-/

namespace Lineage

/-! ## Malformed files -/

theorem exists_foldlM_eq_ok {σ ι ε : Type} {step : σ → ι → Except ε σ}
    (total : ∀ state item, ∃ next, step state item = .ok next) (items : List ι) (state : σ) :
    ∃ last, items.foldlM step state = .ok last := by
  induction items generalizing state with
  | nil => exact ⟨state, rfl⟩
  | cons item items ih =>
      obtain ⟨next, stepped⟩ := total state item
      obtain ⟨last, rest⟩ := ih next
      refine ⟨last, ?_⟩
      rw [List.foldlM_cons, bind_eq_ok_iff]
      exact ⟨next, stepped, rest⟩

theorem exists_extract_verbatim (declarations : List Declaration) :
    ∃ graph, extract .verbatim declarations = .ok graph := by
  refine exists_foldlM_eq_ok (fun graph declaration => ?_) declarations ∅
  exact exists_foldlM_eq_ok (fun _ _ => ⟨_, rfl⟩) declaration.inherited graph

theorem isMalformed_of_extractFrom_verbatim
    {parsed : Except ParseError (List Declaration)} {cause : ExtractError}
    (h : extractFrom .verbatim parsed = .error cause) : cause.isMalformed = false := by
  cases parsed with
  | error parse =>
      cases h
      rfl
  | ok declarations =>
      obtain ⟨graph, extracted⟩ := exists_extract_verbatim declarations
      cases h.symm.trans extracted

namespace Command

open FileTree

variable {program : Program} {request : Request} {tree : FileTree} {directory : Trail} {cores : Nat}
variable {files : List SourceFile} {lookup : Lookup} {arguments : List String}

namespace Request

def Malformed (request : Request) (program : Program) (lookup : Lookup) (files : List SourceFile) :
    Prop :=
  request.strict = true ∧ request.strategy = .decompose ∧
    ∃ file ∈ files, ∃ cause, lookup.extract .decompose file.path program.parse = .error cause ∧
      cause.isMalformed = true

theorem getElem?_results_eq_some_iff (distinct : (files.map SourceFile.name).Nodup)
    {name : String} {result : FileResult} :
    (request.results program lookup files)[name]? = some result ↔
      ∃ file ∈ files, file.name = name ∧
        lookup.extract request.strategy file.path program.parse = result := by
  have entries :
      ((files.map fun file =>
          (file.name, lookup.extract request.strategy file.path program.parse)).map
        Prod.fst).Nodup := by
    rw [List.map_map]
    exact distinct
  rw [results, Results.getElem?_ofList_eq_some_iff entries]
  simp

theorem malformed?_results_eq_none_iff (distinct : (files.map SourceFile.name).Nodup) :
    (request.results program lookup files).malformed? = none ↔
      ∀ file ∈ files, ∀ cause,
        lookup.extract request.strategy file.path program.parse = .error cause →
          cause.isMalformed = false := by
  simp only [Results.malformed?_eq_none_iff, getElem?_results_eq_some_iff distinct]
  constructor
  · intro harmless file listed cause failed
    exact harmless file.name cause ⟨file, listed, rfl, failed⟩
  · rintro harmless name cause ⟨file, listed, -, failed⟩
    exact harmless file listed cause failed

theorem verdict_of_not_malformed (distinct : (files.map SourceFile.name).Nodup)
    (harmless : ¬request.Malformed program lookup files) :
    request.verdict program lookup files =
      .ok ((request.results program lookup files).merged.document request.format) := by
  have sound : (request.settings defaultWorkers).strict = true →
      (request.results program lookup files).malformed? = none := by
    intro strict
    rw [malformed?_results_eq_none_iff distinct]
    intro file listed cause failed
    cases strategy : request.strategy with
    | verbatim =>
        rw [strategy] at failed
        exact isMalformed_of_extractFrom_verbatim failed
    | decompose =>
        rw [strategy] at failed
        by_contra malformed
        exact harmless ⟨strict, strategy, file, listed, cause, failed, by simpa using malformed⟩
  rw [verdict, Settings.conclude?_eq_merged sound]
  rfl

theorem verdict_of_malformed (distinct : (files.map SourceFile.name).Nodup)
    (malformed : request.Malformed program lookup files) :
    ∃ name cause, request.verdict program lookup files = .error (.malformed name cause) := by
  obtain ⟨strict, strategy, file, listed, cause, failed, isMalformed⟩ := malformed
  have some_malformed : (request.results program lookup files).malformed? ≠ none := by
    rw [ne_eq, malformed?_results_eq_none_iff distinct, strategy]
    intro harmless
    rw [harmless file listed cause failed] at isMalformed
    cases isMalformed
  obtain ⟨⟨name, least⟩, found⟩ := Option.ne_none_iff_exists'.mp some_malformed
  have settings : (request.settings defaultWorkers).strict = true := strict
  exact ⟨name, least, by rw [verdict, Settings.conclude?_eq_malformed settings found]; rfl⟩

/-! ## Endings -/

/-- Why a request fails: its root leads nowhere, a file is malformed where that counts, or the
document cannot be written. -/
inductive Fails (request : Request) (program : Program) (tree : FileTree) (directory : Trail) :
    Prop where
  | unresolved {cause : FileError} :
      tree.lookup? directory request.path = .error cause → Fails request program tree directory
  | malformed {files : List SourceFile} :
      request.scan.files? (tree.lookup? directory) = .ok files →
      request.Malformed program (tree.lookup? directory) files →
      Fails request program tree directory
  | unwritable {path : String} : request.output = some path → ¬Writable tree directory path →
      Fails request program tree directory

/-- The document goes to the file that is asked for, or else to the standard output. -/
structure Delivered (request : Request) (tree : FileTree) (directory : Trail) (document : String)
    (ending : Outcome × FileTree) : Prop where
  exit : ending.1.exit = 0
  printed : request.output = none → ending.1.stdout = document ++ "\n" ∧ ending.2 = tree
  written : ∀ path, request.output = some path →
    ending.1.stdout = "" ∧ Written tree directory path document.toUTF8 ending.2

theorem delivered_conclude (within : directory.Within tree)
    (home : (directory.node tree).isDirectory = true) (document : String)
    (writable : ∀ path, request.output = some path → Writable tree directory path) :
    request.Delivered tree directory document
      (request.conclude program tree directory (.ok document)) := by
  cases output : request.output with
  | none =>
      have printed : request.conclude program tree directory (.ok document) =
          (.success (document ++ "\n"), tree) := by
        simp only [conclude, output]
      rw [printed]
      exact ⟨rfl, fun _ => ⟨rfl, rfl⟩, fun path same => by simp [output] at same⟩
  | some path =>
      obtain ⟨tree', wrote, written⟩ := exists_written within home (writable path output) document
      have ended : request.conclude program tree directory (.ok document) =
          (.success "", tree') := by
        simp only [conclude, output, wrote]
      rw [ended]
      refine ⟨rfl, fun same => by simp [output] at same, fun other same => ?_⟩
      cases output.symm.trans same
      exact ⟨rfl, written⟩

theorem scan_root (request : Request) : request.scan.root = request.path := by
  unfold scan
  split <;> rfl

theorem fails_iff_of_scanned
    (scanned : request.scan.files? (tree.lookup? directory) = .ok files) :
    request.Fails program tree directory ↔
      request.Malformed program (tree.lookup? directory) files ∨
        ∃ path, request.output = some path ∧ ¬Writable tree directory path := by
  constructor
  · rintro (missing | ⟨scanned', malformed⟩ | ⟨output, unwritable⟩)
    · rw [← scan_root] at missing
      simp [Scan.files?, missing] at scanned
    · cases scanned.symm.trans scanned'
      exact .inl malformed
    · exact .inr ⟨_, output, unwritable⟩
  · rintro (malformed | ⟨path, output, unwritable⟩)
    · exact .malformed scanned malformed
    · exact .unwritable output unwritable

structure Failed (tree : FileTree) (ending : Outcome × FileTree) : Prop where
  exit : ending.1.exit = 1
  unprinted : ending.1.stdout = ""
  unwritten : ending.2 = tree

theorem failed_conclude_of_malformed (distinct : (files.map SourceFile.name).Nodup)
    (malformed : request.Malformed program lookup files) (tree : FileTree) (directory : Trail) :
    Failed tree
      (request.conclude program tree directory
        ((request.verdict program lookup files).mapError .run)) := by
  obtain ⟨name, cause, ended⟩ := verdict_of_malformed distinct malformed
  rw [ended]
  exact ⟨rfl, rfl, rfl⟩

theorem failed_conclude_of_unwritable {path : String} (output : request.output = some path)
    (unwritable : ¬Writable tree directory path) (document : String) :
    Failed tree (request.conclude program tree directory (.ok document)) := by
  obtain ⟨cause, refused⟩ := write?_eq_error unwritable document
  have ended : request.conclude program tree directory (.ok document) =
      (.ofFailure program.site (.write cause), tree) := by
    simp only [conclude, output, refused]
  rw [ended]
  exact ⟨rfl, rfl, rfl⟩

end Request

/-- A command whose pool, if any, can count its permits has one ending in every order of events. It
fails if its root leads nowhere, if it is strict and a file is malformed, or if its document cannot
be written, and then it prints nothing and changes no file. Otherwise the document of the files as
they were goes to the one place that is asked for. -/
theorem mayExecute_routed (cores : Nat) (wellFormed : tree.WellFormed)
    (within : directory.Within tree) (home : (directory.node tree).isDirectory = true)
    (accepted : program.read arguments = .ok request)
    (counted : (request.settings cores).dispatch.Accepted)
    (readable : request.scan.Readable (tree.lookup? directory)) :
    ∃ ending, (∀ other, program.MayExecute cores tree directory arguments other ↔ other = ending) ∧
      (request.Fails program tree directory → Request.Failed tree ending) ∧
      (¬request.Fails program tree directory →
        ∃ files, request.scan.files? (tree.lookup? directory) = .ok files ∧
          request.Delivered tree directory
            ((request.results program (tree.lookup? directory) files).merged.document
              request.format) ending) := by
  simp only [Program.MayExecute, accepted]
  cases scanned : request.scan.files? (tree.lookup? directory) with
  | error failure =>
      have missing := Scan.lookup_root_of_files?_eq_error wellFormed within readable scanned
      rw [Request.scan_root] at missing
      refine ⟨_, fun _ => Request.mayPerform_iff_of_unscanned scanned, fun _ => ⟨rfl, rfl, rfl⟩, ?_⟩
      exact fun sound => absurd (.unresolved missing) sound
  | ok files =>
      have distinct := Scan.nodup_names_of_files?_eq_ok wellFormed within scanned
      refine ⟨_, fun _ => Request.mayPerform_iff_of_accepted scanned distinct counted, ?_, ?_⟩
      · intro fails
        by_cases malformed : request.Malformed program (tree.lookup? directory) files
        · exact Request.failed_conclude_of_malformed distinct malformed tree directory
        · obtain ⟨path, output, unwritable⟩ :=
            ((Request.fails_iff_of_scanned scanned).mp fails).resolve_left malformed
          rw [Request.verdict_of_not_malformed distinct malformed]
          exact Request.failed_conclude_of_unwritable output unwritable _
      · intro sound
        obtain ⟨harmless, writable⟩ :=
          not_or.mp ((Request.fails_iff_of_scanned scanned).not.mp sound)
        refine ⟨files, rfl, ?_⟩
        rw [Request.verdict_of_not_malformed distinct harmless]
        exact Request.delivered_conclude within home _ fun path output =>
          not_not.mp fun unwritable => writable ⟨path, output, unwritable⟩

/-- A strict command that takes entries as they stand. It writes through a link to the one file
that it has scanned. -/
theorem mayExecute_routed_of_own_source :
    let entries : List (String × FileTree) :=
      [("A.swift", .file "class A: B {}".toUTF8), ("out", .link "A.swift")]
    let tree : FileTree := .directory entries
    let arguments := ["--strict", "--strategy=verbatim", "-o", "out", "."]
    let request : Request :=
      { path := ".", strategy := .verbatim, strict := true, output := some "out" }
    let lookup := tree.lookup? []
    let program := swiftviz permitSite
    tree.WellFormed ∧ Trail.Within tree [] ∧ (Trail.node tree []).isDirectory = true ∧
    program.read arguments = .ok request ∧
    (request.settings 4).dispatch.Accepted ∧ request.scan.Readable lookup ∧
    ∃ ending files, (∀ other, program.MayExecute 4 tree [] arguments other ↔ other = ending) ∧
      request.scan.files? lookup = .ok files ∧
      request.Delivered tree []
        ((request.results program lookup files).merged.document request.format) ending := by
  intro entries tree arguments request lookup program
  have wellFormed : tree.WellFormed :=
    .directory (by decide) (by decide) (by simp [entries, WellFormed.file, WellFormed.link])
  have within : Trail.Within tree [] := trivial
  have accepted : program.read arguments = .ok request := rfl
  have root : lookup "." = .ok tree := lookup?_current rfl
  have readable : request.scan.Readable lookup := by
    refine Scan.readable_of_fits wellFormed root fun names others below => ?_
    rcases names with _ | ⟨first, _ | ⟨second, rest⟩⟩
    · exact ⟨nofun, by decide⟩
    all_goals
      simp only [entries, at?_directory_cons, member?_cons, member?_nil] at below
      split_ifs at below
      all_goals simp at below
  have leads :
      Leads tree maxLinks [] ["out"] (.node [("A.swift", .file "class A: B {}".toUTF8)]) := by
    refine .link rfl ⟨by decide, by decide, by decide⟩ rfl ?_
    exact .enter rfl ⟨by decide, by decide, by decide⟩ rfl nofun (.arrive _ _)
  have writable : Writable tree [] "out" := by
    have some_text : "out" ≠ "" := by decide
    refine ⟨by decide, _, place?_of_leads some_text (by decide) leads, ?_⟩
    rintro trail ⟨⟩
    rfl
  have sound : ¬request.Fails program tree [] := by
    rintro (missing | ⟨-, -, decomposes, -⟩ | ⟨output, unwritable⟩)
    · cases root.symm.trans missing
    · cases decomposes
    · cases output
      exact unwritable writable
  obtain ⟨ending, only, -, routed⟩ :=
    mayExecute_routed 4 wellFormed within rfl accepted trivial readable
  obtain ⟨files, scanned, delivered⟩ := routed sound
  exact ⟨wellFormed, within, rfl, accepted, trivial, readable, ending, files, only, scanned,
    delivered⟩

/-- A refused pool is no reason to fail, and yet nothing is written. -/
theorem unrouted_of_most_workers :
    let tree : FileTree := .directory []
    let arguments := ["--threaded", "--workers", "18446744073709551615", "-o", "out", "."]
    let request : Request :=
      { path := ".", threaded := true, workers := some 18446744073709551615, output := some "out" }
    (∀ site, (swiftviz site).read arguments = .ok request) ∧
    request.scan.Readable (tree.lookup? []) ∧ (∀ site, ¬request.Fails (swiftviz site) tree []) ∧
    ∀ site cores ending, (swiftviz site).MayExecute cores tree [] arguments ending →
      ending.1.exit = 101 ∧ ending.2 = tree := by
  intro tree arguments request
  have accepted (site : String) : (swiftviz site).read arguments = .ok request := rfl
  have root : tree.lookup? [] "." = .ok tree := lookup?_current rfl
  have scanned : request.scan.files? (tree.lookup? []) = .ok [] := by
    simp [Scan.files?, Request.scan, request, root, tree, Scan.paths, bind, Except.bind, pure,
      Except.pure]
  have free : tree.place? [] "out" = .ok (.vacant [] "out") := by
    have some_text : "out" ≠ "" := by decide
    have leads : Leads tree maxLinks [] ["out"] (.vacant [] "out") :=
      .vacant rfl ⟨by decide, by decide, by decide⟩ rfl
    exact place?_of_leads some_text (by decide) leads
  have many : ¬max 18446744073709551615 1 ≤ maxPermits := by decide
  refine ⟨accepted, ?_, fun site => ?_, fun site cores ending h => ?_⟩
  · intro entries found names cause
    have same : FileTree.directory [] = .directory entries :=
      Except.ok.inj (root.symm.trans found)
    cases same
    rintro ⟨⟨others, below⟩, -, unreadable⟩
    cases names with
    | nil => cases root.symm.trans unreadable
    | cons first rest => cases below
  · rw [Request.fails_iff_of_scanned scanned]
    rintro (⟨strict, -⟩ | ⟨path, output, unwritable⟩)
    · cases strict
    · cases output
      exact unwritable ⟨by decide, _, free, fun trail same => by cases same⟩
  · simp only [Program.MayExecute, accepted, Request.mayPerform_iff_of_refused scanned many] at h
    subst h
    exact ⟨rfl, rfl⟩

end Command
end Lineage
