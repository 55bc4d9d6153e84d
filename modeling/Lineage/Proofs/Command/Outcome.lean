import Lineage.Command.Execution
import Lineage.Proofs.Run.Order
import Lineage.Proofs.Scan.Files

/-!
# How a request ends

Once the scan has found its files and a pool has not been refused, a request has one ending
only: its files have distinct names, so that no order of events can show in what is printed or
written.
-/

namespace Lineage.Command

open FileTree

variable {program : Program} {request : Request} {tree : FileTree} {directory : Trail} {cores : Nat}
variable {files : List SourceFile} {lookup : Lookup} {ending : Outcome × FileTree}

namespace Request

def results (request : Request) (program : Program) (lookup : Lookup) (files : List SourceFile) :
    Results :=
  .ofList (files.map fun file =>
    (file.name, lookup.extract request.strategy file.path program.parse))

def verdict (request : Request) (program : Program) (lookup : Lookup) (files : List SourceFile) :
    Except RunError String :=
  ((request.settings defaultWorkers).conclude? (request.results program lookup files)).map
    (·.document request.format)

theorem verdict_eq (request : Request) (program : Program) (lookup : Lookup)
    (files : List SourceFile) :
    request.verdict program lookup files =
        .ok ((request.results program lookup files).merged.document request.format) ∨
      ∃ file cause, request.verdict program lookup files = .error (.malformed file cause) := by
  unfold verdict
  rcases Settings.conclude?_eq (request.settings defaultWorkers)
    (request.results program lookup files) with merged | ⟨file, cause, malformed⟩
  · exact .inl (by rw [merged]; rfl)
  · exact .inr ⟨file, cause, by rw [malformed]; rfl⟩

theorem mayRun_iff_verdict (accepted : (request.settings cores).dispatch.Accepted)
    (distinct : (files.map SourceFile.name).Nodup) {document : Except RunError String} :
    (request.settings cores).MayRun (m := Id) SourceFile.name (request.result program lookup) files
        (·.document request.format) document ↔
      document = request.verdict program lookup files := by
  have yields := Settings.yields_of_accepted accepted distinct fun file =>
    lookup.extract request.strategy file.path program.parse
  have same : Settings.handOver (m := Id) (·.document request.format)
      ((request.settings cores).conclude? (request.results program lookup files)) =
        request.verdict program lookup files := by
    -- What is concluded depends on the strictness alone and not on the dispatch.
    have settings : (request.settings cores).conclude? (request.results program lookup files) =
        (request.settings defaultWorkers).conclude? (request.results program lookup files) := rfl
    rw [verdict, settings]
    cases (request.settings defaultWorkers).conclude? (request.results program lookup files) <;> rfl
  rw [← same]
  exact yields.runs (m := Id) (·.document request.format) document

/-! ## Every order of events -/

theorem mayPerform_iff_of_unscanned {cause : ScanError}
    (failed : request.scan.files? (tree.lookup? directory) = .error cause) :
    request.MayPerform program cores tree directory ending ↔
      ending = request.conclude program tree directory (.error (.scan cause)) := by
  constructor
  · rintro (failed' | ⟨scanned, -⟩ | ⟨scanned, -⟩)
    · cases failed.symm.trans failed'
      rfl
    · cases failed.symm.trans scanned
    · cases failed.symm.trans scanned
  · rintro rfl
    exact .unscanned failed

theorem mayPerform_iff_of_refused
    (scanned : request.scan.files? (tree.lookup? directory) = .ok files)
    (refused : ¬(request.settings cores).dispatch.Accepted) :
    request.MayPerform program cores tree directory ending ↔
      ending = request.conclude program tree directory (.error (.run (.crash .permits))) := by
  constructor
  · rintro (failed | _ | ⟨-, _, ⟨_, delivers, -⟩, -⟩)
    · cases failed.symm.trans scanned
    · rfl
    · exact absurd delivers.accepted refused
  · rintro rfl
    exact .refused scanned refused

theorem mayPerform_iff_of_accepted
    (scanned : request.scan.files? (tree.lookup? directory) = .ok files)
    (distinct : (files.map SourceFile.name).Nodup)
    (accepted : (request.settings cores).dispatch.Accepted) :
    request.MayPerform program cores tree directory ending ↔
      ending = request.conclude program tree directory
        ((request.verdict program (tree.lookup? directory) files).mapError .run) := by
  constructor
  · rintro (failed | ⟨-, refused⟩ | ⟨scanned', runs⟩)
    · cases failed.symm.trans scanned
    · exact absurd accepted refused
    · cases scanned.symm.trans scanned'
      rw [(mayRun_iff_verdict accepted distinct).mp runs]
  · rintro rfl
    exact .ran scanned ((mayRun_iff_verdict accepted distinct).mpr rfl)

/-! ## The one schedule -/

theorem document?_of_unscanned {cause : ScanError}
    (failed : request.scan.files? lookup = .error cause) :
    request.document? program lookup = .error (.scan cause) := by
  simp only [document?, failed, Except.mapError, bind, Except.bind]

theorem document?_of_refused (scanned : request.scan.files? lookup = .ok files)
    (refused : ¬(request.settings defaultWorkers).dispatch.Accepted) :
    request.document? program lookup = .error (.run (.crash .permits)) := by
  have crashes : (request.settings defaultWorkers).dispatch.deliver (request.result program lookup)
      files = .error .permits := by
    cases dispatch : (request.settings defaultWorkers).dispatch with
    | sequential =>
        rw [dispatch] at refused
        exact absurd trivial refused
    | concurrent workers =>
        rw [dispatch] at refused
        have many : maxPermits < max workers 1 := Nat.lt_of_not_le refused
        simp [Dispatch.deliver, many]
  simp only [document?, scanned, Settings.graph?, Settings.collect?, crashes, Except.mapError,
    bind, Except.bind]

theorem document?_of_accepted (scanned : request.scan.files? lookup = .ok files)
    (distinct : (files.map SourceFile.name).Nodup)
    (accepted : (request.settings defaultWorkers).dispatch.Accepted) :
    request.document? program lookup = (request.verdict program lookup files).mapError .run := by
  have collects : (request.settings defaultWorkers).Collects SourceFile.name
      (request.result program lookup) files _ := Settings.collects_collect? accepted fun _ _ => rfl
  have collected : (request.settings defaultWorkers).collect? SourceFile.name
      (request.result program lookup) files = .ok (request.results program lookup files) :=
    Settings.eq_ok_of_collects distinct collects
  simp only [document?, scanned, Settings.graph?, collected, verdict, Except.mapError, bind,
    Except.bind]
  cases (request.settings defaultWorkers).conclude? (request.results program lookup files) <;> rfl

/-- The one schedule leads to an ending that some order of events has. -/
theorem mayPerform_perform (wellFormed : tree.WellFormed) (within : directory.Within tree) :
    request.MayPerform program defaultWorkers tree directory
      (request.perform program tree directory) := by
  unfold perform
  cases scanned : request.scan.files? (tree.lookup? directory) with
  | error cause =>
      rw [document?_of_unscanned scanned]
      exact .unscanned scanned
  | ok files =>
      have distinct := Scan.nodup_names_of_files?_eq_ok wellFormed within scanned
      by_cases accepted : (request.settings defaultWorkers).dispatch.Accepted
      · rw [document?_of_accepted scanned distinct accepted]
        exact (mayPerform_iff_of_accepted scanned distinct accepted).mpr rfl
      · rw [document?_of_refused scanned accepted]
        exact .refused scanned accepted

end Request
end Lineage.Command
