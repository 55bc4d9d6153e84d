import Lineage.Proofs.Command.Arguments
import Lineage.Proofs.Command.Outcome

/-!
# A pool does not show

Whether the files are worked on one after the other or by a pool cannot be told from what a
command prints and writes, unless the pool is asked for more permits than it can count.  Then
the command dies once its scan is done.
-/

namespace Lineage.Command

open FileTree

variable {program : Program} {request : Request} {tree : FileTree} {directory : Trail} {cores : Nat}
variable {files : List SourceFile} {workers : Option Nat} {arguments : List String}

namespace Request

theorem accepted_of_sequential (sequential : request.threaded = false) (cores : Nat) :
    (request.settings cores).dispatch.Accepted := by
  simp [settings, sequential, Dispatch.Accepted]

theorem accepted_pooled_iff :
    ((request.pooled workers).settings cores).dispatch.Accepted ↔
      max ((workers.or request.workers).getD cores) 1 ≤ maxPermits := by
  simp [settings, pooled, Dispatch.Accepted]

theorem exit_conclude_ok_le (request : Request) (program : Program) (tree : FileTree)
    (directory : Trail) (document : String) :
    (request.conclude program tree directory (.ok document)).1.exit ≤ 1 := by
  simp only [conclude]
  split
  · exact Nat.zero_le 1
  · split
    · exact Nat.zero_le 1
    · exact Nat.le_refl 1

theorem exit_conclude_verdict_le (request : Request) (program : Program) (tree : FileTree)
    (directory : Trail) (lookup : Lookup) (files : List SourceFile) :
    (request.conclude program tree directory
      ((request.verdict program lookup files).mapError .run)).1.exit ≤ 1 := by
  rcases request.verdict_eq program lookup files with merged | ⟨file, cause, malformed⟩
  · rw [merged]
    exact request.exit_conclude_ok_le program tree directory _
  · rw [malformed]
    exact Nat.le_refl 1

theorem mayPerform_iff_of_sequential (wellFormed : tree.WellFormed)
    (within : directory.Within tree) (sequential : request.threaded = false)
    {ending : Outcome × FileTree} :
    request.MayPerform program cores tree directory ending ↔
      ending = request.perform program tree directory := by
  unfold perform
  cases scanned : request.scan.files? (tree.lookup? directory) with
  | error cause => rw [document?_of_unscanned scanned, mayPerform_iff_of_unscanned scanned]
  | ok files =>
      have distinct := Scan.nodup_names_of_files?_eq_ok wellFormed within scanned
      rw [document?_of_accepted scanned distinct (accepted_of_sequential sequential _),
        mayPerform_iff_of_accepted scanned distinct (accepted_of_sequential sequential _)]

theorem exit_perform_le_of_sequential (wellFormed : tree.WellFormed)
    (within : directory.Within tree) (sequential : request.threaded = false) :
    (request.perform program tree directory).1.exit ≤ 1 := by
  unfold perform
  cases scanned : request.scan.files? (tree.lookup? directory) with
  | error cause =>
      rw [document?_of_unscanned scanned]
      exact Nat.le_refl 1
  | ok files =>
      have distinct := Scan.nodup_names_of_files?_eq_ok wellFormed within scanned
      rw [document?_of_accepted scanned distinct (accepted_of_sequential sequential _)]
      exact exit_conclude_verdict_le request program tree directory _ files

theorem mayPerform_pooled_of_fits (wellFormed : tree.WellFormed) (within : directory.Within tree)
    (sequential : request.threaded = false)
    (fits : max ((workers.or request.workers).getD cores) 1 ≤ maxPermits ∨
      ∃ cause, request.scan.files? (tree.lookup? directory) = .error cause)
    (ending : Outcome × FileTree) :
    (request.pooled workers).MayPerform program cores tree directory ending ↔
      ending = request.perform program tree directory := by
  rw [← accepted_pooled_iff] at fits
  have sameScan : (request.pooled workers).scan = request.scan := rfl
  unfold perform
  cases scanned : request.scan.files? (tree.lookup? directory) with
  | error cause =>
      rw [document?_of_unscanned scanned, mayPerform_iff_of_unscanned (sameScan ▸ scanned)]
      rfl
  | ok files =>
      have distinct := Scan.nodup_names_of_files?_eq_ok wellFormed within scanned
      have accepted := fits.resolve_right (by simp [scanned])
      rw [document?_of_accepted scanned distinct (accepted_of_sequential sequential _),
        mayPerform_iff_of_accepted (sameScan ▸ scanned) distinct accepted]
      rfl

theorem mayPerform_pooled_of_refused
    (scanned : request.scan.files? (tree.lookup? directory) = .ok files)
    (many : ¬max ((workers.or request.workers).getD cores) 1 ≤ maxPermits)
    (ending : Outcome × FileTree) :
    (request.pooled workers).MayPerform program cores tree directory ending ↔
      ending = (.ofFailure program.site (.run (.crash .permits)), tree) := by
  rw [← accepted_pooled_iff] at many
  have sameScan : (request.pooled workers).scan = request.scan := rfl
  exact mayPerform_iff_of_refused (sameScan ▸ scanned) many

end Request

/-- Arguments that do not ask for a pool may be given one, with a number of workers or without.
The command then has, in every order of events, the one ending that it has without the pool, if and
only if the pool can count its permits or the scan already fails. -/
theorem mayExecute_pooled_iff (program : Program) (reads : ReadsPools program.read) (cores : Nat)
    (wellFormed : tree.WellFormed) (within : directory.Within tree)
    (accepted : program.read arguments = .ok request) (sequential : request.threaded = false) :
    (∀ ending, program.MayExecute cores tree directory arguments ending ↔
      ending = program.execute tree directory arguments) ∧
    program.read ("--threaded" :: arguments) = .ok (request.pooled none) ∧
    (∀ text count, request.workers = none → readNumber? text = .ok count →
      program.read ("--workers" :: text :: "--threaded" :: arguments) =
        .ok (request.pooled (some count))) ∧
    ∀ workers pooledArguments,
      program.read pooledArguments = .ok (request.pooled workers) →
      ((∀ ending, program.MayExecute cores tree directory pooledArguments ending ↔
          ending = program.execute tree directory arguments) ↔
        max ((workers.or request.workers).getD cores) 1 ≤ maxPermits ∨
          ∃ cause, request.scan.files? (tree.lookup? directory) = .error cause) := by
  have executed : program.execute tree directory arguments =
      request.perform program tree directory := by
    simp only [Program.execute, accepted]
  refine ⟨fun ending => ?_, reads.threaded accepted sequential,
    fun text count unnumbered => reads.workers accepted sequential unnumbered, ?_⟩
  · simp only [Program.MayExecute, accepted, executed]
    exact Request.mayPerform_iff_of_sequential wellFormed within sequential
  · intro workers pooledArguments acceptedPooled
    simp only [Program.MayExecute, acceptedPooled, executed]
    constructor
    · intro same
      by_contra refused
      obtain ⟨many, scans⟩ := not_or.mp refused
      cases scanned : request.scan.files? (tree.lookup? directory) with
      | error cause => exact scans ⟨cause, scanned⟩
      | ok files =>
          have crashed :=
            (same _).mp ((Request.mayPerform_pooled_of_refused scanned many _).mpr rfl)
          have harmless : (request.perform program tree directory).1.exit ≤ 1 :=
            Request.exit_perform_le_of_sequential wellFormed within sequential
          rw [← crashed] at harmless
          simp [Outcome.ofFailure] at harmless
    · exact Request.mayPerform_pooled_of_fits wellFormed within sequential

/-- A strict command that writes to a file and has a number of workers, but no pool. -/
theorem mayExecute_pooled_iff_of_strict :
    let tree : FileTree := .directory [("A.swift", .file "class A: B {}".toUTF8)]
    let arguments := ["--strict", "--workers", "3", "-o", "A.swift", "--", "."]
    let request : Request :=
      { path := ".", workers := some 3, strict := true, output := some "A.swift" }
    let program := swiftviz permitSite
    ReadsPools program.read ∧
    tree.WellFormed ∧ Trail.Within tree [] ∧ program.read arguments = .ok request ∧
    request.threaded = false ∧
    ∀ ending, program.MayExecute 8 tree [] ("--threaded" :: arguments) ending ↔
      ending = program.execute tree [] arguments := by
  intro tree arguments request program
  have reads : ReadsPools program.read := readsPools_ofArguments?
  have wellFormed : tree.WellFormed :=
    .directory (by decide) (by decide) (by simp [WellFormed.file])
  have accepted : program.read arguments = .ok request := by rfl
  have within : Trail.Within tree [] := trivial
  obtain ⟨-, threaded, -, endings⟩ :=
    mayExecute_pooled_iff program reads 8 wellFormed within accepted rfl
  exact ⟨reads, wellFormed, within, accepted, rfl, (endings none _ threaded).mpr (.inl (by decide))⟩

/-- A pool of as many workers as can be asked for dies where nothing at all is to be done. -/
theorem crash_of_most_workers :
    let tree : FileTree := .directory []
    let arguments := ["--workers", "18446744073709551615", "--threaded", "."]
    (∀ site, ((swiftviz site).execute tree [] ["."]).1.exit = 0) ∧
    (∀ site, ∃ request, (swiftviz site).read arguments = .ok request) ∧
    ∀ site cores ending, (swiftviz site).MayExecute cores tree [] arguments ending ↔
      ending = (⟨101, "",
        "thread 'main' panicked at " ++ site ++ ":\n" ++
          "a semaphore may not have more than MAX_PERMITS permits (2305843009213693951)" ++
          "\nnote: run with `RUST_BACKTRACE=1` environment variable to display a backtrace\n"⟩,
        tree) := by
  intro tree arguments
  have root : tree.lookup? [] "." = .ok tree := lookup?_current rfl
  have scanned : Scan.files? { root := "." } (tree.lookup? []) = .ok [] := by
    simp [Scan.files?, root, tree, Scan.paths, bind, Except.bind, pure, Except.pure]
  have plain (site : String) : (swiftviz site).read ["."] = .ok { path := "." } := rfl
  have pooled (site : String) : (swiftviz site).read arguments =
      .ok { path := ".", threaded := true, workers := some 18446744073709551615 } := rfl
  have document (site : String) :
      Request.document? { path := "." } (swiftviz site) (tree.lookup? []) = _ :=
    Request.document?_of_accepted scanned List.nodup_nil trivial
  refine ⟨fun site => ?_, fun site => ⟨_, pooled site⟩, fun site cores ending => ?_⟩
  · simp only [Program.execute, plain, Request.perform, document]
    rfl
  · simp only [Program.MayExecute, pooled]
    have many : ¬max 18446744073709551615 1 ≤ maxPermits := by decide
    exact Request.mayPerform_iff_of_refused scanned many

end Lineage.Command
