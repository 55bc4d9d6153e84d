import Lineage.Proofs.Command.Output

/-!
# Files that leave no trace

A command that prints its document looks at nothing but the files that could be read.  A file that
could not, and whatever the scan passes over, may come, go or change without a trace in the exit
code and in the two streams.  In a lenient run this goes for every file without a graph of its own.
-/

open Std

namespace Lineage

/-! ## Results that count -/

theorem foldl_filter_of_idle {σ ι : Type} {step : σ → ι → σ} {keep : ι → Bool} {items : List ι}
    (idle : ∀ state, ∀ item ∈ items, keep item = false → step state item = state) (state : σ) :
    (items.filter keep).foldl step state = items.foldl step state := by
  induction items generalizing state with
  | nil => rfl
  | cons item items ih =>
      have others := ih fun state other listed => idle state other (.tail _ listed)
      cases kept : keep item with
      | true => rw [List.filter_cons_of_pos kept, List.foldl_cons, List.foldl_cons, others]
      | false =>
          rw [List.filter_cons_of_neg (by simp [kept]), List.foldl_cons,
            idle state item (.head _) kept, others]

theorem findSome?_filter_of_none {ι α : Type} {find : ι → Option α} {keep : ι → Bool}
    {items : List ι} (missing : ∀ item ∈ items, keep item = false → find item = none) :
    (items.filter keep).findSome? find = items.findSome? find := by
  induction items with
  | nil => rfl
  | cons item items ih =>
      have others := ih fun other listed => missing other (.tail _ listed)
      cases kept : keep item with
      | true => rw [List.filter_cons_of_pos kept, List.findSome?_cons, List.findSome?_cons, others]
      | false =>
          rw [List.filter_cons_of_neg (by simp [kept]), List.findSome?_cons,
            missing item (.head _) kept, others]

def counts (strict : Bool) : FileResult → Bool
  | .ok _ => true
  | .error cause => strict && cause.isMalformed

namespace Results

variable {results other : Results} {strict : Bool}

def counting (strict : Bool) (results : Results) : List (String × FileResult) :=
  results.toList.filter fun result => counts strict result.2

theorem counting_eq
    (same : ∀ (name : String) result, counts strict result = true →
      (results[name]? = some result ↔ other[name]? = some result)) :
    results.counting strict = other.counting strict := by
  have increasing (results : Results) :
      (results.counting strict).Pairwise fun first second => first.1 < second.1 :=
    (Text.pairwise_toList results).filter _
  have distinct (results : Results) : (results.counting strict).Nodup :=
    (increasing results).imp fun less => by
      rintro rfl
      exact String.lt_irrefl _ less
  have perm : (results.counting strict).Perm (other.counting strict) := by
    rw [List.perm_ext_iff_of_nodup (distinct results) (distinct other)]
    rintro ⟨name, result⟩
    rw [counting, counting, List.mem_filter, List.mem_filter,
      ExtTreeMap.mem_toList_iff_getElem?_eq_some, ExtTreeMap.mem_toList_iff_getElem?_eq_some]
    exact and_congr_left (same name result)
  exact perm.eq_of_pairwise
    (fun _ _ _ _ less more => absurd (String.lt_trans less more) (String.lt_irrefl _))
    (increasing results) (increasing other)

theorem merged_eq_foldl_counting (strict : Bool) (results : Results) :
    results.merged = (results.counting strict).foldl (fun graph result =>
      match result.2 with
      | .ok other => graph.merge other
      | .error _ => graph) ∅ := by
  rw [counting, foldl_filter_of_idle]
  · rfl
  · rintro graph ⟨name, _ | cause⟩ - idle
    · rfl
    · cases idle

theorem malformed?_eq_findSome?_counting (results : Results) :
    results.malformed? = (results.counting true).findSome? fun result =>
      match result.2 with
      | .ok _ => none
      | .error cause => if cause.isMalformed then some (result.1, cause) else none := by
  rw [counting, findSome?_filter_of_none]
  · rfl
  · rintro ⟨name, cause | _⟩ - idle
    · exact if_neg (by simpa [counts] using idle)
    · cases idle

theorem conclude?_congr (settings : Settings)
    (same : results.counting settings.strict = other.counting settings.strict) :
    settings.conclude? results = settings.conclude? other := by
  have merged : results.merged = other.merged := by
    rw [merged_eq_foldl_counting settings.strict results, same,
      ← merged_eq_foldl_counting]
  unfold Settings.conclude?
  cases strict : settings.strict with
  | true =>
      rw [strict] at same
      rw [malformed?_eq_findSome?_counting, malformed?_eq_findSome?_counting, same, merged]
  | false => rw [merged]

end Results
/-! ## Contents -/

def Declares (parse : Parser) (content : ByteArray) (declarations : List Declaration) : Prop :=
  ∃ text, String.fromUTF8? content = some text ∧ parse text = .ok declarations

def Parses (parse : Parser) (content : ByteArray) : Prop :=
  ∃ declarations, Declares parse content declarations

def Extracts (parse : Parser) (strategy : Strategy) (content : ByteArray) : Prop :=
  ∃ declarations graph, Declares parse content declarations ∧
    extract strategy declarations = .ok graph

theorem lookup_extract_eq_iff {lookup : Lookup} {strategy : Strategy} {path : String}
    {parse : Parser} {result : FileResult} (parsed : ∀ cause, result ≠ .error (.parse cause)) :
    lookup.extract strategy path parse = result ↔
      ∃ content declarations, lookup path = .ok (.file content) ∧
        Declares parse content declarations ∧ extract strategy declarations = result := by
  constructor
  · intro extracted
    rw [Lookup.extract] at extracted
    cases declared : lookup.declarations? parse path with
    | error cause =>
        rw [declared] at extracted
        exact absurd extracted.symm (parsed cause)
    | ok declarations =>
        rw [declared] at extracted
        rw [Lookup.declarations?] at declared
        split at declared
        case h_2 => cases declared
        case h_1 text read =>
            obtain ⟨node, found, spelled⟩ := bind_eq_ok_iff.mp read
            cases node with
            | file content =>
                rw [FileTree.text?] at spelled
                split at spelled
                case h_2 => cases spelled
                case h_1 text' decoded =>
                    cases spelled
                    exact ⟨content, declarations, found, ⟨text, decoded, declared⟩, extracted⟩
            | directory entries | link target => cases spelled
  · rintro ⟨content, declarations, found, ⟨text, decoded, declared⟩, extracted⟩
    have read : (lookup path >>= FileTree.text?) = .ok text := by
      rw [found]
      simp only [bind, Except.bind, FileTree.text?, decoded]
    rw [Lookup.extract, Lookup.declarations?, read]
    simp only [declared]
    exact extracted

/-! ## Sources -/

namespace Scan

open FileTree

variable {scan : Scan} {entries : List (String × FileTree)} {lookup lookup' : Lookup}
variable {tree : FileTree} {directory : Trail}

/-- The names lead from a node to a file that the scan selects, and that content is read there. -/
def Source (scan : Scan) (lookup : Lookup) (node : FileTree) (names : List String)
    (content : ByteArray) : Prop :=
  (∃ parents name, names = parents ++ [name] ∧
    Selected scan lookup scan.root node parents name) ∧
  lookup (Path.joinAll scan.root names) = .ok (.file content)

/-- The root leads to a directory in either tree, and below the two there are the same files with
content of the kind in question. -/
def Agree (scan : Scan) (kind : ByteArray → Prop) (lookup lookup' : Lookup) : Prop :=
  ∃ entries entries', lookup scan.root = .ok (.directory entries) ∧
    lookup' scan.root = .ok (.directory entries') ∧
    ∀ names content, kind content →
      (scan.Source lookup (.directory entries) names content ↔
        scan.Source lookup' (.directory entries') names content)

theorem source_flat_iff (flat : ∀ entry ∈ entries, entry.2.isDirectory = false)
    {names : List String} {content : ByteArray} :
    scan.Source lookup (.directory entries) names content ↔
      ∃ name leaf, names = [name] ∧ member? entries name = some leaf ∧
        IsSource lookup (Path.join scan.root name) leaf ∧
        Path.HasExtension name scan.extension ∧
        lookup (Path.join scan.root name) = .ok (.file content) := by
  constructor
  · rintro ⟨⟨parents, name, rfl, ⟨leaf, at_, source⟩, -, extension⟩, read⟩
    cases parents with
    | nil =>
        obtain ⟨_, child, same, listed, found⟩ := exists_directory_of_at?_cons at_
        cases same
        cases found
        exact ⟨name, _, rfl, listed, source, extension, read⟩
    | cons parent parents =>
        obtain ⟨_, child, same, listed, below⟩ := exists_directory_of_at?_cons at_
        cases same
        have real := flat _ (mem_of_member? listed)
        cases child with
        | directory others => cases real
        | file content | link target => cases parents <;> simp at below
  · rintro ⟨name, leaf, rfl, listed, source, extension, read⟩
    exact ⟨⟨[], name, rfl, ⟨leaf, by simp [listed], source⟩, nofun, extension⟩, read⟩

theorem exists_exact (wellFormed : tree.WellFormed) (within : directory.Within tree)
    (readable : scan.Readable (tree.lookup? directory))
    (found : tree.lookup? directory scan.root = .ok (.directory entries)) :
    ∃ files, scan.files? (tree.lookup? directory) = .ok files ∧
      Exact scan (tree.lookup? directory) (.directory entries) files := by
  obtain ⟨names, inside⟩ := exists_at?_of_lookup? within found
  cases scanned : scan.files? (tree.lookup? directory) with
  | error failure =>
      have missing := lookup_root_of_files?_eq_error wellFormed within readable scanned
      cases missing.symm.trans found
  | ok files => exact ⟨files, rfl, exact_of_files?_eq_ok (wellFormed.at? inside) found scanned⟩

end Scan

namespace Command

open FileTree

variable {program : Program} {request : Request} {lookup lookup' : Lookup} {arguments : List String}
variable {tree tree' : FileTree} {directory directory' : Trail}

namespace Request

theorem getElem?_results_iff_source {node : FileTree} {files : List SourceFile}
    (exact : Scan.Exact request.scan lookup node files) {name : String} {result : FileResult}
    (parsed : ∀ cause, result ≠ .error (.parse cause)) :
    (request.results program lookup files)[name]? = some result ↔
      ∃ names content declarations, request.scan.Source lookup node names content ∧
        String.intercalate "/" names = name ∧ Declares program.parse content declarations ∧
        extract request.strategy declarations = result := by
  rw [getElem?_results_eq_some_iff exact.nodup_names]
  obtain ⟨chosen, rfl, -, mem⟩ := exact.each
  simp only [List.mem_map, exists_exists_and_eq_and, lookup_extract_eq_iff parsed, mem]
  constructor
  · rintro ⟨names, selected, named, content, declarations, found, declares, extracted⟩
    exact ⟨names, content, declarations, ⟨selected, found⟩, named, declares, extracted⟩
  · rintro ⟨names, content, declarations, ⟨selected, found⟩, named, declares, extracted⟩
    exact ⟨names, selected, named, content, declarations, found, declares, extracted⟩

/-- Files may differ if they do not parse, and in a lenient request also if they have no graph. -/
def Alike (request : Request) (program : Program) (lookup lookup' : Lookup) : Prop :=
  request.scan.Agree (Parses program.parse) lookup lookup' ∨
    request.strict = false ∧
      request.scan.Agree (Extracts program.parse request.strategy) lookup lookup'

theorem Alike.exists_agree (alike : request.Alike program lookup lookup') :
    ∃ kind, request.scan.Agree kind lookup lookup' ∧
      ∀ content declarations, Declares program.parse content declarations →
        counts request.strict (extract request.strategy declarations) = true → kind content := by
  rcases alike with agree | ⟨lenient, agree⟩
  · exact ⟨_, agree, fun content declarations declares _ => ⟨declarations, declares⟩⟩
  · refine ⟨_, agree, fun content declarations declares counted => ?_⟩
    cases extracted : extract request.strategy declarations with
    | ok graph => exact ⟨declarations, graph, declares, extracted⟩
    | error cause => simp [extracted, counts, lenient] at counted

theorem verdict_congr {kind : ByteArray → Prop} {node node' : FileTree}
    {files files' : List SourceFile} (exact : Scan.Exact request.scan lookup node files)
    (exact' : Scan.Exact request.scan lookup' node' files')
    (kept : ∀ content declarations, Declares program.parse content declarations →
      counts request.strict (extract request.strategy declarations) = true → kind content)
    (agree : ∀ names content, kind content →
      (request.scan.Source lookup node names content ↔
        request.scan.Source lookup' node' names content)) :
    request.verdict program lookup files = request.verdict program lookup' files' := by
  have same : (request.results program lookup files).counting request.strict =
      (request.results program lookup' files').counting request.strict := by
    apply Results.counting_eq
    intro name result counted
    have parsed (cause : ParseError) : result ≠ .error (.parse cause) := by
      rintro rfl
      simp [counts, ExtractError.isMalformed] at counted
    rw [getElem?_results_iff_source exact parsed, getElem?_results_iff_source exact' parsed]
    refine exists_congr fun names => exists_congr fun content => exists_congr fun declarations => ?_
    constructor
    all_goals
      rintro ⟨source, named, declares, rfl⟩
    · exact ⟨(agree _ _ (kept _ _ declares counted)).mp source, named, declares, rfl⟩
    · exact ⟨(agree _ _ (kept _ _ declares counted)).mpr source, named, declares, rfl⟩
  exact congrArg (Except.map (·.document request.format))
    (Results.conclude?_congr (request.settings defaultWorkers) same)

theorem exists_outcome (printed : request.output = none) (program : Program)
    (document : Except Failure String) :
    ∃ outcome, ∀ tree directory,
      request.conclude program tree directory document = (outcome, tree) := by
  cases document with
  | error failure => exact ⟨_, fun _ _ => rfl⟩
  | ok document =>
      refine ⟨.success (document ++ "\n"), fun tree directory => ?_⟩
      simp only [conclude, printed]

theorem mayPerform_isolated (cores : Nat) (wellFormed : tree.WellFormed)
    (within : directory.Within tree) (wellFormed' : tree'.WellFormed)
    (within' : directory'.Within tree') (printed : request.output = none)
    (readable : request.scan.Readable (tree.lookup? directory))
    (readable' : request.scan.Readable (tree'.lookup? directory'))
    (alike : request.Alike program (tree.lookup? directory) (tree'.lookup? directory')) :
    ∃ outcome,
      (∀ ending, request.MayPerform program cores tree directory ending ↔
        ending = (outcome, tree)) ∧
      ∀ ending, request.MayPerform program cores tree' directory' ending ↔
        ending = (outcome, tree') := by
  obtain ⟨kind, ⟨entries, entries', found, found', agree⟩, kept⟩ := alike.exists_agree
  obtain ⟨files, scanned, exact⟩ := Scan.exists_exact wellFormed within readable found
  obtain ⟨files', scanned', exact'⟩ := Scan.exists_exact wellFormed' within' readable' found'
  by_cases accepted : (request.settings cores).dispatch.Accepted
  · obtain ⟨outcome, concluded⟩ := exists_outcome printed program
      ((request.verdict program (tree.lookup? directory) files).mapError .run)
    refine ⟨outcome, fun ending => ?_, fun ending => ?_⟩
    · rw [mayPerform_iff_of_accepted scanned exact.nodup_names accepted, concluded]
    · rw [mayPerform_iff_of_accepted scanned' exact'.nodup_names accepted,
        ← verdict_congr exact exact' kept agree, concluded]
  · obtain ⟨outcome, concluded⟩ := exists_outcome printed program
      (.error (.run (.crash .permits)))
    refine ⟨outcome, fun ending => ?_, fun ending => ?_⟩
    · rw [mayPerform_iff_of_refused scanned accepted, concluded]
    · rw [mayPerform_iff_of_refused scanned' accepted, concluded]

end Request

/-- Two trees that have the same files wherever the content parses make no difference to a command
that writes no file, as long as the scan can read the directories of both: it ends the same way in
both, in every order of events.  Where the command is lenient it is enough that they have the same
files wherever the content has a graph. -/
theorem mayExecute_isolated (program : Program) (cores : Nat)
    (wellFormed : tree.WellFormed) (within : directory.Within tree)
    (wellFormed' : tree'.WellFormed) (within' : directory'.Within tree')
    (alike : ∀ request, program.read arguments = .ok request →
      request.output = none ∧ request.scan.Readable (tree.lookup? directory) ∧
      request.scan.Readable (tree'.lookup? directory') ∧
      request.Alike program (tree.lookup? directory) (tree'.lookup? directory')) :
    ∃ outcome,
      (∀ ending, program.MayExecute cores tree directory arguments ending ↔
        ending = (outcome, tree)) ∧
      (∀ ending, program.MayExecute cores tree' directory' arguments ending ↔
        ending = (outcome, tree')) ∧
      (program.execute tree directory arguments).1 =
        (program.execute tree' directory' arguments).1 := by
  unfold Program.MayExecute Program.execute
  cases accepted : program.read arguments with
  | error stop => exact ⟨stop.outcome, fun _ => Iff.rfl, fun _ => Iff.rfl, rfl⟩
  | ok request =>
      obtain ⟨printed, readable, readable', alike⟩ := alike request accepted
      obtain ⟨outcome, ends, ends'⟩ := Request.mayPerform_isolated cores wellFormed within
        wellFormed' within' printed readable readable' alike
      obtain ⟨usual, performs, performs'⟩ := Request.mayPerform_isolated defaultWorkers wellFormed
        within wellFormed' within' printed readable readable' alike
      have performed := (performs _).mp (Request.mayPerform_perform wellFormed within)
      have performed' := (performs' _).mp (Request.mayPerform_perform wellFormed' within')
      exact ⟨outcome, ends, ends', by simp only [performed, performed']⟩

/-- A file that does not parse is removed, and a file with another extension is added. -/
theorem mayExecute_isolated_of_broken_file :
    let content := "class A: B \x7b\x7d".toUTF8
    let broken := "class \x7b".toUTF8
    let tree : FileTree := .directory [("A.swift", .file content), ("B.swift", .file broken)]
    let tree' : FileTree := .directory [("A.swift", .file content), ("C.txt", .file content)]
    let arguments := ["--strict", "."]
    let request : Request := { path := ".", strict := true }
    let program := swiftviz permitSite
    tree.WellFormed ∧ tree'.WellFormed ∧ Trail.Within tree [] ∧ Trail.Within tree' [] ∧
    program.read arguments = .ok request ∧ request.output = none ∧
    request.scan.Readable (tree.lookup? []) ∧ request.scan.Readable (tree'.lookup? []) ∧
    request.Alike program (tree.lookup? []) (tree'.lookup? []) ∧
    ∃ outcome,
      (∀ ending, program.MayExecute 4 tree [] arguments ending ↔ ending = (outcome, tree)) ∧
      (∀ ending, program.MayExecute 4 tree' [] arguments ending ↔ ending = (outcome, tree')) ∧
      (program.execute tree [] arguments).1 = (program.execute tree' [] arguments).1 := by
  intro content broken tree tree' arguments request program
  have wellFormed : tree.WellFormed :=
    .directory (by decide) (by decide) (by simp [WellFormed.file])
  have wellFormed' : tree'.WellFormed :=
    .directory (by decide) (by decide) (by simp [WellFormed.file])
  have accepted : program.read arguments = .ok request := rfl
  have root : tree.lookup? [] "." = .ok tree := lookup?_current rfl
  have root' : tree'.lookup? [] "." = .ok tree' := lookup?_current rfl
  have readable : request.scan.Readable (tree.lookup? []) := by
    refine Scan.readable_of_fits wellFormed root fun names others below => ?_
    rcases names with _ | ⟨first, _ | ⟨second, rest⟩⟩
    · exact ⟨nofun, by decide⟩
    all_goals
      simp only [at?_directory_cons, member?_cons, member?_nil] at below
      split_ifs at below
      all_goals simp at below
  have readable' : request.scan.Readable (tree'.lookup? []) := by
    refine Scan.readable_of_fits wellFormed' root' fun names others below => ?_
    rcases names with _ | ⟨first, _ | ⟨second, rest⟩⟩
    · exact ⟨nofun, by decide⟩
    all_goals
      simp only [at?_directory_cons, member?_cons, member?_nil] at below
      split_ifs at below
      all_goals simp at below
  have first : tree.lookup? [] (Path.join "." "A.swift") = .ok (.file content) :=
    lookup?_join root rfl nofun (by decide) (by decide) (by decide)
  have first' : tree'.lookup? [] (Path.join "." "A.swift") = .ok (.file content) :=
    lookup?_join root' rfl nofun (by decide) (by decide) (by decide)
  have second : tree.lookup? [] (Path.join "." "B.swift") = .ok (.file broken) :=
    lookup?_join root rfl nofun (by decide) (by decide) (by decide)
  have alike : request.Alike program (tree.lookup? []) (tree'.lookup? []) := by
    refine .inl ⟨_, _, root, root', ?_⟩
    rintro names text ⟨declarations, source, decoded, parsed⟩
    have fails : (Source.parse "class \x7b").isOk = false := by decide +kernel
    have extension : Path.HasExtension "A.swift" "swift" := ⟨"A", by decide, rfl, by decide⟩
    rw [Scan.source_flat_iff (by simp [isDirectory]), Scan.source_flat_iff (by simp [isDirectory])]
    constructor
    · rintro ⟨name, leaf, rfl, listed, -, -, read⟩
      simp only [member?_cons, member?_nil] at listed
      split_ifs at listed with here there
      · subst here
        cases first.symm.trans read
        exact ⟨"A.swift", _, rfl, rfl, .inl ⟨_, rfl⟩, extension, first'⟩
      · subst there
        cases second.symm.trans read
        have valid : broken.IsValidUTF8 := ("class \x7b" : String).isValidUTF8
        rw [String.fromUTF8?, dif_pos valid] at decoded
        cases decoded
        have parsed' : Source.parse "class \x7b" = .ok declarations := parsed
        rw [parsed'] at fails
        cases fails
    · rintro ⟨name, leaf, rfl, listed, -, named, read⟩
      simp only [member?_cons, member?_nil] at listed
      split_ifs at listed with here there
      · subst here
        cases first'.symm.trans read
        exact ⟨"A.swift", _, rfl, rfl, .inl ⟨_, rfl⟩, extension, first⟩
      · subst there
        have wanted : request.scan.wants "C.txt" = true := (Scan.wants_iff (by decide)).mpr named
        exact absurd wanted (by decide)
  refine ⟨wellFormed, wellFormed', trivial, trivial, accepted, rfl, readable, readable', alike, ?_⟩
  refine mayExecute_isolated program 4 wellFormed trivial wellFormed' trivial
    fun other accepted' => ?_
  cases accepted.symm.trans accepted'
  exact ⟨rfl, readable, readable', alike⟩

/-! ## Directories that cannot be read -/

def dots (count : Nat) : String :=
  String.intercalate "/" (List.replicate (count + 1) ".")

theorem utf8ByteSize_dots (count : Nat) : (dots count).utf8ByteSize = 2 * count + 1 := by
  induction count with
  | zero => rfl
  | succ count ih =>
      rw [dots] at ih ⊢
      rw [List.replicate_succ, List.replicate_succ, String.intercalate_cons_cons,
        ← List.replicate_succ, String.utf8ByteSize_append, String.utf8ByteSize_append, ih]
      have sizes : ".".utf8ByteSize = 1 ∧ "/".utf8ByteSize = 1 := by decide
      omega

theorem lookup?_dots (entries : List (String × FileTree)) {count : Nat}
    (fits : 2 * count + 1 ≤ maxPathLength) :
    (FileTree.directory entries).lookup? [] (dots count) = .ok (.directory entries) := by
  have leads (count : Nat) :
      Leads (.directory entries) maxLinks [] (List.replicate count ".") (.node []) := by
    induction count with
    | zero => exact .arrive _ _
    | succ count ih => exact .stay rfl (.inr rfl) ih
  have pieces : Path.pieces (dots count) = List.replicate (count + 1) "." :=
    Path.pieces_intercalate (by simp) (by simp)
  have some_text : dots count ≠ "" := by
    intro blank
    have size := utf8ByteSize_dots count
    rw [blank] at size
    cases size
  rw [lookup?_of_leads some_text (by rwa [utf8ByteSize_dots])
    (by rw [ite_self, pieces]; exact leads _)]
  rfl

theorem read_path (site : String) {path : String} (some_text : path ≠ "") :
    (swiftviz site).read ["--", path] = .ok { path } := by
  simp [swiftviz, Request.ofArguments?, Draft.readAll, Draft.place, Draft.request, Draft.settle,
    Draft.store,
    Draft.has, some_text, Except.mapError, bind, Except.bind, pure, Except.pure]

theorem utf8ByteSize_join_ge (path name : String) :
    path.utf8ByteSize + name.utf8ByteSize ≤ (Path.join path name).utf8ByteSize := by
  unfold Path.join
  split
  all_goals
    simp only [String.utf8ByteSize_append]
    omega

section

variable {path : String}
variable (root : ∀ entries, (FileTree.directory entries).lookup? [] path =
  .ok (.directory entries))

include root

theorem files?_of_long_path (long : maxPathLength < (Path.join path "sub").utf8ByteSize) :
    ({ path } : Request).scan.files? ((FileTree.directory [("sub", .directory [])]).lookup? []) =
      .error ⟨Path.join path "sub", .nameTooLong⟩ := by
  have some_text : (Path.join path "sub").isEmpty = false := by
    rw [String.isEmpty_eq_false_iff]
    rintro blank
    rw [blank] at long
    cases long
  have blocked : (FileTree.directory [("sub", .directory [])]).lookup? [] (Path.join path "sub") =
      .error .nameTooLong := by
    simp [lookup?, place?, some_text, long]
  have entered : "sub" ∉ ({ path } : Request).scan.skipped := by
    change "sub" ∉ [".build", "Build", "DerivedData", "Pods"]
    decide
  simp [Scan.files?, Request.scan_root, root, Scan.paths, Scan.entryPaths, blocked, bind,
    Except.bind, entered]

theorem alike_of_no_files (program : Program) :
    ({ path } : Request).Alike program ((FileTree.directory [("sub", .directory [])]).lookup? [])
      ((FileTree.directory []).lookup? []) := by
  have no_source {entries : List (String × FileTree)} {lookup : Lookup}
      (bare : ∀ entry ∈ entries, entry.2 = .directory []) (names : List String)
      (content : ByteArray) :
      ¬({ path } : Request).scan.Source lookup (.directory entries) names content := by
    rintro ⟨⟨parents, name, rfl, ⟨leaf, at_, source⟩, -⟩, -⟩
    cases parents with
    | nil =>
        obtain ⟨_, child, same, listed, found⟩ := exists_directory_of_at?_cons at_
        cases same
        cases found
        have empty : leaf = .directory [] := bare _ (mem_of_member? listed)
        rw [empty] at source
        simp [Scan.IsSource] at source
    | cons first rest =>
        obtain ⟨_, child, same, listed, below⟩ := exists_directory_of_at?_cons at_
        cases same
        have empty : child = .directory [] := bare _ (mem_of_member? listed)
        rw [empty] at below
        cases rest <;> simp at below
  refine .inl ⟨_, _, root _, root _, fun names content _ => ?_⟩
  exact iff_of_false (no_source (by simp) names content) (no_source (by simp) names content)

theorem exit_execute_of_long_path (some_text : path ≠ "")
    (long : maxPathLength < (Path.join path "sub").utf8ByteSize) (site : String) :
    ((swiftviz site).execute (.directory [("sub", .directory [])]) [] ["--", path]).1.exit = 1 := by
  have failed := files?_of_long_path root long
  simp only [Program.execute, read_path site some_text, Request.perform]
  rw [Request.document?_of_unscanned failed]
  rfl

theorem exit_execute_of_empty (some_text : path ≠ "") (site : String) :
    ((swiftviz site).execute (.directory []) [] ["--", path]).1.exit = 0 := by
  have scanned :
      ({ path } : Request).scan.files? ((FileTree.directory []).lookup? []) = .ok [] := by
    simp [Scan.files?, Request.scan_root, root, Scan.paths, bind, Except.bind, pure, Except.pure]
  have distinct : (([] : List SourceFile).map SourceFile.name).Nodup := List.nodup_nil
  have sound : ¬({ path } : Request).Malformed (swiftviz site)
      ((FileTree.directory []).lookup? []) [] := by
    rintro ⟨⟨⟩, -⟩
  simp only [Program.execute, read_path site some_text, Request.perform]
  rw [Request.document?_of_accepted scanned distinct trivial,
    Request.verdict_of_not_malformed distinct sound]
  rfl

end

/-- A directory without any file in it makes a difference where its path is too long. -/
theorem execute_ne_of_unreadable :
    let path := dots 2046
    let tree : FileTree := .directory [("sub", .directory [])]
    let tree' : FileTree := .directory []
    let request : Request := { path }
    tree.WellFormed ∧ tree'.WellFormed ∧ Trail.Within tree [] ∧ Trail.Within tree' [] ∧
    request.output = none ∧ ∀ site,
      (swiftviz site).read ["--", path] = .ok request ∧
      request.Alike (swiftviz site) (tree.lookup? []) (tree'.lookup? []) ∧
      ((swiftviz site).execute tree [] ["--", path]).1.exit = 1 ∧
      ((swiftviz site).execute tree' [] ["--", path]).1.exit = 0 := by
  intro path tree tree' request
  have size : path.utf8ByteSize = 2 * 2046 + 1 := utf8ByteSize_dots 2046
  have root (entries : List (String × FileTree)) :
      (FileTree.directory entries).lookup? [] path = .ok (.directory entries) :=
    lookup?_dots entries (by decide)
  have some_text : path ≠ "" := by
    intro blank
    rw [blank] at size
    exact absurd size (by decide)
  have long : maxPathLength < (Path.join path "sub").utf8ByteSize := by
    have joined := utf8ByteSize_join_ge path "sub"
    have short : "sub".utf8ByteSize = 3 := by decide
    rw [maxPathLength]
    omega
  have wellFormed' : tree'.WellFormed := .directory (by decide) (by decide) nofun
  have wellFormed : tree.WellFormed :=
    .directory (by decide) (by decide) (List.forall_mem_singleton.mpr wellFormed')
  have failed := exit_execute_of_long_path root some_text long
  have ended := exit_execute_of_empty root some_text
  -- The path is too long to be computed with.
  clear_value path
  exact ⟨wellFormed, wellFormed', trivial, trivial, rfl, fun site =>
    ⟨read_path site some_text, alike_of_no_files root _, failed site, ended site⟩⟩

end Command
end Lineage
