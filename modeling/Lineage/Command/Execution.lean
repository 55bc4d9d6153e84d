import Lineage.Command.Arguments
import Lineage.Project

/-!
# The command

What a command line does to a tree of files: the exit code, the two streams, and the tree
afterwards. A run that fails prints nothing on the standard output and writes no file.
-/

namespace Lineage.Command

/-! ## Failures -/

inductive Failure where
  | scan (cause : ScanError)
  | run (cause : RunError)
  | write (cause : FileError)
  deriving DecidableEq, Repr

def Failure.chain : Failure → List String
  | .scan cause => [cause.message, cause.cause.message]
  | .run (.malformed file cause) =>
      (RunError.malformed file cause).message :: cause.message ::
        match cause with
        | .malformed _ _ shape => [shape.message]
        | .parse parse =>
            parse.message ::
              match parse with
              | .file file => [file.message]
              | _ => []
  | .run cause => [cause.message]
  | .write cause => [cause.message]

def hang (indent : List Char) (message : String) : List Char :=
  match Text.pieces (· == '\n') message.toList with
  | [] => []
  | first :: rest =>
      Text.joinWith ['\n']
        (first :: rest.map fun line => if line.isEmpty then line else indent ++ line)

def causeLine (index : Nat) (message : String) : List Char :=
  "    ".toList ++ (toString index).toList ++ ": ".toList ++
    hang (List.replicate 7 ' ') message ++ ['\n']

def report : List String → String
  | [] => ""
  | [message] => "Error: " ++ message ++ "\n"
  | [message, cause] =>
      "Error: " ++ message ++ "\n\nCaused by:\n    " ++
        String.ofList (hang (List.replicate 4 ' ') cause) ++ "\n"
  | message :: causes =>
      "Error: " ++ message ++ "\n\nCaused by:\n" ++
        String.ofList ((causes.zipIdx.map fun cause => causeLine cause.2 cause.1).flatten)

/-! ## Programs -/

/-- What the command takes from elsewhere: how arguments and sources are read, and where it is said
to have crashed. -/
structure Program where
  read : List String → Except Stop Request
  parse : Parser
  site : String

def swiftviz (site : String) : Program where
  read := Request.ofArguments?
  parse := Source.parse
  site

/-! ## Requests -/

/-- The number of cores where the machine does not tell it. -/
def defaultWorkers : Nat := 4

def Request.settings (request : Request) (cores : Nat) : Settings where
  strict := request.strict
  dispatch := if request.threaded then .concurrent (request.workers.getD cores) else .sequential

def Request.scan (request : Request) : Scan :=
  if request.noSkip then { root := request.path, skipped := [] } else { root := request.path }

/-- What a file contributes. Reading it never kills a worker. -/
def Request.result (request : Request) (program : Program) (lookup : Lookup) (file : SourceFile) :
    Option FileResult :=
  some (lookup.extract request.strategy file.path program.parse)

def Request.document? (request : Request) (program : Program) (lookup : Lookup) :
    Except Failure String := do
  let files ← (request.scan.files? lookup).mapError .scan
  let settings := request.settings defaultWorkers
  let graph ← (settings.graph? SourceFile.name (request.result program lookup) files).mapError .run
  return graph.document request.format

/-! ## Outcomes -/

structure Outcome where
  exit : Nat
  stdout : String
  stderr : String
  deriving DecidableEq, Repr

namespace Outcome

def success (stdout : String) : Outcome :=
  ⟨0, stdout, ""⟩

def ofFailure (site : String) : Failure → Outcome
  | .run (.crash cause) => ⟨101, "", cause.report site⟩
  | failure => ⟨1, "", report failure.chain⟩

end Outcome

def versionText : String := "swiftviz 0.1.0\n"

def usageText : String :=
  "Usage: swiftviz [OPTIONS] <PATH>\n"

def helpText : String :=
  "Render the class inheritance graph of a Swift project as HTML\n\n" ++ usageText ++
  "
Arguments:
  <PATH>  Path of the directory to recursively scan

Options:
      --format <FORMAT>
          Output format to use [default: d3] [possible values: d3, vizjs, json]
  -t, --threaded
          Use multithread
      --workers <WORKERS>
          Worker count for --threaded (default: available cores)
      --strategy <STRATEGY>
          How inheritance entries become graph edges [default: decompose]
          [possible values: decompose, verbatim]
      --strict
          Abort the whole run on a malformed inheritance entry
      --no-skip
          Also scan build and dependency directories (.build, Build, DerivedData, Pods),
          which are skipped by default
  -o, --output <OUTPUT>
          Output file (default: stdout)
  -h, --help
          Print help
  -V, --version
          Print version
"

def Stop.outcome : Stop → Outcome
  | .usage cause =>
      ⟨2, "", "error: " ++ cause.message ++ "\n\n" ++ usageText ++
        "\nFor more information, try '--help'.\n"⟩
  | .help => .success helpText
  | .version => .success versionText

/-! ## Execution -/

def Request.conclude (request : Request) (program : Program) (tree : FileTree)
    (directory : FileTree.Trail) : Except Failure String → Outcome × FileTree
  | .error failure => (.ofFailure program.site failure, tree)
  | .ok document =>
      match request.output with
      | none => (.success (document ++ "\n"), tree)
      | some path =>
          match tree.write? directory path document with
          | .ok written => (.success "", written)
          | .error cause => (.ofFailure program.site (.write cause), tree)

/-- Carries out a request on a tree. The files are read before the output is written. -/
def Request.perform (request : Request) (program : Program) (tree : FileTree)
    (directory : FileTree.Trail) : Outcome × FileTree :=
  request.conclude program tree directory (request.document? program (tree.lookup? directory))

def Program.execute (program : Program) (tree : FileTree) (directory : FileTree.Trail)
    (arguments : List String) : Outcome × FileTree :=
  match program.read arguments with
  | .error stop => (stop.outcome, tree)
  | .ok request => request.perform program tree directory

def permitSite : String := "sync/batch_semaphore"

def execute (tree : FileTree) (directory : FileTree.Trail) (arguments : List String) :
    Outcome × FileTree :=
  (swiftviz permitSite).execute tree directory arguments

/-! ## Any order of events -/

/-- How a request may end on a machine with so many cores. -/
inductive Request.MayPerform (request : Request) (program : Program) (cores : Nat)
    (tree : FileTree) (directory : FileTree.Trail) : Outcome × FileTree → Prop where
  | unscanned {cause : ScanError} :
      request.scan.files? (tree.lookup? directory) = .error cause →
      MayPerform request program cores tree directory
        (request.conclude program tree directory (.error (.scan cause)))
  | refused {files : List SourceFile} :
      request.scan.files? (tree.lookup? directory) = .ok files →
      ¬(request.settings cores).dispatch.Accepted →
      MayPerform request program cores tree directory
        (request.conclude program tree directory (.error (.run (.crash .permits))))
  | ran {files : List SourceFile} {document : Except RunError String} :
      request.scan.files? (tree.lookup? directory) = .ok files →
      (request.settings cores).MayRun (m := Id) SourceFile.name
        (request.result program (tree.lookup? directory)) files (·.document request.format)
        document →
      MayPerform request program cores tree directory
        (request.conclude program tree directory (document.mapError .run))

def Program.MayExecute (program : Program) (cores : Nat) (tree : FileTree)
    (directory : FileTree.Trail) (arguments : List String) (ending : Outcome × FileTree) : Prop :=
  match program.read arguments with
  | .error stop => ending = (stop.outcome, tree)
  | .ok request => request.MayPerform program cores tree directory ending

end Lineage.Command
