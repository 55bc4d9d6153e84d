import Lineage.Command.Execution

/-!
# The program

The outer layer of the command: it takes the files below the scanned root as they are, hands
them over, and prints or writes what comes back. Everything else is decided by
`Lineage.Command`.
-/

namespace Lineage.Command

def causeOf : IO.Error → FileError
  | .noFileOrDirectory .. => .notFound
  | .inappropriateType _ code details =>
      if code == 21 then .isADirectory
      else if code == 20 then .notADirectory
      else .other (details ++ " (os error " ++ toString code ++ ")")
  | .permissionDenied _ code details =>
      .other (details ++ " (os error " ++ toString code ++ ")")
  | error => .other (toString error)

/-- The node that the end of a path text leads to. Of a directory only its existence counts
here. -/
def target (path : String) : IO (Except FileError FileTree) := do
  try
    let metadata ← (System.mkFilePath [path]).metadata
    if metadata.type == .dir then return .ok (.directory [])
    return .ok (.file (← IO.FS.readBinFile path))
  catch error => return .error (causeOf error)

abbrev Table := List (String × Except FileError FileTree)

def listing (path : String) : IO (Except FileError (List IO.FS.DirEntry)) := do
  try return .ok (← (System.mkFilePath [path]).readDir).toList
  catch error => return .error (causeOf error)

/-- The tree below a directory, with the directories and the sources in it and the ends of its
links. -/
partial def survey (scan : Scan) (path : String) : IO (FileTree × Table) := do
  match ← listing path with
  | .error cause => return (.directory [], [(path, .error cause)])
  | .ok entries =>
      let mut nodes := []
      let mut table := []
      for entry in entries do
        let name := entry.fileName
        let inner := Path.join path name
        match (← (System.mkFilePath [inner]).symlinkMetadata).type with
        | .dir =>
            if scan.skipped.contains name then continue
            let (node, found) ← survey scan inner
            nodes := (name, node) :: nodes
            table := found ++ table
        | .symlink =>
            nodes := (name, .link "") :: nodes
            if scan.wants name then table := (inner, ← target inner) :: table
        | .file =>
            nodes := (name, .file .empty) :: nodes
            if scan.wants name then table := (inner, ← target inner) :: table
        | .other => continue
      let node : FileTree := .directory nodes.reverse
      return (node, (path, .ok node) :: table)

def reach (scan : Scan) : IO Table := do
  match ← target scan.root with
  | .ok (.directory _) =>
      let (_, table) ← survey scan scan.root
      return table
  | other => return [(scan.root, other)]

def Request.carryOut (request : Request) : IO Outcome := do
  let table ← reach request.scan
  let lookup : Lookup := fun path => (table.lookup path).getD (.error .notFound)
  let program := swiftviz permitSite
  match request.document? program lookup with
  | .error failure => return .ofFailure program.site failure
  | .ok document =>
      match request.output with
      | none => return .success (document ++ "\n")
      | some path =>
          try
            IO.FS.writeFile path document
            return .success ""
          catch error => return .ofFailure program.site (.write (causeOf error))

end Lineage.Command

def main (arguments : List String) : IO UInt32 := do
  let outcome ←
    match (Lineage.Command.swiftviz Lineage.Command.permitSite).read arguments with
    | .error stop => pure stop.outcome
    | .ok request => request.carryOut
  IO.print outcome.stdout
  IO.eprint outcome.stderr
  return outcome.exit.toUInt32
