import Lineage.FileTree

/-!
# Scanning

Which files below a root are sources: those with the wanted extension that are reached
through real directories whose names are not to be skipped. A link to a file counts as a
file, and a link to a directory is not entered.
-/

namespace Lineage

structure SourceFile where
  path : String
  name : String
  deriving DecidableEq, Repr

structure Scan where
  root : String
  extension : String := "swift"
  skipped : List String := [".build", "Build", "DerivedData", "Pods"]
  deriving DecidableEq, Repr

structure ScanError where
  path : String
  cause : FileError
  deriving DecidableEq, Repr

def ScanError.message (failure : ScanError) : String :=
  "IO error at " ++ failure.path ++ ": " ++ failure.cause.message

namespace Scan

/-- Full stops before an extension are not part of it. -/
def withExtension (scan : Scan) (extension : String) : Scan :=
  { scan with extension := String.ofList (extension.toList.dropWhile (· = '.')) }

def wants (scan : Scan) (name : String) : Bool :=
  Path.extension? name == some scan.extension

def leadsToFile (lookup : String → Except FileError FileTree) (path : String) : Bool :=
  match lookup path with
  | .ok node => node.isFile
  | .error _ => false

mutual

/-- The paths of the sources at an entry and below it. A directory that is not skipped has to
be readable under its path. -/
def entryPaths (scan : Scan) (lookup : String → Except FileError FileTree)
    (path name : String) : FileTree → Except ScanError (List String)
  | .file _ => .ok (if scan.wants name then [path] else [])
  | .link _ => .ok (if scan.wants name && leadsToFile lookup path then [path] else [])
  | .directory entries =>
      if name ∈ scan.skipped then .ok []
      else
        match lookup path with
        | .error cause => .error ⟨path, cause⟩
        | .ok _ => paths scan lookup path entries

def paths (scan : Scan) (lookup : String → Except FileError FileTree) (directory : String) :
    List (String × FileTree) → Except ScanError (List String)
  | [] => .ok []
  | (name, node) :: rest => do
      let here ← entryPaths scan lookup (Path.join directory name) name node
      let others ← paths scan lookup directory rest
      return here ++ others

end

/-- The sources, in the order of their names. A root that is no directory has none. -/
def files? (scan : Scan) (lookup : String → Except FileError FileTree) :
    Except ScanError (List SourceFile) :=
  match lookup scan.root with
  | .error cause => .error ⟨scan.root, cause⟩
  | .ok (.directory entries) => do
      let found ← paths scan lookup scan.root entries
      let files := found.map fun path =>
        SourceFile.mk path (Path.relativeName scan.root path)
      return files.mergeSort fun first second => decide (first.name ≤ second.name)
  | .ok _ => .ok []

end Scan
end Lineage
