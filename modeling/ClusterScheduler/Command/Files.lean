import ClusterScheduler.Text.Basic

/-!
# The command's view of files

The command reads at most three files: an environment file, the configuration file and the
snapshot. A `FileView` tells what each path names. A `FileTree` is a model of a machine: its
standard directories, the empty device `/dev/null` and a working directory holding a set of
files. A path is resolved in it component by component: `.` stays, `..` goes up, a name must be
an entry of the directory reached so far, and a file met before the last component (or followed
by a slash) is not a directory. Errors carry the operating system's text.
-/

namespace ClusterScheduler

/-- What a path names. -/
inductive PathKind where
  | file (content : String)
  | directory
  | missing
  /-- A component of the path that is used as a directory is a file. -/
  | notDirectory
  /-- A component of the path is longer than a name can be. -/
  | nameTooLong
  deriving DecidableEq, Repr

/-- Why a file could not be read. -/
inductive ReadFailure where
  | notFound
  | isDirectory
  | notDirectory
  | nameTooLong
  deriving DecidableEq, Repr

def ReadFailure.text : ReadFailure → String
  | .notFound => "No such file or directory (os error 2)"
  | .isDirectory => "Is a directory (os error 21)"
  | .notDirectory => "Not a directory (os error 20)"
  | .nameTooLong => "File name too long (os error 36)"

/-- What the command sees of the file system: what each path names. -/
structure FileView where
  kind : String → PathKind

instance : Inhabited FileView := ⟨⟨fun _ => .missing⟩⟩

/-- What a path of a file tree holds. -/
inductive Entry where
  | file (content : String)
  | directory
  deriving DecidableEq, Repr

/-- A file tree: the entries at absolute paths (lists of components) and the working
directory. -/
structure FileTree where
  entries : List (List String × Entry)
  workdir : List String

namespace FileTree

def nameMax : Nat := 255

def pathMax : Nat := 4095

/-- What a path holds: the path is walked component by component from the root (when it starts
with a slash) or from the working directory; every component but the last must be a directory,
`.` stays and `..` goes up (the root's parent is the root); a trailing slash asks for a
directory. Names longer than `nameMax` bytes and paths longer than `pathMax` are refused. -/
def kind (t : FileTree) (path : String) : PathKind :=
  let cs := path.toList
  let start := if cs.head? = some '/' then [] else t.workdir
  let comps := ((cs.splitOn '/').map String.ofList).filter (· ≠ "")
  let trailing := cs.getLast? = some '/'
  let rec walk (cur : List String) : List String → PathKind
    | [] =>
      match t.entries.lookup cur with
      | some (.file content) => if trailing then .notDirectory else .file content
      | some .directory => .directory
      | none => .missing
    | c :: rest =>
      match t.entries.lookup cur with
      | some .directory =>
        if c = "." then walk cur rest
        else if c = ".." then walk cur.dropLast rest
        else if nameMax < c.utf8ByteSize then .nameTooLong
        else if (t.entries.lookup (cur ++ [c])).isSome then walk (cur ++ [c]) rest
        else .missing
      | some (.file _) => .notDirectory
      | none => .missing
  if path.isEmpty then .missing
  else if pathMax < path.utf8ByteSize then .nameTooLong
  else walk start comps

def system : List (List String × Entry) :=
  ([] , .directory) :: (["dev", "null"], .file "") ::
    (["bin", "boot", "dev", "etc", "home", "lib", "lib64", "media", "mnt", "opt", "proc",
      "root", "run", "sbin", "srv", "sys", "tmp", "usr", "var"].map fun d => ([d], .directory))

def ofWorkdir (files : List (String × String)) : FileTree :=
  let wd := ["tmp", "scratch"]
  ⟨system ++ (wd, .directory) :: files.map fun (n, c) => (wd ++ [n], .file c), wd⟩

end FileTree

namespace FileView

def ofWorkdir (files : List (String × String)) : FileView := ⟨(FileTree.ofWorkdir files).kind⟩

def ofProbes (probes : List (String × PathKind)) : FileView :=
  ⟨fun p => (probes.lookup p).getD .missing⟩

def exists? (v : FileView) (path : String) : Bool :=
  match v.kind path with
  | .file _ | .directory => true
  | _ => false

def read (v : FileView) (path : String) : Except ReadFailure String :=
  match v.kind path with
  | .file c => .ok c
  | .directory => .error .isDirectory
  | .missing => .error .notFound
  | .notDirectory => .error .notDirectory
  | .nameTooLong => .error .nameTooLong

end FileView

end ClusterScheduler
