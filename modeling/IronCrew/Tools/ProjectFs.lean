import Mathlib.Data.List.AList
import Mathlib.Data.List.Destutter
import Mathlib.Data.List.Sort
import Mathlib.Data.String.Basic
import IronCrew.Lib.Json
import IronCrew.Utils.Text

/-!
# Files of the project

The paths that agents may read and write, and the tool that writes. A path is checked by its
components; the file is then opened beneath the root of the project, through whatever links lie on the
way to it.
-/

namespace IronCrew

open Outcome

/-! ### Paths -/

inductive PathComponent where
  | rootDir
  | curDir
  | parentDir
  | normal (name : String)

def PathComponent.name? : PathComponent → Option String
  | .normal name => some name
  | _ => none

/-- `Path::components` of a Unix path: empty parts are skipped, and so is `.` except at the start. -/
def pathComponents (path : String) : List PathComponent :=
  let parts := path.toList.splitOn '/'
  let start : List PathComponent :=
    if path.toList.head? = some '/' then [.rootDir]
    else if parts.head? = some ['.'] then [.curDir] else []
  start ++ parts.filterMap fun part =>
    if part = [] ∨ part = ['.'] then none
    else if part = ['.', '.'] then some .parentDir
    else some (.normal (String.ofList part))

def isAbsolute (path : String) : Bool :=
  path.toList.head? = some '/'

/-- What stands behind the last dot of a file name; a dot at its start does not count. -/
def extensionOf (name : String) : Option String :=
  let reversed := name.toList.reverse
  match reversed.dropWhile (· ≠ '.') with
  | [] => none
  | _ :: before =>
    if before.isEmpty then none
    else some (String.ofList (reversed.takeWhile (· ≠ '.')).reverse)

def fileName (path : String) : Option String :=
  (pathComponents path).getLast?.bind PathComponent.name?

def pathExtension (path : String) : Option String :=
  (fileName path).bind extensionOf

/-- The names of a path that `validate_relative` accepts. -/
def pathNames (path : String) : List String :=
  (pathComponents path).filterMap PathComponent.name?

/-! ### Checks -/

def permissionDenied (message : String) : IronCrewError := .io message

def validateRelative (path : String) : Except IronCrewError Unit :=
  ensure (¬ (path.isEmpty ∨ isAbsolute path ∨
      (pathComponents path).any fun component => component.name?.isNone))
    (permissionDenied "path must be a non-empty project-relative path without traversal")

def keyExtensions : List String := ["pem", "key", "p12", "pfx", "jks", "kdbx"]

/-- A name that agents do not read, in lowercase. -/
def isSensitiveName (name : String) : Bool :=
  name = ".env" || ".env.".toList.isPrefixOf name.toList ||
    name ∈ [".ironcrew", ".git", ".ssh", ".aws", ".azure", ".kube", ".docker", ".npmrc", ".pypirc",
      ".netrc", "credentials", "credentials.json", "secrets", "secrets.json", "id_rsa",
      "id_ed25519"] ||
    "credentials.".toList.isPrefixOf name.toList || "secrets.".toList.isPrefixOf name.toList ||
    keyExtensions.any fun extension => ("." ++ extension).toList.isSuffixOf name.toList

def validateAgentReadPath (path : String) : Except IronCrewError Unit := do
  validateRelative path
  ensure (∀ name ∈ pathNames path, ¬ isSensitiveName (toAsciiLowercase name))
    (permissionDenied "agent access to sensitive credential/state paths is denied")

def forbiddenSourceExtensions : List String :=
  ["lua", "sh", "bash", "zsh", "fish", "py", "js", "ts", "rs"]

def validateAgentWritePath (path : String) : Except IronCrewError Unit := do
  validateRelative path
  let extension ← require
    (permissionDenied "extensionless and hidden control files are not writable") (pathExtension path)
  ensure (toAsciiLowercase extension ∉ forbiddenSourceExtensions)
    (permissionDenied ("executable/source extension '." ++ extension ++ "' is not writable"))

/-! ### The tree below the root -/

/-- Regular files by the names on the way to them, and symbolic links by where they lead to: below the
root, or out of it. Directories are created as they are needed. -/
structure ProjectTree where
  files : AList fun _ : List String => String
  links : AList fun _ : List String => Option (List String)
  directories : List (List String)

/-- `Dir::open_dir`: the directory behind the names, with so many links followed on the way. -/
def ProjectTree.openDir (tree : ProjectTree) :
    Nat → List String → List String → Option (List String)
  | _, reached, [] => some reached
  | expansions, reached, name :: names =>
    match tree.links.lookup (reached ++ [name]) with
    | none => tree.openDir expansions (reached ++ [name]) names
    | some none => none
    | some (some target) =>
      match expansions with
      | 0 => none
      | expansions + 1 => tree.openDir expansions [] (target ++ names)
termination_by expansions _ names => (expansions, names.length)

def maxSymlinkExpansions : Nat := 40

def ProjectTree.writeTarget (tree : ProjectTree) (path : String) : Option (List String) := do
  let name ← (pathNames path).getLast?
  let parent ← tree.openDir maxSymlinkExpansions [] (pathNames path).dropLast
  return parent ++ [name]

def ProjectTree.atomicWrite (tree : ProjectTree) (path content : String) :
    Except IronCrewError ProjectTree := do
  validateRelative path
  let target ← require (.io "path has no file name") (tree.writeTarget path)
  ensure ((tree.links.lookup target).isNone) (.io "refusing to replace a symbolic link")
  ensure (target ∉ tree.directories) (.io "target is not a regular file")
  return { tree with files := tree.files.insert target content }

/-! ### The tool -/

structure FileWriteTool where
  allowedExtensions : List String
  maxBytes : Nat

namespace FileWriteTool

def defaultExtensions : List String :=
  ["txt", "md", "json", "csv", "yaml", "yml", "toml", "xml", "html", "css"]

def new (allowedExtensions : Option (List String)) (maxBytes : Nat) : FileWriteTool :=
  let extensions := (allowedExtensions.getD defaultExtensions).map toAsciiLowercase
  { allowedExtensions := (extensions.insertionSort (· ≤ ·)).destutter (· ≠ ·), maxBytes }

def failed (message : String) : IronCrewError := .toolExecution "file_write" message

/-- What an error of the file system says. -/
def ioText : IronCrewError → String
  | .io message => message
  | error => error.display

def validatePath (tool : FileWriteTool) (path : String) : Except IronCrewError Unit := do
  (validateAgentWritePath path).mapError fun error =>
    failed ("Write path is not allowed: " ++ ioText error)
  let extension := (pathExtension path).getD ""
  ensure (tool.allowedExtensions.any fun allowed => eqIgnoreAsciiCase allowed extension)
    (failed ("Extension '." ++ extension ++ "' not allowed"))

def execute (tool : FileWriteTool) (tree : ProjectTree) (args : Json) :
    Except IronCrewError (String × ProjectTree) := do
  let path ← require (failed "Missing 'path' argument") (args.field "path").asStr
  let content ← require (failed "Missing 'content' argument") (args.field "content").asStr
  tool.validatePath path
  ensure (content.utf8ByteSize ≤ tool.maxBytes)
    (failed ("Content is " ++ toString content.utf8ByteSize ++
      " bytes, exceeds IRONCREW_FILE_WRITE_MAX_BYTES (" ++ toString tool.maxBytes ++ ")"))
  let tree ← (tree.atomicWrite path content).mapError fun error =>
    failed ("Failed to write '" ++ path ++ "': " ++ ioText error)
  return ("Successfully wrote " ++ toString content.utf8ByteSize ++ " bytes to " ++ path, tree)

def call (tool : FileWriteTool) (tree : ProjectTree) (args : Json) : ProjectTree :=
  match tool.execute tree args with
  | .ok (_, tree) => tree
  | .error _ => tree

end FileWriteTool

/-! ### The JSON store of the project -/

/-- The directories of the store's records, below `.ironcrew` of the project. -/
def storeDirectories : List String := ["runs", "idempotency", "conversations", "dialogs"]

/-- A record of a run, an idempotency key, a conversation or a dialog. -/
def isStoreRecord (names : List String) : Bool :=
  match names with
  | ".ironcrew" :: directory :: rest => decide (directory ∈ storeDirectories) && !rest.isEmpty
  | _ => false

end IronCrew
