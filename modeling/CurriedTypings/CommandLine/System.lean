import CurriedTypings.Output

/-!
# Files and systems

The files a run can see form a tree of directories, and one of these is the current
one. Paths are texts as a user writes them: names between slashes, where empty names
and `.` stay in place and `..` goes up; a slash in front makes them start at the root.
Reading, writing and creating a directory fail for the same reasons as on a real file
system.

What a run needs of its surroundings is to read and write files, to create directories,
and to print. A system offers these operations in some monad, so one and the same run
works on real files and on a `Session`, whose files are a tree and whose standard
output is a text behind some destination.
-/

namespace CurriedTypings.CommandLine

inductive FileError where
  | notFound
  | alreadyExists
  | notADirectory
  | isADirectory
  | noSpace
  | nameTooLong
  | zeroInPath
  | notText
  | other (reason : String)
  deriving DecidableEq, Repr, Inhabited

def FileError.message : FileError → String
  | notFound => "No such file or directory (os error 2)"
  | alreadyExists => "File exists (os error 17)"
  | notADirectory => "Not a directory (os error 20)"
  | isADirectory => "Is a directory (os error 21)"
  | noSpace => "No space left on device (os error 28)"
  | nameTooLong => "File name too long (os error 36)"
  | zeroInPath => "file name contained an unexpected NUL byte"
  | notText => "stream did not contain valid UTF-8"
  | other reason => reason

/-! ## Paths -/

namespace Path

def parts (path : String) : List String :=
  (path.toList.splitOn '/').map String.ofList

def isAbsolute (path : String) : Bool := path.toList.head? = some '/'

def endsWithSlash (path : String) : Bool := path.toList.getLast? = some '/'

/-- The largest number of bytes of a name between slashes. -/
def maxNameSize : Nat := 255

def maxSize : Nat := 4095

def check (path : String) : Except FileError Unit :=
  if path.toList.contains '\x00' then .error .zeroInPath
  else if path.isEmpty then .error .notFound
  else if maxSize < path.utf8ByteSize then .error .nameTooLong
  else .ok ()

/-- A path without what does not count at its end: slashes, and dots behind a slash. -/
def trimEnd : List Char → List Char :=
  fun cs => (go cs.reverse).reverse
where
  go : List Char → List Char
    | ['/'] => ['/']
    | '/' :: rest => go rest
    | '.' :: '/' :: rest => go ('/' :: rest)
    | cs => cs

/-- A path without its last name, if it has one. The directory a relative path of one name
lies in is the empty path. -/
def parent? (path : String) : Option String :=
  let cs := trimEnd path.toList
  if cs = [] || cs = ['/'] then none
  else
    match (cs.reverse.dropWhile (· ≠ '/')).reverse with
    | [] => some ""
    | above => some (String.ofList (trimEnd above))

/-- A path and the paths above it, the innermost first and without the empty one. -/
def lineage (path : String) : List String := go path.length path
where
  /-- Every path above another one is shorter. -/
  go (fuel : Nat) (path : String) : List String :=
    if path = "" then []
    else
      path ::
        match fuel, parent? path with
        | fuel + 1, some above => go fuel above
        | _, _ => []

end Path

/-! ## Trees -/

inductive Node where
  | directory
  | file (content : ByteArray)
  /-- A device that keeps nothing: it reads as empty, and takes what is written if it has
  room. -/
  | device (hasRoom : Bool)

def Node.same : Node → Node → Bool
  | directory, directory => true
  | file a, file b => a.data = b.data
  | device a, device b => a = b
  | _, _ => false

def systemDirectories : List String :=
  ["bin", "boot", "dev", "etc", "home", "lib", "media", "mnt", "opt", "proc", "root", "run", "sbin",
    "srv", "sys", "tmp", "usr", "var"]

/-- What every system has at a location, which is a list of names that leads there from the
root. -/
def systemNode? : List String → Option Node
  | ["dev", "null"] => some (.device true)
  | ["dev", "full"] => some (.device false)
  | [name] => if systemDirectories.contains name then some .directory else none
  | _ => none

/-- A tree of files around a current directory, beside what every system has. The name of the
current directory is not known, so it is one that no path can spell. -/
structure FileTree where
  current : List String := ["tmp", ""]
  entries : List (List String × Node) := []

namespace FileTree

/-- What is at a location. The current directory and those above it are always there. -/
def node? (t : FileTree) (location : List String) : Option Node :=
  if location.isPrefixOf t.current then some .directory
  else t.entries.lookup location <|> systemNode? location

def put (t : FileTree) (location : List String) (node : Node) : FileTree :=
  { t with entries := replace t.entries }
where
  replace : List (List String × Node) → List (List String × Node)
    | [] => [(location, node)]
    | (l, n) :: rest => if l = location then (l, node) :: rest else (l, n) :: replace rest

/-- Follows names from a location. All but the last have to be directories; the last one need
not exist. Above the root is the root. -/
def follow (t : FileTree) (location : List String) : List String →
    Except FileError (List String)
  | [] => .ok location
  | name :: rest =>
    match t.node? location with
    | none => .error .notFound
    | some (.file _) | some (.device _) => .error .notADirectory
    | some .directory =>
      if name = "" || name = "." then t.follow location rest
      else if name = ".." then t.follow location.dropLast rest
      else if Path.maxNameSize < name.utf8ByteSize then .error .nameTooLong
      else t.follow (location ++ [name]) rest

def start (t : FileTree) (path : String) : List String :=
  if Path.isAbsolute path then [] else t.current

def locate (t : FileTree) (path : String) : Except FileError (List String) := do
  Path.check path
  t.follow (t.start path) (Path.parts path)

def isDirectory (t : FileTree) (path : String) : Bool :=
  match t.locate path with
  | .error _ => false
  | .ok location =>
    match t.node? location with
    | some .directory => true
    | _ => false

def readText (t : FileTree) (path : String) : Except FileError String := do
  let location ← t.locate path
  match t.node? location with
  | none => .error .notFound
  | some .directory => .error .isADirectory
  | some (.file content) =>
    match String.fromUTF8? content with
    | some text => .ok text
    | none => .error .notText
  | some (.device _) => .ok ""

/-- Writes a text to a file, which is created if it does not exist. A slash at the end asks
for a directory, which cannot be written, whatever its last name is. -/
def writeText (t : FileTree) (path text : String) : Except FileError FileTree := do
  Path.check path
  if Path.endsWithSlash path then do
    let above := ((Path.parts path).reverse.dropWhile (· = "")).tail.reverse
    let _ ← t.follow (t.start path) (above ++ ["."])
    .error .isADirectory
  else do
    let location ← t.follow (t.start path) (Path.parts path)
    match t.node? location with
    | some .directory => .error .isADirectory
    | some (.device hasRoom) => if hasRoom || text.isEmpty then .ok t else .error .noSpace
    | _ => .ok (t.put location (.file text.toUTF8))

def createDirectory (t : FileTree) (path : String) : Except FileError FileTree := do
  let location ← t.locate path
  match t.node? location with
  | some _ => .error .alreadyExists
  | none => .ok (t.put location .directory)

/-- The entries below the current directory that an earlier tree lacks or has otherwise, with
their locations from there. -/
def changesSince (t earlier : FileTree) : List (List String × Node) :=
  t.entries.filterMap fun (location, node) =>
    if t.current.isPrefixOf location && !(earlier.node? location).any node.same then
      some (location.drop t.current.length, node)
    else
      none

end FileTree

/-! ## Systems -/

structure System (m : Type → Type) where
  readText : (path : String) → m (Except FileError String)
  writeText : (path text : String) → m (Except FileError Unit)
  /-- Creates one directory in a directory that is there. -/
  createDirectory : (path : String) → m (Except FileError Unit)
  isDirectory : (path : String) → m Bool
  print : (op : OutputOp) → m (Except FileError Unit)

namespace System

variable {m : Type → Type} [Monad m] (sys : System m)

/-- Makes the best of a directory that could not be created: nothing is wrong if it is there. -/
def unlessDirectory (path : String) : Except FileError Unit → m (Except FileError Unit)
  | .ok () => return .ok ()
  | .error e => return if ← sys.isDirectory path then .ok () else .error e

def createLineage : List String → m (Except FileError Unit)
  | [] => return .ok ()
  | path :: above => do
    match ← sys.createDirectory path with
    | .error .notFound =>
      match ← createLineage above with
      | .ok () => sys.unlessDirectory path (← sys.createDirectory path)
      | .error e => return .error e
    | result => sys.unlessDirectory path result

/-- Creates a directory and those above it, as far as they are missing. What has been created
before a failure stays. -/
def createDirectories (path : String) : m (Except FileError Unit) :=
  sys.createLineage (Path.lineage path)

/-- Prints up to the first operation that fails. -/
def printAll : List OutputOp → m (Except FileError Unit)
  | [] => return .ok ()
  | op :: ops => do
    match ← sys.print op with
    | .ok () => printAll ops
    | .error e => return .error e

end System

/-! ## Sessions -/

structure Session where
  files : FileTree := {}
  stdout : String := ""

namespace Session

def changeFiles (change : FileTree → Except FileError FileTree) :
    StateM Session (Except FileError Unit) := fun s =>
  match change s.files with
  | .ok files => (.ok (), { s with files })
  | .error e => (.error e, s)

def print (d : Destination String) (op : OutputOp) : StateM Session (Except FileError Unit) :=
  fun s =>
    match d.perform op s.stdout with
    | (stdout, none) => (.ok (), { s with stdout })
    | (stdout, some reason) => (.error (.other reason), { s with stdout })

def systemWith (d : Destination String) : System (StateM Session) where
  readText path := fun s => (s.files.readText path, s)
  writeText path text := changeFiles fun t => t.writeText path text
  createDirectory path := changeFiles fun t => t.createDirectory path
  isDirectory path := fun s => (s.files.isDirectory path, s)
  print := print d

def system : System (StateM Session) := systemWith textDestination

end Session

end CurriedTypings.CommandLine
