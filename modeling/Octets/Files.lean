import Octets.Fault
import Octets.Text.Split

/-!
# Files

The files and directories below a working directory, and what happens when a path is opened there.

A path is taken apart into the names along it. To open one, every name before the last must lead to
a directory; two dots lead back from one. A name or a path beyond a length is refused, and a path
with U+0000 is none. Nothing is known of what lies outside the working directory, except that the
directories above it are there. `read` gives the content of a file; `create` makes an empty file
where there is none; `overwrite` and `append` change the content of one. A path that is no bytes is
not opened at all (`opening`).
-/

namespace Octets

/-- A file with its content, or a directory. -/
inductive Node where
  | file (content : Bytes)
  | directory
  deriving DecidableEq, Repr

/-- The names along a path; an absolute path starts with the name `/`. -/
abbrev Route := List String

/-- What is below a working directory whose own path is `root`. -/
structure Files where
  root : String
  nodes : List (Route × Node)
  deriving DecidableEq, Repr

namespace Route

/-- The names along a path, without the empty ones and those that stay where they are. -/
def names (path : String) : List String :=
  ((Text.split '/' path.toList).filter fun p => p ≠ [] ∧ p ≠ ['.']).map String.ofList

/-- Does the path start at the root of the system? -/
def isAbsolute (path : String) : Bool := path.toList.take 1 = ['/']

/-- The route of a path: each name in the one spelling that its bytes have. -/
def ofPath (path : String) : Route :=
  let names := (names path).map fun name => String.ofList (Text.FileName.settled name.toList)
  if isAbsolute path then "/" :: names else names

/-- Does the path end in a way that only a directory can have? -/
def asksDirectory (path : String) : Bool := (Text.split '/' path.toList).getLast? = some []

/-- Goes one name on; two dots go back, as long as there is a name to go back from. -/
def step (route : Route) (name : String) : Route :=
  if name = ".." ∧ route ≠ [] ∧ route.getLast? ≠ some ".." then
    if route = ["/"] then route else route.dropLast
  else route ++ [name]

/-- The route with every step back carried out. -/
def settle (route : Route) : Route := List.foldl step [] route

/-- The names along a path with every step back carried out. -/
def resolved (path : String) : List String := settle (names path)

/-- What an absolute path starts with: one slash, but two if there are exactly two. -/
def lead (path : String) : String :=
  if (path.toList.takeWhile (· = '/')).length = 2 then "//" else "/"

/-- The path with every step back carried out and nothing behind its last name. -/
def settled (path : String) : String :=
  let text := "/".intercalate (resolved path)
  if isAbsolute path then lead path ++ text else if text.isEmpty then "." else text

end Route

namespace Files

/-- Is this the route of the working directory, of one above it, or of the root of the system? -/
def isAbove (route : Route) : Bool := route = ["/"] || route.all (· == "..")

/-- What stands at a route without steps back. -/
def node? (files : Files) (route : Route) : Option Node :=
  if isAbove route then some .directory else (files.nodes.find? fun e => e.1 = route).map (·.2)

/-- The most bytes in a name. -/
def maxName : Nat := 255

/-- The most bytes in a path. -/
def maxPath : Nat := 4095

/-- Why a route cannot be followed up to its last name, if it cannot: on the way there must be
directories only, and no name may be too long. -/
def blocked? (files : Files) (route : Route) : Option FileFlaw :=
  route.zipIdx.findSome? fun (name, i) =>
    match files.node? (Route.settle (route.take i)) with
    | some .directory => if maxName < Text.FileName.size name then some .tooLong else none
    | some (.file _) => some .notDirectory
    | none => some .missing

/-- What a path leads to. -/
def find (files : Files) (path : String) : Except FileFlaw Node :=
  let route := Route.ofPath path
  if path.toList.contains '\x00' then .error .nullByte
  else if path.isEmpty then .error .missing
  else if maxPath < Text.FileName.size path then .error .tooLong
  else
    match files.blocked? route, files.node? (Route.settle route) with
    | some flaw, _ => .error flaw
    | none, none => .error .missing
    | none, some .directory => .ok .directory
    | none, some (.file content) =>
      if Route.asksDirectory path then .error .notDirectory else .ok (.file content)

/-- The content of a file. -/
def read (files : Files) (path : String) : Except FileFlaw Bytes :=
  match files.find path with
  | .ok (.file content) => .ok content
  | .ok .directory => .error .isDirectory
  | .error flaw => .error flaw

/-- Sets the node at a route: in its place, or as the last one. -/
def put (files : Files) (route : Route) (node : Node) : Files :=
  if files.nodes.any fun e => e.1 = route then
    { files with nodes := files.nodes.map fun e => if e.1 = route then (route, node) else e }
  else { files with nodes := files.nodes ++ [(route, node)] }

/-- Opens a path for writing: there is an empty file if there was nothing before. -/
def create (files : Files) (path : String) : Except FileFlaw Files :=
  match files.find path with
  | .ok (.file _) => .ok files
  | .ok .directory => .error .isDirectory
  | .error flaw =>
    let route := Route.ofPath path
    if flaw = .missing && !path.isEmpty && (files.blocked? route).isNone then
      if Route.asksDirectory path then .error .isDirectory
      else .ok (files.put (Route.settle route) (.file []))
    else .error flaw

/-- Opens a path for writing and gives the file new content. -/
def overwrite (files : Files) (path : String) (content : Bytes) : Except FileFlaw Files :=
  (files.create path).map fun files => files.put (Route.settle (Route.ofPath path)) (.file content)

/-- Adds to the content of the file at a route. -/
def append (files : Files) (route : Route) (more : Bytes) : Files :=
  match files.node? route with
  | some (.file content) => files.put route (.file (content ++ more))
  | _ => files

/-- What comes of opening a path. One that is no bytes never gets that far. -/
def opening {α : Type} (path : PathName) (outcome : Except FileFlaw α) : Except Fault α :=
  match path.halves? with
  | some cause => .error (.badValue (.halves cause))
  | none => outcome.mapError fun flaw => .file flaw path

/-- The full path of a path below the working directory. -/
def fullPath (files : Files) (path : String) : String :=
  if Route.isAbsolute path then Route.settled path
  else "/".intercalate (files.root :: Route.resolved path)

end Files

end Octets
