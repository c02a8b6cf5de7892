import Concordance.Failure
import Concordance.Order
import Concordance.Path
import Concordance.Table

/-!
# Storage

What is stored at which path: files with contents in `κ`, and folders. A path is
followed name by name; only a folder has a way back out of it. Removing a folder
removes everything inside it.
-/
namespace Concordance

variable {κ : Type}

/-- What is stored at a path. -/
inductive Node (κ : Type) where
  | file (content : κ)
  | folder

/-- Everything that is stored. The paths of the table do not lead back out of a folder, other than
at their beginning. -/
structure Storage (κ : Type) where
  nodes : Table Path (Node κ)

namespace Storage

def empty : Storage κ := ⟨.empty⟩

instance : Inhabited (Storage κ) := ⟨empty⟩

/-- What is stored at a followed path. The root, the working directory and the folders around it
are always there. -/
def node? (s : Storage κ) (place : Path) : Option (Node κ) :=
  match s.nodes.get? place with
  | some node => some node
  | none => if place.isOutward then some .folder else none

def isFolder (s : Storage κ) (place : Path) : Bool :=
  match s.node? place with
  | some .folder => true
  | _ => false

def isFile (s : Storage κ) (place : Path) : Bool :=
  match s.node? place with
  | some (.file _) => true
  | _ => false

def maxName : Nat := 255

/-- Follows one name from a followed path. A folder in which a name is looked up refuses one that is
too long. -/
def enter (s : Storage κ) (here : Path) (name : Text) : Except Failure Path :=
  if name = Path.upward then
    if s.isFolder here then .ok here.up else .error (if s.isFile here then .notAFolder else .noFile)
  else if maxName < utf8Length name && s.isFolder here then .error .nameTooLong
  else .ok ⟨here.absolute, here.names ++ [name]⟩

/-- Follows a path. There need not be anything where it ends. -/
def locate (s : Storage κ) (path : Path) : Except Failure Path :=
  if path.isForbidden then .error .notAName
  else if path.isTooLong then .error .nameTooLong
  else path.names.foldlM s.enter ⟨path.absolute, []⟩

/-- Whether there is something at a path. Only a name that is too long leaves it open. -/
def contains (s : Storage κ) (path : Path) : Except Failure Bool :=
  match s.locate path with
  | .ok place => .ok (s.node? place).isSome
  | .error .nameTooLong => .error .nameTooLong
  | .error _ => .ok false

/-- Why there is nothing at a followed path: a file may lie on the way. -/
def absence (s : Storage κ) (place : Path) : Failure :=
  if place.ancestry.any s.isFile then .notAFolder else .noFile

def read (s : Storage κ) (path : Path) : Except Failure κ := do
  let place ← s.locate path
  match s.node? place with
  | some (.file content) => .ok content
  | some .folder => .error .isAFolder
  | none => .error (s.absence place)

def put (s : Storage κ) (place : Path) (node : Node κ) : Storage κ := ⟨s.nodes.set place node⟩

/-- Makes the folder at a path unless it is there. `last` says that no name follows. -/
def makeFolder (s : Storage κ) (last : Bool) (path : Path) : Storage κ × Option Failure :=
  match s.locate path with
  | .error e => (s, some e)
  | .ok place =>
    match s.node? place with
    | some .folder => (s, none)
    | some (.file _) => (s, some (if last then .fileInTheWay else .notAFolder))
    | none => (s.put place .folder, none)

/-- Makes the folders at some paths, one after the other, up to the first that cannot be made. -/
def makeEach (s : Storage κ) : List Path → Storage κ × Option Failure
  | [] => (s, none)
  | path :: rest =>
    match s.makeFolder rest.isEmpty path with
    | (s, none) => makeEach s rest
    | (s, some e) => (s, some e)

/-- Makes the folder at a path and those on the way to it. -/
def makeFolders (s : Storage κ) (path : Path) : Storage κ × Option Failure :=
  if path.isForbidden then (s, some .notAName)
  else if path.isTooLong then (s, some .nameTooLong)
  else s.makeEach path.ancestry

/-- Stores a file at a path, in a folder that is made if need be. -/
def writeFile (s : Storage κ) (path : Path) (content : κ) : Storage κ × Option Failure :=
  match s.makeFolders path.parent with
  | (s, some e) => (s, some e)
  | (s, none) =>
    match s.locate path with
    | .error e => (s, some e)
    | .ok place =>
      if s.isFolder place then (s, some .isAFolder) else (s.put place (.file content), none)

/-- Stores files in the folder at a followed path, up to the first one in whose place there is a
folder. -/
def putFiles (s : Storage κ) (place : Path) : List (Text × κ) → Storage κ × Option Failure
  | [] => (s, none)
  | (name, content) :: rest =>
    let target : Path := ⟨place.absolute, place.names ++ [name]⟩
    if s.isFolder target then (s, some .isAFolder)
    else putFiles (s.put target (.file content)) place rest

/-- Stores files in the folder at a path, up to the first one whose own path is too long. -/
def writeIn (s : Storage κ) (folder : Path) (files : List (Text × κ)) :
    Storage κ × Option Failure :=
  match s.locate folder with
  | .error e => (s, some e)
  | .ok place =>
    match s.putFiles place (files.takeWhile fun f => folder.fits f.1) with
    | (s, none) => (s, if files.all fun f => folder.fits f.1 then none else some .nameTooLong)
    | failed => failed

def clear (s : Storage κ) (place : Path) : Storage κ :=
  ⟨s.nodes.filterKeys fun p => p = place || !place.isWithin p⟩

/-- Removes the folder at a path with everything inside it. It is emptied first, and stays when the
path then leads to it no longer. -/
def remove (s : Storage κ) (path : Path) : Storage κ × Option Failure :=
  match s.locate path with
  | .error e => (s, some e)
  | .ok place =>
    match s.node? place with
    | some (.file _) => (s, some .notAFolder)
    | none => (s, some (s.absence place))
    | some .folder =>
      let emptied := s.clear place
      match emptied.locate path with
      | .ok _ => (⟨emptied.nodes.filterKeys (· != place)⟩, none)
      | .error _ => (emptied, some .noFile)

/-- The names of what lies directly in the folder at a path and has a property, in their order. -/
def names (s : Storage κ) (path : Path) (p : Node κ → Bool) : Except Failure (List Text) := do
  let place ← s.locate path
  match s.node? place with
  | some .folder =>
    let inside := s.nodes.entries.filter fun e =>
      !e.1.isOutward && e.1.parent = place && p e.2
    return sortBy (fun a b => !(b < a : Bool)) (inside.filterMap fun e => e.1.names.getLast?)
  | some (.file _) => .error .notAFolder
  | none => .error (s.absence place)

/-- The names of the folders in the folder at a path. -/
def folders (s : Storage κ) (path : Path) : Except Failure (List Text) :=
  s.names path fun
    | .folder => true
    | .file _ => false

end Storage

end Concordance
