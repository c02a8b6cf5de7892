import Concordance.Text

/-!
# Paths

A path is a list of names, counted from the root or from the working directory.
Empty names and names that are a single point say nothing and are left out. A name
of two points leads back out of a folder; where it leads to is known only once it is
known what lies on the way.
-/
namespace Concordance

/-- A path. -/
structure Path where
  absolute : Bool
  names : List Text
  deriving DecidableEq

namespace Path

def between : Text → List Text
  | [] => [[]]
  | c :: rest =>
    if c = '/' then [] :: between rest
    else match between rest with
      | [] => [[c]]
      | part :: others => (c :: part) :: others

def ofText (t : Text) : Path :=
  ⟨t.head? = some '/', (between t).filter fun name => name != [] && name != [.char '.']⟩

/-- The path from a folder to what a path names there. A path from the root needs no folder. -/
def join (folder path : Path) : Path :=
  if path.absolute then path else ⟨folder.absolute, folder.names ++ path.names⟩

def child (folder : Path) (name : Text) : Path := folder.join (ofText name)

def toText (p : Path) : Text :=
  if p.absolute then '/' :: joinWith ['/'] p.names
  else if p.names.isEmpty then ['.']
  else joinWith ['/'] p.names

def parent (p : Path) : Path := ⟨p.absolute, p.names.dropLast⟩

def upward : Text := ['.', '.']

/-- Whether a path leads nowhere but outward. The root and the working directory are such paths. -/
def isOutward (p : Path) : Bool := p.names.all (· = upward)

/-- Whether a path is the folder or leads to something inside it, where both lead out of folders at
most at their beginning. A folder that lies outward contains what lies less far outward. -/
def isWithin (folder path : Path) : Bool :=
  folder.absolute == path.absolute &&
    if folder.isOutward then
      (path.names.takeWhile (· = upward)).length ≤ folder.names.length
    else folder.names.isPrefixOf path.names

/-- The folder around a folder. Nothing lies around the root. -/
def up (p : Path) : Path :=
  if p.isOutward then if p.absolute then p else ⟨false, p.names ++ [upward]⟩ else p.parent

/-- Whether a code point may stand in no name: the null character, and halves, which no file system
keeps as what they are. -/
def isRefused (c : CodePoint) : Bool := c = '\x00' || c.isHalf

/-- Whether a name of a path has a code point that no name may have. -/
def isForbidden (p : Path) : Bool := p.names.any (·.any isRefused)

/-- Whether a path has more bytes than paths may have. -/
def isTooLong (p : Path) : Bool := 4095 < utf8Length p.toText

/-- Whether what a name leads to in a folder has a path that is not too long. -/
def fits (folder : Path) (name : Text) : Bool := !(folder.child name).isTooLong

/-- The folders on the way to a path, and the path itself. -/
def ancestry (p : Path) : List Path :=
  (List.range p.names.length).map fun n => ⟨p.absolute, p.names.take (n + 1)⟩

end Path

end Concordance
