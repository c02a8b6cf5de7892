import Concordance.Index.Stored

/-!
# Archives

A storage as one value, in which it outlives the program. Only folders and the files of
indexes are part of an archive; other files are kept by others.
-/
namespace Concordance.Archive

/-- A database as a list, in which the keys are lists of the numbers of their code points: of a text
the halves that stand side by side would not be read as they are. -/
def ofDatabase (db : Database) : Json :=
  .arr (db.records.entries.map fun e => .arr [.arr (e.1.map fun c => .int c.toNat), e.2])

def toKey (j : Json) : Except Failure Text := do
  (← j.elements).mapM fun n => do return .ofNat (← n.count)

def toDatabase (j : Json) : Except Failure Database := do
  let entries ← (← j.elements).mapM fun e => do
    let (key, record) ← IdKeys.pairOf e
    return (← toKey key, record)
  return ⟨.ofList entries⟩

/-- A node in an archive, none for a file of another origin. -/
def ofNode (path : Path) (node : Node Content) : Option Json :=
  let entry (kind : String) (value : Json) : Option Json :=
    some (.obj [("path".toText, .str path.toText), ("kind".toText, .str kind.toText),
      ("value".toText, value)])
  match node with
  | .folder => entry "folder" .null
  | .file (.value .line j) => entry "line" j
  | .file (.value .lines j) => entry "lines" j
  | .file (.value .binary j) => entry "binary" j
  | .file (.database db) => entry "database" (ofDatabase db)
  | .file (.bytes _) => none

def toNode (j : Json) : Except Failure (Path × Node Content) := do
  let path := Path.ofText (← (← j.field "path".toText).text)
  let value ← j.field "value".toText
  match stringOf (← (← j.field "kind".toText).text) with
  | "line" => return (path, .file (.value .line value))
  | "lines" => return (path, .file (.value .lines value))
  | "binary" => return (path, .file (.value .binary value))
  | "database" => return (path, .file (.database (← toDatabase value)))
  | _ => return (path, .folder)

def ofStorage (s : IndexStorage) : Json :=
  .arr (s.nodes.entries.filterMap fun e => ofNode e.1 e.2)

def toStorage (j : Json) : Except Failure IndexStorage := do
  return ⟨.ofList (← (← j.elements).mapM toNode)⟩

end Concordance.Archive
