import Concordance.CommandLine.SearchCli
import Concordance.Index.Archive
import Concordance.Json.Writer
import Concordance.Stemmer.Porter
import Std.Time.Zoned

/-!
# The program

Reads the archive of the index folder, carries out the command that the arguments give,
and writes the archive again. What is printed goes to the output, what is reported to
the error output.
-/
namespace Concordance.Main

def padded (width n : Nat) : String :=
  let digits := toString n
  String.ofList (List.replicate (width - digits.length) '0') ++ digits

/-- The present moment, as a date with a time and as it stands in names. -/
def present : IO (String × String) := do
  let t ← Std.Time.PlainDateTime.now
  let year := padded 4 t.date.year.toInt.toNat
  let month := padded 2 t.date.month.val.toNat
  let day := padded 2 t.date.day.val.toNat
  let hour := padded 2 t.time.hour.val.toNat
  let minute := padded 2 t.time.minute.val.toNat
  let second := padded 2 t.time.second.val.toNat
  return (year ++ "-" ++ month ++ "-" ++ day ++ "T" ++ hour ++ ":" ++ minute ++ ":" ++ second,
    year ++ month ++ day ++ "_" ++ hour ++ minute ++ second)

def surroundings : IO Surroundings := do
  let folder ← IO.getEnv Surroundings.folderVariable
  let dataset ← IO.getEnv Surroundings.datasetVariable
  let (now, stamp) ← present
  return {
    folder := (folder.map String.toText).getD Surroundings.defaultFolder
    dataset := (dataset.map String.toText).getD Surroundings.defaultDataset
    now := now.toText
    stamp := stamp.toText }

/-- The content of a file, if it can be read. -/
def readFile? (path : String) : IO (Option ByteArray) := do
  let .ok content ← (IO.FS.readBinFile path).toBaseIO | return none
  return some content

def archivePath (folder : Path) : String :=
  stringOf (folder.child "archive.json".toText).toText

/-- The storage of the archive in a folder, empty if there is none. -/
def readArchive (folder : Path) : IO IndexStorage := do
  match ← readFile? (archivePath folder) with
  | none => return .empty
  | some bytes =>
    let value := (String.fromUTF8? bytes).bind fun t => Json.parse? t.toText
    match Archive.toStorage (value.getD .null) with
    | .ok storage => return storage
    | .error e => throw (IO.userError (stringOf e.message))

def writeArchive (folder : Path) (storage : IndexStorage) : IO Unit := do
  IO.FS.createDirAll (stringOf folder.toText)
  IO.FS.writeFile (archivePath folder) (stringOf (Archive.ofStorage storage).render)

def datasetOf (around : Surroundings) : Except Failure Command → Option Path
  | .ok (.createIndex dataset _ _ backend) =>
    (Configuration.choose around backend dataset >>= Configuration.dataset).toOption
  | _ => none

/-- The storage with the file at a path, if there is one. -/
def withFile (storage : IndexStorage) : Option Path → IO IndexStorage
  | none => return storage
  | some path => do
    match ← readFile? (stringOf path.toText) with
    | some content => return (storage.writeFile path (.bytes content)).1
    | none => return storage

def severityName : Severity → String
  | .info => "INFO"
  | .warning => "WARNING"
  | .error => "ERROR"

def run (arguments : List Text) : IO UInt32 := do
  -- No command removes stopwords, so the library need not list any.
  let _ : Language := ⟨Porter.stem, []⟩
  let around ← surroundings
  let folder := Path.ofText around.folder
  let dataset := datasetOf around (Command.ofArguments arguments)
  let storage ← withFile (← readArchive folder) dataset
  let (result, cli) := Work.runAt (Work.performArguments around arguments) (.new storage)
  for line in cli.log do
    IO.eprintln (severityName line.severity ++ " - " ++ stringOf line.text)
  IO.print (stringOf cli.output)
  writeArchive folder cli.storage
  match result with
  | .ok _ => return 0
  | .error e =>
    IO.eprintln (stringOf e.message)
    return 1

end Concordance.Main

def main (arguments : List String) : IO UInt32 :=
  Concordance.Main.run (arguments.map String.toText)
