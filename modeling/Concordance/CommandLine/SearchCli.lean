import Concordance.CommandLine.Command
import Concordance.CommandLine.Configuration

/-!
# Carrying out commands

Commands are carried out by a search CLI, which caches the index that its first command has
made. What a command changed and reported before it failed stays.
-/
namespace Concordance

/-- A search CLI in its surroundings: the storage, the cached index, and what has been reported and
printed. -/
structure SearchCli where
  storage : IndexStorage
  index : Option Index
  log : List LogLine
  output : Text

/-- Something that a search CLI does and that may fail. -/
abbrev Work (α : Type) := ExceptT Failure (StateM SearchCli) α

/-- A search CLI over a storage, before its first command. -/
def SearchCli.new (storage : IndexStorage) : SearchCli := ⟨storage, none, [], []⟩

namespace Work

variable [Language]

def report (lines : List LogLine) : Work Unit := modify fun d => { d with log := d.log ++ lines }

def say (severity : Severity) (text : Text) : Work Unit := report [⟨.command, severity, text⟩]

def heading (text : String) : Work Unit := do
  let rule : Text := List.replicate 60 '='
  say .info rule
  say .info text.toText
  say .info rule

def print (line : Text) : Work Unit :=
  modify fun d => { d with output := d.output ++ line ++ "\n".toText }

def check : Option Failure → Work Unit
  | none => pure ()
  | some e => throw e

/-- Chooses the configuration, and makes the folder of all indexes. -/
def configure (around : Surroundings) (backend dataset : Json) : Work Configuration := do
  let c ← Configuration.choose around backend dataset
  let (storage, failure) := (← get).storage.makeFolders c.folder
  modify fun d => { d with storage := storage }
  check failure
  return c

/-- The cached index, made if there is none yet. -/
def theIndex (c : Configuration) : Work Index := do
  match (← get).index with
  | some x => return x
  | none =>
    if c.backend?.isNone then throw .noSection
    let (x, storage) ← c.settings.makeIndex (← get).storage
    modify fun d => { d with storage := storage, index := some x }
    say .info ("Using ".toText ++ x.describe)
    return x

/-- Puts down what an operation on an index has done. -/
def settle (o : Outcome Index) : Work Index := do
  modify fun d => { d with storage := o.storage, index := some o.index }
  report o.log
  check o.failure
  return o.index

def load (c : Configuration) (name : Json) : Work Index := do
  let x ← theIndex c
  let name ← name.text
  settle (x.load (← get).storage (x.home.child name))

def readDataset (c : Configuration) : Work ByteArray := do
  let path ← c.dataset
  let storage := (← get).storage
  if ← storage.contains path then return (← storage.read path).toBytes
  else throw (.noDatasetAt path.toText)

def loadDataset (c : Configuration) : Work (List Document) := do
  let loaded := Dataset.loadBytes Configuration.datasetOptions (← readDataset c)
  report loaded.log
  check loaded.failure
  return loaded.documents

def entryOf (d : Document) : Json := .arr [.int d.1, d.2]

def createIndex (around : Surroundings) (dataset name sample backend : Json) : Work Json := do
  let c ← configure around backend dataset
  let useSample := !sample.isEmpty
  let name : Json := match name with
    | .null =>
      let base := if useSample then Configuration.sampleName else Configuration.datasetName
      .str (base ++ "_".toText ++ around.stamp)
    | given => given
  heading "CREATING INDEX"
  let shown ← name.shown
  say .info ("Index Name: ".toText ++ shown)
  let documents ← if useSample then pure sampleDocuments else loadDataset c
  say .info ("Loaded ".toText ++ decimal documents.length ++ " documents".toText)
  let x ← theIndex c
  let _ ← settle (x.create (← get).storage around.now name (documents.map entryOf))
  say .info ("Index '".toText ++ shown ++ "' created successfully".toText)
  return name

def contentText (content : Option Text) : Text := content.getD "None".toText

def resultLine (r : Result) : Text :=
  decimal r.rank ++ ". Document ".toText ++ decimal r.doc ++ " (score: ".toText ++
    fixedPlaces 4 r.score ++ "): ".toText ++ contentText r.content

/-- Answers a query and gives the ids of the results. -/
def search (around : Surroundings) (query name limit backend : Json) : Work Json := do
  let c ← configure around backend .null
  let x ← load c name
  let query ← match query with
    | .str t => pure t
    | _ => throw .noMembers
  let answer ← (c.settings.engine x.analyzer).answer x.view query limit
  let answer ← answer.written
  heading "QUERY RESULTS"
  say .info ("Query: ".toText ++ answer.query)
  say .info ("Total Hits: ".toText ++ decimal answer.total)
  answer.results.forM fun r => say .info (resultLine r)
  return .arr (answer.results.map fun r => .int r.doc)

def showDocument (around : Surroundings) (doc name backend : Json) : Work Json := do
  let c ← configure around backend .null
  let x ← load c name
  match ← x.contentBy (.int (← doc.toInteger)) with
  | none =>
    say .error ("Document ".toText ++ (← doc.shown) ++ " not found in ".toText ++ name.display)
    return .null
  | some content =>
    print content
    return .str content

def demoQueries : List Text :=
  ["(dog AND lazy) OR cats", "dogs NOT (cat OR mat)", "barking AND dog"].map String.toText

def showQuery (e : Engine) (x : Index) (query : Text) : Work Unit := do
  let docs := (← e.search x.view query).map (·.doc)
  let found := if docs.isEmpty then "None".toText else joinWith [',', ' '] (docs.map decimal)
  print ("Query '".toText ++ query ++ "' found in documents: ".toText ++ found)
  docs.forM fun d => do
    let content ← x.view.content d
    print ("Document ".toText ++ decimal d ++ ": ".toText ++ contentText content)

def demoName : Text := "demo".toText

/-- Shows some queries on an index of the sample documents, which is deleted again. -/
def demo (around : Surroundings) : Work Json := do
  let c ← configure around .null .null
  let x ← theIndex c
  let x ← settle (x.create (← get).storage around.now (.str demoName) (sampleDocuments.map entryOf))
  demoQueries.forM (showQuery (c.settings.engine x.analyzer) x)
  let _ ← settle (x.delete (← get).storage demoName)
  return .null

/-- The lines of a numbered list, the first of which has the given number. -/
def numbered (n : Nat) : List Text → List Text
  | [] => []
  | item :: rest => (decimal n ++ ". ".toText ++ item) :: numbered (n + 1) rest

def listIndices (around : Surroundings) (backend : Json) : Work Json := do
  let c ← configure around backend .null
  let x ← theIndex c
  let names ← x.stored (← get).storage
  heading "AVAILABLE INDICES"
  if names.isEmpty then say .info "No indices found.".toText
  (numbered 1 names).forM (say .info)
  return .arr (names.map .str)

def deleteIndex (around : Surroundings) (name backend : Json) : Work Json := do
  let c ← configure around backend .null
  say .info ("Deleting index: ".toText ++ (← name.shown))
  let x ← theIndex c
  let target ← name.text
  let _ ← settle (x.delete (← get).storage target)
  say .info ("Index '".toText ++ target ++ "' deleted successfully".toText)
  return .null

def showConfig (around : Surroundings) (backend : Json) : Work Json := do
  let c ← configure around backend .null
  print c.toText
  return .null

def perform (around : Surroundings) : Command → Work Json
  | .createIndex dataset name sample backend => createIndex around dataset name sample backend
  | .search query name limit backend => search around query name limit backend
  | .showDocument doc name backend => showDocument around doc name backend
  | .demo => demo around
  | .listIndices backend => listIndices around backend
  | .deleteIndex name backend => deleteIndex around name backend
  | .showConfig backend => showConfig around backend

/-- The lines that are printed for what a command returns: one for each item of a list, none for
nothing. -/
def linesOf : Json → Except Failure (List Text)
  | .null => .ok []
  | .arr items => items.mapM Json.shown
  | value => do return [← value.shown]

/-- Carries out the command that the arguments of a command line give. Prints what it returns. -/
def performArguments (around : Surroundings) (arguments : List Text) : Work Unit := do
  let command ← Command.ofArguments arguments
  let value ← perform around command
  (← linesOf value).forM print

/-- Does something with a search CLI. Gives what came of it and the CLI afterwards. -/
def runAt {α : Type} (work : Work α) (d : SearchCli) : Except Failure α × SearchCli := work.run d

end Work

end Concordance
