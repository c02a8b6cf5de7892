import Concordance.CommandLine.Choice
import Concordance.Dataset
import Concordance.Settings

/-!
# The configuration of the command line

The settings with which commands work, of which only the kind of index, the dataset and
the folder of the indexes can be chosen.
-/
namespace Concordance

/-- What a command finds around it. -/
structure Surroundings where
  folder : Text
  /-- The dataset that is loaded unless another one is named. -/
  dataset : Text
  now : Text
  /-- The same moment as it stands in the names of indexes. -/
  stamp : Text

namespace Surroundings

def folderVariable : String := "BOOLSEARCH_INDEX_DIR"

def datasetVariable : String := "BOOLSEARCH_DATASET"

def defaultFolder : Text := "indices".toText

def defaultDataset : Text := "data/documents.jsonl".toText

end Surroundings

def isReference : Text → Bool
  | [] => false
  | c :: rest => (c = '$' && rest.head? = some '\x7b') || isReference rest

/-- A backend: a part of the configuration that says of which kind indexes are. -/
inductive Backend where
  | memory
  | database
  deriving DecidableEq

namespace Backend

def name : Backend → Text
  | memory => Settings.memoryBackend
  | database => Settings.databaseBackend

/-- The ending of the files in which the parts of the configuration are kept. -/
def ending : Text := ".yaml".toText

/-- The folder in which the files of the backends lie. -/
def folder : List Text := ["conf".toText, "index".toText]

def follow (here : List Text) : List Text → List Text
  | [] => here
  | name :: rest => follow (if name = Path.upward then here.dropLast else here ++ [name]) rest

def file (p : Backend) : List Text := folder ++ [p.name ++ ending]

/-- The backend that is named by the way to its file, the ending of which may be left out. -/
def named (name : Text) : Except Failure Backend :=
  let way := Path.ofText (if ending.isSuffixOf name then name else name ++ ending)
  match [memory, database].find? fun p => p.file = follow folder way.names with
  | some backend => .ok backend
  | none => .error (.noConfiguration ("index/".toText ++ name))

def chosen : Choice → Except Failure (List Backend)
  | .text t =>
    if (Json.str t).isOpen || isReference t then .error .ambiguousChoice
    else do return [← named t]
  | .list items => items.mapM fun
    | .text t => named t
    | _ => .error .notAPart
  | .table | .several => .error .ambiguousChoice
  | .scalar => .error .notAPart

end Backend

/-- The configuration of a command. -/
structure Configuration where
  /-- The backends that are chosen. The last one counts. -/
  backends : List Backend
  /-- The path of the dataset, or why there is none. -/
  dataset : Except Failure Path
  folder : Path

namespace Configuration

/-- The name of the dataset, from which indexes are named. -/
def datasetName : Text := "documents".toText

def sampleName : Text := "sample".toText

def idField : Text := "id".toText

def textField : Text := "text".toText

def datasetOptions : DatasetOptions := ⟨.str idField, .str textField, .null⟩

def analysis [l : Language] : AnalyzerOptions where
  language := l
  lowercase := true
  punctuation := .str defaultPunctuation
  stemmer := .str StemmerKind.porter.name
  stemming := true
  removeStopwords := false
  stopwords := .arr []

def format : Text := "json".toText

def choiceOf (value : Json) : Except Failure (Option Choice) :=
  if value.isEmpty then .ok none
  else do
    match Choice.ofText? (← value.shown) with
    | some choice => return some choice
    | none => throw .malformedChoice

def isSeveral : Option Choice → Bool
  | some .several => true
  | _ => false

def pathOf : Choice → Except Failure Path
  | .text t =>
    if (Json.str t).isOpen then .error .leftOpen
    else if isReference t then .error .unresolved
    else .ok (.ofText t)
  | _ => .error .wrongKind

/-- The configuration for a kind of index and a dataset, each of which is the usual one if it is
empty. Both are read before either is looked at. A dataset may be no path as long as none is
loaded. -/
def choose (around : Surroundings) (backend dataset : Json) : Except Failure Configuration := do
  let kind ← choiceOf backend
  let source ← choiceOf dataset
  if isSeveral kind || isSeveral source then throw .ambiguousChoice
  let backends ← Backend.chosen (kind.getD (.text Settings.memoryBackend))
  return ⟨backends, (source.map pathOf).getD (.ok (.ofText around.dataset)), .ofText around.folder⟩

def backend? (c : Configuration) : Option Text := c.backends.getLast?.map Backend.name

def settings [Language] (c : Configuration) : Settings where
  analysis := analysis
  backend := (c.backend?.map Json.str).getD .null
  format := .str format
  maxDepth := .int Settings.defaultDepth
  maxResults := .null
  folder := c.folder

/-- A line that gives a member of a section its value. -/
def member (name : String) (value : Text) : Text :=
  "  ".toText ++ name.toText ++ ": ".toText ++ value

def switch (b : Bool) : Text := if b then "true".toText else "false".toText

/-- A choice of the surroundings, with what it is if none is made. -/
def choice (variableName : String) (default : Text) : Text :=
  "$\x7benv:".toText ++ variableName.toText ++ ",".toText ++ default ++ "\x7d".toText

def kindLines (backends : List Backend) : List Text :=
  match backends.getLast? with
  | none => []
  | some backend =>
    ["index:".toText, member "implementation" backend.name] ++
      if backends.contains .memory then [member "format" format] else []

def lines [Language] (c : Configuration) : List Text :=
  kindLines c.backends ++
    ["preprocessing:".toText, member "lowercase" (switch analysis.lowercase),
      member "punctuation" defaultPunctuation,
      member "remove_stopwords" (switch analysis.removeStopwords),
      member "stopwords" "[]".toText, member "stemming" (switch analysis.stemming),
      member "stemmer" StemmerKind.porter.name,
      "query:".toText, member "max_depth" (decimal Settings.defaultDepth),
      member "max_results" "null".toText,
      "dataset:".toText, member "name" datasetName,
      member "source_file" (choice Surroundings.datasetVariable Surroundings.defaultDataset),
      member "sample_size" "null".toText, "  fields:".toText,
      "  ".toText ++ member "id_field" idField, "  ".toText ++ member "text_field" textField,
      "indexing:".toText, member "show_progress" (switch true),
      "paths:".toText,
      member "index_storage" (choice Surroundings.folderVariable Surroundings.defaultFolder),
      "logging:".toText, member "level" "INFO".toText,
      member "format" "'%(asctime)s - %(name)s - %(levelname)s - %(message)s'".toText]

/-- The text of a configuration. The choices of the surroundings are shown as such. -/
def toText [Language] (c : Configuration) : Text := c.lines.flatMap fun line => line ++ "\n".toText

end Configuration

end Concordance
