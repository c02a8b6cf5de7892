import Concordance.Engine
import Concordance.Index

/-!
# Settings

The settings from which indexes and engines are made.
-/
namespace Concordance

/-- The settings of a search. -/
structure Settings where
  analysis : AnalyzerOptions
  backend : Json
  format : Json
  maxDepth : Json
  maxResults : Json
  folder : Path

namespace Settings

def memoryBackend : Text := "self".toText

/-- The kind of index that is kept in a database. -/
def databaseBackend : Text := "rocksdb".toText

/-- The depth to which parentheses may nest unless another one is set. -/
def defaultDepth : Int := 100

def storeOf (backend : Json) : Except Failure DataStore :=
  match backend with
  | .str t =>
    if t = memoryBackend then .ok .memory
    else if t = databaseBackend then .ok .database
    else .error (.unknownBackend t)
  | other => do throw (.unknownBackend (← other.shown))

/-- Makes an index that holds nothing, and the folder of its kind if it is kept in memory. The
kind is looked at before the stemmer. -/
def makeIndex (s : Settings) (storage : IndexStorage) : Except Failure (Index × IndexStorage) := do
  let store ← storeOf s.backend
  let analyzer ← Analyzer.ofOptions s.analysis
  match store with
  | .memory =>
    let home := s.folder.child "selfindex".toText
    match storage.makeFolders home with
    | (storage, none) =>
      return (.memory (.new analyzer home (.ofSetting s.format)), storage)
    | (_, some e) => throw e
  | .database => return (.database (.new analyzer (s.folder.child "rocksdb".toText)), storage)

/-- The engine for an index whose documents are analysed in a given way. -/
def engine (s : Settings) (a : Analyzer) : Engine :=
  ⟨a.punctuation, a.stemmer, s.maxDepth, s.maxResults⟩

end Settings

end Concordance
