import Concordance.Json.Display
import Concordance.Stemmer

/-!
# Names of indexes

An index is named by the core that implements it, the store that holds its data and
the stemmer of its terms, once in short and once in full.
-/
namespace Concordance

/-- Where an index keeps its data. -/
inductive DataStore where
  | memory
  | database
  deriving DecidableEq

namespace DataStore

def label : DataStore → Text
  | memory => "MEMORY".toText
  | database => "ROCKSDB".toText

def letter : DataStore → CodePoint
  | memory => 'm'
  | database => 'r'

def named (name : Text) : Except Failure DataStore :=
  match [memory, database].find? (·.label = upper name) with
  | some store => .ok store
  | none => .error (.missing (upper name))

end DataStore

namespace StemmerKind

def label (s : StemmerKind) : Text := upper s.name

def letter : StemmerKind → CodePoint
  | porter => 'p'
  | suffix => 's'
  | none => 'n'

def labelled (name : Text) : Except Failure StemmerKind :=
  match [none, porter, suffix].find? (·.label = upper name) with
  | some s => .ok s
  | .none => .error (.missing (upper name))

end StemmerKind

/-- The parts from which an index is named. -/
structure Identity where
  core : Text
  store : DataStore
  stemmer : StemmerKind
  deriving DecidableEq

namespace Identity

def memoryCore : Text := "SelfIndex".toText

def databaseCore : Text := "RocksDBIndex".toText

def coreNamed : Json → Except Failure Text
  | .str core =>
    if core = memoryCore || core = databaseCore then .ok core else .error (.unknownCore core)
  | other => do throw (.unknownCore (← other.shown))

/-- What a text names. Other values name nothing. -/
def lookUp {α : Type} (named : Text → Except Failure α) : Json → Except Failure (Option α)
  | .str name => (named name).map some
  | _ => .ok none

/-- The identity with the named parts. The core is looked up first, then the store and the stemmer,
and at last it is seen whether something is missing. -/
def named (core store stemmer : Json) : Except Failure Identity := do
  let core ← coreNamed core
  let store ← lookUp DataStore.named store
  let stemmer ← lookUp StemmerKind.labelled stemmer
  match store, stemmer with
  | some store, some stemmer => return ⟨core, store, stemmer⟩
  | _, _ => throw .noMembers

def short (i : Identity) : Text :=
  i.core ++ "_d".toText ++ [i.store.letter, 's', i.stemmer.letter]

def long (i : Identity) : Text :=
  "core=".toText ++ i.core ++ "|datastore=DataStore.".toText ++ i.store.label ++
    "|stemmer=StemmerType.".toText ++ i.stemmer.label

def describe (i : Identity) : Text := i.short ++ ": ".toText ++ i.long

end Identity

end Concordance
