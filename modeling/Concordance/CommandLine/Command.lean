import Concordance.Json.Fields
import Concordance.Json.Reader

/-!
# Commands

The commands that can be given, with their parameters, and how they are read from the
arguments of a command line.
-/
namespace Concordance

/-- A command with its parameters. A parameter that is not given has its default. -/
inductive Command where
  /-- Makes an index of a dataset, or of the sample documents. -/
  | createIndex (dataset name sample backend : Json)
  | search (query name limit backend : Json)
  | showDocument (doc name backend : Json)
  | demo
  | listIndices (backend : Json)
  | deleteIndex (name backend : Json)
  | showConfig (backend : Json)

namespace Command

/-- The names of the commands, each with the names of its parameters in order. -/
def parameters : List (Text × List Text) :=
  [("create_index", ["dataset_file", "index_name", "sample", "implementation"]),
    ("search", ["query", "index_name", "max_results", "implementation"]),
    ("show_document", ["doc_id", "index_name", "implementation"]), ("demo", []),
    ("list_indices", ["implementation"]), ("delete_index", ["index_name", "implementation"]),
    ("show_config", ["implementation"])].map fun e => (e.1.toText, e.2.map String.toText)

/-- The value of a parameter that has to be given. -/
def required (name : String) (given : List (Text × Json)) : Except Failure Json :=
  match Json.find? name.toText given with
  | some value => .ok value
  | none => .error .wrongKind

/-- The value of a parameter that may be left out. -/
def optional (name : String) (given : List (Text × Json)) : Json :=
  (Json.find? name.toText given).getD .null

/-- The command of that name with the given parameters. A parameter that is unknown or missing is an
error. -/
def named (name : Text) (given : List (Text × Json)) : Except Failure Command := do
  let known := (parameters.lookup name).getD []
  if given.any fun e => !known.contains e.1 then throw .wrongKind
  let backend := optional "implementation" given
  match stringOf name with
  | "create_index" =>
    return createIndex (optional "dataset_file" given) (optional "index_name" given)
      (optional "sample" given) backend
  | "search" =>
    let query ← required "query" given
    return search query (← required "index_name" given) (optional "max_results" given) backend
  | "show_document" =>
    let doc ← required "doc_id" given
    return showDocument doc (← required "index_name" given) backend
  | "demo" => return demo
  | "list_indices" => return listIndices backend
  | "delete_index" => return deleteIndex (← required "index_name" given) backend
  | "show_config" => return showConfig backend
  | _ => throw .noMembers

/-- The value that an argument stands for: a number or a quoted text if it is one, a truth value or
nothing by its name, else the argument itself. -/
def valueOf (argument : Text) : Json :=
  if argument = "True".toText then .bool true
  else if argument = "False".toText then .bool false
  else if argument = "None".toText then .null
  else match Json.parse? argument with
    | some (.int n) => .int n
    | some (.float x) => if x.isFinite then .float x else .str argument
    | some (.str t) => .str t
    | _ => .str argument

/-- The name and the value of an option without its leading hyphens, where the value may follow an
equals sign. -/
def optionOf (body : Text) : Text × Option Json :=
  let name := (body.takeWhile (· != .char '=')).map fun c : CodePoint =>
    if c = '-' then .char '_' else c
  match body.dropWhile (· != .char '=') with
  | _ :: value => (name, some (valueOf value))
  | [] => (name, none)

def isOption (argument : Text) : Bool := "--".toText.isPrefixOf argument

/-- The arguments that stand by their places, and those that are named. An option takes the next
argument as its value; without one it is true. -/
def split : List Text → List Json × List (Text × Json)
  | [] => ([], [])
  | [argument] =>
    if isOption argument then
      let (name, value) := optionOf (argument.drop 2)
      ([], [(name, value.getD (.bool true))])
    else ([valueOf argument], [])
  | argument :: next :: rest =>
    if isOption argument then
      match optionOf (argument.drop 2) with
      | (name, some value) =>
        let (places, names) := split (next :: rest)
        (places, (name, value) :: names)
      | (name, none) =>
        if isOption next then
          let (places, names) := split (next :: rest)
          (places, (name, .bool true) :: names)
        else
          let (places, names) := split rest
          (places, (name, valueOf next) :: names)
    else
      let (places, names) := split (next :: rest)
      (valueOf argument :: places, names)

/-- The command that the arguments of a command line give. Arguments without a name stand for the
parameters that are not named, in their order. -/
def ofArguments : List Text → Except Failure Command
  | [] => .error .noMembers
  | name :: arguments =>
    let (places, names) := split arguments
    let free := ((parameters.lookup name).getD []).filter fun p => (Json.find? p names).isNone
    if free.length < places.length then .error .wrongKind
    else named name (names ++ free.zip places)

end Command

end Concordance
