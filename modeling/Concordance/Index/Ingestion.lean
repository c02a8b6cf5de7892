import Concordance.Json.Display
import Concordance.Json.Fields
import Concordance.Log
import Concordance.Text.Surrogates

/-!
# Taking documents into an index

Entries are taken one after the other. An entry without content and one that the
index refuses are reported and left out. An entry that is no pair of an id and a content
ends the ingestion, and so does one that is to be reported with an id that cannot be
shown.
-/
namespace Concordance.Ingestion

/-- The two parts of an entry, its id and its content. -/
def unpack : Json → Except Failure (Json × Json)
  | .arr [id, content] => .ok (id, content)
  | .str [c, d] => .ok (.str [c], .str [d])
  | .obj [(id, _), (content, _)] => .ok (.str id, .str content)
  | .arr _ | .str _ | .obj _ => .error .notAPair
  | _ => .error .wrongKind

/-- The text of a content. A pair in it is the character that it stands for, as it is in every text
that is read. -/
def textOf : Json → Except Failure Text
  | .str t => .ok (paired t)
  | _ => .error .noMembers

/-- What is reported of an entry, which is nothing if it is taken in, or why it cannot be
reported. -/
abbrev Report := Except Failure (Option LogLine)

/-- Reports an entry by a line in which its id is shown. -/
def report (id : Json) (line : Text → LogLine) : Report := do return some (line (← id.shown))

def skipped (id : Json) : Report :=
  report id fun shown => .warning ("Skipping document ".toText ++ shown ++ ": no content".toText)

def refused (id : Json) (reason : Failure) : Report :=
  report id fun shown =>
    .error ("Error processing document ".toText ++ shown ++ ": ".toText ++ reason.message)

/-- What is reported when the index of a name is replaced. -/
def overwriting (name : Text) : LogLine :=
  .warning ("Index ".toText ++ name ++ " already exists. Overwriting.".toText)

/-- What comes of an ingestion: what was built, the number of documents taken in, what is reported,
and the failure that ended it early. -/
structure Result (τ : Type) where
  built : τ
  documents : Nat
  log : List LogLine
  stopped : Option Failure

/-- Takes entries in, where `add` takes one document with a content or says why it is refused. What
it has changed of what is built stays in any case. -/
def ingest {τ : Type} (add : τ → Json → Json → τ × Report) (t : τ) : List Json → Result τ
  | [] => ⟨t, 0, [], none⟩
  | entry :: rest =>
    match unpack entry with
    | .error e => ⟨t, 0, [], some e⟩
    | .ok (id, content) =>
      match if content.isEmpty then (t, skipped id) else add t id content with
      | (t, .error e) => ⟨t, 0, [], some e⟩
      | (t, .ok none) =>
        let r := ingest add t rest
        { r with documents := r.documents + 1 }
      | (t, .ok (some line)) =>
        let r := ingest add t rest
        { r with log := line :: r.log }

end Concordance.Ingestion
