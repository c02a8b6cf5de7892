import Concordance.Proofs.CachedIndex

/-!
# What commands read

A command chooses its configuration and works on the cached index. What else it does
is to report, to print and to read, and what comes of that is told here by what is read.
-/
namespace Concordance.Work

variable {around : Surroundings} {query name limit backend dataset sample doc : Json}

section Searching

/-- What a search does with the index that it has loaded. -/
def answering [Language] (c : Configuration) (query limit : Json) (x : Index) : Work Json := do
  let query ← match query with
    | .str t => pure t
    | _ => throw .noMembers
  let answer ← (c.settings.engine x.analyzer).answer x.view query limit
  let answer ← answer.written
  heading "QUERY RESULTS"
  say .info ("Query: ".toText ++ answer.query)
  say .info ("Total Hits: ".toText ++ decimal answer.total)
  answer.results.forM fun r => say .info (resultLine r)
  return .arr (answer.results.map fun r => .int r.doc)

theorem search_eq [Language] : search around query name limit backend =
    (do let c ← configure around backend .null; let x ← load c name; answering c query limit x) :=
  rfl

/-- The ids that are found for a query. -/
def answered [Language] (c : Configuration) (query limit : Json) (x : Index) :
    Except Failure Json := do
  let query ← match query with
    | .str t => pure t
    | _ => throw .noMembers
  let answer ← (c.settings.engine x.analyzer).answer x.view query limit
  let answer ← answer.written
  return .arr (answer.results.map fun r => .int r.doc)

theorem reads_answering [Language] (c : Configuration) (query limit : Json) (x : Index) :
    Reads (answering c query limit x) fun _ => answered c query limit x := by
  unfold answering answered
  cases query with
  | str t =>
    refine (reads_pure t).bind fun t => (reads_lift _).bind fun answer => ?_
    refine (reads_lift _).bind fun answer => ?_
    refine (reads_heading _).seq ((reads_say _ _).seq ((reads_say _ _).seq ?_))
    exact (reads_each (fun r => reads_say _ (resultLine r)) answer.results).seq (reads_pure _)
  | _ => exact fun b => (reads_throw Failure.noMembers b).bind_error

end Searching

section Showing

/-- What is done to show a document of the index that has been loaded. -/
def showing (doc name : Json) (x : Index) : Work Json := do
  match ← x.contentBy (.int (← doc.toInteger)) with
  | none =>
    say .error ("Document ".toText ++ (← doc.shown) ++ " not found in ".toText ++ name.display)
    return .null
  | some content =>
    print content
    return .str content

theorem showDocument_eq [Language] : showDocument around doc name backend =
    (do let c ← configure around backend .null; let x ← load c name; showing doc name x) :=
  rfl

/-- The text of a document. Where there is none it is nothing, if the id can be shown. -/
def shown (doc : Json) (x : Index) : Except Failure Json := do
  match ← x.contentBy (.int (← doc.toInteger)) with
  | none =>
    let _ ← doc.shown
    return .null
  | some content => return .str content

theorem reads_showing (doc name : Json) (x : Index) :
    Reads (showing doc name x) fun _ => shown doc x := by
  refine (reads_lift _).bind fun d => (reads_lift _).bind fun content => ?_
  cases content with
  | none => exact (reads_lift _).bind fun _ => (reads_say _ _).seq (reads_pure _)
  | some content => exact (reads_print _).seq (reads_pure _)

end Showing

section Listing

/-- What is done with the names of the stored indexes. -/
def listing (names : List Text) : Work Json := do
  heading "AVAILABLE INDICES"
  if names.isEmpty then say .info "No indices found.".toText
  (numbered 1 names).forM (say .info)
  return .arr (names.map .str)

theorem listIndices_eq [Language] : listIndices around backend = (do
    let c ← configure around backend .null
    let x ← theIndex c
    listing (← x.stored (← get).storage)) :=
  rfl

theorem reads_listing (names : List Text) :
    Reads (listing names) fun _ => .ok (.arr (names.map .str)) := by
  have hrest : Reads (do (numbered 1 names).forM (say .info); return .arr (names.map .str))
      fun _ => .ok (Json.arr (names.map .str)) := (reads_each (reads_say _) _).seq (reads_pure _)
  refine (reads_heading _).seq ?_
  split
  · exact (reads_say _ _).seq hrest
  · exact hrest

end Listing

section Creating

/-- The name of an index that is to be created: one of the moment where none is given. -/
def nameFor (around : Surroundings) (sample : Json) : Json → Json
  | .null =>
    .str ((if sample.isEmpty then Configuration.datasetName else Configuration.sampleName) ++
      "_".toText ++ around.stamp)
  | given => given

/-- The documents of which an index is to be created. -/
def documentsFor (c : Configuration) (sample : Json) : Work (List Document) :=
  if sample.isEmpty then loadDataset c else pure sampleDocuments

/-- An index of some documents is created where there is a storage, and reported by its name. -/
def creating (around : Surroundings) (name : Json) (shown : Text) (documents : List Document)
    (x : Index) (storage : IndexStorage) : Work Json := do
  let _ ← settle (x.create storage around.now name (documents.map entryOf))
  say .info ("Index '".toText ++ shown ++ "' created successfully".toText)
  return name

theorem createIndex_eq [Language] : createIndex around dataset name sample backend = (do
    let c ← configure around backend dataset
    let name := nameFor around sample name
    heading "CREATING INDEX"
    let shown ← name.shown
    say .info ("Index Name: ".toText ++ shown)
    let documents ← documentsFor c sample
    say .info ("Loaded ".toText ++ decimal documents.length ++ " documents".toText)
    let x ← theIndex c
    creating around name shown documents x (← get).storage) := by
  unfold createIndex documentsFor nameFor creating
  cases sample.isEmpty <;> cases name <;> rfl

theorem nameFor_of_ne_null (h : name ≠ .null) : nameFor around sample name = name := by
  cases name with
  | null => exact absurd rfl h
  | _ => rfl

theorem reads_documentsFor (c : Configuration) (sample : Json) :
    ∃ r, Reads (documentsFor c sample) r := by
  unfold documentsFor
  split
  · exact ⟨_, reads_loadDataset c⟩
  · exact ⟨_, reads_pure _⟩

end Creating

section Deleting

def deleting (target : Text) (x : Index) (storage : IndexStorage) : Work Json := do
  let _ ← settle (x.delete storage target)
  say .info ("Index '".toText ++ target ++ "' deleted successfully".toText)
  return .null

theorem deleteIndex_eq [Language] : deleteIndex around name backend = (do
    let c ← configure around backend .null
    say .info ("Deleting index: ".toText ++ (← name.shown))
    let x ← theIndex c
    let target ← name.text
    deleting target x (← get).storage) :=
  rfl

end Deleting

section Demonstrating

/-- The index of the sample documents is deleted again. -/
def clearingAway (x : Index) (storage : IndexStorage) : Work Json := do
  let _ ← settle (x.delete storage demoName)
  return .null

def demonstrating [Language] (around : Surroundings) (c : Configuration) (x : Index)
    (storage : IndexStorage) : Work Json := do
  let x ← settle (x.create storage around.now (.str demoName) (sampleDocuments.map entryOf))
  demoQueries.forM (showQuery (c.settings.engine x.analyzer) x)
  clearingAway x (← get).storage

theorem demo_eq [Language] : demo around = (do
    let c ← configure around .null .null
    let x ← theIndex c
    demonstrating around c x (← get).storage) :=
  rfl

/-- The documents that are found for a query are looked up, and nothing comes of it. -/
def lookUp (e : Engine) (x : Index) (query : Text) : Except Failure Unit := do
  let found ← e.search x.view query
  (found.map (·.doc)).forM fun d => do let _ ← x.view.content d; return ()

theorem reads_showQuery (e : Engine) (x : Index) (query : Text) :
    Reads (showQuery e x query) fun _ => lookUp e x query := by
  refine (reads_lift _).bind fun found => (reads_print _).seq ?_
  exact reads_forM (fun d => (reads_lift _).bind fun content => reads_print _) _

end Demonstrating

end Concordance.Work
