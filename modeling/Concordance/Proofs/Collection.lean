import Concordance.Analyzer
import Concordance.Index.Ingestion
import Concordance.Index.View
import Concordance.Json.Integer
import Concordance.Proofs.Decimal
import Concordance.Proofs.Except
import Concordance.Proofs.Pairs
import Concordance.Proofs.Table
import Mathlib.Algebra.Ring.Nat

/-!
# Collections and what is to be read of them

A collection is a table of documents. What an index has to answer is told by the
documents alone: each is analysed anew whenever a term is asked for. Nothing is said
here of postings, of counts that are kept, or of how an index is stored.
-/
namespace Concordance

abbrev Collection := Table Int Text

namespace Collection

variable (a : Analyzer) (docs : Collection)

/-- How often a term occurs in a document, never in one that is not there. -/
def frequency (term : Text) (doc : Int) : Nat :=
  ((docs.get? doc).map fun text => (a.terms text).count term).getD 0

/-- The documents that have a term. -/
def having (term : Text) : List Int :=
  (docs.entries.filter fun e => (a.terms e.2).contains term).map Prod.fst

def words : Nat := (docs.entries.map fun e => (a.terms e.2).length).sum

/-- What is read of a collection. -/
def view : IndexView where
  frequency term doc := .ok (frequency a docs term doc : Nat)
  length doc := .ok (max (((docs.get? doc).map fun text => (a.terms text).length).getD 1) 1 : Nat)
  documentFrequency term := .ok (having a docs term).length
  documentCount := .ok docs.size
  postings term := .ok (.ofList (having a docs term))
  content doc := .ok (docs.get? doc)
  documents := .ok (sortBy (fun d e => d ≤ e) docs.keys)

variable {a docs}

theorem mem_having {term : Text} {doc : Int} :
    doc ∈ having a docs term ↔ ∃ text, docs.get? doc = some text ∧ term ∈ a.terms text := by
  rw [having, List.mem_map]
  constructor
  · rintro ⟨⟨d, text⟩, he, rfl⟩
    rw [List.mem_filter, Table.mem_entries_iff] at he
    exact ⟨text, he.1, by simpa using he.2⟩
  · rintro ⟨text, hdoc, hterm⟩
    exact ⟨(doc, text), List.mem_filter.mpr ⟨Table.mem_entries_iff.mpr hdoc, by simpa using hterm⟩,
      rfl⟩

theorem nodup_having (term : Text) : (having a docs term).Nodup :=
  docs.distinct.sublist (List.filter_sublist.map Prod.fst)

theorem length_having_le (a : Analyzer) (docs : Collection) (term : Text) :
    (having a docs term).length ≤ docs.size := by
  rw [having, List.length_map]
  exact List.length_filter_le _ _

theorem frequency_pos {term : Text} {doc : Int} :
    0 < frequency a docs term doc ↔ doc ∈ having a docs term := by
  rw [mem_having, frequency]
  cases docs.get? doc with
  | none => simp
  | some text => simp [List.count_pos_iff]

/-- A list of the same documents, each once, is as long as the list of those that have a term. -/
theorem length_eq_having {term : Text} {ids : List Int} (hn : ids.Nodup)
    (h : ∀ d, d ∈ ids ↔ d ∈ having a docs term) : ids.length = (having a docs term).length :=
  ((List.perm_ext_iff_of_nodup hn (nodup_having term)).mpr h).length_eq

theorem frequency_set {doc : Int} (hnew : docs.get? doc = none) (text term : Text) (d : Int) :
    frequency a (docs.set doc text) term d =
      frequency a docs term d + if d = doc then (a.terms text).count term else 0 := by
  rw [frequency, frequency, Table.get?_set]
  by_cases hd : d = doc
  · subst hd
    simp [hnew]
  · simp [hd]

theorem words_set {doc : Int} (hnew : docs.get? doc = none) (text : Text) :
    words a (docs.set doc text) = words a docs + (a.terms text).length := by
  rw [words, Table.entries_set_of_new hnew, List.map_append, List.sum_append, words]
  rfl

end Collection

namespace Ingestion

/-- The collection after an entry has been looked at. An entry without content, one whose id is no
integer or whose content is no text, and one whose id is taken are left out. -/
def accept (docs : Collection) (id content : Json) : Collection :=
  if content.isEmpty then docs
  else match id.toInteger, textOf content with
    | .ok doc, .ok text => if docs.contains doc then docs else docs.set doc text
    | _, _ => docs

/-- The collection after some entries, up to the first that is no pair. -/
def accepted (docs : Collection) : List Json → Collection
  | [] => docs
  | entry :: rest =>
    match unpack entry with
    | .ok (id, content) => accepted (accept docs id content) rest
    | .error _ => docs

/-- An entry gives a document: its id is an integer and its content is a text. -/
def Gives (id content : Json) (doc : Int) (text : Text) : Prop :=
  id.toInteger = .ok doc ∧ textOf content = .ok text

theorem accept_of_gives {docs : Collection} {id content : Json} {doc : Int} {text : Text}
    (hcontent : content.isEmpty = false) (h : Gives id content doc text)
    (hfree : docs.get? doc = none) : accept docs id content = docs.set doc text := by
  simp [accept, hcontent, h.1, h.2, Table.contains_eq_false_iff.mpr hfree]

theorem accept_of_not_gives {docs : Collection} {id content : Json}
    (h : ∀ doc text, Gives id content doc text → docs.get? doc ≠ none) :
    accept docs id content = docs := by
  unfold accept
  split
  · rfl
  · split
    · next doc text hid htext =>
      rw [if_pos (Table.contains_iff_ne_none.mpr (h doc text ⟨hid, htext⟩))]
    · rfl

/-- A text that an entry gives has no pair. -/
theorem Gives.hasPair {id content : Json} {doc : Int} {text : Text}
    (h : Gives id content doc text) : hasPair text = false := by
  obtain ⟨-, htext⟩ := h
  cases content with
  | str t =>
    cases htext
    exact hasPair_paired t
  | _ => cases htext

/-- Documents are added as they are accepted: those whose ids are free are taken in, so that what is
held is then what the collection holds, and anything else is refused without a change. What cannot
be reported ends the ingestion, also without a change, and what can be shown can be reported. -/
structure Follows {τ : Type} (add : τ → Json → Json → τ × Report)
    (Holds : Collection → τ → Prop) : Prop where
  take : ∀ {docs t id content doc text}, Holds docs t → Gives id content doc text →
    docs.get? doc = none →
      (∃ t', add t id content = (t', .ok none) ∧ Holds (docs.set doc text) t') ∨
        ∃ e, add t id content = (t, .error e)
  refuse : ∀ {docs t id content}, Holds docs t →
    (∀ doc text, Gives id content doc text → docs.get? doc ≠ none) →
      (∃ line, add t id content = (t, .ok (some line))) ∨ ∃ e, add t id content = (t, .error e)
  reports : ∀ {t id content}, id.isWritable = true → ∃ report, (add t id content).2 = .ok report

/-- A value that can be shown can be reported. -/
theorem report_of_isWritable {id : Json} (h : id.isWritable = true) (line : Text → LogLine) :
    report id line = .ok (some (line id.display)) := by
  rw [report, Json.shown, if_pos h]
  rfl

/-- A report gives a line or fails. -/
theorem report_cases (id : Json) (line : Text → LogLine) :
    (∃ reported, report id line = .ok (some reported)) ∨ ∃ e, report id line = .error e := by
  rw [report, Json.shown]
  split
  · exact .inl ⟨_, rfl⟩
  · exact .inr ⟨_, rfl⟩

variable {τ : Type} {add : τ → Json → Json → τ × Report} {Holds : Collection → τ → Prop}
  {docs : Collection} {t : τ}

/-- An entry is taken in when it gives a document whose id is free. Else it is reported and nothing
changes, or it ends the ingestion. -/
theorem Follows.ingest_cons (hfollows : Follows add Holds) (h : Holds docs t) (entry : Json) :
    (∃ id content doc text t', unpack entry = .ok (id, content) ∧ content.isEmpty = false ∧
        Gives id content doc text ∧ docs.get? doc = none ∧ Holds (docs.set doc text) t' ∧
        ∀ rest, ingest add t (entry :: rest) =
          { ingest add t' rest with documents := (ingest add t' rest).documents + 1 }) ∨
      (∃ id content line, unpack entry = .ok (id, content) ∧
        (∀ doc text, content.isEmpty = false → Gives id content doc text →
          docs.get? doc ≠ none) ∧
        ∀ rest, ingest add t (entry :: rest) =
          { ingest add t rest with log := line :: (ingest add t rest).log }) ∨
      ∃ e, ∀ rest, ingest add t (entry :: rest) = ⟨t, 0, [], some e⟩ := by
  cases hu : unpack entry with
  | error e => exact .inr (.inr ⟨e, fun rest => by rw [ingest, hu]⟩)
  | ok pair =>
    obtain ⟨id, content⟩ := pair
    cases hcontent : content.isEmpty with
    | true =>
      have hcases : (∃ line, skipped id = .ok (some line)) ∨ ∃ e, skipped id = .error e :=
        report_cases id _
      obtain ⟨line, hline⟩ | ⟨e, he⟩ := hcases
      · refine .inr (.inl ⟨id, content, line, rfl, fun _ _ hfull => ?_, fun rest => ?_⟩)
        · cases hcontent.symm.trans hfull
        · simp only [ingest, hu, hcontent, if_true, hline]
      · exact .inr (.inr ⟨e, fun rest => by simp only [ingest, hu, hcontent, if_true, he]⟩)
    | false =>
      have hstep (rest : List Json) {t' : τ} {report : Report}
          (hadd : add t id content = (t', report)) : ingest add t (entry :: rest) =
            match report with
            | .error e => ⟨t', 0, [], some e⟩
            | .ok none =>
              { ingest add t' rest with documents := (ingest add t' rest).documents + 1 }
            | .ok (some line) =>
              { ingest add t' rest with log := line :: (ingest add t' rest).log } := by
        simp only [ingest, hu, hcontent, Bool.false_eq_true, if_false, hadd]
        rcases report with e | _ | line <;> rfl
      by_cases hfree : ∃ doc text, Gives id content doc text ∧ docs.get? doc = none
      · obtain ⟨doc, text, hgives, hfree⟩ := hfree
        obtain ⟨t', hadd, ht'⟩ | ⟨e, hadd⟩ := hfollows.take h hgives hfree
        · exact .inl ⟨id, content, doc, text, t', rfl, hcontent, hgives, hfree, ht',
            fun rest => hstep rest hadd⟩
        · exact .inr (.inr ⟨e, fun rest => hstep rest hadd⟩)
      · have hno : ∀ doc text, Gives id content doc text → docs.get? doc ≠ none :=
          fun doc text hgives hnone => hfree ⟨doc, text, hgives, hnone⟩
        obtain ⟨line, hadd⟩ | ⟨e, hadd⟩ := hfollows.refuse h hno
        · exact .inr (.inl ⟨id, content, line, rfl, fun doc text _ => hno doc text,
            fun rest => hstep rest hadd⟩)
        · exact .inr (.inr ⟨e, fun rest => hstep rest hadd⟩)

/-- After any entries what is held is what the collection of those that are accepted holds, up to
the entry that ends the ingestion if one does. -/
theorem Follows.built (hfollows : Follows add Holds) (entries : List Json) (h : Holds docs t) :
    ∃ before, before <+: entries ∧ Holds (accepted docs before) (ingest add t entries).built ∧
      ((ingest add t entries).stopped = none →
        before = entries ∧ ∀ entry ∈ entries, ∃ p, unpack entry = .ok p) := by
  induction entries generalizing docs t with
  | nil => exact ⟨[], List.prefix_rfl, h, fun _ => ⟨rfl, by simp⟩⟩
  | cons entry rest ih =>
    obtain ⟨id, content, doc, text, t', hu, hcontent, hgives, hfree, ht', htake⟩ |
      ⟨id, content, line, hu, hno, hrefuse⟩ | ⟨e, hends⟩ := hfollows.ingest_cons h entry
    · obtain ⟨before, hbefore, hbuilt, hall⟩ := ih ht'
      refine ⟨entry :: before, List.cons_prefix_cons.mpr ⟨rfl, hbefore⟩, ?_, fun hstop => ?_⟩
      · rw [htake, accepted, hu]
        simp only [accept_of_gives hcontent hgives hfree]
        exact hbuilt
      · rw [htake] at hstop
        obtain ⟨rfl, hpairs⟩ := hall hstop
        exact ⟨rfl, List.forall_mem_cons.mpr ⟨⟨_, hu⟩, hpairs⟩⟩
    · have hskip : accept docs id content = docs := by
        cases hcontent : content.isEmpty with
        | true => rw [accept, if_pos hcontent]
        | false => exact accept_of_not_gives fun doc text => hno doc text hcontent
      obtain ⟨before, hbefore, hbuilt, hall⟩ := ih h
      refine ⟨entry :: before, List.cons_prefix_cons.mpr ⟨rfl, hbefore⟩, ?_, fun hstop => ?_⟩
      · rw [hrefuse, accepted, hu]
        simp only [hskip]
        exact hbuilt
      · rw [hrefuse] at hstop
        obtain ⟨rfl, hpairs⟩ := hall hstop
        exact ⟨rfl, List.forall_mem_cons.mpr ⟨⟨_, hu⟩, hpairs⟩⟩
    · refine ⟨[], List.nil_prefix, ?_, fun hstop => ?_⟩
      · rw [hends]
        exact h
      · rw [hends] at hstop
        cases hstop

/-- All entries are pairs whose ids can be shown. -/
def Legible (entries : List Json) : Prop :=
  ∀ entry ∈ entries, ∃ p, unpack entry = .ok p ∧ p.1.isWritable = true

instance (entries : List Json) : Decidable (Legible entries) :=
  decidable_of_iff (∀ entry ∈ entries, ((unpack entry).toOption.map (·.1.isWritable)) = some true)
    (forall_congr' fun entry => imp_congr_right fun _ => by
      cases unpack entry with
      | error e => simp [Except.toOption]
      | ok p => simp [Except.toOption])

/-- Pairs whose ids can all be shown are taken in to the end. -/
theorem Follows.stopped_eq_none (hfollows : Follows add Holds) (t : τ) {entries : List Json}
    (h : Legible entries) : (ingest add t entries).stopped = none := by
  induction entries generalizing t with
  | nil => rfl
  | cons entry rest ih =>
    obtain ⟨⟨⟨id, content⟩, hu, hid⟩, hrest⟩ := List.forall_mem_cons.mp h
    have hreport : ∃ t' report,
        (if content.isEmpty then (t, skipped id) else add t id content) = (t', .ok report) := by
      split
      · exact ⟨t, _, congrArg (Prod.mk t) (report_of_isWritable hid _)⟩
      · obtain ⟨report, hreport⟩ : ∃ report, (add t id content).2 = .ok report :=
          hfollows.reports hid
        exact ⟨(add t id content).1, report, Prod.ext rfl hreport⟩
    obtain ⟨t', report, hadd⟩ := hreport
    simp only [ingest, hu, hadd]
    cases report <;> exact ih t' hrest

/-- What holds of the documents that are there, and of those that entries with a content give, holds
of all that are accepted. -/
theorem forall_accepted {P : Int → Text → Prop} {entries : List Json}
    (hgives : ∀ entry ∈ entries, ∀ id content doc text, unpack entry = .ok (id, content) →
      content.isEmpty = false → Gives id content doc text → P doc text)
    {docs : Collection} (hdocs : ∀ doc text, docs.get? doc = some text → P doc text) :
    ∀ doc text, (accepted docs entries).get? doc = some text → P doc text := by
  induction entries generalizing docs with
  | nil => exact hdocs
  | cons entry rest ih =>
    obtain ⟨hentry, hrest⟩ := List.forall_mem_cons.mp hgives
    rw [accepted]
    split
    · next id content hu =>
      refine ih hrest fun doc text hdoc => ?_
      unfold accept at hdoc
      split at hdoc
      · exact hdocs doc text hdoc
      · next hcontent =>
        split at hdoc
        · next doc' text' hid htext =>
          split at hdoc
          · exact hdocs doc text hdoc
          · rw [Table.get?_set] at hdoc
            split at hdoc
            · next heq =>
              cases hdoc
              rw [heq]
              exact hentry id content doc' text hu (Bool.eq_false_iff.mpr hcontent) ⟨hid, htext⟩
            · exact hdocs doc text hdoc
        · exact hdocs doc text hdoc
    · exact hdocs

/-- A text that is accepted has no pair. -/
theorem hasPair_of_accepted {entries : List Json} {doc : Int} {text : Text}
    (h : (accepted .empty entries).get? doc = some text) : hasPair text = false :=
  forall_accepted (P := fun _ text => hasPair text = false)
    (fun _ _ _ _ _ _ _ _ hgives => hgives.hasPair) (fun _ _ hnone => by cases hnone) doc text h

/-- Pairs whose ids can be shown give ids that can be written. -/
theorem isWritable_of_accepted {entries : List Json} (h : Legible entries) {doc : Int} {text : Text}
    (hdoc : (accepted .empty entries).get? doc = some text) : isWritable doc = true := by
  refine forall_accepted (P := fun doc _ => isWritable doc = true)
    (fun entry hentry id content doc text hu _ hgives => ?_) (fun _ _ hnone => by cases hnone)
    doc text hdoc
  obtain ⟨p, hp, hid⟩ := h entry hentry
  cases hu.symm.trans hp
  exact Json.isWritable_of_toInteger hgives.1 hid

end Ingestion

end Concordance
