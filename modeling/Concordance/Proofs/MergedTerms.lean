import Concordance.Proofs.Persistence
import Concordance.Proofs.Ranking

/-!
# Terms that are read as one

Terms that differ only in pairs are one term where they are written in text and read
again, and it has the postings of one of them. So what a loaded index tells of a term is
what the created one tells of some term, unless the term is nowhere. Whatever holds of
the terms one by one is not lost.
-/
namespace Concordance

namespace IndexView

/-- What a view tells of a term is what another one tells of some term, or the term is nowhere. Of
documents both tell the same. -/
structure DrawsOn (v u : IndexView) : Prop where
  length : v.length = u.length
  documentCount : v.documentCount = u.documentCount
  content : v.content = u.content
  documents : v.documents = u.documents
  terms : ∀ term,
    ((v.frequency term = fun _ => .ok 0) ∧ v.documentFrequency term = .ok 0 ∧
        v.postings term = .ok .empty) ∨
      ∃ source, v.frequency term = u.frequency source ∧
        v.documentFrequency term = u.documentFrequency source ∧
        v.postings term = u.postings source

namespace DrawsOn

variable {v u : IndexView}

theorem refl (v : IndexView) : v.DrawsOn v where
  length := rfl
  documentCount := rfl
  content := rfl
  documents := rfl
  terms term := .inr ⟨term, rfl, rfl, rfl⟩

theorem sound (h : v.DrawsOn u) (hu : u.toCounts.Sound) : v.toCounts.Sound where
  share term doc := by
    obtain ⟨hfrequency, -⟩ | ⟨source, hfrequency, -⟩ := h.terms term
    · obtain ⟨n, hn⟩ := hu.length doc
      exact ⟨0, n, by rw [hfrequency]; rfl, by rw [h.length, hn], Nat.zero_le _⟩
    · rw [hfrequency, h.length]
      exact hu.share source doc
  spread term := by
    obtain ⟨-, hhaving, -⟩ | ⟨source, -, hhaving, -⟩ := h.terms term
    · obtain ⟨n, total, -, htotal, -⟩ := hu.spread term
      exact ⟨0, total, by rw [hhaving]; rfl, by rw [h.documentCount, htotal], Nat.zero_le _⟩
    · rw [hhaving, h.documentCount]
      exact hu.spread source
  length doc := by
    rw [h.length]
    exact hu.length doc
  bounded total htotal := by
    rw [h.documentCount] at htotal
    exact hu.bounded total htotal

/-- What holds of all postings of a view, and of none, holds of all postings of one that draws on
it. -/
theorem forall_postings (h : v.DrawsOn u) {P : DocSet → Prop}
    (hu : ∀ term, ∃ s, u.postings term = .ok s ∧ P s) (hnone : P .empty) :
    ∀ term, ∃ s, v.postings term = .ok s ∧ P s := by
  intro term
  obtain ⟨-, -, hpostings⟩ | ⟨source, -, -, hpostings⟩ := h.terms term
  · exact ⟨.empty, hpostings, hnone⟩
  · rw [hpostings]
    exact hu source

end DrawsOn

end IndexView

/-- Tables that are read tell of a term what those tell of some term that were written. -/
theorem Tables.drawsOn_reread (form : Form) (t : Tables) :
    (MemoryIndex.viewOf (.all (t.reread form))).DrawsOn (MemoryIndex.viewOf (.all t)) where
  length := rfl
  documentCount := rfl
  content := rfl
  documents := rfl
  terms term := by
    obtain hnone | ⟨source, -, hsource⟩ := InvertedIndex.postings?_reread form t.terms term
    · refine .inl ⟨?_, ?_, ?_⟩
      all_goals
        simp only [MemoryIndex.viewOf, HeldTables.all, reread, InvertedIndex.frequency,
          InvertedIndex.documentFrequency, InvertedIndex.docSet, hnone]
        rfl
    · refine .inr ⟨source, ?_, ?_, ?_⟩
      all_goals
        simp only [MemoryIndex.viewOf, HeldTables.all, reread, InvertedIndex.frequency,
          InvertedIndex.documentFrequency, InvertedIndex.docSet, hsource]

namespace Index

variable {x y : Index} {s s' : IndexStorage} {path : Path} {now name : Text} {entries : List Json}

/-- What an index tells that is loaded where the files of a created one have been copied is what
that one tells, but for terms that are read as one. -/
theorem drawsOn_load (hkind : x.SameKind y)
    (h : (x.create s now (.str name) entries).failure = none)
    (hcopied : Storage.Copied (x.create s now (.str name) entries).storage (x.home.child name)
      s' path)
    (hload : (y.load s' path).failure = none) :
    (y.load s' path).index.view.DrawsOn (x.create s now (.str name) entries).index.view := by
  cases hkind with
  | memory x y =>
    have htables := MemoryIndex.tables_load_copied (y := y) h hcopied hload
    have hcreated := MemoryIndex.create_tables (x := x) h
    show (MemoryIndex.viewOf (y.load s' path).index.tables).DrawsOn
      (MemoryIndex.viewOf (x.create s now (.str name) entries).index.tables)
    rw [htables, hcreated]
    exact Tables.drawsOn_reread _ _
  | database x y =>
    have hview : (y.load s' path).index.view = (x.create s (.str name) entries).index.view :=
      DatabaseIndex.view_load h hcopied hload
    show (y.load s' path).index.view.DrawsOn (x.create s (.str name) entries).index.view
    rw [hview]
    exact .refl _

end Index

end Concordance
