import Concordance.Proofs.Except
import Concordance.Ranking
import Concordance.Stemmer

/-!
# Weights that are kept

The weight of a term is computed once and kept for the documents and words that follow.
The scores are those of a plain double loop that computes it anew every time, since what
is kept is what would be computed. Terms that occur in none of the documents are never
weighed.
-/
namespace Concordance

namespace Counts

section Loops

variable (c : Counts)

/-- Adds the share of a term to the score of a document of the given length, with the weight of the
term computed anew. -/
def addAfresh (doc length : Int) (score : Float) (term : Text) : Except Failure Float := do
  let f ← c.frequency term doc
  if f ≤ 0 then return score
  else
    let weight ← c.weight term
    let part ← ratio f length
    return score + part.toFloat * weight

/-- A document with its score for some words, the terms of which are told by `stem`. -/
def hitAfresh (stem : Text → Text) (words : List Text) (doc : Int) : Except Failure Hit := do
  let length := max (← c.length doc) 1
  let score ← words.foldlM (fun score word => c.addAfresh doc length score (stem word)) 0.0
  return ⟨doc, score⟩

/-- The documents of a list with their scores for some words, the best first. No weight is kept. -/
def scoreAfresh (stem : Text → Text) (docs : List Int) (words : List Text) :
    Except Failure (List Hit) := do
  let hits ← docs.mapM (c.hitAfresh stem words)
  return Hit.ranked hits

/-- A term occurs in one of the listed documents. -/
def OccursIn (docs : List Int) (term : Text) : Prop :=
  ∃ doc ∈ docs, ∃ f, c.frequency term doc = .ok f ∧ 0 < f

end Loops

variable {c : Counts}

section Kept

/-- The weights that are kept are those that would be computed. -/
def Knows (c : Counts) (known : Weights) : Prop :=
  ∀ term weight, known.lookup term = some weight → c.weight term = .ok weight

/-- An attempt that keeps weights comes to what another one comes to, and keeps correct weights. -/
inductive ComesTo (c : Counts) {α : Type} :
    Except Failure (α × Weights) → Except Failure α → Prop where
  | ok {a : α} {known : Weights} (h : c.Knows known) : ComesTo c (.ok (a, known)) (.ok a)
  | error {e : Failure} : ComesTo c (.error e) (.error e)

namespace ComesTo

variable {α β : Type} {kept : Except Failure (α × Weights)} {plain : Except Failure α}

/-- What is the same for every result and all correct weights is the same after both attempts. -/
theorem bind_eq (h : c.ComesTo kept plain) {f : α × Weights → Except Failure β}
    {g : α → Except Failure β} (hfg : ∀ a known, c.Knows known → f (a, known) = g a) :
    kept >>= f = plain >>= g := by
  cases h with
  | ok h => exact hfg _ _ h
  | error => rfl

theorem bind (h : c.ComesTo kept plain) {f : α × Weights → Except Failure (β × Weights)}
    {g : α → Except Failure β}
    (hfg : ∀ a known, c.Knows known → c.ComesTo (f (a, known)) (g a)) :
    c.ComesTo (kept >>= f) (plain >>= g) := by
  cases h with
  | ok h => exact hfg _ _ h
  | error => exact .error

/-- A step in front of both attempts that keeps no weights. -/
theorem after (x : Except Failure α) {f : α → Except Failure (β × Weights)}
    {g : α → Except Failure β} (hfg : ∀ a, c.ComesTo (f a) (g a)) :
    c.ComesTo (x >>= f) (x >>= g) := by
  cases x with
  | error e => exact .error
  | ok a => exact hfg a

end ComesTo

theorem knows_nil : c.Knows [] := nofun

variable {known : Weights}

theorem Knows.cons (h : c.Knows known) {term : Text} {weight : Float}
    (hweight : c.weight term = .ok weight) : c.Knows ((term, weight) :: known) := by
  intro term' weight' hlookup
  rw [List.lookup_cons] at hlookup
  split at hlookup
  · next heq => rw [eq_of_beq heq, hweight, Option.some.inj hlookup]
  · exact h term' weight' hlookup

theorem Knows.weightOnce (h : c.Knows known) (term : Text) :
    c.ComesTo (c.weightOnce known term) (c.weight term) := by
  rw [Counts.weightOnce]
  cases hlookup : known.lookup term with
  | some weight =>
    rw [h term weight hlookup]
    exact .ok h
  | none =>
    cases hweight : c.weight term with
    | error e => exact .error
    | ok weight => exact .ok (h.cons hweight)

/-- The scores of a document come to the same, and what is kept stays correct. -/
theorem Knows.addTerms (h : c.Knows known) (doc length : Int) (score : Float)
    (terms : List Text) :
    c.ComesTo (c.addTerms doc length known score terms)
      (terms.foldlM (c.addAfresh doc length) score) := by
  induction terms generalizing known score with
  | nil => exact .ok h
  | cons term rest ih =>
    rw [Counts.addTerms, List.foldlM_cons, addAfresh, bind_assoc]
    refine .after _ fun f => ?_
    by_cases hnone : f ≤ 0
    · rw [if_pos hnone, if_pos hnone]
      exact ih h score
    · rw [if_neg hnone, if_neg hnone, bind_assoc]
      refine (h.weightOnce term).bind fun weight known' h' => ?_
      rw [bind_assoc]
      exact .after _ fun part => ih h' _

theorem Knows.scoreEach (h : c.Knows known) (stem : Text → Text) (words : List Text)
    (docs : List Int) :
    c.scoreEach (words.map stem) known docs = docs.mapM (c.hitAfresh stem words) := by
  induction docs generalizing known with
  | nil => rfl
  | cons doc rest ih =>
    rw [Counts.scoreEach, List.mapM_cons, hitAfresh, bind_assoc]
    refine bind_congr fun n => ?_
    have hscore := h.addTerms doc (max n 1) 0.0 (words.map stem)
    rw [List.foldlM_map] at hscore
    rw [bind_assoc]
    refine hscore.bind_eq fun score known' h' => ?_
    simp only [ih h', pure_eq_ok, ok_bind]

end Kept

/-- To compute every weight anew gives the same scores, or the same failure. -/
theorem score_eq_afresh (c : Counts) (stem : Text → Text) (docs : List Int) (words : List Text) :
    c.score docs (words.map stem) = c.scoreAfresh stem docs words := by
  rw [score, knows_nil.scoreEach, scoreAfresh]
  cases docs.mapM (c.hitAfresh stem words) with
  | error e => rfl
  | ok hits => rfl

section Unasked

variable {df : Text → Except Failure Int}

theorem weight_congr {term : Text} (h : df term = c.documentFrequency term) :
    weight { c with documentFrequency := df } term = c.weight term := by
  simp only [weight, h]

/-- A term that occurs in no listed document is not weighed for any of them. -/
theorem hitAfresh_congr {docs : List Int}
    (h : ∀ term, c.OccursIn docs term → df term = c.documentFrequency term) (stem : Text → Text)
    (words : List Text) {doc : Int} (hdoc : doc ∈ docs) :
    hitAfresh { c with documentFrequency := df } stem words doc = c.hitAfresh stem words doc := by
  have hadd (length : Int) (score : Float) (term : Text) :
      addAfresh { c with documentFrequency := df } doc length score term =
        c.addAfresh doc length score term := by
    rw [addAfresh, addAfresh]
    cases hf : c.frequency term doc with
    | error e => rfl
    | ok f =>
      simp only [ok_bind]
      by_cases hnone : f ≤ 0
      · rw [if_pos hnone, if_pos hnone]
      · rw [if_neg hnone, if_neg hnone, weight_congr (h term ⟨doc, hdoc, f, hf, by omega⟩)]
  simp only [hitAfresh, hadd]

theorem scoreAfresh_congr {docs : List Int}
    (h : ∀ term, c.OccursIn docs term → df term = c.documentFrequency term) (stem : Text → Text)
    (words : List Text) :
    scoreAfresh { c with documentFrequency := df } stem docs words =
      c.scoreAfresh stem docs words := by
  rw [scoreAfresh, scoreAfresh, mapM_congr fun doc hdoc => hitAfresh_congr h stem words hdoc]

end Unasked

/-- The scores, or the failure, are those of the loop over the documents and the words that computes
every weight anew, and none of it depends on how many documents have a term that occurs in none of
the listed ones. -/
theorem score_eq_scoreAfresh (c : Counts) (stem : Text → Text) (docs : List Int)
    (words : List Text) :
    c.score docs (words.map stem) = c.scoreAfresh stem docs words ∧
      ∀ df : Text → Except Failure Int,
        (∀ term, c.OccursIn docs term → df term = c.documentFrequency term) →
          score { c with documentFrequency := df } docs (words.map stem) =
            c.score docs (words.map stem) := by
  refine ⟨score_eq_afresh c stem docs words, fun df h => ?_⟩
  rw [score_eq_afresh, score_eq_afresh, scoreAfresh_congr h]

/-- The theorem at two words with one term, a document that is listed twice, and a term of which it
cannot be told how many documents have it. -/
theorem score_eq_scoreAfresh_two_forms :
    let c : Counts :=
      { frequency := fun term doc => .ok (if term = "cat".toText ∧ doc = 1 then 2 else 0)
        length := fun _ => .ok 4
        documentFrequency := fun _ => .ok 1
        documentCount := .ok 3 }
    let df (term : Text) : Except Failure Int :=
      if term = "dog".toText then .error .notLoaded else .ok 1
    let words : List Text := [['c', 'a', 't', 's'], ['d', 'o', 'g'], ['c', 'a', 't']]
    c.score [2, 1, 1] (words.map Stemmer.suffix.stem) =
        c.scoreAfresh Stemmer.suffix.stem [2, 1, 1] words ∧
      score { c with documentFrequency := df } [2, 1, 1] (words.map Stemmer.suffix.stem) =
        c.score [2, 1, 1] (words.map Stemmer.suffix.stem) := by
  intro c df words
  have hdf : ∀ term, c.OccursIn [2, 1, 1] term → df term = c.documentFrequency term := by
    rintro term ⟨doc, -, f, hf, hpos⟩
    have hterm : term ≠ "dog".toText := by
      rintro rfl
      cases hf
      contradiction
    exact if_neg hterm
  obtain ⟨hafresh, hunasked⟩ := score_eq_scoreAfresh c Stemmer.suffix.stem [2, 1, 1] words
  exact ⟨hafresh, hunasked df hdf⟩

end Counts

end Concordance
