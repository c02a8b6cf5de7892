import Concordance.Proofs.CachedIndex

/-!
# Arguments that are taken as they are given

An argument for the dataset is read as a choice. It is the path of a file if it is a plain
text and no reference; letters, digits, points, dashes, underscores and slashes are plain,
unless they write a number, a truth value or nothing. Any other argument names no file, or
another one than it seems to name.
-/
namespace Concordance

namespace Choice

variable {t : Text} {c : CodePoint}

/-- The characters of ordinary paths. -/
def isOrdinary (c : CodePoint) : Bool := c.isAlphanum || "_-./".toText.contains c

theorem ne_of_isOrdinary (h : isOrdinary c = true) {d : CodePoint} (hd : isOrdinary d = false) :
    c ≠ d := by
  rintro rfl
  rw [h] at hd
  cases hd

theorem isPlain_of_isOrdinary (h : isOrdinary c = true) : isPlain false c = true := by
  have hsub : ∀ d ∈ "_-./".toText, d ∈ "_/-\\+.$%*@?|".toText := by decide
  rw [isOrdinary, Bool.or_eq_true, List.contains_iff_mem] at h
  obtain h | h := h
  · simp [isPlain, h]
  · simp [isPlain, hsub c h]

theorem isGap_of_isOrdinary (h : isOrdinary c = true) : isGap c = false := by
  simp [isGap, ne_of_isOrdinary h (d := ' ') (by decide),
    ne_of_isOrdinary h (d := '\t') (by decide)]

/-- Ordinary characters are read one by one. -/
theorem plainChars_of_isOrdinary (h : ∀ c ∈ t, isOrdinary c = true) :
    plainChars false false t = some (t.map fun c => (c, false), []) := by
  induction t with
  | nil => rfl
  | cons c t ih =>
    obtain ⟨hc, ht⟩ := List.forall_mem_cons.mp h
    have hdollar := ne_of_isOrdinary hc (d := '$') (by decide)
    have hslash := ne_of_isOrdinary hc (d := '\\') (by decide)
    rw [plainChars, if_pos (isPlain_of_isOrdinary hc), ih ht]
    · rfl
    · exact fun _ heq _ => hdollar heq
    · exact fun _ _ heq _ => hslash heq

theorem skipGaps_of_isOrdinary (h : ∀ c ∈ t, isOrdinary c = true) : skipGaps t = t := by
  cases t with
  | nil => rfl
  | cons c t =>
    rw [skipGaps, List.dropWhile_cons_of_neg]
    simp [isGap_of_isOrdinary (h c (.head _))]

theorem trimmed_of_isOrdinary (h : ∀ c ∈ t, isOrdinary c = true) :
    trimmed (t.map fun c => (c, false)) = t.map fun c => (c, false) := by
  have hdrop {l : List CodePoint} (hl : ∀ c ∈ l, isOrdinary c = true) :
      (l.map fun c => (c, false)).dropWhile (fun e => isGap e.1 && !e.2) =
        l.map fun c => (c, false) := by
    cases l with
    | nil => rfl
    | cons c l =>
      rw [List.map_cons, List.dropWhile_cons_of_neg]
      simp [isGap_of_isOrdinary (hl c (.head _))]
  rw [trimmed, hdrop h, ← List.map_reverse, hdrop fun c hc => h c (List.mem_reverse.mp hc),
    ← List.map_reverse, List.reverse_reverse]

/-- An ordinary text stands for itself, unless it is a number, a truth value or nothing. -/
theorem ofText?_of_isOrdinary (hne : t ≠ []) (h : ∀ c ∈ t, isOrdinary c = true)
    (hscalar : isScalar t = false) : ofText? t = some (.text t) := by
  have hvalue (fuel : Nat) : readValue (fuel + 1) t = some (.text t, []) := by
    obtain ⟨c, rest, rfl⟩ := List.exists_cons_of_ne_nil hne
    have hc := h c (.head _)
    have hquote := ne_of_isOrdinary hc (d := '\'') (by decide)
    have hquotes := ne_of_isOrdinary hc (d := '"') (by decide)
    have hbracket := ne_of_isOrdinary hc (d := '[') (by decide)
    have hbrace := ne_of_isOrdinary hc (d := '\x7b') (by decide)
    have hchars : (((c :: rest).map fun c => (c, false)).map Prod.fst) = c :: rest := by
      rw [List.map_map]
      exact List.map_id _
    simp only [readValue, skipGaps_of_isOrdinary h, hquote, hquotes, hbracket, hbrace,
      decide_false, Bool.or_self, Bool.false_eq_true, if_false, plainChars_of_isOrdinary h,
      trimmed_of_isOrdinary h, Option.bind_eq_bind, Option.bind_some]
    rw [ofPlain, hchars, hscalar, Bool.and_false]
    rfl
  have hall : readAll t.length t = some [.text t] := by
    obtain ⟨c, rest, rfl⟩ := List.exists_cons_of_ne_nil hne
    rw [List.length_cons, readAll, hvalue]
    rfl
  have hfull : (skipGaps t).isEmpty = false := by
    rw [skipGaps_of_isOrdinary h]
    simpa using hne
  rw [ofText?, hfull, hall]
  rfl

end Choice

namespace Configuration

variable {around : Surroundings} {backend dataset : Json} {p : Backend} {file : Text}

/-- The file that an argument names: the usual one if it is empty, and else the text itself, if it
is read as a text that is neither a reference nor a mark for something left open. -/
inductive NamesFile (around : Surroundings) : Json → Text → Prop where
  | usual {dataset : Json} (empty : dataset.isEmpty = true) :
    NamesFile around dataset around.dataset
  | given {file : Text} (full : file ≠ []) (text : Choice.ofText? file = some (.text file))
      (path : pathOf (.text file) = .ok (.ofText file)) : NamesFile around (.str file) file

/-- The backend that an argument names: the usual one if it is empty. -/
inductive NamesBackend : Json → Backend → Prop where
  | usual {backend : Json} (empty : backend.isEmpty = true) : NamesBackend backend .memory
  | given (p : Backend) : NamesBackend (.str p.name) p

theorem isReference_of_isOrdinary {t : Text} (h : ∀ c ∈ t, Choice.isOrdinary c = true) :
    isReference t = false := by
  induction t with
  | nil => rfl
  | cons c t ih =>
    obtain ⟨hc, ht⟩ := List.forall_mem_cons.mp h
    simp [isReference, Choice.ne_of_isOrdinary hc (d := '$') (by decide), ih ht]

/-- An ordinary path names a file. -/
theorem namesFile_of_isOrdinary (around : Surroundings) (hne : file ≠ [])
    (h : ∀ c ∈ file, Choice.isOrdinary c = true) (hscalar : Choice.isScalar file = false) :
    NamesFile around (.str file) file := by
  refine .given hne (Choice.ofText?_of_isOrdinary hne h hscalar) ?_
  have hopen : (Json.str file).isOpen = false := by
    rw [Json.isOpen, decide_eq_false_iff_not]
    rintro rfl
    cases h '?' (.head _)
  rw [pathOf, hopen, isReference_of_isOrdinary h]
  rfl

theorem choiceOf_of_text {t : Text} (hne : t ≠ []) {choice : Choice}
    (h : Choice.ofText? t = some choice) : choiceOf (.str t) = .ok (some choice) := by
  have hfull : (Json.str t).isEmpty = false := by
    rw [Json.isEmpty]
    simpa using hne
  have hshown : (Json.str t).shown = .ok t := rfl
  rw [choiceOf, hfull, hshown]
  simp only [Bool.false_eq_true, if_false, ok_bind, h]
  rfl

/-- A backend and a file that are named are chosen. -/
theorem choose_of_names (hbackend : NamesBackend backend p)
    (hfile : NamesFile around dataset file) :
    choose around backend dataset =
      .ok ⟨[p], .ok (.ofText file), .ofText around.folder⟩ := by
  have hkind : ∃ kind, choiceOf backend = .ok kind ∧ isSeveral kind = false ∧
      Backend.chosen (kind.getD (.text Settings.memoryBackend)) = .ok [p] := by
    cases hbackend with
    | usual empty => exact ⟨none, by rw [choiceOf, if_pos empty], rfl, rfl⟩
    | given p => cases p <;> exact ⟨_, rfl, rfl, rfl⟩
  have hsource : ∃ source, choiceOf dataset = .ok source ∧ isSeveral source = false ∧
      (source.map pathOf).getD (.ok (.ofText around.dataset)) = .ok (.ofText file) := by
    cases hfile with
    | usual empty => exact ⟨none, by rw [choiceOf, if_pos empty], rfl, rfl⟩
    | given full text path => exact ⟨_, choiceOf_of_text full text, rfl, path⟩
  obtain ⟨kind, hkind, hone, hchosen⟩ := hkind
  obtain ⟨source, hsource, hone', hpath⟩ := hsource
  rw [choose, hkind, ok_bind, hsource, ok_bind, hone, hone']
  simp only [Bool.or_self, Bool.false_eq_true, if_false, hchosen, ok_bind]
  rw [hpath]
  rfl

end Configuration

end Concordance
