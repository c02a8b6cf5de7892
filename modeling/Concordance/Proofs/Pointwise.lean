import Concordance.Proofs.Nesting

/-!
# What a query looks at

Whether a query finds a document depends on that document alone, and of the index only
on which of the words of the query have it: two documents, of two indexes, that are in
the postings of the same words are both found or both left out. A query that takes
nothing out finds no less in an index that holds more.
-/
namespace Concordance

namespace Symbol

/-- A token is a parenthesis, a connective in one of its spellings, or a word that is looked up. -/
theorem ofToken_eq (token : Text) :
    ofToken token = .opening ∨ ofToken token = .closing ∨
      (∃ op : Operator, op.Spells token ∧ ofToken token = .connective op) ∨
        ∃ w : SearchWord, w.text = token ∧ ofToken token = .word token := by
  by_cases hopening : token = [.char '(']
  · rw [hopening]
    exact .inl ofToken_opening
  by_cases hclosing : token = [.char ')']
  · rw [hclosing]
    exact .inr (.inl ofToken_closing)
  by_cases hkeyword : ∃ op : Operator, op.Spells token
  · obtain ⟨op, hop⟩ := hkeyword
    exact .inr (.inr (.inl ⟨op, hop, ofToken_connective ⟨op, token, hop⟩⟩))
  · let w : SearchWord := ⟨token, hopening, hclosing, not_exists.mp hkeyword⟩
    exact .inr (.inr (.inr ⟨w, rfl, ofToken_word w⟩))

theorem spells_of_ofToken {token : Text} {op : Operator} (h : ofToken token = .connective op) :
    op.Spells token := by
  rcases ofToken_eq token with h' | h' | ⟨op', hop, h'⟩ | ⟨w, -, h'⟩ <;> rw [h'] at h <;> cases h
  exact hop

theorem exists_searchWord_of_ofToken {token w : Text} (h : ofToken token = .word w) :
    ∃ s : SearchWord, s.text = token ∧ w = token := by
  rcases ofToken_eq token with h' | h' | ⟨op, -, h'⟩ | ⟨s, hs, h'⟩ <;> rw [h'] at h <;> cases h
  exact ⟨s, hs, rfl⟩

end Symbol

theorem mem_of_mem_beforeEnd {n : Nat} {tokens : List Text} {token : Text}
    (h : token ∈ beforeEnd n tokens) : token ∈ tokens := by
  rcases beforeEnd_eq_or n tokens with hall | ⟨rest, hrest, -⟩
  · rwa [hall] at h
  · rw [hrest]
    exact List.mem_append_left _ h

/-- To close what a query leaves open adds closing parentheses and nothing else. -/
theorem mem_beforeEnd_of_mem_closed {n : Nat} {tokens : List Text} {token : Text}
    (h : token ∈ closed n tokens) (hclosing : token ≠ [.char ')']) :
    token ∈ beforeEnd n tokens := by
  rcases List.mem_append.mp h with hread | hadded
  · exact hread
  · exact absurd (List.eq_of_mem_replicate hadded) hclosing

section Alike

variable {R : DocSet → DocSet → Prop} {f g : Text → Except Failure DocSet}

/-- An evaluation keeps a relation that is kept by the connectives among the tokens that are read,
and that holds of the sets of the words among them. -/
theorem evaluate_alike_of_read (hempty : R .empty .empty) (limit : DepthLimit) {tokens : List Text}
    (hkeeps : ∀ token ∈ beforeEnd 0 tokens, ∀ op : Operator, op.Spells token → op.Keeps R)
    (hlookup : ∀ w : SearchWord, w.text ∈ beforeEnd 0 tokens →
      ∃ s t, f w.text = .ok s ∧ g w.text = .ok t ∧ R s t) :
    Alike R (.tooDeep limit.shown) (evaluate f limit tokens) (evaluate g limit tokens) := by
  rw [evaluate, evaluate, evaluateGroup, evaluateGroup]
  split
  · exact .error
  rw [evaluateFrom_closed f, evaluateFrom_closed g]
  refine .fst (evaluateFrom_alike hempty limit (fun op hop => ?_) (fun w hw => ?_) 0 .nil
    Level.tied_start)
  · obtain ⟨token, hmem, htoken⟩ := List.mem_map.mp hop
    have hclosing : token ≠ [.char ')'] := by
      rintro rfl
      cases htoken
    exact hkeeps token (mem_beforeEnd_of_mem_closed hmem hclosing) op
      (Symbol.spells_of_ofToken htoken)
  · obtain ⟨token, hmem, htoken⟩ := List.mem_map.mp hw
    obtain ⟨s, rfl, rfl⟩ := Symbol.exists_searchWord_of_ofToken htoken
    exact hlookup s (mem_beforeEnd_of_mem_closed hmem s.not_closing)

end Alike

section Pointwise

variable (stem : Text → Text) (postings postings' : Text → DocSet) (limit : DepthLimit)
  (tokens : List Text)

/-- A document that is in the postings of no word that is read is not found. -/
theorem not_mem_of_evaluate {d : Int}
    (h : ∀ w : SearchWord, w.text ∈ beforeEnd 0 tokens → d ∉ postings (stem w.text))
    {docs : DocSet} (hdocs : evaluate (fun w => .ok (postings (stem w))) limit tokens = .ok docs) :
    d ∉ docs := by
  have hR := compatible_not_mem d
  have halike := evaluate_alike_of_read (R := fun s _ => d ∉ s) hR.empty limit
    (f := fun w => .ok (postings (stem w))) (g := fun w => .ok (postings (stem w)))
    (fun _ _ op _ => hR.keeps op) (fun w hw => ⟨_, _, rfl, rfl, h w hw⟩)
  rw [hdocs] at halike
  cases halike with
  | ok hd => exact hd

/-- Where the words that are read have one document in one index as they have another document in
another index, a query fails in both or in neither, and it finds both documents or neither. What a
query finds is in the postings of one of the words that are read. -/
theorem evaluate_pointwise :
    (∀ d e : Int,
      (∀ w : SearchWord, w.text ∈ beforeEnd 0 tokens →
        (d ∈ postings (stem w.text) ↔ e ∈ postings' (stem w.text))) →
      Alike (fun s t => d ∈ s ↔ e ∈ t) (.tooDeep limit.shown)
        (evaluate (fun w => .ok (postings (stem w))) limit tokens)
        (evaluate (fun w => .ok (postings' (stem w))) limit tokens)) ∧
      ∀ docs, evaluate (fun w => .ok (postings (stem w))) limit tokens = .ok docs →
        ∀ d ∈ docs, ∃ w : SearchWord, w.text ∈ beforeEnd 0 tokens ∧ d ∈ postings (stem w.text) := by
  constructor
  · intro d e h
    have hR := compatible_mem d e
    exact evaluate_alike_of_read hR.empty limit (fun _ _ op _ => hR.keeps op)
      (fun w hw => ⟨_, _, rfl, rfl, h w hw⟩)
  · intro docs hdocs d hd
    by_contra hnone
    push Not at hnone
    exact not_mem_of_evaluate stem postings limit tokens hnone hdocs hd

end Pointwise

/-- The theorem at a query with a word behind its end, which only one of the two documents has. -/
theorem evaluate_pointwise_unread_word :
    let tokens := ["cat".toText, "Not".toText, [.char '('], "dog".toText, "bird".toText,
      [.char ')'], [.char ')'], "fish".toText]
    let postings (t : Text) : DocSet :=
      if t = "cat".toText then .ofList [1, 2] else if t = "bird".toText then .ofList [2]
      else if t = "fish".toText then .ofList [1] else .empty
    let postings' (t : Text) : DocSet := if t = "cat".toText then .ofList [7] else .empty
    (∀ w : SearchWord, w.text ∈ beforeEnd 0 tokens →
        (1 ∈ postings w.text ↔ 7 ∈ postings' w.text)) ∧
      Alike (fun s t => 1 ∈ s ↔ 7 ∈ t) (.tooDeep ['5'])
        (evaluate (fun w => .ok (postings w)) ⟨5, ['5']⟩ tokens)
        (evaluate (fun w => .ok (postings' w)) ⟨5, ['5']⟩ tokens) := by
  intro tokens postings postings'
  have hread : ∀ token ∈ beforeEnd 0 tokens, (1 ∈ postings token ↔ 7 ∈ postings' token) := by
    decide +kernel
  have hwords (w : SearchWord) (hw : w.text ∈ beforeEnd 0 tokens) := hread w.text hw
  exact ⟨hwords, (evaluate_pointwise id postings postings' ⟨5, ['5']⟩ tokens).1 1 7 hwords⟩

section Monotone

/-- The connectives that take nothing out find no less in sets that hold more. -/
theorem Operator.keeps_subset {op : Operator} (h : op ≠ .not) :
    op.Keeps fun s t => ∀ d ∈ s, d ∈ t := by
  intro s t s' t' hleft hright d hd
  cases op with
  | and =>
    rw [apply, DocSet.mem_inter] at hd ⊢
    exact ⟨hleft d hd.1, hright d hd.2⟩
  | or =>
    rw [apply, DocSet.mem_union] at hd ⊢
    exact hd.imp (hleft d) (hright d)
  | not => exact absurd rfl h

variable (stem : Text → Text) {postings postings' : Text → DocSet} (limit : DepthLimit)
  {tokens : List Text}

/-- A query in which nothing spells the connective that takes documents out fails in an index
exactly when it fails in one that has every document under the same terms and more, and it finds no
less there. Its parentheses, and the places of its connectives, may be any. -/
theorem evaluate_mono (hpostings : ∀ t, ∀ d ∈ postings t, d ∈ postings' t)
    (hnot : ∀ token ∈ tokens, ¬Operator.not.Spells token) :
    Alike (fun s t => ∀ d ∈ s, d ∈ t) (.tooDeep limit.shown)
      (evaluate (fun w => .ok (postings (stem w))) limit tokens)
      (evaluate (fun w => .ok (postings' (stem w))) limit tokens) := by
  refine evaluate_alike_of_read (fun _ hd => hd) limit (fun token htoken op hspells => ?_)
    (fun w _ => ⟨_, _, rfl, rfl, hpostings (stem w.text)⟩)
  refine Operator.keeps_subset ?_
  rintro rfl
  exact hnot token (mem_of_mem_beforeEnd htoken) hspells

/-- The theorem at a query with words side by side, connectives that are left without a word and a
group that is not closed. -/
theorem evaluate_mono_open_group :
    let tokens := ["or".toText, "cat".toText, "dog".toText, [.char '('], "bird".toText,
      "and".toText, "OR".toText, "cat".toText, "And".toText]
    let postings (t : Text) : DocSet := if t = "cat".toText then .ofList [1] else .empty
    let postings' (t : Text) : DocSet :=
      if t = "cat".toText then .ofList [1, 2] else .ofList [3]
    (∀ t, ∀ d ∈ postings t, d ∈ postings' t) ∧
      (∀ token ∈ tokens, ¬Operator.not.Spells token) ∧
      Alike (fun s t => ∀ d ∈ s, d ∈ t) (.tooDeep ['1'])
        (evaluate (fun w => .ok (postings w)) ⟨1, ['1']⟩ tokens)
        (evaluate (fun w => .ok (postings' w)) ⟨1, ['1']⟩ tokens) := by
  intro tokens postings postings'
  have hpostings (t : Text) : ∀ d ∈ postings t, d ∈ postings' t := by
    intro d hd
    simp only [postings, postings'] at hd ⊢
    split at hd
    · next hcat =>
      rw [DocSet.mem_ofList, List.mem_singleton] at hd
      rw [if_pos hcat, hd]
      decide
    · exact absurd hd (DocSet.not_mem_empty d)
  have hnot : ∀ token ∈ tokens, ¬Operator.not.Spells token := by decide +kernel
  exact ⟨hpostings, hnot, evaluate_mono id ⟨1, ['1']⟩ hpostings hnot⟩

end Monotone

end Concordance
