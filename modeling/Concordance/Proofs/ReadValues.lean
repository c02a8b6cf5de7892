import Concordance.Json.Reader
import Concordance.Proofs.Decimal
import Concordance.Proofs.RestoredValues
import Mathlib.Data.List.TakeDrop
import Mathlib.Data.List.TakeWhile

/-!
# Values that are read

A text of characters gives values that are written and read again as they are. Two escapes
of the halves of a pair are read as one character, so no text that is read has a pair. An
integer of too many digits is refused, and of two members with one name one is kept.
-/
namespace Concordance.Json

variable {t rest : Text}

/-- A value without integers of too many digits and without pairs, in which no object has two
members with one name. -/
inductive IsStable : Json → Prop where
  | null : IsStable .null
  | bool (b : Bool) : IsStable (.bool b)
  | int {n : Int} (h : Concordance.isWritable n = true) : IsStable (.int n)
  | float (x : Float) : IsStable (.float x)
  | str {t : Text} (h : hasPair t = false) : IsStable (.str t)
  | arr {items : List Json} (h : ∀ v ∈ items, IsStable v) : IsStable (.arr items)
  | obj {members : List (Text × Json)} (distinct : (members.map Prod.fst).Nodup)
      (names : ∀ m ∈ members, hasPair m.1 = false) (values : ∀ m ∈ members, IsStable m.2) :
      IsStable (.obj members)

namespace IsStable

variable {v : Json}

/-- A stable value is read as it is written. -/
theorem restored (h : v.IsStable) : v.restored = v := by
  induction h with
  | str h => exact congrArg Json.str (paired_of_hasPair_eq_false h)
  | arr _ ih => rw [restored_arr, List.map_congr_left ih, List.map_id']
  | obj distinct names _ ih =>
    rw [restored_obj_of_names names distinct,
      List.map_congr_left fun m hm => congrArg (Prod.mk m.1) (ih m hm), List.map_id']
  | _ => rfl

/-- A stable value can be written. -/
theorem isWritable (h : v.IsStable) : v.isWritable = true := by
  induction h with
  | int h => exact h
  | arr _ ih => rwa [isWritable_arr, List.all_eq_true]
  | obj _ _ _ ih => rwa [isWritable_obj, List.all_eq_true]
  | _ => rfl

end IsStable

/-- The members of a stable object. -/
structure AreStable (members : List (Text × Json)) : Prop where
  distinct : (members.map Prod.fst).Nodup
  names : ∀ m ∈ members, hasPair m.1 = false
  values : ∀ m ∈ members, m.2.IsStable

theorem AreStable.obj {members : List (Text × Json)} (h : AreStable members) :
    (Json.obj members).IsStable :=
  .obj h.distinct h.names h.values

theorem areStable_nil : AreStable [] := ⟨List.nodup_nil, by simp, by simp⟩

/-- A member takes the place of the one that has its name, or comes last. -/
theorem AreStable.setMember {members : List (Text × Json)} (h : AreStable members) {name : Text}
    (hname : hasPair name = false) {v : Json} (hv : v.IsStable) :
    AreStable (setMember name v members) := by
  have hmem {m : Text × Json} (hm : m ∈ Json.setMember name v members) :
      m = (name, v) ∨ m ∈ members := by
    clear h
    induction members with
    | nil => exact .inl (List.mem_singleton.mp hm)
    | cons m' rest ih =>
      rw [Json.setMember] at hm
      split at hm
      · next hsame =>
        rw [hsame] at hm
        exact (List.mem_cons.mp hm).imp_right (List.mem_cons_of_mem _)
      · obtain rfl | hm := List.mem_cons.mp hm
        · exact .inr (.head _)
        · exact (ih hm).imp_right (List.mem_cons_of_mem _)
  constructor
  · rw [setMember_eq_setEntry]
    exact Table.nodup_setEntry name v h.distinct
  · intro m hm
    obtain rfl | hm := hmem hm
    · exact hname
    · exact h.names m hm
  · intro m hm
    obtain rfl | hm := hmem hm
    · exact hv
    · exact h.values m hm

section Strings

/-- What is read of a string has no pair, and begins with a half only if that is escaped. -/
structure ReadsString (t s rest : Text) : Prop where
  suffix : rest <:+ t
  pairs : hasPair s = false
  escaped : ∀ c, s.head? = some c → c.isHalf = true →
    ∃ (d₁ d₂ d₃ d₄ : CodePoint) (after : Text) (n : Nat),
      t = .char '\\' :: .char 'u' :: d₁ :: d₂ :: d₃ :: d₄ :: after ∧
      hexNumber? d₁ d₂ d₃ d₄ = some n ∧ c = .ofNat n

theorem isHalf_of_simpleEscape? {e c : CodePoint} (h : simpleEscape? e = some c) :
    c.isHalf = false := by
  unfold simpleEscape? at h
  split at h <;> cases h <;> rfl

/-- A code point that is no half, in front of a string that is read. -/
theorem ReadsString.cons {t s rest : Text} (h : ReadsString t s rest) (front : Text)
    {c : CodePoint} (hc : c.isHalf = false) : ReadsString (front ++ t) (c :: s) rest where
  suffix := h.suffix.trans (List.suffix_append front t)
  pairs := by
    rw [hasPair_cons, h.pairs, Bool.or_false]
    cases c with
    | half n => cases hc
    | char c =>
      cases s.head? with
      | none => rfl
      | some d => exact isPair_char_left c d
  escaped d hd hhalf := by
    cases hd
    rw [hc] at hhalf
    cases hhalf

/-- A code point that is escaped, in front of a string that is read, is no high half before an
escaped low one. -/
theorem ReadsString.cons_escaped {t s rest : Text} (h : ReadsString t s rest)
    {d₁ d₂ d₃ d₄ : CodePoint} {n : Nat} (hn : hexNumber? d₁ d₂ d₃ d₄ = some n)
    (hsingle : ∀ (e₁ e₂ e₃ e₄ : CodePoint) (after : Text) (m : Nat),
      t = .char '\\' :: .char 'u' :: e₁ :: e₂ :: e₃ :: e₄ :: after →
      hexNumber? e₁ e₂ e₃ e₄ = some m → isPair (.ofNat n) (.ofNat m) = false) :
    ReadsString ('\\' :: 'u' :: d₁ :: d₂ :: d₃ :: d₄ :: t) (.ofNat n :: s) rest where
  suffix := h.suffix.trans (List.suffix_append (['\\', 'u', d₁, d₂, d₃, d₄] : Text) t)
  pairs := by
    rw [hasPair_cons, h.pairs, Bool.or_false]
    cases hhead : s.head? with
    | none => rfl
    | some c =>
      refine Bool.eq_false_iff.mpr fun hpair => ?_
      have hlow := (Bool.and_eq_true_iff.mp hpair).2
      obtain ⟨e₁, e₂, e₃, e₄, after, m, ht, hm, rfl⟩ :=
        h.escaped c hhead (isHalf_of_isLowSurrogate hlow)
      exact absurd hpair (Bool.eq_false_iff.mp (hsingle e₁ e₂ e₃ e₄ after m ht hm))
  escaped c hc _ := by
    cases hc
    exact ⟨d₁, d₂, d₃, d₄, t, n, rfl, hn, rfl⟩

theorem isPair_ofNat {m n : Nat} (h : (isHighSurrogate m && isLowSurrogate n) = false) :
    isPair (.ofNat m) (.ofNat n) = false := by
  rw [isPair]
  obtain hm | hm := CodePoint.toNat_ofNat m
  · obtain hn | hn := CodePoint.toNat_ofNat n
    · rw [hm, hn, h]
    · rw [hn]
      exact Bool.and_false _
  · rw [hm]
    rfl

theorem readsString {t s rest : Text} (ht : ∀ c ∈ t, c.isHalf = false)
    (h : readString t = some (s, rest)) : ReadsString t s rest := by
  induction t using readString.induct generalizing s rest with
  | case1 => cases h
  | case2 after =>
    cases h
    exact ⟨List.suffix_cons _ _, rfl, nofun⟩
  | case3 d₁ d₂ d₃ d₄ e₁ e₂ e₃ e₄ after ih ih' =>
    simp only [readString, Option.bind_eq_bind, Option.bind_eq_some_iff] at h
    obtain ⟨first, hfirst, second, hsecond, h⟩ := h
    split at h
    · simp only [Option.bind_eq_some_iff] at h
      obtain ⟨⟨s', rest'⟩, hread, h⟩ := h
      cases h
      have hs := ih (fun c hc => ht c (by simp [hc])) hread
      exact hs.cons ['\\', 'u', d₁, d₂, d₃, d₄, '\\', 'u', e₁, e₂, e₃, e₄] rfl
    · next hpair =>
      simp only [Option.bind_eq_some_iff] at h
      obtain ⟨⟨s', rest'⟩, hread, h⟩ := h
      cases h
      have hs := ih'
        (fun c hc => ht c (List.mem_append_right (['\\', 'u', d₁, d₂, d₃, d₄] : Text) hc)) hread
      refine hs.cons_escaped hfirst fun f₁ f₂ f₃ f₄ after' m heq hm => isPair_ofNat ?_
      cases heq
      cases hsecond.symm.trans hm
      exact Bool.eq_false_iff.mpr hpair
  | case4 d₁ d₂ d₃ d₄ after hother ih =>
    rw [readString] at h
    · simp only [Option.bind_eq_bind, Option.bind_eq_some_iff] at h
      obtain ⟨n, hn, ⟨s', rest'⟩, hread, h⟩ := h
      cases h
      have hs := ih (fun c hc => ht c (by simp [hc])) hread
      exact hs.cons_escaped hn fun e₁ e₂ e₃ e₄ after' m heq _ =>
        (hother e₁ e₂ e₃ e₄ after' heq).elim
    · exact hother
  | case5 e after hother hother' ih =>
    rw [readString] at h
    · simp only [Option.bind_eq_bind, Option.bind_eq_some_iff] at h
      obtain ⟨c, hc, ⟨s', rest'⟩, hread, h⟩ := h
      cases h
      have hs := ih (fun c hc => ht c (by simp [hc])) hread
      exact hs.cons ['\\', e] (isHalf_of_simpleEscape? hc)
    · exact hother
    · exact hother'
  | case6 c after _ _ _ _ hrefused =>
    rw [readString, if_pos hrefused] at h
    · cases h
    all_goals assumption
  | case7 c after _ _ _ _ htaken ih =>
    rw [readString, if_neg htaken] at h
    · simp only [Option.bind_eq_bind, Option.bind_eq_some_iff] at h
      obtain ⟨⟨s', rest'⟩, hread, h⟩ := h
      cases h
      have hs := ih (fun c hc => ht c (by simp [hc])) hread
      exact hs.cons [c] (ht c (.head _))
    all_goals assumption

end Strings

section Numbers

theorem value_lt_of_isDigit {c : CodePoint} (h : c.isDigit = true) : c.toNat - 48 < 10 := by
  have hle := (CodePoint.isDigit_iff_toNat.mp h).2
  omega

theorem ofDigits_lt_of_isDigit {t : Text} (h : ∀ c ∈ t, c.isDigit = true) :
    ofDigits (t.map fun c => c.toNat - 48) < 10 ^ t.length := by
  have hlt : ∀ d ∈ t.map fun c => c.toNat - 48, d < 10 := by
    intro d hd
    obtain ⟨c, hc, rfl⟩ := List.mem_map.mp hd
    exact value_lt_of_isDigit (h c hc)
  simpa using ofDigits_lt hlt

theorem spanDigits_eq (t : Text) :
    spanDigits t = (t.takeWhile CodePoint.isDigit, t.dropWhile CodePoint.isDigit) :=
  List.span_eq_takeWhile_dropWhile _ t

theorem readPlaces_suffix (t : Text) : (readPlaces t).2 <:+ t := by
  unfold readPlaces
  split
  · next after =>
    simp only [spanDigits_eq]
    split
    · exact List.suffix_rfl
    · exact (List.dropWhile_suffix _).trans (List.suffix_cons _ _)
  · exact List.suffix_rfl

theorem readExponent_suffix (t : Text) : (readExponent t).2 <:+ t := by
  unfold readExponent
  split
  · next c after =>
    split
    · split
      next negative unsigned hsign =>
      have hunsigned : unsigned <:+ after := by
        split at hsign <;> cases hsign
        · exact List.suffix_cons _ _
        · exact List.suffix_cons _ _
        · exact List.suffix_rfl
      simp only [spanDigits_eq]
      split
      · exact List.suffix_rfl
      · exact (List.dropWhile_suffix _).trans (hunsigned.trans (List.suffix_cons _ _))
    · exact List.suffix_rfl
  · exact List.suffix_rfl

/-- A number that is read is a double or an integer of not too many digits. -/
theorem isStable_of_readNumber {negative : Bool} {v : Json}
    (h : readNumber negative t = some (v, rest)) : v.IsStable ∧ rest <:+ t := by
  unfold readNumber at h
  split at h
  next whole after hspan =>
  rw [spanDigits_eq] at hspan
  split at h
  -- The digits that are taken are those of the text, or a zero in front of others.
  next taken after' htaken =>
  have hdigits : (∀ c ∈ taken, c.isDigit = true) ∧ after' <:+ t := by
    obtain ⟨rfl, rfl⟩ := Prod.mk.inj hspan
    split at htaken
    · next more hzero =>
      cases htaken
      refine ⟨fun c hc => ?_, ?_⟩
      · cases List.mem_singleton.mp hc
        rfl
      · have ht := List.takeWhile_append_dropWhile (p := CodePoint.isDigit) (l := t)
        rw [hzero] at ht
        exact ⟨[.char '0'], ht⟩
    · cases htaken
      exact ⟨fun c hc => List.mem_takeWhile_imp hc, List.dropWhile_suffix _⟩
  have hplaces := (readPlaces_suffix after').trans hdigits.2
  split at h
  · cases h
  · split at h
    next places after₁ hread =>
    rw [hread] at hplaces
    have hexponent := (readExponent_suffix after₁).trans hplaces
    split at h
    next exponent after₂ hread' =>
    rw [hread'] at hexponent
    simp only at h
    split at h
    · split at h
      · cases h
      · next hle =>
        cases h
        refine ⟨.int (isWritable_iff.mpr ?_), hexponent⟩
        have hlt := Nat.lt_of_lt_of_le (ofDigits_lt_of_isDigit hdigits.1)
          (Nat.pow_le_pow_right (by decide) (Nat.le_of_not_lt hle))
        cases negative with
        | true => rwa [if_pos rfl, Int.natAbs_neg, Int.natAbs_natCast]
        | false => rwa [if_neg Bool.false_ne_true, Int.natAbs_natCast]
    · cases h
      exact ⟨.float _, hexponent⟩

end Numbers

section Values

theorem skipSpace_suffix (t : Text) : skipSpace t <:+ t := List.dropWhile_suffix _

theorem suffix_of_afterWord? {word : Text} (h : afterWord? word t = some rest) : rest <:+ t := by
  unfold afterWord? at h
  split at h
  · cases h
    exact List.drop_suffix _ _
  · cases h

/-- A suffix of a text of characters is one. -/
theorem isHalf_of_suffix (ht : ∀ c ∈ t, c.isHalf = false) (h : rest <:+ t) :
    ∀ c ∈ rest, c.isHalf = false :=
  fun c hc => ht c (h.subset hc)

/-- What some fuel is enough to read of a text of characters is stable. -/
structure ReadsStable (fuel : Nat) : Prop where
  value : ∀ {t rest v}, (∀ c ∈ t, c.isHalf = false) → readValue fuel t = some (v, rest) →
    v.IsStable ∧ rest <:+ t
  items : ∀ {t rest items}, (∀ c ∈ t, c.isHalf = false) → readItems fuel t = some (items, rest) →
    (∀ v ∈ items, v.IsStable) ∧ rest <:+ t
  members : ∀ {t rest read members}, (∀ c ∈ t, c.isHalf = false) → AreStable read →
    readMembers fuel read t = some (members, rest) → AreStable members ∧ rest <:+ t

namespace ReadsStable

variable {fuel : Nat} {v : Json}

theorem value_succ (ih : ReadsStable fuel) (ht : ∀ c ∈ t, c.isHalf = false)
    (h : readValue (fuel + 1) t = some (v, rest)) : v.IsStable ∧ rest <:+ t := by
  unfold readValue at h
  split at h
  · cases h
  · next after =>
    obtain ⟨⟨s, rest'⟩, hs, hv⟩ := Option.map_eq_some_iff.mp h
    cases hv
    have hread := readsString (isHalf_of_suffix ht (List.suffix_cons _ _)) hs
    exact ⟨.str hread.pairs, hread.suffix.trans (List.suffix_cons _ _)⟩
  · next after =>
    have hskipped := (skipSpace_suffix after).trans (List.suffix_cons (.char '[') _)
    split at h
    · next heq =>
      cases h
      rw [heq] at hskipped
      exact ⟨.arr (by simp), (List.suffix_cons _ _).trans hskipped⟩
    · obtain ⟨⟨items, rest'⟩, hitems, hv⟩ := Option.map_eq_some_iff.mp h
      cases hv
      obtain ⟨hstable, hsuffix⟩ := ih.items (isHalf_of_suffix ht hskipped) hitems
      exact ⟨.arr hstable, hsuffix.trans hskipped⟩
  · next after =>
    have hskipped := (skipSpace_suffix after).trans (List.suffix_cons (.char '\x7b') _)
    split at h
    · next heq =>
      cases h
      rw [heq] at hskipped
      exact ⟨areStable_nil.obj, (List.suffix_cons _ _).trans hskipped⟩
    · obtain ⟨⟨members, rest'⟩, hmembers, hv⟩ := Option.map_eq_some_iff.mp h
      cases hv
      obtain ⟨hstable, hsuffix⟩ :=
        ih.members (isHalf_of_suffix ht hskipped) areStable_nil hmembers
      exact ⟨hstable.obj, hsuffix.trans hskipped⟩
  · next after =>
    have hcons := List.suffix_cons (.char '-') after
    split at h
    · next hword =>
      cases h
      exact ⟨.float _, (suffix_of_afterWord? hword).trans hcons⟩
    · obtain ⟨hstable, hsuffix⟩ := isStable_of_readNumber h
      exact ⟨hstable, hsuffix.trans hcons⟩
  · split at h
    · exact isStable_of_readNumber h
    · obtain ⟨⟨word, value⟩, hmem, hword⟩ := List.exists_of_findSome?_eq_some h
      obtain ⟨after, hafter, hv⟩ := Option.map_eq_some_iff.mp hword
      cases hv
      simp only [List.mem_cons, List.not_mem_nil, or_false] at hmem
      refine ⟨?_, suffix_of_afterWord? hafter⟩
      obtain h | h | h | h | h := hmem <;> cases h <;> constructor

theorem items_succ (ih : ReadsStable fuel) {items : List Json} (ht : ∀ c ∈ t, c.isHalf = false)
    (h : readItems (fuel + 1) t = some (items, rest)) : (∀ v ∈ items, v.IsStable) ∧ rest <:+ t := by
  unfold readItems at h
  simp only [Option.bind_eq_bind, Option.bind_eq_some_iff] at h
  obtain ⟨⟨item, after⟩, hitem, h⟩ := h
  obtain ⟨hstable, hsuffix⟩ := ih.value ht hitem
  have hskipped := (skipSpace_suffix after).trans hsuffix
  simp only at h
  split at h
  · next heq =>
    cases h
    rw [heq] at hskipped
    exact ⟨List.forall_mem_singleton.mpr hstable, (List.suffix_cons _ _).trans hskipped⟩
  · next after' heq =>
    simp only [Option.bind_eq_some_iff] at h
    obtain ⟨⟨others, rest'⟩, hothers, h⟩ := h
    cases h
    rw [heq] at hskipped
    have hnext := (skipSpace_suffix after').trans ((List.suffix_cons _ _).trans hskipped)
    obtain ⟨hrest, hsuffix'⟩ := ih.items (isHalf_of_suffix ht hnext) hothers
    exact ⟨List.forall_mem_cons.mpr ⟨hstable, hrest⟩, hsuffix'.trans hnext⟩
  · cases h

theorem members_succ (ih : ReadsStable fuel) {read members : List (Text × Json)}
    (ht : ∀ c ∈ t, c.isHalf = false) (hread : AreStable read)
    (h : readMembers (fuel + 1) read t = some (members, rest)) :
    AreStable members ∧ rest <:+ t := by
  unfold readMembers at h
  split at h
  · next after =>
    simp only [Option.bind_eq_bind, Option.bind_eq_some_iff] at h
    obtain ⟨⟨name, after₁⟩, hname, h⟩ := h
    have hstring := readsString (isHalf_of_suffix ht (List.suffix_cons _ _)) hname
    have hskipped := (skipSpace_suffix after₁).trans
      (hstring.suffix.trans (List.suffix_cons (.char '"') after))
    simp only at h
    split at h
    · next after₂ heq =>
      rw [heq] at hskipped
      have hvalued := (skipSpace_suffix after₂).trans ((List.suffix_cons _ _).trans hskipped)
      simp only [Option.bind_eq_some_iff] at h
      obtain ⟨⟨value, after₃⟩, hvalue, h⟩ := h
      obtain ⟨hstable, hsuffix⟩ := ih.value (isHalf_of_suffix ht hvalued) hvalue
      have hset := hread.setMember hstring.pairs hstable
      have hskipped' := (skipSpace_suffix after₃).trans (hsuffix.trans hvalued)
      simp only at h
      split at h
      · next heq' =>
        cases h
        rw [heq'] at hskipped'
        exact ⟨hset, (List.suffix_cons _ _).trans hskipped'⟩
      · next after₄ heq' =>
        rw [heq'] at hskipped'
        have hnext := (skipSpace_suffix after₄).trans ((List.suffix_cons _ _).trans hskipped')
        obtain ⟨hmembers, hsuffix'⟩ := ih.members (isHalf_of_suffix ht hnext) hset h
        exact ⟨hmembers, hsuffix'.trans hnext⟩
      · cases h
    · cases h
  · cases h

end ReadsStable

theorem readsStable (fuel : Nat) : ReadsStable fuel := by
  induction fuel with
  | zero => exact ⟨nofun, nofun, nofun⟩
  | succ fuel ih => exact ⟨ih.value_succ, ih.items_succ, ih.members_succ⟩

/-- A value that is read of a text of characters can be written and is read again as it is. -/
theorem isStable_of_parse? {v : Json} (ht : ∀ c ∈ t, c.isHalf = false) (h : parse? t = some v) :
    v.IsStable := by
  simp only [parse?, Option.bind_eq_bind, Option.bind_eq_some_iff] at h
  obtain ⟨⟨v', rest⟩, hv, h⟩ := h
  split at h
  · cases h
    exact ((readsStable _).value (isHalf_of_suffix ht (skipSpace_suffix t)) hv).1
  · cases h

end Values

end Concordance.Json
