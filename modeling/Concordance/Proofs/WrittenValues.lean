import Concordance.Index.Stored
import Concordance.Proofs.WrittenNumbers
import Concordance.Proofs.WrittenStrings

/-!
# Values that are written

The text that is written of a value is read as the value is restored. So a file whose bytes
are those of a value gives what is told of a file that holds the value, and a database may
keep its records as texts. Of a double it is asked that its text is read as the same double,
which can be evaluated.
-/
namespace Concordance.Json

variable {t rest : Text}

section Values

/-- The double that has been read, with nothing behind it. -/
def double? : Option (Json × Text) → Option Float
  | some (.float x, []) => some x
  | _ => none

theorem eq_of_double? {r : Option (Json × Text)} {x : Float} (h : double? r = some x) :
    r = some (.float x, []) := by
  unfold double? at h
  split at h
  · cases h
    rfl
  · cases h

/-- A double whose text is read as the double. -/
def ReadsBack (x : Float) : Prop := double? (readValue 1 (renderFloat x)) = some x

instance (x : Float) : Decidable (ReadsBack x) :=
  inferInstanceAs (Decidable (double? (readValue 1 (renderFloat x)) = some x))

/-- A value of which a text is written that can be read. -/
inductive IsReadable : Json → Prop where
  | null : IsReadable .null
  | bool (b : Bool) : IsReadable (.bool b)
  | int {n : Int} (h : Concordance.isWritable n = true) : IsReadable (.int n)
  | float {x : Float} (h : ReadsBack x) : IsReadable (.float x)
  | str (t : Text) : IsReadable (.str t)
  | arr {items : List Json} (h : ∀ v ∈ items, IsReadable v) : IsReadable (.arr items)
  | obj {members : List (Text × Json)} (h : ∀ m ∈ members, IsReadable m.2) :
      IsReadable (.obj members)

/-- With as much fuel as its text is long, a value is read of the text and what stands behind it
is left. -/
def IsRead (j : Json) : Prop :=
  ∀ fuel rest, j.render.length < fuel → Closes rest →
    readValue fuel (j.render ++ rest) = some (j.restored, rest)

/-- No value begins with space or with the end of a list. -/
theorem readValue_eq_none {c : CodePoint} (h : isSpace c = true ∨ c = ']') (fuel : Nat)
    (after : Text) : readValue fuel (c :: after) = none := by
  cases fuel with
  | zero => rfl
  | succ fuel =>
    simp only [isSpace, Bool.or_eq_true, decide_eq_true_iff] at h
    obtain (((rfl | rfl) | rfl) | rfl) | rfl := h <;> rfl

theorem begins_of_readValue {fuel : Nat} {v : Json} (h : readValue fuel t = some (v, rest)) :
    skipSpace t = t ∧ ∀ after : Text, t ≠ .char ']' :: after := by
  cases t with
  | nil => exact ⟨rfl, nofun⟩
  | cons c after =>
    constructor
    · rw [skipSpace, List.dropWhile_cons, if_neg]
      intro hc
      rw [readValue_eq_none (.inl hc)] at h
      cases h
    · intro after' heq
      rw [readValue_eq_none (.inr (List.cons.inj heq).1)] at h
      cases h

theorem begins_of_readItems {fuel : Nat} {items : List Json}
    (h : readItems fuel t = some (items, rest)) :
    skipSpace t = t ∧ ∀ after : Text, t ≠ .char ']' :: after := by
  cases fuel with
  | zero => cases h
  | succ fuel =>
    rw [readItems, Option.bind_eq_bind, Option.bind_eq_some_iff] at h
    obtain ⟨r, hitem, -⟩ := h
    exact begins_of_readValue hitem

theorem isRead_of {j : Json} (h : ∀ fuel rest, j.render.length ≤ fuel → Closes rest →
    readValue (fuel + 1) (j.render ++ rest) = some (j.restored, rest)) : j.IsRead := by
  intro fuel rest hfuel hrest
  obtain ⟨fuel, rfl⟩ := Nat.exists_eq_succ_of_ne_zero (Nat.ne_zero_of_lt hfuel)
  exact h fuel rest (Nat.le_of_lt_succ hfuel) hrest

theorem isRead_int {n : Int} (h : Concordance.isWritable n = true) : (Json.int n).IsRead := by
  refine isRead_of fun fuel rest _ hrest => ?_
  rw [Concordance.isWritable, decide_eq_true_iff] at h
  obtain ⟨d, digits, hdigits⟩ := List.exists_cons_of_ne_nil (digitsIn_ne_nil n.natAbs)
  have hd : d.isDigit = true := isDigit_of_mem_digitsIn (n := n.natAbs) (hdigits ▸ .head _)
  cases n with
  | ofNat n =>
    show readValue (fuel + 1) (digitsIn 10 n ++ rest) = _
    rw [show digitsIn 10 n = d :: digits from hdigits, List.cons_append, readValue_digit hd,
      ← List.cons_append, ← hdigits]
    exact readNumber_digitsIn false h hrest
  | negSucc n =>
    show readValue (fuel + 1) ('-' :: (digitsIn 10 (n + 1) ++ rest)) = _
    have hword : afterWord? "Infinity".toText (digitsIn 10 (n + 1) ++ rest) = none := by
      rw [show digitsIn 10 (n + 1) = d :: digits from hdigits]
      exact afterWord?_infinity hd _
    rw [readValue, hword]
    exact readNumber_digitsIn true h hrest

/-- The items of a list are read one by one, up to the end of the list. -/
theorem readItems_render {items : List Json} (hne : items ≠ []) (h : ∀ v ∈ items, v.IsRead)
    (fuel : Nat) (hfuel : (joinWith ", ".toText (renderItems items)).length + 1 < fuel)
    (rest : Text) :
    readItems fuel (joinWith ", ".toText (renderItems items) ++ .char ']' :: rest) =
      some (items.map restored, rest) := by
  induction items generalizing fuel with
  | nil => contradiction
  | cons item items ih =>
    obtain ⟨fuel, rfl⟩ := Nat.exists_eq_succ_of_ne_zero (Nat.ne_zero_of_lt hfuel)
    obtain ⟨hitem, hitems⟩ := List.forall_mem_cons.mp h
    cases items with
    | nil =>
      have hread := hitem fuel (']' :: rest) (by simpa [renderItems, joinWith] using hfuel)
        (by simp [Closes])
      rw [renderItems, renderItems, joinWith, readItems, hread]
      rfl
    | cons next items =>
      rw [renderItems, renderItems, joinWith_cons_cons, ← renderItems, List.length_append,
        List.length_append] at hfuel
      have hlength : ", ".toText.length = 2 := rfl
      have hnext := ih (by simp) hitems fuel (by omega)
      have hread := hitem fuel (", ".toText ++ (joinWith ", ".toText
        (renderItems (next :: items)) ++ .char ']' :: rest)) (by omega)
        (by simp [Closes, String.toText])
      -- The next item begins where the space behind the comma ends.
      have hskip := (begins_of_readItems hnext).1
      rw [renderItems, renderItems, joinWith_cons_cons, ← renderItems, List.append_assoc,
        List.append_assoc, readItems, hread]
      show (readItems fuel (skipSpace (joinWith ", ".toText (renderItems (next :: items)) ++
        CodePoint.char ']' :: rest))).bind _ = _
      rw [hskip, hnext]
      rfl

theorem skipSpace_append {gap : Text} (hgap : ∀ c ∈ gap, isSpace c = true) {c : CodePoint}
    (hc : isSpace c = false) (t : Text) : skipSpace (gap ++ c :: t) = c :: t := by
  rw [skipSpace, List.dropWhile_append_of_pos hgap, List.dropWhile_cons_of_neg (by simp [hc])]

theorem begins_of_readMembers {fuel : Nat} {read : List (Text × Json)}
    {r : List (Text × Json) × Text} (h : readMembers fuel read t = some r) :
    ∃ after : Text, t = .char '"' :: after := by
  cases fuel with
  | zero => cases h
  | succ fuel =>
    unfold readMembers at h
    split at h
    · exact ⟨_, rfl⟩
    · cases h

section Members

variable {name : Text} {value : Json} {fuel : Nat}
  (hvalue : readValue fuel (value.render ++ t) = some (value.restored, t))
  (read : List (Text × Json))
include hvalue

/-- The last member of an object is read of its name, a colon and its value. -/
theorem readMembers_last (h : skipSpace t = .char '\x7d' :: rest) :
    readMembers (fuel + 1) read (renderString name ++ (": ".toText ++ (value.render ++ t))) =
      some (setMember (paired name) value.restored read, rest) := by
  rw [renderString_append, readMembers, readString_stringChars]
  show (readValue fuel (skipSpace (value.render ++ t))).bind _ = _
  rw [(begins_of_readValue hvalue).1, hvalue]
  simp only [Option.bind_some, h]
  rfl

/-- Behind a comma more members are read. -/
theorem readMembers_cons (h : skipSpace t = .char ',' :: rest) :
    readMembers (fuel + 1) read (renderString name ++ (": ".toText ++ (value.render ++ t))) =
      readMembers fuel (setMember (paired name) value.restored read) (skipSpace rest) := by
  rw [renderString_append, readMembers, readString_stringChars]
  show (readValue fuel (skipSpace (value.render ++ t))).bind _ = _
  rw [(begins_of_readValue hvalue).1, hvalue]
  simp only [Option.bind_some, h]

end Members

/-- The members of an object are read one by one, whatever space separates them. -/
theorem readMembers_render {gap close : Text} (hgap : ∀ c ∈ gap, isSpace c = true)
    (hclose : close = [] ∨ close = [.char '\n']) {members : List (Text × Json)} (hne : members ≠ [])
    (h : ∀ m ∈ members, m.2.IsRead) (fuel : Nat)
    (hfuel : (joinWith (',' :: gap) (renderMembers members)).length + 1 < fuel)
    (read : List (Text × Json)) (rest : Text) :
    readMembers fuel read
        (joinWith (',' :: gap) (renderMembers members) ++ (close ++ .char '\x7d' :: rest)) =
      some (restoredMembers read members, rest) := by
  induction members generalizing fuel read with
  | nil => contradiction
  | cons m members ih =>
    obtain ⟨name, value⟩ := m
    obtain ⟨fuel, rfl⟩ := Nat.exists_eq_succ_of_ne_zero (Nat.ne_zero_of_lt hfuel)
    obtain ⟨hvalue, hvalues⟩ := List.forall_mem_cons.mp h
    cases members with
    | nil =>
      rw [renderMembers, renderMembers, joinWith, List.length_append] at hfuel
      have hread := hvalue fuel (close ++ .char '\x7d' :: rest) (by simp only; omega)
        (by obtain rfl | rfl := hclose <;> simp [Closes])
      have hskip : skipSpace (close ++ .char '\x7d' :: rest) = .char '\x7d' :: rest := by
        obtain rfl | rfl := hclose <;> rfl
      rw [renderMembers, renderMembers, joinWith, List.append_assoc, List.append_assoc]
      exact readMembers_last hread read hskip
    | cons next members =>
      obtain ⟨nextName, nextValue⟩ := next
      rw [renderMembers, renderMembers, joinWith_cons_cons, ← renderMembers, List.length_append,
        List.length_append, List.length_append, List.length_append, List.length_cons] at hfuel
      have hnext := ih (by simp) hvalues fuel (by omega)
        (setMember (paired name) value.restored read)
      obtain ⟨after, hafter⟩ := begins_of_readMembers hnext
      have hread := hvalue fuel (.char ',' :: gap ++ .char '"' :: after) (by simp only; omega)
        (by simp [Closes])
      have htext : joinWith (.char ',' :: gap)
          (renderMembers ((name, value) :: (nextName, nextValue) :: members)) ++
            (close ++ .char '\x7d' :: rest) =
          renderString name ++ (": ".toText ++ (value.render ++
            (.char ',' :: gap ++ .char '"' :: after))) := by
        rw [renderMembers, renderMembers, joinWith_cons_cons, ← renderMembers, ← hafter]
        simp only [List.append_assoc]
      have hcomma : skipSpace (.char ',' :: gap ++ .char '"' :: after) =
          .char ',' :: (gap ++ .char '"' :: after) := rfl
      rw [htext, readMembers_cons hread read hcomma, skipSpace_append hgap rfl, ← hafter]
      exact hnext

/-- An object with members is read, whatever space stands inside it. -/
theorem readValue_members (opening gap close : Text) (hopening : ∀ c ∈ opening, isSpace c = true)
    (hgap : ∀ c ∈ gap, isSpace c = true) (hclose : close = [] ∨ close = [.char '\n'])
    {members : List (Text × Json)} (hne : members ≠ []) (h : ∀ m ∈ members, m.2.IsRead)
    (fuel : Nat) (hfuel : (joinWith (',' :: gap) (renderMembers members)).length + 1 < fuel)
    (rest : Text) :
    readValue (fuel + 1) (.char '\x7b' :: (opening ++
        (joinWith (',' :: gap) (renderMembers members) ++ (close ++ .char '\x7d' :: rest)))) =
      some (.obj (restoredMembers [] members), rest) := by
  have hmembers := readMembers_render hgap hclose hne h fuel hfuel [] rest
  obtain ⟨after, hafter⟩ := begins_of_readMembers hmembers
  rw [hafter] at hmembers ⊢
  rw [readValue, skipSpace_append hopening rfl]
  show (readMembers fuel [] (.char '"' :: after)).map _ = _
  rw [hmembers]
  rfl

/-- The value is read that was written. -/
theorem IsReadable.isRead {j : Json} (h : j.IsReadable) : j.IsRead := by
  refine isRead_of fun fuel rest hfuel hrest => ?_
  induction h generalizing fuel rest with
  | int h => exact isRead_int h _ _ (Nat.lt_succ_of_le hfuel) hrest
  | float h => exact readValue_append (eq_of_double? h) fuel hrest
  | null => rfl
  | bool b => cases b <;> rfl
  | str t =>
    rw [render, renderString_append, readValue, readString_stringChars]
    rfl
  | @arr items h ih =>
    rw [restored_arr]
    by_cases hne : items = []
    · rw [hne]
      rfl
    · have hlength : (render (.arr items)).length =
          (joinWith ", ".toText (renderItems items)).length + 2 := by
        simp [render, String.toText]
      have hitems := readItems_render hne (fun v hv => isRead_of (ih v hv)) fuel (by omega) rest
      have htext : render (.arr items) ++ rest =
          .char '[' :: (joinWith ", ".toText (renderItems items) ++ .char ']' :: rest) := by
        simp [render, String.toText]
      obtain ⟨hskip, hend⟩ := begins_of_readItems hitems
      rw [htext, readValue, hskip]
      split
      · next heq => exact absurd heq (hend _)
      · rw [hitems]
        rfl
  | @obj members h ih =>
    by_cases hne : members = []
    · rw [hne]
      rfl
    · have hlength : (render (.obj members)).length =
          (joinWith ", ".toText (renderMembers members)).length + 2 := by
        simp [render, String.toText]
      have htext : render (.obj members) ++ rest = .char '\x7b' :: ([] ++
          (joinWith ", ".toText (renderMembers members) ++ ([] ++ .char '\x7d' :: rest))) := by
        simp [render, String.toText]
      have hless : (joinWith ", ".toText (renderMembers members)).length + 1 < fuel := by omega
      rw [htext]
      exact readValue_members [] [.char ' '] [] (by simp) (by simp [isSpace]) (.inl rfl) hne
        (fun m hm => isRead_of (ih m hm)) fuel hless rest

/-- What is read of the text of a value is the value as it is restored. -/
theorem parse?_render {j : Json} (h : j.IsReadable) : parse? j.render = some j.restored := by
  have hread := h.isRead (j.render.length + 1) [] (Nat.lt_succ_self _) nofun
  rw [List.append_nil] at hread
  rw [parse?, (begins_of_readValue hread).1, hread]
  rfl

/-- The double next to seven thirds is written with seventeen digits. -/
example : ReadsBack (7.0 / 3.0) := by decide +kernel

/-- A value is read alike that has its members on lines of their own. -/
theorem parse?_renderLines {j : Json} (h : j.IsReadable) :
    parse? j.renderLines = some j.restored := by
  unfold renderLines
  split
  · next m members =>
    cases h with
    | obj h =>
    let inside := joinWith ",\n  ".toText (renderMembers (m :: members))
    let text := "\x7b\n  ".toText ++ inside ++ "\n\x7d".toText
    have htext : text = .char '\x7b' :: ("\n  ".toText ++ (inside ++ "\n\x7d".toText)) := by
      simp [text, String.toText]
    have hread : readValue (text.length + 1) text = some (restored (.obj (m :: members)), []) := by
      have hless : inside.length + 1 < text.length := by
        rw [htext]
        simp [String.toText]
      rw [htext] at hless ⊢
      exact readValue_members "\n  ".toText "\n  ".toText "\n".toText (by decide) (by decide)
        (.inr rfl) (by simp) (fun v hv => (h v hv).isRead) _ hless []
    show parse? text = _
    rw [parse?, (begins_of_readValue hread).1, hread]
    rfl
  · exact parse?_render h

end Values

section Halves

theorem isHalf_of_mem_replicate {k : Nat} {d : Char} :
    ∀ c ∈ List.replicate k (CodePoint.char d), c.isHalf = false := by
  intro c hc
  rw [List.eq_of_mem_replicate hc]
  rfl

theorem isHalf_of_mem_positional {digits : Text} (h : ∀ c ∈ digits, c.isHalf = false)
    (power : Int) : ∀ c ∈ positional digits power, c.isHalf = false := by
  have htaken (k : Nat) : ∀ c ∈ digits.take k, c.isHalf = false :=
    fun c hc => h c (List.mem_of_mem_take hc)
  have hleft (k : Nat) : ∀ c ∈ digits.drop k, c.isHalf = false :=
    fun c hc => h c (List.mem_of_mem_drop hc)
  unfold positional
  split
  · split
    · simp only [List.forall_mem_append]
      exact ⟨⟨fun _ => isHalf_of_mem_toText, isHalf_of_mem_replicate⟩, h⟩
    · simp only
      split
      · simp only [List.forall_mem_append]
        exact ⟨⟨h, isHalf_of_mem_replicate⟩, fun _ => isHalf_of_mem_toText⟩
      · simp only [List.forall_mem_append, List.forall_mem_cons]
        exact ⟨htaken _, rfl, hleft _⟩
  · simp only [List.forall_mem_append, List.forall_mem_cons, padded]
    refine ⟨⟨htaken 1, ?_⟩, rfl, rfl, isHalf_of_mem_replicate, fun _ => isHalf_of_mem_digitsIn⟩
    split
    · exact nofun
    · exact List.forall_mem_cons.mpr ⟨rfl, hleft 1⟩

theorem isHalf_of_mem_renderFloat (x : Float) : ∀ c ∈ renderFloat x, c.isHalf = false := by
  unfold renderFloat
  split
  · exact fun _ => isHalf_of_mem_toText
  split
  · split <;> exact fun _ => isHalf_of_mem_toText
  unfold shortestText
  split
  · unfold unbounded
    split
    · exact fun _ => isHalf_of_mem_toText
    · split <;> exact fun _ => isHalf_of_mem_toText
  · next d _ =>
    have hsign : ∀ c ∈ (if d.negative then [.char '-'] else [] : Text), c.isHalf = false := by
      split
      · exact List.forall_mem_singleton.mpr rfl
      · exact nofun
    simp only
    split
    · exact List.forall_mem_append.mpr ⟨hsign, fun _ => isHalf_of_mem_toText⟩
    · refine List.forall_mem_append.mpr ⟨hsign, isHalf_of_mem_positional (fun c hc => ?_) _⟩
      have hmem := List.mem_reverse.mp ((List.dropWhile_suffix _).subset (List.mem_reverse.mp hc))
      exact isHalf_of_mem_digitsIn hmem

theorem isHalf_of_mem_unitEscape (n : Nat) : ∀ c ∈ unitEscape n, c.isHalf = false := by
  simp only [unitEscape, hexDigits, List.forall_mem_cons, List.forall_mem_append]
  exact ⟨rfl, rfl, isHalf_of_mem_replicate, fun _ => isHalf_of_mem_digitsIn⟩

theorem isHalf_of_mem_enclosed {before after : String} (h : ∀ c ∈ t, c.isHalf = false) :
    ∀ c ∈ before.toText ++ t ++ after.toText, c.isHalf = false := by
  simp only [List.forall_mem_append]
  exact ⟨⟨fun _ => isHalf_of_mem_toText, h⟩, fun _ => isHalf_of_mem_toText⟩

theorem isHalf_of_mem_renderString (t : Text) : ∀ c ∈ renderString t, c.isHalf = false := by
  refine isHalf_of_mem_enclosed fun c hc => ?_
  obtain ⟨d, -, hc⟩ := List.mem_flatMap.mp hc
  obtain ⟨hd, hle, -⟩ | ⟨e, hd, hescape, -⟩ | ⟨hd, -⟩ | ⟨high, low, hd, -⟩ := stringChar_cases d
  all_goals rw [hd] at hc
  · cases List.mem_singleton.mp hc
    cases c with
    | char c => rfl
    | half n =>
      simp only [CodePoint.toNat] at hle
      omega
  · cases e with
    | char e =>
      obtain rfl | hc := List.mem_cons.mp hc
      · rfl
      · rw [List.mem_singleton.mp hc]
        rfl
    | half n => cases hescape
  · exact isHalf_of_mem_unitEscape _ c hc
  · exact (List.mem_append.mp hc).elim (isHalf_of_mem_unitEscape _ c) (isHalf_of_mem_unitEscape _ c)

theorem isHalf_of_mem_joinWith {separator : String} {parts : List Text}
    (h : ∀ part ∈ parts, ∀ c ∈ part, c.isHalf = false) :
    ∀ c ∈ joinWith separator.toText parts, c.isHalf = false := by
  induction parts with
  | nil => exact nofun
  | cons part parts ih =>
    obtain ⟨hpart, hparts⟩ := List.forall_mem_cons.mp h
    cases parts with
    | nil => exact hpart
    | cons next parts =>
      simp only [joinWith_cons_cons, List.forall_mem_append]
      exact ⟨hpart, fun _ => isHalf_of_mem_toText, ih hparts⟩

theorem isHalf_of_mem_renderItems {items : List Json}
    (h : ∀ v ∈ items, ∀ c ∈ v.render, c.isHalf = false) :
    ∀ part ∈ renderItems items, ∀ c ∈ part, c.isHalf = false := by
  induction items with
  | nil => exact nofun
  | cons item items ih =>
    obtain ⟨hitem, hitems⟩ := List.forall_mem_cons.mp h
    exact List.forall_mem_cons.mpr ⟨hitem, ih hitems⟩

theorem isHalf_of_mem_renderMembers {members : List (Text × Json)}
    (h : ∀ m ∈ members, ∀ c ∈ m.2.render, c.isHalf = false) :
    ∀ part ∈ renderMembers members, ∀ c ∈ part, c.isHalf = false := by
  induction members with
  | nil => exact nofun
  | cons m members ih =>
    obtain ⟨hvalue, hvalues⟩ := List.forall_mem_cons.mp h
    refine List.forall_mem_cons.mpr ⟨?_, ih hvalues⟩
    simp only [List.forall_mem_append]
    exact ⟨⟨isHalf_of_mem_renderString _, fun _ => isHalf_of_mem_toText⟩, hvalue⟩

/-- The text of a value is one of characters, whatever stands in its strings. -/
theorem IsReadable.isHalf_of_mem_render {j : Json} (h : j.IsReadable) :
    ∀ c ∈ j.render, c.isHalf = false := by
  induction h with
  | null => exact fun _ => isHalf_of_mem_toText
  | bool b => cases b <;> exact fun _ => isHalf_of_mem_toText
  | int => exact fun _ => isHalf_of_mem_decimal
  | float => exact isHalf_of_mem_renderFloat _
  | str t => exact isHalf_of_mem_renderString t
  | arr _ ih =>
    exact isHalf_of_mem_enclosed (isHalf_of_mem_joinWith (isHalf_of_mem_renderItems ih))
  | obj _ ih =>
    exact isHalf_of_mem_enclosed (isHalf_of_mem_joinWith (isHalf_of_mem_renderMembers ih))

theorem IsReadable.isHalf_of_mem_renderLines {j : Json} (h : j.IsReadable) :
    ∀ c ∈ j.renderLines, c.isHalf = false := by
  unfold renderLines
  split
  · cases h with
    | obj h =>
    exact isHalf_of_mem_enclosed (isHalf_of_mem_joinWith
      (isHalf_of_mem_renderMembers fun m hm => (h m hm).isHalf_of_mem_render))
  · exact h.isHalf_of_mem_render

end Halves

end Concordance.Json

namespace Concordance.Content

theorem ofText_bytes {t : Text} {j : Json} (ht : ∀ c ∈ t, c.isHalf = false)
    (h : Json.parse? t = some j) : (bytes (stringOf t).toUTF8).ofText = .ok j := by
  rw [ofText, fromUTF8?_toUTF8]
  simp only [toText_stringOf ht, h]

/-- A file that holds a value gives what its bytes would, unless it is in binary form. -/
theorem ofText_toBytes {form : Form} (hform : form ≠ .binary) {j : Json} (h : j.IsReadable) :
    (bytes (value form j).toBytes).ofText = (value form j).ofText := by
  cases form with
  | line => exact ofText_bytes h.isHalf_of_mem_render (Json.parse?_render h)
  | lines => exact ofText_bytes h.isHalf_of_mem_renderLines (Json.parse?_renderLines h)
  | binary => contradiction

end Concordance.Content

namespace Concordance.Database

/-- What a database gives under a key is what its text gives. -/
theorem read?_eq_parse? {db : Database} (h : ∀ r ∈ db.records.entries, r.2.IsReadable)
    (key : Text) : db.read? key = (db.records.get? key).bind fun j => Json.parse? j.render := by
  rw [read?]
  cases hget : db.records.get? key with
  | none => rfl
  | some j => exact (Json.parse?_render (h _ (Table.mem_entries_iff.mpr hget))).symm

end Concordance.Database
