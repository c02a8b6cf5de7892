import Concordance.Proofs.SampledLines

/-!
# Lines that cannot be read

A line that cannot be read is reported and gives nothing, and the lines around it give what they
would give if it were blank. There is one exception. An infinite id cannot be made an integer
either, but the line that has it ends the loading.
-/
namespace Concordance

open Float.Model (UnpackedFloat)

/-- Only the infinities and what is no number have no exact value. -/
theorem Dyadic.ofFloat_eq_none_iff {x : Float} :
    ofFloat x = none ↔ x.isNaN = true ∨ x.isInf = true := by
  have hbiased : @UnpackedFloat.unpackExponent .binary64 x.toBits.toBitVec = -1 ↔
      x.toBits.toNat / Nat.pow 2 52 % Nat.pow 2 11 = 2047 := by
    rw [← BitVec.toNat_inj, UnpackedFloat.unpackExponent, BitVec.toNat_cast,
      BitVec.extractLsb_toNat, Nat.shiftRight_eq_div_pow]
    rfl
  have hspecial : x.isNaN = true ∨ x.isInf = true ↔
      @UnpackedFloat.unpackExponent .binary64 x.toBits.toBitVec = -1 := by
    let special (u : UnpackedFloat) : Prop := u.isNaN = true ∨ u.isInf = true
    show special x.toModel.unpack ↔ _
    refine iteInduction (motive := fun u => special u ↔ _) (fun h => iff_of_true ?_ h)
      (fun h => iff_of_false ?_ h)
    · exact iteInduction (motive := special) (fun _ => .inr rfl) fun _ => .inl rfl
    · refine iteInduction (motive := fun u => ¬special u) (fun _ => ?_) fun _ => nofun
      by_cases hzero : @UnpackedFloat.unpackMantissa .binary64 x.toModel.toBits.toBitVec = 0#_
      · rw [dif_pos hzero]
        exact nofun
      · rw [dif_neg hzero]
        exact nofun
  rw [hspecial, hbiased]
  unfold ofFloat
  simp only
  split
  · next h => exact iff_of_true rfl h
  · next h =>
    refine iff_of_false ?_ h
    split
    · exact Option.some_ne_none _
    · exact Option.some_ne_none _

theorem isNaN_of_isInf {x : Float} (h : x.isInf = true) : x.isNaN = false := by
  replace h : x.toModel.unpack.isInf = true := h
  show x.toModel.unpack.isNaN = false
  cases hx : x.toModel.unpack with
  | infinity sign => rfl
  | _ =>
    rw [hx] at h
    cases h

namespace Json

/-- What has no integer part because it is infinite is an infinite double. -/
theorem toInteger_eq_infinite_iff {v : Json} :
    v.toInteger = .error .infinite ↔ ∃ x, v = .float x ∧ x.isInf = true := by
  constructor
  · intro h
    cases v with
    | float x =>
      refine ⟨x, rfl, ?_⟩
      rw [toInteger] at h
      cases hx : Dyadic.ofFloat x with
      | some d =>
        rw [hx] at h
        cases h
      | none =>
        rw [hx] at h
        rcases Dyadic.ofFloat_eq_none_iff.mp hx with hnan | hinf
        · rw [hnan] at h
          cases h
        · exact hinf
    | str t =>
      rw [toInteger] at h
      cases ht : readInteger t with
      | some n =>
        rw [ht] at h
        cases h
      | none =>
        rw [ht] at h
        cases h
    | _ => cases h
  · rintro ⟨x, rfl, hinf⟩
    have hx : Dyadic.ofFloat x = none := Dyadic.ofFloat_eq_none_iff.mpr (.inr hinf)
    rw [toInteger, hx, isNaN_of_isInf hinf]
    rfl

theorem toInteger_ne_leftOpen (v : Json) : v.toInteger ≠ .error .leftOpen := by
  cases v with
  | float x =>
    rw [toInteger]
    split
    · nofun
    · split <;> nofun
  | str t =>
    rw [toInteger]
    split <;> nofun
  | _ => nofun

end Json

namespace Dataset

variable {o : DatasetOptions} {bytes : ByteArray} {text : String}

/-- A line that is not blank cannot be read for a reason: it is no JSON, or it is no object, or the
id that it names cannot be made an integer. -/
inductive Unreadable (o : DatasetOptions) (line : Text × Nat) : Failure → Prop
  | notJson (hblank : line.1.all isBlank = false) (hparse : Json.parse? line.1 = none) :
    Unreadable o line .notJson
  | noObject (hblank : line.1.all isBlank = false) (value : Json)
    (hparse : Json.parse? line.1 = some value) (hvalue : ∀ members, value ≠ .obj members) :
    Unreadable o line .noMembers
  | noInteger (hblank : line.1.all isBlank = false) (members : List (Text × Json)) (id : Json)
    (reason : Failure) (hparse : Json.parse? line.1 = some (.obj members))
    (hid : memberOr (.int line.2) o.idField members = .ok id)
    (hinteger : id.toInteger = .error reason) : Unreadable o line reason

/-- A line that is not blank has an infinite id. -/
def HasInfiniteId (o : DatasetOptions) (line : Text × Nat) : Prop :=
  line.1.all isBlank = false ∧ ∃ members x, Json.parse? line.1 = some (.obj members) ∧
    memberOr (.int line.2) o.idField members = .ok (.float x) ∧ x.isInf = true

theorem readLine_eq_none_iff {line : Text × Nat} :
    readLine o line.2 line.1 = .ok none ↔ line.1.all isBlank = true := by
  constructor
  · intro h
    by_contra hblank
    rw [readLine, if_neg hblank] at h
    split at h
    · cases h
    · obtain ⟨_, -, h⟩ := bind_eq_ok_iff.mp h
      obtain ⟨_, -, h⟩ := bind_eq_ok_iff.mp h
      obtain ⟨_, -, h⟩ := bind_eq_ok_iff.mp h
      cases h
    · cases h
  · intro hblank
    rw [readLine, if_pos hblank]

section Line

variable {line : Text × Nat}

theorem readLine_of_unreadable {reason : Failure} (h : Unreadable o line reason) :
    readLine o line.2 line.1 = .error reason := by
  have hblank : line.1.all isBlank = false := by
    cases h <;> assumption
  rw [readLine, hblank, if_neg Bool.false_ne_true]
  cases h with
  | notJson _ hparse => rw [hparse]
  | noObject _ value hparse hvalue =>
    rw [hparse]
    cases value with
    | obj members => exact absurd rfl (hvalue members)
    | _ => rfl
  | noInteger _ members id reason hparse hid hinteger =>
    rw [hparse]
    simp only [hid, hinteger, ok_bind, error_bind]

theorem documentOn_of_unreadable {reason : Failure} (h : Unreadable o line reason) :
    documentOn o line = none := by
  rw [documentOn, readLine_of_unreadable h]
  rfl

theorem documentOn_of_blank (h : line.1.all isBlank = true) :
    documentOn o line = none := by
  rw [documentOn, readLine_eq_none_iff.mpr h]
  rfl

variable (hid : o.idField.isOpen = false) (hcontent : o.textField.isOpen = false)
include hid hcontent

/-- Where no field is left open, what cannot be read is a line that is no JSON, no object, or names
what cannot be made an integer. -/
theorem readLine_eq_error_iff {reason : Failure} :
    readLine o line.2 line.1 = .error reason ↔ Unreadable o line reason := by
  refine ⟨fun h => ?_, readLine_of_unreadable⟩
  have hblank : line.1.all isBlank = false := by
    by_contra hall
    rw [Bool.not_eq_false] at hall
    rw [readLine_eq_none_iff.mpr hall] at h
    cases h
  rw [readLine, hblank, if_neg Bool.false_ne_true] at h
  cases hparse : Json.parse? line.1 with
  | none =>
    rw [hparse] at h
    cases h
    exact .notJson hblank hparse
  | some value =>
    rw [hparse] at h
    cases value with
    | obj members =>
      obtain ⟨id, hmember⟩ : ∃ id, memberOr (.int line.2) o.idField members = .ok id :=
        exists_memberOr hid
      obtain ⟨content, htext⟩ : ∃ content, memberOr (.str []) o.textField members = .ok content :=
        exists_memberOr hcontent
      simp only [hmember, htext, ok_bind] at h
      cases hinteger : id.toInteger with
      | error e =>
        rw [hinteger] at h
        cases h
        exact .noInteger hblank members id reason hparse hmember hinteger
      | ok doc =>
        rw [hinteger] at h
        cases h
    | _ =>
      cases h
      refine .noObject hblank _ hparse fun members hvalue => ?_
      cases hvalue

/-- What ends the loading is an infinite id. -/
theorem endsAt_iff : EndsAt o line ↔ HasInfiniteId o line := by
  constructor
  · rintro ⟨reason, hreason, hends⟩
    cases (readLine_eq_error_iff hid hcontent).mp hreason with
    | notJson => cases hends
    | noObject => cases hends
    | noInteger hblank members id _ hparse hmember hinteger =>
      have hinfinite : reason = .infinite := by
        rw [ends, Bool.or_eq_true, decide_eq_true_eq, decide_eq_true_eq] at hends
        rcases hends with rfl | rfl
        · rfl
        · exact absurd hinteger (Json.toInteger_ne_leftOpen id)
      subst hinfinite
      obtain ⟨x, rfl, hinf⟩ := Json.toInteger_eq_infinite_iff.mp hinteger
      exact ⟨hblank, members, x, hparse, hmember, hinf⟩
  · rintro ⟨hblank, members, x, hparse, hmember, hinf⟩
    have hinteger := Json.toInteger_eq_infinite_iff.mpr ⟨x, rfl, hinf⟩
    exact ⟨.infinite, readLine_of_unreadable
      (.noInteger hblank members (.float x) .infinite hparse hmember hinteger), rfl⟩

/-- A line that is neither blank nor unreadable gives a document. -/
theorem exists_readLine_of_readable (hblank : line.1.all isBlank = false)
    (hgood : ∀ reason, ¬Unreadable o line reason) :
    ∃ d, readLine o line.2 line.1 = .ok (some d) := by
  cases hline : readLine o line.2 line.1 with
  | error reason => exact absurd ((readLine_eq_error_iff hid hcontent).mp hline) (hgood reason)
  | ok d =>
    cases d with
    | none =>
      rw [readLine_eq_none_iff.mp hline] at hblank
      cases hblank
    | some d => exact ⟨d, rfl⟩

end Line

/-- The lines that are looked at with a limit, with their numbers. -/
def lookedAt (k : Option Nat) (bytes : ByteArray) : List (Text × Nat) :=
  (within k (linesOf bytes)).zipIdx 1

theorem zipIdx_set {α : Type} (l : List α) (i n : Nat) (a : α) :
    (l.set i a).zipIdx n = (l.zipIdx n).set i (a, n + i) := by
  induction l generalizing i n with
  | nil => rfl
  | cons b rest ih =>
    cases i with
    | zero => rfl
    | succ i =>
      have hnumber : n + (i + 1) = n + 1 + i := by omega
      rw [List.set_cons_succ, List.zipIdx_cons, List.zipIdx_cons, List.set_cons_succ, hnumber, ih]

/-- Of what gives nothing, one may stand in place of another. -/
theorem filterMap_set_of_none {α β : Type} {f : α → Option β} {l : List α} {i : Nat} {new : α}
    (hold : ∀ old, l[i]? = some old → f old = none) (hnew : f new = none) :
    (l.set i new).filterMap f = l.filterMap f := by
  induction l generalizing i with
  | nil => rfl
  | cons a rest ih =>
    cases i with
    | zero =>
      rw [List.set_cons_zero, List.filterMap_cons_none hnew, List.filterMap_cons_none (hold a rfl)]
    | succ i =>
      rw [List.set_cons_succ, List.filterMap_cons, List.filterMap_cons, ih hold]

theorem lookedAt_replaced {k : Option Nat} {bytes' : ByteArray} {i : Nat} {new : Text}
    (hlines : linesOf bytes' = (linesOf bytes).set i new) :
    lookedAt k bytes' = (lookedAt k bytes).set i (new, i + 1) := by
  have hwithin : within k ((linesOf bytes).set i new) = (within k (linesOf bytes)).set i new := by
    cases k with
    | none => rfl
    | some k => exact List.take_set ..
  rw [lookedAt, lookedAt, hlines, hwithin, zipIdx_set, Nat.add_comm]

theorem of_getElem?_lookedAt {k : Option Nat} {i : Nat} {line : Text × Nat}
    (h : (lookedAt k bytes)[i]? = some line) :
    ∃ text, (linesOf bytes)[i]? = some text ∧ line = (text, i + 1) := by
  rw [lookedAt, List.getElem?_zipIdx, Option.map_eq_some_iff] at h
  obtain ⟨text, htext, rfl⟩ := h
  refine ⟨text, ?_, by rw [Nat.add_comm]⟩
  cases k with
  | none => exact htext
  | some k =>
    rw [within, List.getElem?_take] at htext
    split at htext
    · exact htext
    · cases htext

section Limit

variable {k : Option Nat} (hid : o.idField.isOpen = false) (hcontent : o.textField.isOpen = false)
  (hlimit : limit o.sampleSize = .ok k)
include hid hcontent hlimit

/-- Loading gets to the end exactly if no line that is looked at has an infinite id. -/
theorem failure_loadBytes_of_limit (htext : String.fromUTF8? bytes = some text) :
    (loadBytes o bytes).failure = none ↔ ∀ line ∈ lookedAt k bytes, ¬HasInfiniteId o line := by
  rw [loadBytes_of_text htext hlimit, failure_loadFrom_eq_none_iff]
  simp only [true_and, endsAt_iff hid hcontent]
  rfl

/-- If no line that is looked at has an infinite id, each of them gives what it gives by itself. -/
theorem loadBytes_of_limit (htext : String.fromUTF8? bytes = some text)
    (h : ∀ line ∈ lookedAt k bytes, ¬HasInfiniteId o line) :
    loadBytes o bytes =
      ⟨(lookedAt k bytes).filterMap (documentOn o), (lookedAt k bytes).filterMap (reportOn o),
        none⟩ := by
  rw [loadBytes_of_text htext hlimit]
  refine loadFrom_of_goes fun line hline => ?_
  rw [endsAt_iff hid hcontent]
  exact h line hline

/-- In a file that loads, a line that cannot be read can as well be blank. -/
theorem loadBytes_blanked {bytes' : ByteArray} {text' : String} {i : Nat} {bad blank : Text}
    {reason : Failure} (htext : String.fromUTF8? bytes = some text)
    (htext' : String.fromUTF8? bytes' = some text')
    (h : ∀ line ∈ lookedAt k bytes, ¬HasInfiniteId o line)
    (hbad : (linesOf bytes)[i]? = some bad) (hreason : Unreadable o (bad, i + 1) reason)
    (hblank : blank.all isBlank = true) (hlines : linesOf bytes' = (linesOf bytes).set i blank) :
    (loadBytes o bytes').failure = none ∧
      (loadBytes o bytes').documents = (loadBytes o bytes).documents := by
  have hset : lookedAt k bytes' = (lookedAt k bytes).set i (blank, i + 1) :=
    lookedAt_replaced hlines
  have hgoes : ∀ line ∈ lookedAt k bytes', ¬HasInfiniteId o line := by
    intro line hline
    rw [hset] at hline
    rcases List.mem_or_eq_of_mem_set hline with hline | rfl
    · exact h line hline
    · rintro ⟨hnot, -⟩
      exact Bool.false_ne_true (hnot.symm.trans hblank)
  refine ⟨(failure_loadBytes_of_limit hid hcontent hlimit htext').mpr hgoes, ?_⟩
  rw [loadBytes_of_limit hid hcontent hlimit htext' hgoes,
    loadBytes_of_limit hid hcontent hlimit htext h, hset]
  refine filterMap_set_of_none (fun line hline => ?_) (documentOn_of_blank hblank)
  obtain ⟨old, hold, rfl⟩ := of_getElem?_lookedAt hline
  rw [hbad] at hold
  cases hold
  exact documentOn_of_unreadable hreason

end Limit

/-- A dataset of which no line stops the loading: all lines that are looked at are read, and those
that cannot be read are reported and left out. -/
structure SkipsUnreadable (o : DatasetOptions) (k : Option Nat) (bytes : ByteArray) : Prop where
  failure : (loadBytes o bytes).failure = none
  documents : (loadBytes o bytes).documents = (lookedAt k bytes).filterMap (documentOn o)
  log : (loadBytes o bytes).log = (lookedAt k bytes).filterMap (reportOn o)
  unreadable : ∀ line reason, Unreadable o line reason →
    documentOn o line = none ∧ reportOn o line = some (lineError line.2 reason)
  blank : ∀ line : Text × Nat, line.1.all isBlank = true →
    documentOn o line = none ∧ reportOn o line = none
  /-- Every other line gives a document. -/
  readable : ∀ line : Text × Nat, line.1.all isBlank = false →
    (∀ reason, ¬Unreadable o line reason) →
      (documentOn o line).isSome = true ∧ reportOn o line = none
  /-- The documents are those of the file in which a line that cannot be read is blank. -/
  blanked : ∀ bytes' text' i bad blank reason, String.fromUTF8? bytes' = some text' →
    (linesOf bytes)[i]? = some bad → Unreadable o (bad, i + 1) reason →
    blank.all isBlank = true → linesOf bytes' = (linesOf bytes).set i blank →
      (loadBytes o bytes').failure = none ∧
        (loadBytes o bytes').documents = (loadBytes o bytes).documents

/-- Unless one of the lines that are looked at has an infinite id, no line stops a dataset. -/
theorem skipsUnreadable {k : Option Nat} (hid : o.idField.isOpen = false)
    (hcontent : o.textField.isOpen = false) (hlimit : limit o.sampleSize = .ok k)
    (htext : String.fromUTF8? bytes = some text)
    (h : ∀ line ∈ lookedAt k bytes, ¬HasInfiniteId o line) : SkipsUnreadable o k bytes where
  failure := (failure_loadBytes_of_limit hid hcontent hlimit htext).mpr h
  documents := by rw [loadBytes_of_limit hid hcontent hlimit htext h]
  log := by rw [loadBytes_of_limit hid hcontent hlimit htext h]
  unreadable line reason hbad := by
    refine ⟨documentOn_of_unreadable hbad, ?_⟩
    rw [reportOn, readLine_of_unreadable hbad]
  blank line hblank := by
    refine ⟨documentOn_of_blank hblank, ?_⟩
    rw [reportOn, readLine_eq_none_iff.mpr hblank]
  readable line hblank hgood := by
    obtain ⟨d, hd⟩ := exists_readLine_of_readable hid hcontent hblank hgood
    rw [documentOn, reportOn, hd]
    exact ⟨rfl, rfl⟩
  blanked _ _ _ _ _ _ htext' hbad hreason hblank hlines :=
    loadBytes_blanked hid hcontent hlimit htext htext' h hbad hreason hblank hlines

/-- The theorem at a file with a line of every kind, which has an infinite id behind the lines that
are looked at. -/
theorem skipsUnreadable_every_kind :
    let text := "\x7b\"id\": 10\x7d\n\x7bnot json\n[1]\r\n\n\x7b\"id\": \"x\"\x7d\n" ++
      "\x7b\"id\": NaN\x7d\n\x7b\"id\": null\x7d\n\x7b\"text\": \"cat\"\x7d\n" ++
      "\x7b\"id\": Infinity\x7d\n"
    let o : DatasetOptions := ⟨.str ['i', 'd'], .str ['t', 'e', 'x', 't'], .int 8⟩
    SkipsUnreadable o (some 8) text.toUTF8 ∧
      (loadBytes o text.toUTF8).documents.map Prod.fst = [10, 8] ∧
      (loadBytes o text.toUTF8).log = [lineError 2 .notJson, lineError 3 .noMembers,
        lineError 5 .notAnInteger, lineError 6 .notAnInteger, lineError 7 .wrongKind] := by
  intro text o
  have htext : String.fromUTF8? text.toUTF8 = some text := fromUTF8?_toUTF8 text
  have hfailure : (loadBytes o text.toUTF8).failure = none := by decide +kernel
  have hfinite := (failure_loadBytes_of_limit rfl rfl rfl htext).mp hfailure
  exact ⟨skipsUnreadable rfl rfl rfl htext hfinite, by decide +kernel⟩

/-- An infinite id cannot be made an integer, and yet its line is not skipped. What is behind it is
not loaded, though it is when the line is blank. -/
theorem infinite_id_stops_dataset :
    let o : DatasetOptions := ⟨.str ['i', 'd'], .str ['t', 'e', 'x', 't'], .null⟩
    let bad := "\x7b\"id\": Infinity, \"text\": \"v\"\x7d"
    let fileWith (second : String) := ("\x7b\"id\": 1, \"text\": \"before\"\x7d\n" ++ second ++
      "\n\x7b\"id\": 3, \"text\": \"after\"\x7d\n").toUTF8
    Unreadable o (bad.toText, 2) .infinite ∧ (linesOf (fileWith bad))[1]? = some bad.toText ∧
      linesOf (fileWith "") = (linesOf (fileWith bad)).set 1 [] ∧
      (loadBytes o (fileWith bad)).failure = some .infinite ∧
      (loadBytes o (fileWith bad)).log = [] ∧
      (loadBytes o (fileWith bad)).documents.map Prod.fst = [1] ∧
      (loadBytes o (fileWith "")).failure = none ∧
      (loadBytes o (fileWith "")).documents.map Prod.fst = [1, 3] := by
  intro o bad fileWith
  have hend : endOn o (bad.toText, 2) = some .infinite := by decide +kernel
  have hbad : Unreadable o (bad.toText, 2) .infinite :=
    (readLine_eq_error_iff rfl rfl).mp (readLine_of_endOn hend)
  exact ⟨hbad, by decide +kernel⟩

end Dataset
end Concordance
