import Concordance.Json.Ids
import Concordance.Proofs.Decimal
import Concordance.Proofs.Except
import Concordance.Proofs.RestoredValues

/-!
# Tables with ids as keys are read back

What is written of a table gives the table back or nothing. It gives nothing only where an
id has too many digits to be read.
-/
namespace Concordance

namespace IdKeys

variable {α : Type} {encode : α → Json} {decode : Json → Except Failure α}

/-- Whether an id is read back when it is kept in a way. As a number each is, in decimal those that
have not too many digits. -/
def Keeps (keys : IdKeys) (doc : Int) : Prop :=
  match keys with
  | names => isWritable doc = true
  | numbers => True

/-- A key as it is written. -/
def keyOf (keys : IdKeys) (doc : Int) : Json :=
  match keys with
  | names => .str (decimal doc)
  | numbers => .int doc

theorem toInteger_keyOf {keys : IdKeys} {doc : Int} (h : keys.Keeps doc) :
    (keys.keyOf doc).toInteger = .ok doc := by
  cases keys with
  | names =>
    have hdigits : isWritable doc = true := h
    rw [keyOf, Json.toInteger, readInteger_decimal, if_pos hdigits]
  | numbers => rfl

theorem keeps_of_toInteger {keys : IdKeys} {doc doc' : Int}
    (h : (keys.keyOf doc).toInteger = .ok doc') : keys.Keeps doc := by
  cases keys with
  | names =>
    rw [keyOf, Json.toInteger, readInteger_decimal] at h
    by_cases hdigits : isWritable doc = true
    · exact hdigits
    · rw [if_neg hdigits] at h
      contradiction
  | numbers => trivial

theorem pairs_write (keys : IdKeys) (encode : α → Json) (t : Table Int α) :
    keys.pairs (keys.write encode t) =
      .ok (t.entries.map fun e => (keys.keyOf e.1, encode e.2)) := by
  cases keys with
  | names =>
    change Except.ok ((t.entries.map fun e => (decimal e.1, encode e.2)).map
      fun m => (Json.str m.1, m.2)) = _
    rw [List.map_map]
    rfl
  | numbers => exact mapM_map_ok fun _ _ => rfl

/-- A table is read back as it was written, if its ids are. -/
theorem read_write (hcode : ∀ x, decode (encode x) = .ok x) {keys : IdKeys} {t : Table Int α}
    (h : ∀ e ∈ t.entries, keys.Keeps e.1) : keys.read decode (keys.write encode t) = .ok t := by
  have hentries : (t.entries.map fun e => (keys.keyOf e.1, encode e.2)).mapM (entryOf decode) =
      .ok (t.entries.map id) :=
    mapM_map_ok fun e he => by
      rw [entryOf, toInteger_keyOf (h e he), ok_bind, hcode]
      rfl
  rw [List.map_id] at hentries
  rw [read, pairs_write, ok_bind, hentries, ok_bind, Table.ofList_entries]
  rfl

/-- What is read of a table that was written is the table. -/
theorem eq_of_read_write (hcode : ∀ x, decode (encode x) = .ok x) {keys : IdKeys}
    {t t' : Table Int α} (h : keys.read decode (keys.write encode t) = .ok t') : t' = t := by
  -- A table with an id that is not read back is not read at all.
  have hkeeps : ∀ e ∈ t.entries, keys.Keeps e.1 := by
    rw [read, pairs_write, ok_bind, bind_eq_ok_iff] at h
    obtain ⟨entries, hentries, -⟩ := h
    intro e he
    obtain ⟨entry, hentry⟩ := exists_ok_of_mapM_ok hentries _ (List.mem_map_of_mem he)
    rw [entryOf, bind_eq_ok_iff] at hentry
    obtain ⟨doc, hdoc, -⟩ := hentry
    exact keeps_of_toInteger hdoc
  rw [read_write hcode hkeeps] at h
  exact (Except.ok.inj h).symm

/-- A table in text is restored as itself if its values are. -/
theorem restored_write {t : Table Int α} (h : ∀ e ∈ t.entries, (encode e.2).restored = encode e.2) :
    (names.write encode t).restored = names.write encode t := by
  have hdistinct : ((t.entries.map fun e => (decimal e.1, encode e.2)).map Prod.fst).Nodup := by
    rw [List.map_map]
    have hkeys := t.distinct.map (f := decimal) fun _ _ => decimal_injective
    rwa [List.map_map] at hkeys
  have hnames : ∀ m ∈ t.entries.map fun e => (decimal e.1, encode e.2), hasPair m.1 = false := by
    rintro m hm
    obtain ⟨e, -, rfl⟩ := List.mem_map.mp hm
    exact hasPair_decimal e.1
  show Json.restored (.obj (t.entries.map fun e => (decimal e.1, encode e.2))) =
    .obj (t.entries.map fun e => (decimal e.1, encode e.2))
  rw [Json.restored_obj_of_names hnames hdistinct, List.map_map]
  congr 1
  refine List.map_congr_left fun e he => ?_
  rw [Function.comp_apply, h e he]

end IdKeys

end Concordance
