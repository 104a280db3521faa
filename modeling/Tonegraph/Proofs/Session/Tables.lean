import Mathlib.Data.Set.Finite.Basic
import Tonegraph.Proofs.Loading
/-!
# Any table is kept

A session holds any count and any finite table of records under indices; the two need not fit
together. A table is told by what is found in it (`Session.Table.ext_get?`), and a record that is put
into it is found under its index, with everything else as it was (`Session.Table.get?_insert`), so
for every count and every finite table there is one session (`Session.exists_table`). Its document
leads back to it: `Session.read_write_table`.
-/

set_option autoImplicit false

namespace Tonegraph.Session

namespace Table

/-! ## What is found in a table -/

theorem get?_eq_some_iff {table : Table} {index : UInt64} {record : Record} :
    table.get? index.toNat = some record ↔ (index, record) ∈ table.entries := by
  constructor
  · intro found
    obtain ⟨entry, first, rfl⟩ := Option.map_eq_some_iff.mp found
    have key : entry.1.toNat = index.toNat := by simpa using List.find?_some first
    rw [← UInt64.toNat_inj.mp key]
    exact List.mem_of_find?_eq_some first
  · intro member
    obtain ⟨passed, left, entries⟩ := List.append_of_mem member
    exact get?_of_entries entries

/-- A table is told by what is found in it. -/
theorem ext_get? {table other : Table}
    (same : ∀ index : UInt64, table.get? index.toNat = other.get? index.toNat) : table = other := by
  have irrefl : Std.Irrefl fun a b : UInt64 × Record => a.1 < b.1 := ⟨fun _ => UInt64.lt_irrefl _⟩
  have antisymm : Std.Antisymm fun a b : UInt64 × Record => a.1 < b.1 :=
    ⟨fun _ _ below above => absurd above (UInt64.lt_asymm below)⟩
  have entries : table.entries = other.entries := by
    refine table.ascending.eq_of_mem_iff other.ascending fun ⟨index, record⟩ => ?_
    rw [← get?_eq_some_iff, ← get?_eq_some_iff, same]
  cases table
  cases other
  cases entries
  rfl

theorem find?_insertEntry (index : UInt64) (record : Record) (entries : List (UInt64 × Record))
    (wanted : UInt64) :
    (insertEntry index record entries).find? (·.1.toNat = wanted.toNat) =
      if wanted = index then some (index, record)
      else entries.find? (·.1.toNat = wanted.toNat) := by
  induction entries with
  | nil => by_cases own : wanted = index <;> simp [insertEntry, UInt64.toNat_inj, own, eq_comm]
  | cons first rest ih =>
      rw [insertEntry]
      split
      · by_cases own : wanted = index <;> simp [UInt64.toNat_inj, own, eq_comm]
      · split
        · next same =>
            subst same
            by_cases own : wanted = first.1 <;> simp [UInt64.toNat_inj, own, eq_comm]
        · next differs =>
            rw [List.find?_cons, List.find?_cons, ih]
            by_cases own : wanted = index
            · simp [UInt64.toNat_inj, own, Ne.symm differs]
            · simp [own]

/-- A record that is put into a table is found under its index, and all others as before. -/
theorem get?_insert (index : UInt64) (record : Record) (table : Table) (wanted : UInt64) :
    (table.insert index record).get? wanted.toNat =
      if wanted = index then some record else table.get? wanted.toNat := by
  rw [get?, insert, find?_insertEntry]
  split <;> rfl

end Table

theorem exists_table_upto (functions : UInt64 → Option Record) (indices : List UInt64) :
    ∃ table : Table, ∀ index,
      table.get? index.toNat = if index ∈ indices then functions index else none := by
  induction indices with
  | nil => exact ⟨.empty, fun _ => rfl⟩
  | cons next rest ih =>
      obtain ⟨table, found⟩ := ih
      cases own : functions next with
      | none =>
          refine ⟨table, fun index => ?_⟩
          by_cases same : index = next <;> simp [found, same, own]
      | some record =>
          refine ⟨table.insert next record, fun index => ?_⟩
          by_cases same : index = next <;> simp [found, Table.get?_insert, same, own]

/-- There is a table for any finite number of records under indices. -/
theorem exists_table {functions : UInt64 → Option Record}
    (finite : {index | functions index ≠ none}.Finite) :
    ∃ table : Table, ∀ index, table.get? index.toNat = functions index := by
  obtain ⟨indices, among⟩ := finite.exists_finset
  obtain ⟨table, found⟩ := exists_table_upto functions indices.toList
  refine ⟨table, fun index => (found index).trans ?_⟩
  have member : index ∈ indices.toList ↔ functions index ≠ none :=
    Finset.mem_toList.trans (among index)
  split
  · rfl
  · next outside => exact (not_not.mp (mt member.mpr outside)).symm

/-- **Every session is read back.** For every count and every finite table of records under indices,
whether or not they fit together, there is exactly one session that holds them, and its document is
read as that session. -/
theorem read_write_table (count : UInt64) (functions : UInt64 → Option Record)
    (finite : {index | functions index ≠ none}.Finite) :
    ∃ s : Session, s.count = count ∧ (∀ index, s.table.get? index.toNat = functions index) ∧
      (∀ other : Session, other.count = count →
        (∀ index, other.table.get? index.toNat = functions index) → other = s) ∧
      read s.write = .ok s := by
  obtain ⟨table, found⟩ := exists_table finite
  refine ⟨⟨count, table⟩, rfl, found, ?_, read_write _⟩
  rintro ⟨otherCount, other⟩ rfl same
  have tables : other = table := Table.ext_get? fun index => (same index).trans (found index).symm
  rw [tables]

/-- Two records far apart, of which one has a text with a quote, a backslash, a line break, a control
character and a letter beyond 16 bits, and bounds as far out as there are. -/
def scattered (index : UInt64) : Option Record :=
  if index = 7 then some ⟨"\"t\\\n\x01𝄞", Int32.minValue, Int32.maxValue⟩
  else if index = 18446744073709551615 then some ⟨"", 0, -1⟩
  else none

theorem scattered_finite : {index | scattered index ≠ none}.Finite := by
  refine Set.Finite.subset (Set.toFinite {7, 18446744073709551615}) fun index present => ?_
  by_contra other
  simp only [Set.mem_insert_iff, Set.mem_singleton_iff, not_or] at other
  exact present (by rw [scattered, if_neg other.1, if_neg other.2])

/-- They are read back, with a count that is neither of their number nor of an index. -/
theorem scattered_read_back :
    {index | scattered index ≠ none}.Finite ∧
      ∃ s : Session, s.count = 3 ∧
        s.table.get? 7 = some ⟨"\"t\\\n\x01𝄞", Int32.minValue, Int32.maxValue⟩ ∧
        s.table.get? 18446744073709551615 = some ⟨"", 0, -1⟩ ∧ s.table.get? 0 = none ∧
        read s.write = .ok s := by
  obtain ⟨s, count, found, -, back⟩ := read_write_table 3 scattered scattered_finite
  exact ⟨scattered_finite, s, count, found 7, found 18446744073709551615, found 0, back⟩

end Tonegraph.Session
