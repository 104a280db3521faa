import Tonegraph.Proofs.Document.Literal
/-!
# Objects are read as they were laid out

A written object is its opening brace and then what `entriesText` gives: entry by entry a line of
its own, with a comma before each but the first, and the closing brace. The readers of objects go
through it in the same order, one entry in one turn, so what they take is shown from the last entry
backwards: `members_of_end` and `members_of_entry` for a record, `tableEntries_takes` for a table.

The readers count turns down from the length of the text. What is shown of their loops holds of any
number of turns beyond the number of entries.
-/

set_option autoImplicit false

namespace Tonegraph.Document

variable {α σ : Type}

/-! ## The text of an object -/

/-- What parts an entry from what is before it. -/
def separator (isFirst : Bool) : List Char := if isFirst then [] else [',']

/-- An object from some entry on. -/
def entriesText (depth : Nat) : Bool → List (List Char × List Char) → List Char
  | _, [] => '\n' :: (indent depth ++ ['\x7d'])
  | isFirst, entry :: rest =>
    separator isFirst ++ '\n' :: (entryLine (depth + 1) entry ++ entriesText depth false rest)

theorem intercalate_entries (depth : Nat) (entry : List Char × List Char)
    (rest : List (List Char × List Char)) :
    [',', '\n'].intercalate ((entry :: rest).map (entryLine (depth + 1))) ++
        ['\n'] ++ indent depth ++ ['\x7d'] =
      entryLine (depth + 1) entry ++ entriesText depth false rest := by
  induction rest generalizing entry with
  | nil => simp [List.intercalate, entriesText]
  | cons next rest ih =>
      have tail := ih next
      simp only [List.intercalate, List.map_cons, List.intersperse_cons_cons, List.flatten_cons,
        List.append_assoc] at tail ⊢
      rw [tail]
      simp [entriesText, separator]

theorem object_of_ne_nil (depth : Nat) {entries : List (List Char × List Char)}
    (some : entries ≠ []) : object depth entries = '\x7b' :: entriesText depth true entries := by
  cases entries with
  | nil => exact absurd rfl some
  | cons entry rest =>
      have text := intercalate_entries depth entry rest
      rw [object, if_neg (by simp)]
      simp only [List.append_assoc, List.cons_append, List.nil_append] at text ⊢
      rw [text]
      rfl

theorem indent_isBlank (depth : Nat) : ∀ c ∈ '\n' :: indent depth, isBlank c = true := by
  intro c member
  obtain rfl | indented := List.mem_cons.mp member
  · decide
  · obtain rfl := List.eq_of_mem_replicate indented
    decide

theorem nothing_isBlank : ∀ c ∈ ([] : List Char), isBlank c = true := by simp

theorem blank_isBlank : ∀ c ∈ [' '], isBlank c = true := by
  intro c member
  obtain rfl := List.mem_singleton.mp member
  decide

theorem length_le_entriesText (depth : Nat) (isFirst : Bool)
    (entries : List (List Char × List Char)) :
    entries.length ≤ (entriesText depth isFirst entries).length := by
  induction entries generalizing isFirst with
  | nil => exact Nat.zero_le _
  | cons entry rest ih =>
      have := ih false
      simp only [entriesText, List.length_cons, List.length_append]
      omega

/-- No entry goes on with a number, as it starts with a comma or on a new line. -/
theorem endsNumber_entriesText (depth : Nat) (entries : List (List Char × List Char))
    (rest : List Char) : EndsNumber (entriesText depth false entries ++ rest) := by
  intro c head
  cases entries <;> cases head <;> decide

/-! ## From entry to entry -/

theorem nextName_takes (isFirst : Bool) (depth : Nat) (rest : List Char) :
    Takes (nextName isFirst) (separator isFirst ++ '\n' :: (indent depth ++ '"' :: rest)) true
      rest := by
  have quote : Takes (nextEntry .object isFirst)
      (separator isFirst ++ '\n' :: (indent depth ++ '"' :: rest)) true ('"' :: rest) := by
    have line := peek_takes (indent_isBlank depth) (by decide : isBlank '"' = false) rest
    cases isFirst with
    | true =>
        refine line.bind ?_
        rw [if_neg (by decide), if_pos rfl]
        exact takes_pure true _
    | false =>
        have comma := peek_takes nothing_isBlank (by decide : isBlank ',' = false)
          ('\n' :: (indent depth ++ '"' :: rest))
        have passed := expect_takes nothing_isBlank (by decide : isBlank ',' = false)
          ('\n' :: (indent depth ++ '"' :: rest))
        refine comma.bind ?_
        rw [if_neg (by decide), if_neg (by decide)]
        refine passed.bind (line.bind ?_)
        rw [if_neg (by decide)]
        exact takes_pure true _
  refine quote.bind ?_
  rw [if_pos rfl]
  exact (expect_takes nothing_isBlank (by decide) rest).bind (takes_pure true rest)

theorem nextName_takes_end (isFirst : Bool) {blanks : List Char}
    (blank : ∀ c ∈ blanks, isBlank c = true) (rest : List Char) :
    Takes (nextName isFirst) (blanks ++ '\x7d' :: rest) false rest := by
  have closed : Takes (nextEntry .object isFirst) (blanks ++ '\x7d' :: rest) false rest := by
    refine (peek_takes blank (by decide) rest).bind ?_
    rw [if_pos (by decide)]
    exact (skip_takes _ rest).bind (takes_pure false rest)
  refine closed.bind ?_
  rw [if_neg (by decide)]
  exact takes_pure false rest

/-! ## Records -/

section

variable {members : List (Member σ)} {draft draft' final : σ} {isFirst : Bool} {depth count : Nat}
variable {rest more : List Char}

/-- The members of a record end where the object does. -/
theorem members_of_end (members : List (Member σ)) (isFirst : Bool) (depth : Nat) (draft : σ)
    (rest : List Char) {fuel : Nat} (enough : 0 < fuel) :
    Takes (objectMembers members fuel isFirst draft) (entriesText depth isFirst [] ++ rest) draft
      rest := by
  obtain ⟨fuel, rfl⟩ := Nat.exists_eq_add_of_lt enough
  have ended := nextName_takes_end isFirst (indent_isBlank depth) rest
  rw [entriesText, List.cons_append, List.append_assoc]
  refine ended.bind ?_
  rw [if_neg (by decide)]
  exact takes_pure draft rest

/-- One member of a record fills its place in the draft. -/
theorem members_of_entry {name : String} {value : List Char}
    {entries : List (List Char × List Char)} {member : Member σ}
    (goesOn : ∀ {fuel}, count < fuel →
      Takes (objectMembers members fuel false draft') (entriesText depth false entries ++ rest)
        final more)
    (found : members.find? (·.name = name) = some member) (unfilled : member.isFilled draft = false)
    (fills : Takes (member.fill draft) ([' '] ++ value ++ (entriesText depth false entries ++ rest))
      draft' (entriesText depth false entries ++ rest)) {fuel : Nat} (enough : count + 1 < fuel) :
    Takes (objectMembers members fuel isFirst draft)
      (entriesText depth isFirst ((name.toList, value) :: entries) ++ rest) final more := by
  obtain ⟨fuel, rfl⟩ := Nat.exists_eq_add_of_lt enough
  have text : entriesText depth isFirst ((name.toList, value) :: entries) ++ rest =
      separator isFirst ++ '\n' :: (indent (depth + 1) ++ '"' ::
        (name.toList.flatMap quotedCharacter ++ '"' :: ([] ++ ':' ::
          ([' '] ++ value ++ (entriesText depth false entries ++ rest))))) := by
    simp [entriesText, entryLine, quoted]
  have read := stringRest_takes name.toList
    ([] ++ ':' :: ([' '] ++ value ++ (entriesText depth false entries ++ rest)))
  rw [String.ofList_toList] at read
  rw [text]
  refine (nextName_takes isFirst (depth + 1) _).bind ?_
  rw [if_pos rfl]
  refine read.bind ?_
  rw [found]
  dsimp only
  rw [unfilled, if_neg (by decide)]
  refine (expect_takes nothing_isBlank (by decide) _).bind ?_
  exact fills.bind (goesOn (by omega))

end

/-- A record is read when its members are. -/
theorem recordOf_takes {members : List (Member σ)} {empty draft : σ} {finish : σ → Option α}
    {value : α} {depth : Nat} {entries : List (List Char × List Char)} {rest : List Char}
    (filled : ∀ {fuel}, entries.length < fuel →
      Takes (objectMembers members fuel true empty) (entriesText depth true entries ++ rest) draft
        rest)
    (finished : finish draft = some value) (some : entries ≠ []) {blanks : List Char}
    (blank : ∀ c ∈ blanks, isBlank c = true) :
    Takes (recordOf members empty finish) (blanks ++ object depth entries ++ rest) value rest := by
  have enough : entries.length < (entriesText depth true entries ++ rest).length + 1 := by
    have := length_le_entriesText depth true entries
    rw [List.length_append]
    omega
  rw [object_of_ne_nil depth some, List.append_assoc, List.cons_append]
  refine (peek_takes blank (by decide) _).bind ?_
  have opened : Enclosure.opened? '\x7b' = Option.some .object := by decide
  dsimp only
  rw [opened]
  refine (skip_takes _ _).bind ((takes_get _).bind ((filled enough).bind ?_))
  rw [finished]
  exact takes_pure value rest

/-! ## Tables -/

section

variable {entry : Reader α} {insert : Nat → α → σ → σ} {bound depth : Nat}
variable {written : α → List Char}

theorem quotedCharacter_of_isDigit {c : Char} (digit : c.isDigit = true) :
    quotedCharacter c = [c] := by
  unfold quotedCharacter
  split <;> try exact absurd digit (by decide)
  rw [if_neg]
  intro control
  simp only [Char.isDigit, Bool.and_eq_true, decide_eq_true_eq] at digit
  have least : '0'.toNat ≤ c.toNat := digit.1
  have zero : '0'.toNat = 0x30 := by decide
  omega

theorem quoted_naturalText (n : Nat) : quoted (naturalText n) = '"' :: naturalText n ++ ['"'] := by
  have plain : ∀ {digits : List Char}, (∀ c ∈ digits, c.isDigit = true) →
      digits.flatMap quotedCharacter = digits := by
    intro digits digit
    induction digits with
    | nil => rfl
    | cons c rest ih =>
        rw [List.flatMap_cons, quotedCharacter_of_isDigit (digit c List.mem_cons_self),
          ih fun c member => digit c (List.mem_cons_of_mem _ member)]
        rfl
  rw [quoted, plain (naturalText_isDigit n)]

/-- The entries of a table are read in their order and put in one after the other. -/
theorem tableEntries_takes {entries : List (Nat × α)}
    (small : ∀ e ∈ entries, e.1 < bound ∧ e.1 < UInt64.size)
    (reads : ∀ value rest, Takes entry ([' '] ++ written value ++ rest) value rest)
    {isFirst : Bool} {table : σ} (rest : List Char) {fuel : Nat} (enough : entries.length < fuel) :
    Takes (tableEntries bound entry insert fuel isFirst table)
      (entriesText depth isFirst (entries.map fun e => (naturalText e.1, written e.2)) ++ rest)
      (entries.foldl (fun table e => insert e.1 e.2 table) table) rest := by
  induction entries generalizing isFirst table fuel with
  | nil =>
      obtain ⟨fuel, rfl⟩ := Nat.exists_eq_add_of_lt enough
      have ended := nextName_takes_end isFirst (indent_isBlank depth) rest
      rw [List.map_nil, entriesText, List.cons_append, List.append_assoc]
      refine ended.bind ?_
      rw [if_neg (by decide)]
      exact takes_pure table rest
  | cons e entries ih =>
      obtain ⟨fuel, rfl⟩ := Nat.exists_eq_add_of_lt enough
      obtain ⟨inBound, most⟩ := small e List.mem_cons_self
      let behind := entriesText depth false
        (entries.map fun e => (naturalText e.1, written e.2)) ++ rest
      have text : entriesText depth isFirst
          ((e :: entries).map fun e => (naturalText e.1, written e.2)) ++ rest =
          separator isFirst ++ '\n' :: (indent (depth + 1) ++ '"' ::
            (naturalText e.1 ++ '"' :: ([] ++ ':' :: ([' '] ++ written e.2 ++ behind)))) := by
        simp [entriesText, entryLine, quoted_naturalText, behind]
      rw [text]
      refine (nextName_takes isFirst (depth + 1) _).bind ?_
      rw [if_pos rfl]
      refine (naturalKey_takes inBound most _).bind ?_
      refine (expect_takes nothing_isBlank (by decide) _).bind ((reads e.2 behind).bind ?_)
      have fewer : entries.length < (e :: entries).length + fuel := by
        rw [List.length_cons]
        omega
      exact ih (fun e member => small e (List.mem_cons_of_mem _ member)) fewer

theorem tableOf_takes {entries : List (Nat × α)}
    (small : ∀ e ∈ entries, e.1 < bound ∧ e.1 < UInt64.size)
    (reads : ∀ value rest, Takes entry ([' '] ++ written value ++ rest) value rest)
    (empty : σ) {blanks : List Char} (blank : ∀ c ∈ blanks, isBlank c = true) (rest : List Char) :
    Takes (tableOf bound entry insert empty)
      (blanks ++ object depth (entries.map fun e => (naturalText e.1, written e.2)) ++ rest)
      (entries.foldl (fun table e => insert e.1 e.2 table) empty) rest := by
  have opened : Enclosure.opened? '\x7b' = some .object := by decide
  by_cases none : entries = []
  · have ended := nextName_takes_end true nothing_isBlank rest
    subst none
    rw [List.append_assoc]
    refine (peek_takes blank (by decide) _).bind ?_
    rw [if_pos opened]
    refine (skip_takes _ _).bind ((takes_get _).bind (ended.bind ?_))
    rw [if_neg (by decide)]
    exact takes_pure empty rest
  · let texts := entries.map fun e => (naturalText e.1, written e.2)
    have enough : entries.length < (entriesText depth true texts ++ rest).length + 1 := by
      have longer := length_le_entriesText depth true texts
      rw [List.length_map] at longer
      rw [List.length_append]
      omega
    rw [object_of_ne_nil depth (by simpa using none), List.append_assoc, List.cons_append]
    refine (peek_takes blank (by decide) _).bind ?_
    rw [if_pos opened]
    refine (skip_takes _ _).bind ((takes_get _).bind ?_)
    exact tableEntries_takes small reads rest enough

end

end Tonegraph.Document
