import Mathlib.Data.List.Basic
import Tonegraph.Document.Layout
import Tonegraph.Document.Members
import Tonegraph.Proofs.Decimal.Digits
/-!
# Strings and integers are read as they were written

`Takes` says of a reader that it takes a value off the front of a text and leaves the rest. Readers
are composed of steps, and so are these statements (`Takes.bind`): each step is about what its
reader takes, and the text behind it stays a variable.

A quoted string is read back character by character, escapes included (`string_takes`). An integer
in decimal is read back when nothing behind it goes on with the number (`integer_takes`). That it is
not refused as too large has to be shown from how floating-point numbers are rounded
(`WrittenNumber.overflows_eq_false`).
-/

set_option autoImplicit false

namespace Tonegraph.Document

variable {α β : Type}

/-! ## Steps of reading -/

/-- A reader takes a value off the front of a text and leaves the rest. -/
def Takes (reader : Reader α) (text : List Char) (value : α) (rest : List Char) : Prop :=
  reader.run text = .ok (value, rest)

theorem Takes.bind {reader : Reader α} {next : α → Reader β} {text between rest : List Char}
    {a : α} {b : β} (first : Takes reader text a between) (second : Takes (next a) between b rest) :
    Takes (reader >>= next) text b rest := by
  unfold Takes at first second ⊢
  rw [StateT.run_bind, first]
  exact second

theorem takes_pure (value : α) (text : List Char) : Takes (pure value) text value text := rfl

theorem Takes.into {reader : Reader α} {text rest : List Char} {a : α}
    (taken : Takes reader text a rest) (make : α → β) :
    Takes (do return make (← reader)) text (make a) rest :=
  taken.bind (takes_pure (make a) rest)

theorem takes_get (text : List Char) : Takes get text text text := rfl

theorem takes_set (text rest : List Char) : Takes (set rest) text ⟨⟩ rest := rfl

theorem takes_modify (change : List Char → List Char) (text : List Char) :
    Takes (modify change) text ⟨⟩ (change text) := rfl

theorem next?_takes (text : List Char) : Takes next? text text.head? text := rfl

theorem skip_takes (c : Char) (rest : List Char) : Takes skip (c :: rest) ⟨⟩ rest := rfl

theorem inside_takes (c : Char) (rest : List Char) : Takes inside (c :: rest) c rest := rfl

theorem skipIf_takes {isWanted : Char → Bool} {c : Char} (wanted : isWanted c = true)
    (rest : List Char) : Takes (skipIf isWanted) (c :: rest) true rest := by
  refine (next?_takes _).bind ?_
  simp only [List.head?_cons, wanted, if_true]
  exact (skip_takes c rest).bind (takes_pure true rest)

theorem skipIf_passes {isWanted : Char → Bool} {text : List Char}
    (unwanted : ∀ c ∈ text.head?, isWanted c = false) :
    Takes (skipIf isWanted) text false text := by
  refine (next?_takes _).bind ?_
  cases head : text.head? with
  | none => exact takes_pure false text
  | some c =>
      simp only [unwanted c head, Bool.false_eq_true, if_false]
      exact takes_pure false text

theorem peek_takes {blanks : List Char} (blank : ∀ c ∈ blanks, isBlank c = true) {c : Char}
    (visible : isBlank c = false) (rest : List Char) :
    Takes peek (blanks ++ c :: rest) c (c :: rest) := by
  have passed : (blanks ++ c :: rest).dropWhile isBlank = c :: rest := by
    rw [List.dropWhile_append_of_pos blank, List.dropWhile_cons_of_neg (by simp [visible])]
  refine (takes_modify _ _).bind ?_
  rw [passed]
  exact (next?_takes _).bind (takes_pure c _)

theorem expect_takes {blanks : List Char} (blank : ∀ c ∈ blanks, isBlank c = true) {c : Char}
    (visible : isBlank c = false) (rest : List Char) :
    Takes (expect c) (blanks ++ c :: rest) ⟨⟩ rest := by
  refine (peek_takes blank visible rest).bind ?_
  rw [if_pos (beq_self_eq_true c)]
  exact skip_takes c rest

theorem readAll_of_takes {reader : Reader α} {text : List Char} {value : α}
    (taken : Takes reader text value []) : readAll reader text = .ok value := by
  unfold Takes at taken
  rw [readAll, taken]
  rfl

/-! ## Strings -/

theorem hexValue?_digitChar : ∀ n < 16, hexValue? (Nat.digitChar n) = some n := by decide

theorem utf8Size_digitChar : ∀ n < 16, (Nat.digitChar n).utf8Size = 1 := by decide

/-- Four digits of which the first two are zeros stand for a number below 256. -/
theorem hexUnit_takes {n : Nat} (small : n < 256) (rest : List Char) :
    Takes hexUnit ('0' :: '0' :: (twoHexDigits n ++ rest)) n rest := by
  have high : n / 16 < 16 := by omega
  have low : n % 16 < 16 := by omega
  have four : ('0' :: '0' :: (twoHexDigits n ++ rest)).take 4 = '0' :: '0' :: twoHexDigits n := rfl
  have bytes : Text.byteLength ('0' :: '0' :: twoHexDigits n) = 4 := by
    simp only [twoHexDigits, Text.byteLength, utf8Size_digitChar _ high, utf8Size_digitChar _ low]
    rfl
  have values : ('0' :: '0' :: twoHexDigits n).mapM hexValue? = some [0, 0, n / 16, n % 16] := by
    have zero : hexValue? '0' = some 0 := by decide
    simp [twoHexDigits, zero, hexValue?_digitChar _ high, hexValue?_digitChar _ low]
  refine (takes_get _).bind ?_
  rw [four]
  dsimp only
  rw [bytes, if_neg (by decide), values]
  refine (takes_modify _ _).bind ?_
  have value : [0, 0, n / 16, n % 16].foldl (fun value digit => 16 * value + digit) 0 = n := by
    simp only [List.foldl_cons, List.foldl_nil]
    omega
  rw [value]
  exact takes_pure n rest

section

variable {fuel : Nat} {c e : Char} {text more rest : List Char}

/-- The character that stands behind a backslash for another one. -/
theorem characters_of_escape (goesOn : Takes (characters fuel) more text rest)
    (stands : shortEscapes.lookup e = some c) (short : e ≠ 'u') :
    Takes (characters (fuel + 1)) ('\\' :: e :: more) (c :: text) rest := by
  have meant : Takes escaped (e :: more) c more := by
    refine (inside_takes e more).bind ?_
    rw [if_neg (by simpa using short), stands]
    exact takes_pure c more
  refine (inside_takes '\\' _).bind ?_
  rw [if_neg (by decide), if_pos (by decide)]
  exact meant.bind (goesOn.bind (takes_pure _ _))

theorem characters_of_control (goesOn : Takes (characters fuel) more text rest)
    (control : c.toNat < 0x20) :
    Takes (characters (fuel + 1)) ('\\' :: 'u' :: '0' :: '0' :: (twoHexDigits c.toNat ++ more))
      (c :: text) rest := by
  have meant : Takes escaped ('u' :: '0' :: '0' :: (twoHexDigits c.toNat ++ more)) c more := by
    refine (inside_takes 'u' _).bind ?_
    rw [if_pos (by decide)]
    refine (hexUnit_takes (by omega) more).bind ?_
    rw [if_neg (by omega), if_neg (by omega), Char.ofNat_toNat]
    exact takes_pure c more
  refine (inside_takes '\\' _).bind ?_
  rw [if_neg (by decide), if_pos (by decide)]
  exact meant.bind (goesOn.bind (takes_pure _ _))

theorem characters_of_plain (goesOn : Takes (characters fuel) more text rest) (noQuote : c ≠ '"')
    (noBackslash : c ≠ '\\') (noControl : ¬c.toNat < 0x20) :
    Takes (characters (fuel + 1)) (c :: more) (c :: text) rest := by
  refine (inside_takes c more).bind ?_
  rw [if_neg (by simpa using noQuote), if_neg (by simpa using noBackslash), if_neg noControl]
  exact goesOn.bind (takes_pure _ _)

/-- However a character is quoted, it is read back. -/
theorem characters_of_quoted (goesOn : Takes (characters fuel) more text rest) (c : Char) :
    Takes (characters (fuel + 1)) (quotedCharacter c ++ more) (c :: text) rest := by
  unfold quotedCharacter
  split
  · exact characters_of_escape goesOn rfl (by decide)
  · exact characters_of_escape goesOn rfl (by decide)
  · exact characters_of_escape goesOn rfl (by decide)
  · exact characters_of_escape goesOn rfl (by decide)
  · exact characters_of_escape goesOn rfl (by decide)
  · exact characters_of_escape goesOn rfl (by decide)
  · exact characters_of_escape goesOn rfl (by decide)
  · rename_i noQuote noBackslash _ _ _ _ _
    split
    · rename_i control
      exact characters_of_control goesOn control
    · rename_i noControl
      exact characters_of_plain goesOn noQuote noBackslash noControl

end

theorem characters_takes (text rest : List Char) {fuel : Nat} (enough : text.length < fuel) :
    Takes (characters fuel) (text.flatMap quotedCharacter ++ '"' :: rest) text rest := by
  induction text generalizing fuel with
  | nil =>
      obtain ⟨fuel, rfl⟩ := Nat.exists_eq_add_of_lt enough
      refine (inside_takes '"' rest).bind ?_
      rw [if_pos (by decide)]
      exact takes_pure [] rest
  | cons c text ih =>
      obtain ⟨fuel, rfl⟩ := Nat.exists_eq_add_of_lt enough
      rw [List.flatMap_cons, List.append_assoc]
      exact characters_of_quoted (ih (by simp; omega)) c

theorem length_le_flatMap_quoted (text : List Char) :
    text.length ≤ (text.flatMap quotedCharacter).length := by
  induction text with
  | nil => exact Nat.le_refl _
  | cons c text ih =>
      have some : 0 < (quotedCharacter c).length := by
        unfold quotedCharacter
        split <;> try exact Nat.zero_lt_succ _
        split <;> exact Nat.zero_lt_succ _
      simp only [List.length_cons, List.flatMap_cons, List.length_append]
      omega

theorem stringRest_takes (text rest : List Char) :
    Takes stringRest (text.flatMap quotedCharacter ++ '"' :: rest) (String.ofList text) rest := by
  have enough : text.length < (text.flatMap quotedCharacter ++ '"' :: rest).length + 1 := by
    have := length_le_flatMap_quoted text
    simp only [List.length_append]
    omega
  exact (takes_get _).bind ((characters_takes text rest enough).bind (takes_pure _ _))

/-- A quoted string is read back. -/
theorem string_takes {blanks : List Char} (blank : ∀ c ∈ blanks, isBlank c = true) (text : String)
    (rest : List Char) : Takes string (blanks ++ quoted text.toList ++ rest) text rest := by
  have opened : blanks ++ quoted text.toList ++ rest =
      blanks ++ '"' :: (text.toList.flatMap quotedCharacter ++ '"' :: rest) := by
    simp [quoted]
  rw [opened]
  refine (peek_takes blank (by decide) _).bind ?_
  rw [if_pos (by decide)]
  refine (skip_takes _ _).bind ?_
  have read := stringRest_takes text.toList rest
  rwa [String.ofList_toList] at read

/-! ## Numbers -/

/-- Nothing at the front of a text goes on with a number. -/
def EndsNumber (text : List Char) : Prop :=
  ∀ c ∈ text.head?, c.isDigit = false ∧ c ≠ '.' ∧ c ≠ 'e' ∧ c ≠ 'E'

theorem naturalText_isDigit (n : Nat) : ∀ c ∈ naturalText n, c.isDigit = true := by
  intro c member
  exact Nat.isDigit_of_mem_toDigits (by decide) (by decide) member

theorem naturalText_ne_nil (n : Nat) : naturalText n ≠ [] := Nat.toDigits_ne_nil

theorem ofDigits_naturalText (n : Nat) : Decimal.ofDigits (naturalText n) = n :=
  Nat.ofDigitChars_ten_toDigits

theorem naturalText_of_lt {n : Nat} (small : n < 10) : naturalText n = [Nat.digitChar n] :=
  Nat.toDigits_of_lt_base small

theorem naturalText_of_le {n : Nat} (large : 10 ≤ n) :
    naturalText n = naturalText (n / 10) ++ [Nat.digitChar (n % 10)] :=
  Nat.toDigits_of_base_le (by decide) large

theorem digitChar_ne_zero : ∀ n < 10, n ≠ 0 → Nat.digitChar n ≠ '0' := by decide

/-- Only zero is written with a zero in front. -/
theorem head?_naturalText {n : Nat} (positive : n ≠ 0) : (naturalText n).head? ≠ some '0' := by
  induction n using Nat.strongRecOn with
  | ind n ih =>
      by_cases small : n < 10
      · rw [naturalText_of_lt small, List.head?_cons]
        intro zero
        exact digitChar_ne_zero n small positive (Option.some.inj zero)
      · rw [naturalText_of_le (by omega), List.head?_append_of_ne_nil _ (naturalText_ne_nil _)]
        exact ih (n / 10) (by omega) (by omega)

theorem naturalText_of_zero_in_front {n : Nat} (zero : (naturalText n).head? = some '0') :
    (naturalText n).length = 1 := by
  have isZero : n = 0 := by
    by_contra positive
    exact head?_naturalText positive zero
  subst isZero
  rfl

theorem digits_takes (broken : Fault) {found rest : List Char} (some : found ≠ [])
    (digit : ∀ c ∈ found, c.isDigit = true) (ends : EndsNumber rest) :
    Takes (digits broken) (found ++ rest) found rest := by
  have spanned : Decimal.spanDigits (found ++ rest) = (found, rest) :=
    Decimal.spanDigits_append digit fun c head => (ends c head).1
  refine (takes_get _).bind ?_
  rw [spanned]
  cases found with
  | nil => exact absurd rfl some
  | cons c found => exact (takes_set _ rest).bind (takes_pure _ _)

theorem powerOfTen_takes (broken : Fault) {rest : List Char} (ends : EndsNumber rest) :
    Takes (powerOfTen broken) rest none rest := by
  have passes : Takes (skipIf fun c => c == 'e' || c == 'E') rest false rest := by
    apply skipIf_passes
    intro c head
    simp [(ends c head).2.2.1, (ends c head).2.2.2]
  exact passes.bind (takes_pure none rest)

/-- A natural number behind a sign or none is read as it is written. -/
theorem writtenNumber_takes (broken : Fault) (negative : Bool) (n : Nat) {rest : List Char}
    (ends : EndsNumber rest) :
    Takes (writtenNumber broken) (Decimal.signText negative ++ (naturalText n ++ rest))
      ⟨negative, naturalText n, [], none⟩ rest := by
  have sign : Takes (skipIf (· == '-')) (Decimal.signText negative ++ (naturalText n ++ rest))
      negative (naturalText n ++ rest) := by
    cases negative with
    | true => exact skipIf_takes (by decide) _
    | false =>
        apply skipIf_passes
        intro c head
        rw [Decimal.signText, if_neg (by decide), List.nil_append,
          List.head?_append_of_ne_nil _ (naturalText_ne_nil n)] at head
        have digit := naturalText_isDigit n c (List.mem_of_mem_head? head)
        by_contra minus
        simp only [Bool.not_eq_false, beq_iff_eq] at minus
        rw [minus] at digit
        exact absurd digit (by decide)
  have point : Takes (skipIf (· == '.')) rest false rest := by
    apply skipIf_passes
    intro c head
    simp [(ends c head).2.1]
  have number := digits_takes broken (naturalText_ne_nil n) (naturalText_isDigit n) ends
  refine sign.bind (number.bind ?_)
  rw [if_neg fun leading => leading.2 (naturalText_of_zero_in_front leading.1)]
  refine point.bind ?_
  rw [if_neg (by decide)]
  refine (takes_pure [] rest).bind ?_
  exact (powerOfTen_takes broken ends).bind (takes_pure _ _)

/-! ### None is too large -/

/-- Putting a digit behind a number. -/
def shifted (value : Nat) (c : Char) : Nat := 10 * value + (c.toNat - '0'.toNat)

theorem le_foldl_shifted (digits : List Char) (value : Nat) :
    value ≤ digits.foldl shifted value := by
  induction digits generalizing value with
  | nil => exact Nat.le_refl _
  | cons c rest ih =>
      have longer : value ≤ shifted value c := by
        unfold shifted
        omega
      exact Nat.le_trans longer (ih _)

theorem absorb_eq {digits : List Char} {value : Nat}
    (small : digits.foldl shifted value < UInt64.size) :
    absorb value digits = (digits.foldl shifted value, []) := by
  induction digits generalizing value with
  | nil => rfl
  | cons c rest ih =>
      have longer : shifted value c < UInt64.size :=
        Nat.lt_of_le_of_lt (le_foldl_shifted rest _) small
      rw [absorb]
      exact (if_pos longer).trans (ih small)

/-- Rounding to 53 bits adds less than two thousand to a number of 64 bits. -/
theorem nearestOf53Bits_le {n : Nat} (small : n < UInt64.size) :
    nearestOf53Bits n ≤ n + twoTo 11 := by
  have bits : n.log2 - 52 ≤ 11 := by
    by_cases zero : n = 0
    · simp [zero]
    · have := (Nat.log2_lt zero).mpr (show n < 2 ^ 64 from small)
      omega
  have unit : twoTo (n.log2 - 52) ≤ twoTo 11 := Nat.pow_le_pow_right (by decide) bits
  have rounded : Decimal.roundQuotient n (twoTo (n.log2 - 52)) ≤ n / twoTo (n.log2 - 52) + 1 := by
    unfold Decimal.roundQuotient
    dsimp only
    split <;> omega
  calc nearestOf53Bits n
      ≤ (n / twoTo (n.log2 - 52) + 1) * twoTo (n.log2 - 52) := Nat.mul_le_mul_right _ rounded
    _ = n / twoTo (n.log2 - 52) * twoTo (n.log2 - 52) + twoTo (n.log2 - 52) := Nat.succ_mul _ _
    _ ≤ n + twoTo 11 := Nat.add_le_add (Nat.div_mul_le_self _ _) unit

theorem WrittenNumber.overflows_eq_false {n : Nat} (small : n < UInt64.size) (negative : Bool) :
    (⟨negative, naturalText n, [], none⟩ : WrittenNumber).overflows = false := by
  have value : (naturalText n).foldl shifted 0 = n := ofDigits_naturalText n
  have absorbed : absorb 0 (naturalText n) = (n, []) := by
    rw [absorb_eq (by rw [value]; exact small), value]
  have one : nearestOf53Bits (tenTo 0) = 1 := by decide
  have rounded := nearestOf53Bits_le small
  have below : n + twoTo 11 < twoTo 1024 - twoTo 970 := by
    have size : UInt64.size + twoTo 11 < twoTo 1024 - twoTo 970 := by decide +kernel
    omega
  simp only [overflows, absorbed, absorb]
  simp [one]
  omega

/-! ### Integers -/

theorem number_takes (negative : Bool) {n : Nat} (small : n < UInt64.size) {rest : List Char}
    (ends : EndsNumber rest) :
    Takes number (Decimal.signText negative ++ (naturalText n ++ rest))
      ⟨negative, naturalText n, [], none⟩ rest := by
  refine (writtenNumber_takes .early negative n ends).bind ?_
  rw [WrittenNumber.overflows_eq_false small]
  exact takes_pure _ rest

theorem integerText_eq (n : Int) :
    integerText n = Decimal.signText (decide (n < 0)) ++ naturalText n.natAbs := by
  unfold integerText Decimal.signText
  by_cases negative : n < 0 <;> simp [negative]

theorem integerText_startsNumber (n : Int) :
    ∃ c rest, integerText n = c :: rest ∧ startsNumber c = true ∧ isBlank c = false := by
  unfold integerText
  split
  · exact ⟨_, _, rfl, by decide, by decide⟩
  · cases written : naturalText n.natAbs with
    | nil => exact absurd written (naturalText_ne_nil _)
    | cons c rest =>
        have digit : c.isDigit = true :=
          naturalText_isDigit n.natAbs c (by rw [written]; exact List.mem_cons_self)
        refine ⟨c, rest, rfl, by simp [startsNumber, digit], ?_⟩
        by_contra blank
        simp only [isBlank, Bool.not_eq_false, Bool.or_eq_true, beq_iff_eq] at blank
        obtain ((rfl | rfl) | rfl) | rfl := blank <;> exact absurd digit (by decide)

/-- An integer of 64 bits counts as whole. -/
theorem whole?_eq (n : Int) (least : Int64.minValue.toInt ≤ n) (most : n < UInt64.size) :
    (⟨decide (n < 0), naturalText n.natAbs, [], none⟩ : WrittenNumber).whole? = some n := by
  unfold WrittenNumber.whole?
  simp only [ofDigits_naturalText]
  by_cases negative : n < 0
  · have positive : n.natAbs ≠ 0 := by omega
    have value : -(n.natAbs : Int) = n := by omega
    simp only [negative, positive, value, least, decide_true, if_true, List.isEmpty_nil,
      Option.isSome_none, Bool.not_true, Bool.or_self, Bool.false_eq_true, if_false, ne_eq,
      not_false_eq_true, and_self]
  · have value : (n.natAbs : Int) = n := by omega
    have small : n.natAbs < UInt64.size := by omega
    simp [negative, small, value]

theorem wholeNumber_takes {low high n : Int} (within : low ≤ n ∧ n ≤ high)
    (least : Int64.minValue.toInt ≤ n) (most : n < UInt64.size) {rest : List Char}
    (ends : EndsNumber rest) : Takes (wholeNumber low high) (integerText n ++ rest) n rest := by
  have small : n.natAbs < UInt64.size := by
    have floor : Int64.minValue.toInt = -9223372036854775808 := by decide
    have size : UInt64.size = 18446744073709551616 := rfl
    omega
  rw [integerText_eq, List.append_assoc]
  refine (number_takes _ small ends).bind ?_
  rw [whole?_eq n least most]
  dsimp only
  rw [if_pos within]
  exact takes_pure n rest

/-- An integer is read back within any bounds that it keeps. -/
theorem integer_takes {blanks : List Char} (blank : ∀ c ∈ blanks, isBlank c = true)
    {low high n : Int} (within : low ≤ n ∧ n ≤ high) (least : Int64.minValue.toInt ≤ n)
    (most : n < UInt64.size) {rest : List Char} (ends : EndsNumber rest) :
    Takes (integer low high) (blanks ++ integerText n ++ rest) n rest := by
  obtain ⟨c, digits, written, starts, visible⟩ := integerText_startsNumber n
  have value := wholeNumber_takes within least most ends
  rw [written, List.cons_append] at value
  rw [written, List.append_assoc, List.cons_append]
  refine (peek_takes blank visible _).bind ?_
  rw [if_pos starts]
  exact value

theorem integerText_natCast (n : Nat) : integerText n = naturalText n := by
  rw [integerText, if_neg (by omega), Int.natAbs_natCast]

/-- A natural number is read back as a key. -/
theorem naturalKey_takes {bound n : Nat} (small : n < bound) (most : n < UInt64.size)
    (rest : List Char) : Takes (naturalKey bound) (naturalText n ++ '"' :: rest) n rest := by
  have ends : EndsNumber ('"' :: rest) := by
    intro c head
    cases head
    decide
  have least : Int64.minValue.toInt ≤ (n : Int) := by
    have floor : Int64.minValue.toInt = -9223372036854775808 := by decide
    omega
  have within : (0 : Int) ≤ n ∧ (n : Int) ≤ bound - 1 := by omega
  obtain ⟨c, digits, written, starts, -⟩ := integerText_startsNumber n
  have value := wholeNumber_takes within least (by exact_mod_cast most) ends
  rw [integerText_natCast] at written value
  refine (next?_takes _).bind ?_
  rw [written, List.cons_append, List.head?_cons]
  dsimp only
  rw [if_pos starts]
  rw [written] at value
  refine value.bind ((skipIf_takes (by decide) rest).bind ?_)
  rw [if_pos rfl, Int.toNat_natCast]
  exact takes_pure n rest

end Tonegraph.Document
