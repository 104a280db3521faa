import Tonegraph.Formula.Parse
import Tonegraph.Proofs.Formula.Lexemes
/-!
# Scanning a text without loss

Scanning passes runs of blanks, each with a lexeme behind it. `Lexeme.Scans` says of such parts that
they are what stands in front of the rest of a text: blanks are blanks, positions count the bytes in
front, and each lexeme is cut off as its first character has it and as long as it can be. The
longest front of a text is one only (`Text.Longest.unique`), so the parts are determined by the
text. A lexeme means the number that its digits stand for, its name or its mark
(`Lexeme.IsCut.token_eq`).

Scanning comes to the end of the text, or it stops at a character that starts no lexeme or at a
point that stands alone (`Lexeme.Ends`). `tokenize_scans` says that tokens are read in the first
case and an error at that character is reported in the second, and in no other.
-/

set_option autoImplicit false

namespace Tonegraph

/-! ## Longest fronts -/

namespace Text

/-- The byte count of a text is that of its characters. -/
theorem byteLength_toList (text : String) : byteLength text.toList = text.utf8ByteSize := by
  suffices counted : ∀ characters : List Char,
      byteLength characters = (String.ofList characters).utf8ByteSize by
    rw [counted, String.ofList_toList]
  intro characters
  induction characters with
  | nil => rfl
  | cons c characters ih =>
      have first : String.ofList (c :: characters) =
          String.singleton c ++ String.ofList characters := by
        rw [← String.toList_inj]
        simp
      rw [byteLength_cons, ih, first, String.utf8ByteSize_append, String.utf8ByteSize_singleton]

/-- The longest front of a text that is of a class, and the rest of the text. -/
structure Longest (p : List Char → Prop) (front rest : List Char) : Prop where
  isOf : p front
  longest : ∀ other, other <+: front ++ rest → p other → other <+: front

variable {p : List Char → Prop} {front rest : List Char}

/-- A front is the longest of its class if none goes on with the first character of the rest. -/
theorem Longest.of_ends (isOf : p front)
    (ends : ∀ c ∈ rest.head?, ∀ more, ¬p (front ++ c :: more)) : Longest p front rest := by
  refine ⟨isOf, fun other within other_isOf => ?_⟩
  rcases List.prefix_or_prefix_of_prefix within (List.prefix_append front rest) with
    shorter | ⟨beyond, rfl⟩
  · exact shorter
  · cases beyond with
    | nil => simp
    | cons c beyond =>
        obtain ⟨after, rest_eq⟩ := (List.prefix_append_right_inj front).mp within
        exact absurd other_isOf (ends c (by rw [← rest_eq]; rfl) beyond)

theorem Longest.unique {front' rest' : List Char} (first : Longest p front rest)
    (second : Longest p front' rest') (same : front ++ rest = front' ++ rest') :
    front = front' ∧ rest = rest' := by
  have shorter : front <+: front' :=
    second.longest front (same ▸ List.prefix_append front rest) first.isOf
  have longer : front' <+: front :=
    first.longest front' (same ▸ List.prefix_append front' rest') second.isOf
  have fronts : front = front' :=
    shorter.eq_of_length (Nat.le_antisymm shorter.length_le longer.length_le)
  subst fronts
  exact ⟨rfl, List.append_cancel_left same⟩

/-- A text of characters of one class. -/
def AllOf (q : Char → Bool) (text : List Char) : Prop := ∀ c ∈ text, q c = true

theorem Run.longest {q : Char → Bool} {run rest : List Char} (whole : Run q run rest) :
    Longest (AllOf q) run rest := by
  refine .of_ends whole.all fun c first more all => ?_
  have goesOn : q c = true := all c (by simp)
  rw [whole.ends c first] at goesOn
  cases goesOn

end Text

/-! ## Lexemes as long as they can be -/

/-- Digits, with at most one point. -/
def IsNumeral (spelling : List Char) : Prop :=
  Text.AllOf (fun c => c.isDigit || c = '.') spelling ∧ spelling.count '.' ≤ 1

/-- A name as long as it can be: the longest run of letters, and if a subscript follows it, the
underscore and the longest run of letters and numbers behind it. -/
def LongestName (spelling rest : List Char) : Prop :=
  ∃ letters behind, spelling ++ rest = letters ++ behind ∧
    Text.Longest (Text.AllOf Text.isLetter) letters behind ∧
    (¬SubscriptAt behind → spelling = letters) ∧
    (SubscriptAt behind → ∃ subscript, spelling = letters ++ '_' :: subscript ∧
      Text.Longest (Text.AllOf Text.isLetterOrNumber) subscript rest)

theorem count_point_of_digits {digits : List Char} (all : ∀ c ∈ digits, c.isDigit = true) :
    digits.count '.' = 0 :=
  List.count_eq_zero_of_not_mem fun member => absurd (all _ member) (by decide)

/-- What is no digit in a numeral is a point. -/
theorem IsNumeral.point {front more : List Char} {c : Char}
    (numeral : IsNumeral (front ++ c :: more)) (noDigit : c.isDigit = false) : c = '.' := by
  have figure : (c.isDigit || c = '.') = true := numeral.1 c (by simp)
  rwa [noDigit, Bool.false_or, decide_eq_true_eq] at figure

theorem NumberAt.longest {spelling rest : List Char} (number : NumberAt spelling rest) :
    Text.Longest IsNumeral spelling rest := by
  have figures : Text.AllOf (fun c => c.isDigit || c = '.') spelling := fun c => number.figure
  cases number with
  | whole run noPoint =>
      refine .of_ends ⟨figures, by rw [count_point_of_digits run.all]; omega⟩ ?_
      intro c first more numeral
      exact noPoint (numeral.point (run.ends c first) ▸ first)
  | @pointed digits fraction _ all run =>
      have one : (digits ++ '.' :: fraction).count '.' = 1 := by
        rw [List.count_append, List.count_cons_self, count_point_of_digits all,
          count_point_of_digits run.all]
      refine .of_ends ⟨figures, one.le⟩ ?_
      intro c first more numeral
      -- there would be a second point
      have most := numeral.2
      rw [numeral.point (run.ends c first), List.count_append, one, List.count_cons_self] at most
      omega

theorem NameAt.longest {spelling rest : List Char} (name : NameAt spelling rest) :
    LongestName spelling rest := by
  cases name with
  | plain run noSubscript =>
      exact ⟨spelling, rest, rfl, run.longest, fun _ => rfl,
        fun subscript => absurd subscript noSubscript⟩
  | @subscripted letters subscript _ all starts run =>
      have lettersRun : Text.Run Text.isLetter letters ('_' :: subscript ++ rest) := by
        refine ⟨all, fun c first => ?_⟩
        cases first
        exact isLetter_underscore
      refine ⟨letters, '_' :: subscript ++ rest, by simp, lettersRun.longest, fun none => ?_,
        fun _ => ⟨subscript, rfl, run.longest⟩⟩
      exact absurd (starts.append rest) none

theorem LongestName.unique {spelling rest spelling' rest' : List Char}
    (first : LongestName spelling rest) (second : LongestName spelling' rest')
    (same : spelling ++ rest = spelling' ++ rest') : spelling = spelling' ∧ rest = rest' := by
  obtain ⟨letters, behind, text_eq, longest, plain, subscripted⟩ := first
  obtain ⟨letters', behind', text_eq', longest', plain', subscripted'⟩ := second
  obtain ⟨rfl, rfl⟩ := longest.unique longest' (by rw [← text_eq, ← text_eq', same])
  suffices spellings : spelling = spelling' by
    subst spellings
    exact ⟨rfl, List.append_cancel_left same⟩
  by_cases subscript : SubscriptAt behind
  · obtain ⟨run, rfl, run_longest⟩ := subscripted subscript
    obtain ⟨run', rfl, run_longest'⟩ := subscripted' subscript
    have runs : run ++ rest = run' ++ rest' := by simpa using same
    rw [(run_longest.unique run_longest' runs).1]
  · rw [plain subscript, plain' subscript]

namespace Lexeme

/-- A lexeme of a kind in front of the rest of a text: its first character, which is no blank, has
its kind, and a number or a name is as long as it can be. A point alone is no number. -/
def IsCut (kind : LexemeKind) (spelling rest : List Char) : Prop :=
  ∃ c others, spelling = c :: others ∧ Text.isBlank c = false ∧
    match kind with
    | .number => (c.isDigit || c = '.') = true ∧ Text.Longest IsNumeral spelling rest ∧
        spelling ≠ ['.']
    | .name => (c.isDigit || c = '.') = false ∧ Text.isLetter c = true ∧ LongestName spelling rest
    | .mark mark => (c.isDigit || c = '.') = false ∧ Text.isLetter c = false ∧
        Mark.ofChar? c = some mark ∧ others = []

/-- No lexeme starts with a character. -/
def StartsNone (c : Char) : Prop :=
  (c.isDigit || c = '.') = false ∧ Text.isLetter c = false ∧ Mark.ofChar? c = none

theorem startsNone_of_first? {c : Char} {rest : List Char} (none : first? (c :: rest) = none) :
    StartsNone c := by
  rw [first?] at none
  by_cases figure : (c.isDigit || c = '.') = true
  · rw [if_pos figure] at none
    cases none
  · rw [if_neg figure] at none
    by_cases letter : Text.isLetter c = true
    · rw [if_pos letter] at none
      cases none
    · rw [if_neg letter, Option.map_eq_none_iff] at none
      exact ⟨Bool.eq_false_iff.mpr figure, Bool.eq_false_iff.mpr letter, none⟩

theorem StartsNone.first? {c : Char} (starts : StartsNone c) (rest : List Char) :
    Lexeme.first? (c :: rest) = none := by
  obtain ⟨noFigure, noLetter, noMark⟩ := starts
  rw [Lexeme.first?, if_neg (Bool.eq_false_iff.mp noFigure), if_neg (Bool.eq_false_iff.mp noLetter),
    noMark]
  rfl

theorem first?_of_numeral {c : Char} {others rest : List Char}
    (starts : (c.isDigit || c = '.') = true)
    (longest : Text.Longest IsNumeral (c :: others) rest) :
    Lexeme.first? (c :: (others ++ rest)) = some (.number, c :: others, rest) := by
  rw [Lexeme.first?, if_pos starts]
  rcases span : spanNumber (c :: (others ++ rest)) with ⟨spelling', rest'⟩
  obtain ⟨text_eq, number⟩ := numberAt_of_spanNumber span
  obtain ⟨rfl, rfl⟩ := longest.unique number.longest text_eq
  rfl

/-- A point alone is the longest numeral there. -/
theorem CutOff.longest_of_point {kind : LexemeKind} {rest : List Char}
    (cut : CutOff kind ['.'] rest) : kind = .number ∧ Text.Longest IsNumeral ['.'] rest := by
  cases cut with
  | number _ number => exact ⟨rfl, number.longest⟩
  | name noFigure => cases noFigure
  | mark noFigure => cases noFigure

theorem CutOff.isCut {kind : LexemeKind} {c : Char} {others rest : List Char}
    (cut : CutOff kind (c :: others) rest) (noBlank : Text.isBlank c = false)
    (noLonePoint : c :: others ≠ ['.']) : IsCut kind (c :: others) rest := by
  cases cut with
  | number starts number => exact ⟨c, others, rfl, noBlank, starts, number.longest, noLonePoint⟩
  | name noFigure starts name => exact ⟨c, others, rfl, noBlank, noFigure, starts, name.longest⟩
  | mark noFigure noLetter starts => exact ⟨c, [], rfl, noBlank, noFigure, noLetter, starts, rfl⟩

/-- A lexeme that is cut off as it should be is the first one of the text. -/
theorem IsCut.first? {kind : LexemeKind} {spelling rest : List Char}
    (cut : IsCut kind spelling rest) :
    Lexeme.first? (spelling ++ rest) = some (kind, spelling, rest) := by
  obtain ⟨c, others, rfl, -, cut⟩ := cut
  cases kind with
  | number => exact first?_of_numeral cut.1 cut.2.1
  | name =>
      obtain ⟨noFigure, starts, longest⟩ := cut
      rw [List.cons_append, Lexeme.first?, if_neg (Bool.eq_false_iff.mp noFigure), if_pos starts]
      rcases span : spanName (c :: (others ++ rest)) with ⟨spelling', rest'⟩
      obtain ⟨text_eq, name⟩ := nameAt_of_spanName span
      obtain ⟨rfl, rfl⟩ := longest.unique name.longest text_eq
      rfl
  | mark mark =>
      obtain ⟨noFigure, noLetter, starts, rfl⟩ := cut
      rw [List.cons_append, Lexeme.first?, if_neg (Bool.eq_false_iff.mp noFigure),
        if_neg (Bool.eq_false_iff.mp noLetter), starts]
      rfl

/-! ### What lexemes mean -/

/-- A numeral is digits or digits around a point, and means the number that all of them stand for in
the places that those behind the point have. -/
theorem number_of_isNumeral {R : Type} [OfScientific R] {spelling : List Char}
    (numeral : IsNumeral spelling) :
    ∃ whole fraction : List Char, (∀ c ∈ whole ++ fraction, c.isDigit = true) ∧
      (spelling = whole ∧ fraction = [] ∨ spelling = whole ++ '.' :: fraction) ∧
      (number spelling : R) =
        OfScientific.ofScientific (Nat.ofDigitChars 10 (whole ++ fraction) 0) true
          fraction.length := by
  rcases span : Decimal.spanDigits spelling with ⟨whole, rest⟩
  obtain ⟨rfl, run⟩ := Text.run_of_span span
  have means : (number (whole ++ rest) : R) =
      OfScientific.ofScientific (Nat.ofDigitChars 10 (whole ++ rest.drop 1) 0) true
        (rest.drop 1).length := by
    rw [number, span]
    rfl
  cases rest with
  | nil => exact ⟨whole, [], by simpa using run.all, .inl ⟨by simp, rfl⟩, means⟩
  | cons c fraction =>
      obtain rfl := numeral.point (run.ends c rfl)
      refine ⟨whole, fraction, fun d member => ?_, .inr rfl, means⟩
      obtain front | behind := List.mem_append.mp member
      · exact run.all d front
      · have figure := numeral.1 d (by simp [behind])
        -- the point is the only one
        have one := numeral.2
        rw [List.count_append, List.count_cons_self] at one
        have noPoint : '.' ∉ fraction := List.count_eq_zero.mp (by omega)
        have other : d ≠ '.' := fun same => noPoint (same ▸ behind)
        simpa [other] using figure

/-- A number means the number that its digits stand for, a name its characters, and a mark itself;
each is placed where the lexeme is. -/
theorem IsCut.token_eq {R : Type} [OfScientific R] {kind : LexemeKind} {spelling rest : List Char}
    (cut : IsCut kind spelling rest) (position : Nat) :
    match kind with
    | .number => ∃ whole fraction : List Char, (∀ c ∈ whole ++ fraction, c.isDigit = true) ∧
        (spelling = whole ∧ fraction = [] ∨ spelling = whole ++ '.' :: fraction) ∧
        Lexeme.token ⟨kind, spelling, position⟩ =
          (⟨.number (OfScientific.ofScientific (Nat.ofDigitChars 10 (whole ++ fraction) 0) true
            fraction.length), position⟩ : PlacedToken R)
    | .name => Lexeme.token ⟨kind, spelling, position⟩ =
        (⟨.name (String.ofList spelling), position⟩ : PlacedToken R)
    | .mark mark => ∃ c, spelling = [c] ∧ Mark.ofChar? c = some mark ∧
        Lexeme.token ⟨kind, spelling, position⟩ = (⟨.mark mark, position⟩ : PlacedToken R) := by
  obtain ⟨c, others, rfl, -, cut⟩ := cut
  cases kind with
  | number =>
      obtain ⟨whole, fraction, digits, spelled, means⟩ := number_of_isNumeral (R := R) cut.2.1.isOf
      exact ⟨whole, fraction, digits, spelled, by simp only [token, means]⟩
  | name => rfl
  | mark mark =>
      obtain ⟨-, -, starts, rfl⟩ := cut
      exact ⟨c, rfl, starts, rfl⟩

/-! ## Parts of a text -/

/-- Runs of blanks, each with the lexeme behind it. -/
abbrev Parts := List (List Char × Lexeme)

/-- The text that parts are written as. -/
def Parts.written (parts : Parts) : List Char := parts.flatMap fun part => part.1 ++ part.2.spelling

@[simp] theorem Parts.written_nil : Parts.written [] = [] := rfl

@[simp] theorem Parts.written_cons (blanks : List Char) (l : Lexeme) (parts : Parts) :
    Parts.written ((blanks, l) :: parts) = blanks ++ l.spelling ++ Parts.written parts := rfl

/-- Scanning from a byte on passes parts of a text and comes to the rest: in each part there are
blanks and a lexeme, which stands behind all that is in front of it and is cut off from all that
is behind it. -/
def Scans (position : Nat) (parts : Parts) (rest : List Char) : Prop :=
  ∀ before blanks l after, parts = before ++ (blanks, l) :: after →
    Text.AllOf Text.isBlank blanks ∧
      l.position = position + Text.byteLength (Parts.written before ++ blanks) ∧
      IsCut l.kind l.spelling (Parts.written after ++ rest)

theorem scans_nil (position : Nat) (rest : List Char) : Scans position [] rest := by
  intro before blanks l after parts_eq
  simp at parts_eq

theorem scans_cons_iff {position : Nat} {blanks rest : List Char} {l : Lexeme} {parts : Parts} :
    Scans position ((blanks, l) :: parts) rest ↔
      (Text.AllOf Text.isBlank blanks ∧ l.position = position + Text.byteLength blanks ∧
        IsCut l.kind l.spelling (parts.written ++ rest)) ∧
      Scans (position + Text.byteLength (blanks ++ l.spelling)) parts rest := by
  constructor
  · intro scans
    refine ⟨scans [] blanks l parts rfl, fun before blanks' l' after parts_eq => ?_⟩
    obtain ⟨allBlank, place, cut⟩ :=
      scans ((blanks, l) :: before) blanks' l' after (by rw [parts_eq]; rfl)
    refine ⟨allBlank, ?_, cut⟩
    rw [place, Parts.written_cons, List.append_assoc, Text.byteLength_append, Nat.add_assoc]
  · rintro ⟨head, scans⟩ before blanks' l' after parts_eq
    cases before with
    | nil =>
        cases parts_eq
        exact head
    | cons part before =>
        rw [List.cons_append, List.cons.injEq] at parts_eq
        obtain ⟨rfl, parts_eq⟩ := parts_eq
        obtain ⟨allBlank, place, cut⟩ := scans before blanks' l' after parts_eq
        refine ⟨allBlank, ?_, cut⟩
        rw [place, Parts.written_cons, List.append_assoc _ _ blanks',
          Text.byteLength_append (_ ++ _), Nat.add_assoc]

/-- Scanning a text from a byte on passes parts of it, and blanks behind them, and comes to the
rest. -/
structure Reaches (position : Nat) (text : List Char) (parts : Parts) (blanks rest : List Char) :
    Prop where
  text_eq : text = parts.written ++ (blanks ++ rest)
  scans : Scans position parts (blanks ++ rest)
  allBlank : Text.AllOf Text.isBlank blanks

/-- Where scanning a text from a byte on ends, and with what: at the end of the text with the
lexemes that were passed, or with an error at a character that starts no lexeme or is a point
alone. -/
def Ends (position : Nat) (text : List Char) : Except SyntaxError (List Lexeme) → Prop
  | .ok lexemes => ∃ parts blanks, Reaches position text parts blanks [] ∧
      lexemes = parts.map (·.2)
  | .error e => ∃ parts blanks c rest, Reaches position text parts blanks (c :: rest) ∧
      Text.isBlank c = false ∧
      e.position = position + Text.byteLength (parts.written ++ blanks) ∧
      (StartsNone c ∧ e.fault = .unexpectedCharacter c ∨
        c = '.' ∧ Text.Longest IsNumeral ['.'] rest ∧ e.fault = .invalidNumber ".")

variable {position : Nat} {text blanks rest : List Char} {parts : Parts}
  {outcome : Except SyntaxError (List Lexeme)}

/-! ## Scanning ends -/

/-- A blank in front belongs to the blanks of the first part, or to those behind all parts. -/
theorem Reaches.blank {c : Char} (isBlank : Text.isBlank c = true)
    (reaches : Reaches (position + c.utf8Size) text parts blanks rest) :
    ∃ parts' blanks', Reaches position (c :: text) parts' blanks' rest ∧
      parts'.written ++ blanks' = c :: (parts.written ++ blanks) ∧
      parts'.map (·.2) = parts.map (·.2) := by
  obtain ⟨rfl, scans, allBlank⟩ := reaches
  cases parts with
  | nil =>
      exact ⟨[], c :: blanks, ⟨rfl, scans_nil _ _, List.forall_mem_cons.mpr ⟨isBlank, allBlank⟩⟩,
        rfl, rfl⟩
  | cons part parts =>
      obtain ⟨gap, l⟩ := part
      obtain ⟨⟨gapBlank, place, cut⟩, scans⟩ := scans_cons_iff.mp scans
      refine ⟨(c :: gap, l) :: parts, blanks,
        ⟨rfl, scans_cons_iff.mpr ⟨⟨?_, ?_, cut⟩, ?_⟩, allBlank⟩, rfl, rfl⟩
      · exact List.forall_mem_cons.mpr ⟨isBlank, gapBlank⟩
      · rw [place, Text.byteLength_cons, Nat.add_assoc]
      · rwa [List.cons_append, Text.byteLength_cons, ← Nat.add_assoc]

theorem Ends.blank {c : Char} (isBlank : Text.isBlank c = true)
    (ends : Ends (position + c.utf8Size) text outcome) : Ends position (c :: text) outcome := by
  cases outcome with
  | ok lexemes =>
      obtain ⟨parts, blanks, reaches, rfl⟩ := ends
      obtain ⟨parts', blanks', reaches', -, same⟩ := reaches.blank isBlank
      exact ⟨parts', blanks', reaches', same.symm⟩
  | error e =>
      obtain ⟨parts, blanks, d, rest, reaches, noBlank, place, fault⟩ := ends
      obtain ⟨parts', blanks', reaches', written, -⟩ := reaches.blank isBlank
      refine ⟨parts', blanks', d, rest, reaches', noBlank, ?_, fault⟩
      rw [place, written, Text.byteLength_cons, Nat.add_assoc]

theorem Reaches.lexeme {kind : LexemeKind} {spelling : List Char}
    (cut : IsCut kind spelling text)
    (reaches : Reaches (position + Text.byteLength spelling) text parts blanks rest) :
    Reaches position (spelling ++ text) (([], ⟨kind, spelling, position⟩) :: parts) blanks
      rest := by
  obtain ⟨rfl, scans, allBlank⟩ := reaches
  refine ⟨by simp, scans_cons_iff.mpr ⟨⟨fun _ member => ?_, rfl, cut⟩, scans⟩, allBlank⟩
  cases member

theorem Ends.lexeme {kind : LexemeKind} {spelling : List Char} (cut : IsCut kind spelling text)
    (ends : Ends (position + Text.byteLength spelling) text outcome) :
    Ends position (spelling ++ text) (outcome.map (⟨kind, spelling, position⟩ :: ·)) := by
  cases outcome with
  | ok lexemes =>
      obtain ⟨parts, blanks, reaches, rfl⟩ := ends
      exact ⟨_, blanks, reaches.lexeme cut, rfl⟩
  | error e =>
      obtain ⟨parts, blanks, d, rest, reaches, noBlank, place, fault⟩ := ends
      refine ⟨_, blanks, d, rest, reaches.lexeme cut, noBlank, ?_, fault⟩
      rw [Parts.written_cons, List.nil_append, List.append_assoc, Text.byteLength_append,
        ← Nat.add_assoc]
      exact place

/-- Scanning stands at the rest of a text from the beginning on. -/
theorem reaches_start (position : Nat) (rest : List Char) : Reaches position rest [] [] rest :=
  ⟨rfl, scans_nil _ _, fun _ member => nomatch member⟩

/-- Cutting a text ends as scanning does. -/
theorem splitFrom_ends {fuel : Nat} (enough : text.length ≤ fuel) :
    Ends position text (splitFrom fuel position text) := by
  induction fuel generalizing position text with
  | zero =>
      rw [List.eq_nil_of_length_eq_zero (Nat.le_zero.mp enough)]
      exact ⟨[], [], reaches_start _ _, rfl⟩
  | succ fuel ih =>
      cases text with
      | nil => exact ⟨[], [], reaches_start _ _, rfl⟩
      | cons c rest =>
          rw [List.length_cons] at enough
          rw [splitFrom]
          by_cases blank : Text.isBlank c = true
          · rw [if_pos blank]
            exact (ih (by omega)).blank blank
          · rw [if_neg blank]
            have noBlank := Bool.eq_false_iff.mpr blank
            split
            · rename_i none
              refine ⟨[], [], c, rest, reaches_start _ _, noBlank, rfl, .inl ⟨?_, rfl⟩⟩
              exact startsNone_of_first? none
            · rename_i kind spelling behind first
              obtain ⟨others, rfl, rfl, cut⟩ := cutOff_of_first? first
              by_cases point : c :: others = ['.']
              · rw [if_pos point]
                obtain ⟨rfl, rfl⟩ := List.cons.inj point
                refine ⟨[], [], '.', behind, reaches_start _ _, noBlank, rfl, .inr ⟨rfl, ?_, rfl⟩⟩
                exact cut.longest_of_point.2
              · rw [if_neg point]
                rw [List.length_append] at enough
                exact (ih (by omega)).lexeme (cut.isCut noBlank point)

/-! ## And cutting follows -/

theorem IsCut.ne_point {kind : LexemeKind} {spelling rest : List Char}
    (cut : IsCut kind spelling rest) : spelling ≠ ['.'] := by
  obtain ⟨c, others, rfl, -, cut⟩ := cut
  cases kind with
  | number => exact cut.2.2
  | name =>
      rintro ⟨rfl, -⟩
      cases cut.1
  | mark =>
      rintro ⟨rfl, -⟩
      cases cut.1

theorem splitFrom_blanks {fuel : Nat} (position : Nat) (allBlank : Text.AllOf Text.isBlank blanks)
    (enough : (blanks ++ rest).length ≤ fuel) :
    ∃ left, rest.length ≤ left ∧
      splitFrom fuel position (blanks ++ rest) =
        splitFrom left (position + Text.byteLength blanks) rest := by
  induction blanks generalizing fuel position with
  | nil => exact ⟨fuel, enough, rfl⟩
  | cons c blanks ih =>
      obtain ⟨isBlank, allBlank⟩ := List.forall_mem_cons.mp allBlank
      rw [List.cons_append, List.length_cons] at enough
      obtain ⟨fuel, rfl⟩ : ∃ less, fuel = less + 1 := ⟨fuel - 1, by omega⟩
      obtain ⟨left, enough', split_eq⟩ :=
        ih (position + c.utf8Size) allBlank (Nat.le_of_succ_le_succ enough)
      refine ⟨left, enough', ?_⟩
      rw [List.cons_append, splitFrom, if_pos isBlank, split_eq, Text.byteLength_cons,
        Nat.add_assoc]

theorem splitFrom_lexeme {fuel : Nat} {kind : LexemeKind} {spelling : List Char} (position : Nat)
    (cut : IsCut kind spelling rest) (enough : (spelling ++ rest).length ≤ fuel) :
    ∃ left, rest.length ≤ left ∧
      splitFrom fuel position (spelling ++ rest) =
        (splitFrom left (position + Text.byteLength spelling) rest).map
          (⟨kind, spelling, position⟩ :: ·) := by
  have first := cut.first?
  have point := cut.ne_point
  obtain ⟨c, others, rfl, noBlank, -⟩ := cut
  rw [List.cons_append, List.length_cons, List.length_append] at enough
  obtain ⟨fuel, rfl⟩ : ∃ less, fuel = less + 1 := ⟨fuel - 1, by omega⟩
  refine ⟨fuel, by omega, ?_⟩
  rw [List.cons_append] at first ⊢
  rw [splitFrom, if_neg (Bool.eq_false_iff.mp noBlank), first]
  exact if_neg point

/-- Cutting comes to where scanning does. -/
theorem Reaches.splitFrom {fuel : Nat} (reaches : Reaches position text parts blanks rest)
    (enough : text.length ≤ fuel) :
    ∃ left, rest.length ≤ left ∧
      Lexeme.splitFrom fuel position text =
        (Lexeme.splitFrom left (position + Text.byteLength (Parts.written parts ++ blanks))
          rest).map (parts.map (·.2) ++ ·) := by
  obtain ⟨rfl, scans, allBlank⟩ := reaches
  induction parts generalizing fuel position with
  | nil =>
      obtain ⟨left, enough', split_eq⟩ := splitFrom_blanks position allBlank enough
      refine ⟨left, enough', ?_⟩
      rw [Parts.written_nil, List.nil_append, List.nil_append, split_eq]
      cases Lexeme.splitFrom left (position + Text.byteLength blanks) rest <;> rfl
  | cons part parts ih =>
      obtain ⟨gap, l⟩ := part
      obtain ⟨⟨gapBlank, place, cut⟩, scans⟩ := scans_cons_iff.mp scans
      rw [Parts.written_cons, List.append_assoc, List.append_assoc] at enough ⊢
      obtain ⟨fuel, enough, gap_eq⟩ := splitFrom_blanks position gapBlank enough
      obtain ⟨fuel, enough, lexeme_eq⟩ :=
        splitFrom_lexeme (position + Text.byteLength gap) cut enough
      rw [Text.byteLength_append, ← Nat.add_assoc] at scans
      obtain ⟨left, enough', later_eq⟩ := ih scans enough
      refine ⟨left, enough', ?_⟩
      have bytes : position + Text.byteLength gap + Text.byteLength l.spelling +
          Text.byteLength (Parts.written parts ++ blanks) =
          position + Text.byteLength (gap ++ l.spelling ++ Parts.written parts ++ blanks) := by
        simp only [Text.byteLength_append]
        omega
      rw [gap_eq, lexeme_eq, later_eq, bytes, ← place]
      cases Lexeme.splitFrom left _ rest <;> rfl

/-- Cutting a text ends in one way only. -/
theorem Ends.splitFrom {fuel : Nat} (ends : Ends position text outcome)
    (enough : text.length ≤ fuel) : Lexeme.splitFrom fuel position text = outcome := by
  cases outcome with
  | ok lexemes =>
      obtain ⟨parts, blanks, reaches, rfl⟩ := ends
      obtain ⟨left, -, split_eq⟩ := reaches.splitFrom enough
      rw [split_eq]
      cases left <;> simp [Lexeme.splitFrom, Except.map]
  | error e =>
      obtain ⟨parts, blanks, c, rest, reaches, noBlank, place, fault⟩ := ends
      obtain ⟨left, enough', split_eq⟩ := reaches.splitFrom enough
      obtain ⟨left, rfl⟩ : ∃ less, left = less + 1 := ⟨left - 1, by simp at enough'; omega⟩
      obtain ⟨fault', position'⟩ := e
      dsimp only at place fault
      rw [split_eq, Lexeme.splitFrom, if_neg (Bool.eq_false_iff.mp noBlank), ← place]
      rcases fault with ⟨starts, rfl⟩ | ⟨rfl, longest, rfl⟩
      · rw [starts.first?]
        rfl
      · have first : Lexeme.first? ('.' :: rest) = some (.number, ['.'], rest) :=
          @first?_of_numeral '.' [] rest rfl longest
        rw [first]
        rfl

/-- Cutting a text ends as scanning it does, and in no other way. -/
theorem split_eq_iff {outcome : Except SyntaxError (List Lexeme)} :
    split text = outcome ↔ Ends 0 text outcome :=
  ⟨fun split_eq => split_eq ▸ splitFrom_ends le_rfl, fun ends => ends.splitFrom le_rfl⟩

end Lexeme

variable {R : Type} [OfScientific R]

theorem tokenize_eq_ok_iff {text : List Char} {tokens : List (PlacedToken R)} :
    tokenize text = .ok tokens ↔
      ∃ parts blanks, Lexeme.Reaches 0 text parts blanks [] ∧
        tokens = parts.map fun part => part.2.token := by
  rw [tokenize]
  constructor
  · intro tokenized
    cases cuts : Lexeme.split text with
    | error e =>
        rw [cuts] at tokenized
        cases tokenized
    | ok lexemes =>
        rw [cuts] at tokenized
        cases tokenized
        obtain ⟨parts, blanks, reaches, rfl⟩ := Lexeme.split_eq_iff.mp cuts
        exact ⟨parts, blanks, reaches, List.map_map⟩
  · rintro ⟨parts, blanks, reaches, rfl⟩
    have ends : Lexeme.Ends 0 text (.ok (parts.map (·.2))) := ⟨parts, blanks, reaches, rfl⟩
    rw [Lexeme.split_eq_iff.mpr ends]
    exact congrArg Except.ok List.map_map

theorem tokenize_eq_error_iff {text : List Char} {e : SyntaxError} :
    tokenize (R := R) text = .error e ↔ Lexeme.Ends 0 text (.error e) := by
  rw [tokenize, ← Lexeme.split_eq_iff]
  cases Lexeme.split text with
  | error other =>
      rw [Except.map]
      simp only [Except.error.injEq]
  | ok lexemes =>
      rw [Except.map]
      simp only [reduceCtorEq]

/-- **Tokens are read without loss and as long as they can be.** The tokens of a text are the
lexemes between its blanks, each cut off as long as it can be and placed at its byte, if scanning
comes to the end of the text, and the end that is read behind them is placed at the byte count of
the text. There is an error just when scanning comes to a character that starts no lexeme, or to a
point that is all there is of a number, and then the error is placed at that character. -/
theorem tokenize_scans [Neg R] (text : String) :
    (∀ tokens : List (PlacedToken R), tokenize text.toList = .ok tokens ↔
      ∃ parts blanks, Lexeme.Reaches 0 text.toList parts blanks [] ∧
        tokens = parts.map fun part => part.2.token) ∧
    (∀ tokens : List (PlacedToken R), tokenize text.toList = .ok tokens →
      tokens.length ≤ Formula.maxTokens →
      Formula.parse text = Formula.ofTokens tokens text.utf8ByteSize) ∧
    ∀ fault position, tokenize (R := R) text.toList = .error ⟨fault, position⟩ ↔
      ∃ parts blanks c rest, Lexeme.Reaches 0 text.toList parts blanks (c :: rest) ∧
        Text.isBlank c = false ∧
        position = Text.byteLength (Lexeme.Parts.written parts ++ blanks) ∧
        (Lexeme.StartsNone c ∧ fault = .unexpectedCharacter c ∨
          c = '.' ∧ Text.Longest IsNumeral ['.'] rest ∧ fault = .invalidNumber ".") := by
  refine ⟨fun tokens => tokenize_eq_ok_iff, fun tokens tokenized short => ?_,
    fun fault position => ?_⟩
  · have noExtra : tokens[Formula.maxTokens]? = none := List.getElem?_eq_none short
    rw [Formula.parse, tokenized]
    simp only [bind, Except.bind, noExtra, Text.byteLength_toList]
  · rw [tokenize_eq_error_iff]
    simp only [Lexeme.Ends, Nat.zero_add]

/-- Behind a blank, a name with a letter of two bytes and two numbers side by side; and behind such
a name and a number, a point that stands alone. -/
theorem tokenize_scans_accented :
    (∃ (tokens : List (PlacedToken Float)) (parts : Lexeme.Parts) (blanks : List Char),
      tokenize " é_1.5.5 ".toList = .ok tokens ∧ tokens.map (·.position) = [1, 5, 7] ∧
      Lexeme.Reaches 0 " é_1.5.5 ".toList parts blanks [] ∧
      tokens = parts.map (fun part => part.2.token) ∧ tokens.length ≤ Formula.maxTokens ∧
      Formula.parse " é_1.5.5 " = Formula.ofTokens tokens 10) ∧
    ∃ (parts : Lexeme.Parts) (blanks : List Char) (c : Char) (rest : List Char),
      tokenize (R := Float) " é_1.5 .".toList = .error ⟨.invalidNumber ".", 8⟩ ∧
      Lexeme.Reaches 0 " é_1.5 .".toList parts blanks (c :: rest) ∧
      Text.byteLength (parts.written ++ blanks) = 8 := by
  obtain ⟨reads, ends, -⟩ := tokenize_scans (R := Float) " é_1.5.5 "
  obtain ⟨-, -, stops⟩ := tokenize_scans (R := Float) " é_1.5 ."
  constructor
  · let lexemes : List Lexeme :=
      [⟨.name, ['é', '_', '1'], 1⟩, ⟨.number, ['.', '5'], 5⟩, ⟨.number, ['.', '5'], 7⟩]
    have cuts : Lexeme.split " é_1.5.5 ".toList = .ok lexemes := by decide +kernel
    have tokenized :
        tokenize " é_1.5.5 ".toList = .ok (lexemes.map (Lexeme.token (R := Float))) := by
      rw [tokenize, cuts]
      rfl
    have short : (lexemes.map (Lexeme.token (R := Float))).length ≤ Formula.maxTokens := by decide
    obtain ⟨parts, blanks, reaches, tokens_eq⟩ := (reads _).mp tokenized
    exact ⟨_, parts, blanks, tokenized, rfl, reaches, tokens_eq, short, ends _ tokenized short⟩
  · have cuts : Lexeme.split " é_1.5 .".toList = .error ⟨.invalidNumber ".", 8⟩ := by decide +kernel
    have tokenized : tokenize (R := Float) " é_1.5 .".toList = .error ⟨.invalidNumber ".", 8⟩ := by
      rw [tokenize, cuts]
      rfl
    obtain ⟨parts, blanks, c, rest, reaches, -, place, -⟩ := (stops _ _).mp tokenized
    exact ⟨parts, blanks, c, rest, tokenized, reaches, place.symm⟩

end Tonegraph
