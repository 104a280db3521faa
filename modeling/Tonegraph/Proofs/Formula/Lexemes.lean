import Mathlib.Data.List.TakeDrop
import Mathlib.Data.List.TakeWhile
import Tonegraph.Formula.Token
/-!
# What lexemes are

A number and a name are cut off a text as long as they can be: `NumberAt` and `NameAt` say where
they end. `Lexeme.CutOff` is a lexeme of any kind in front of the rest of a text, and
`Lexeme.Covers` a whole text that is nothing but lexemes, in their order and at their places, with
blanks between them. So each character of the text that is no blank lies in one of them
(`Covers.at_char`).
-/

set_option autoImplicit false

namespace Tonegraph

/-! ## Bytes -/

namespace Text

@[simp] theorem byteLength_cons (c : Char) (text : List Char) :
    byteLength (c :: text) = c.utf8Size + byteLength text := rfl

@[simp] theorem byteLength_append (front back : List Char) :
    byteLength (front ++ back) = byteLength front + byteLength back := by
  induction front with
  | nil => exact (Nat.zero_add _).symm
  | cons c front ih =>
      rw [List.cons_append, byteLength_cons, byteLength_cons, ih]
      omega

theorem byteLength_pos {text : List Char} (nonempty : text ≠ []) : 0 < byteLength text := by
  cases text with
  | nil => exact absurd rfl nonempty
  | cons c text =>
      rw [byteLength_cons]
      have := c.utf8Size_pos
      omega

/-! ## Runs -/

/-- A run of characters of one class in front of a text that does not go on with one. -/
structure Run (p : Char → Bool) (run rest : List Char) : Prop where
  all : ∀ c ∈ run, p c = true
  ends : ∀ c ∈ rest.head?, p c = false

theorem Run.of_append {p : Char → Bool} {before run rest : List Char}
    (whole : Run p (before ++ run) rest) : Run p run rest :=
  ⟨fun c member => whole.all c (List.mem_append_right _ member), whole.ends⟩

theorem run_of_span {p : Char → Bool} {text run rest : List Char}
    (span : text.span p = (run, rest)) : text = run ++ rest ∧ Run p run rest := by
  rw [List.span_eq_takeWhile_dropWhile, Prod.mk.injEq] at span
  obtain ⟨rfl, rfl⟩ := span
  refine ⟨List.takeWhile_append_dropWhile.symm, fun c member => List.mem_takeWhile_imp member, ?_⟩
  intro c first
  have stops := List.head?_dropWhile_not p text
  rw [Option.mem_def.mp first] at stops
  exact stops

end Text

/-! ## Numbers -/

/-- A number in front of the rest of a text: as many digits as there are, with a point among them
or behind them when the text has one there. -/
inductive NumberAt : List Char → List Char → Prop
  | whole {digits rest : List Char} (run : Text.Run Char.isDigit digits rest)
      (noPoint : '.' ∉ rest.head?) : NumberAt digits rest
  | pointed {digits fraction rest : List Char} (all : ∀ c ∈ digits, c.isDigit = true)
      (run : Text.Run Char.isDigit fraction rest) : NumberAt (digits ++ '.' :: fraction) rest

theorem NumberAt.figure {spelling rest : List Char} (number : NumberAt spelling rest) {c : Char}
    (member : c ∈ spelling) : (c.isDigit || c = '.') = true := by
  cases number with
  | whole run noPoint => simp [run.all c member]
  | pointed all run =>
      rcases List.mem_append.mp member with digit | behind
      · simp [all c digit]
      · rcases List.mem_cons.mp behind with point | digit
        · simp [point]
        · simp [run.all c digit]

/-- A text that starts as numbers do has a number in front. -/
theorem NumberAt.starts {c : Char} {text spelling rest : List Char}
    (number : NumberAt spelling rest) (figure : (c.isDigit || c = '.') = true)
    (text_eq : c :: text = spelling ++ rest) :
    ∃ others, spelling = c :: others ∧ text = others ++ rest := by
  cases spelling with
  | cons d others =>
      rw [List.cons_append, List.cons.injEq] at text_eq
      exact ⟨others, by rw [text_eq.1], text_eq.2⟩
  | nil =>
      have first : c ∈ rest.head? := by rw [← List.nil_append rest, ← text_eq]; rfl
      generalize none : ([] : List Char) = spelling at number
      cases number with
      | whole run noPoint =>
          rcases Bool.or_eq_true_iff.mp figure with digit | point
          · rw [run.ends c first] at digit
            cases digit
          · rw [decide_eq_true_eq.mp point] at first
            exact absurd first noPoint
      | pointed all run => simp at none

theorem numberAt_of_spanNumber {text spelling rest : List Char}
    (span : Lexeme.spanNumber text = (spelling, rest)) :
    text = spelling ++ rest ∧ NumberAt spelling rest := by
  rcases digits_eq : Decimal.spanDigits text with ⟨digits, behind⟩
  obtain ⟨rfl, run⟩ := Text.run_of_span digits_eq
  rw [Lexeme.spanNumber, digits_eq] at span
  dsimp only at span
  split at span
  · rename_i after
    rcases fraction_eq : Decimal.spanDigits after with ⟨fraction, behind⟩
    obtain ⟨rfl, run'⟩ := Text.run_of_span fraction_eq
    rw [fraction_eq] at span
    cases span
    exact ⟨by simp, .pointed run.all run'⟩
  · rename_i noPoint
    cases span
    refine ⟨rfl, .whole run fun point => ?_⟩
    obtain ⟨after, behind_eq⟩ := List.head?_eq_some_iff.mp (Option.mem_def.mp point)
    exact noPoint after behind_eq

/-! ## Names -/

/-- A text goes on with a subscript: an underscore with a letter or a number directly behind it. -/
def SubscriptAt (text : List Char) : Prop :=
  ∃ c after, text = '_' :: c :: after ∧ Text.isLetterOrNumber c = true

/-- A name in front of the rest of a text: as many letters as there are, and where a subscript
follows them, this too, with as many letters and numbers as there are. -/
inductive NameAt : List Char → List Char → Prop
  | plain {letters rest : List Char} (run : Text.Run Text.isLetter letters rest)
      (noSubscript : ¬SubscriptAt rest) : NameAt letters rest
  | subscripted {letters subscript rest : List Char} (all : ∀ c ∈ letters, Text.isLetter c = true)
      (starts : SubscriptAt ('_' :: subscript))
      (run : Text.Run Text.isLetterOrNumber subscript rest) :
      NameAt (letters ++ '_' :: subscript) rest

theorem nameAt_of_spanName {text spelling rest : List Char}
    (span : Lexeme.spanName text = (spelling, rest)) :
    text = spelling ++ rest ∧ NameAt spelling rest := by
  rcases letters_eq : text.span Text.isLetter with ⟨letters, behind⟩
  obtain ⟨rfl, run⟩ := Text.run_of_span letters_eq
  rw [Lexeme.spanName, letters_eq] at span
  dsimp only at span
  split at span
  · rename_i c after
    by_cases follows : Text.isLetterOrNumber c = true
    · rw [if_pos follows] at span
      rcases subscript_eq : (c :: after).span Text.isLetterOrNumber with ⟨subscript, behind⟩
      obtain ⟨all_eq, run'⟩ := Text.run_of_span subscript_eq
      rw [subscript_eq] at span
      cases span
      have starts : SubscriptAt ('_' :: subscript) := by
        cases subscript with
        | nil =>
            -- an empty subscript would leave a character behind it that goes on with it
            rw [List.nil_append] at all_eq
            have ends := run'.ends c (by rw [← all_eq]; rfl)
            rw [follows] at ends
            cases ends
        | cons first others =>
            rw [List.cons_append, List.cons.injEq] at all_eq
            exact ⟨first, others, rfl, all_eq.1 ▸ follows⟩
      exact ⟨by simp [all_eq], .subscripted run.all starts run'⟩
    · rw [if_neg follows] at span
      cases span
      refine ⟨rfl, .plain run ?_⟩
      rintro ⟨c', after', same, follows'⟩
      cases same
      exact follows follows'
  · rename_i noSubscript
    cases span
    refine ⟨rfl, .plain run ?_⟩
    rintro ⟨c, after, behind_eq, follows⟩
    exact noSubscript c after behind_eq

/-- A text that starts with a letter has a name in front. -/
theorem NameAt.starts {c : Char} {text spelling rest : List Char} (name : NameAt spelling rest)
    (letter : Text.isLetter c = true) (text_eq : c :: text = spelling ++ rest) :
    ∃ others, spelling = c :: others ∧ text = others ++ rest := by
  cases spelling with
  | cons d others =>
      rw [List.cons_append, List.cons.injEq] at text_eq
      exact ⟨others, by rw [text_eq.1], text_eq.2⟩
  | nil =>
      have first : c ∈ rest.head? := by rw [← List.nil_append rest, ← text_eq]; rfl
      generalize none : ([] : List Char) = spelling at name
      cases name with
      | plain run noSubscript =>
          rw [run.ends c first] at letter
          cases letter
      | subscripted all starts run => simp at none

theorem SubscriptAt.append {text : List Char} (at_front : SubscriptAt text) (rest : List Char) :
    SubscriptAt (text ++ rest) := by
  obtain ⟨c, after, rfl, follows⟩ := at_front
  exact ⟨c, after ++ rest, rfl, follows⟩

theorem isLetter_underscore : Text.isLetter '_' = false := by decide

/-- A name of letters only ends where it does because it is plain. -/
theorem NameAt.plain_of_letters {name rest : List Char} (at_front : NameAt name rest)
    (letters : ∀ c ∈ name, Text.isLetter c = true) :
    Text.Run Text.isLetter name rest ∧ ¬SubscriptAt rest := by
  cases at_front with
  | plain run noSubscript => exact ⟨run, noSubscript⟩
  | subscripted all starts run =>
      have underscore := letters '_' (by simp)
      rw [isLetter_underscore] at underscore
      cases underscore

/-- Behind letters of a name comes a letter of it, or its subscript. -/
theorem NameAt.goes_on {front beyond rest : List Char} {c : Char}
    (at_front : NameAt (front ++ c :: beyond) rest)
    (letters : ∀ d ∈ front, Text.isLetter d = true) :
    Text.isLetter c = true ∨ SubscriptAt (c :: beyond) := by
  by_cases letter : Text.isLetter c = true
  · exact .inl letter
  · right
    generalize name_eq : front ++ c :: beyond = name at at_front
    cases at_front with
    | plain run _ =>
        have member : c ∈ name := by simp [← name_eq]
        exact absurd (run.all c member) letter
    | @subscripted first subscript _ all starts _ =>
        -- both are what is left of the name without its letters
        have left := congrArg (List.dropWhile Text.isLetter) name_eq
        have noLetter : ¬Text.isLetter '_' = true := by
          rw [isLetter_underscore]
          exact Bool.false_ne_true
        rw [List.dropWhile_append_of_pos letters, List.dropWhile_append_of_pos all,
          List.dropWhile_cons_of_neg letter, List.dropWhile_cons_of_neg noLetter] at left
        rwa [left]

/-- A name that begins within a name of letters only does not go on behind it. -/
theorem NameAt.prefix_of_overlap {name after rest letters behind : List Char}
    (at_front : NameAt name after) (run : Text.Run Text.isLetter letters behind)
    (noSubscript : ¬SubscriptAt behind) (overlap : name ++ rest = letters ++ behind) :
    name <+: letters := by
  rcases List.append_eq_append_iff.mp overlap with ⟨others, rfl, -⟩ | ⟨beyond, rfl, behind_eq⟩
  · exact List.prefix_append _ _
  · cases beyond with
    | nil => simp
    | cons c beyond =>
        exfalso
        rcases at_front.goes_on run.all with letter | subscript
        · have stops : Text.isLetter c = false := run.ends c (by rw [behind_eq]; rfl)
          rw [stops] at letter
          cases letter
        · exact noSubscript (behind_eq ▸ subscript.append rest)

/-! ## Lexemes -/

namespace Lexeme

/-- A lexeme of a kind in front of the rest of a text. -/
inductive CutOff : LexemeKind → List Char → List Char → Prop
  | number {c : Char} {spelling rest : List Char} (starts : (c.isDigit || c = '.') = true)
      (number : NumberAt (c :: spelling) rest) : CutOff .number (c :: spelling) rest
  | name {c : Char} {spelling rest : List Char} (noFigure : (c.isDigit || c = '.') = false)
      (starts : Text.isLetter c = true) (name : NameAt (c :: spelling) rest) :
      CutOff .name (c :: spelling) rest
  | mark {c : Char} {mark : Mark} {rest : List Char} (noFigure : (c.isDigit || c = '.') = false)
      (noLetter : Text.isLetter c = false) (starts : Mark.ofChar? c = some mark) :
      CutOff (.mark mark) [c] rest

theorem cutOff_of_first? {c : Char} {after spelling rest : List Char} {kind : LexemeKind}
    (first : first? (c :: after) = some (kind, spelling, rest)) :
    ∃ others, spelling = c :: others ∧ after = others ++ rest ∧ CutOff kind spelling rest := by
  rw [first?] at first
  by_cases figure : (c.isDigit || c = '.') = true
  · rw [if_pos figure] at first
    rcases span : spanNumber (c :: after) with ⟨spelling', rest'⟩
    rw [span] at first
    cases first
    obtain ⟨text_eq, number⟩ := numberAt_of_spanNumber span
    obtain ⟨others, rfl, after_eq⟩ := number.starts figure text_eq
    exact ⟨others, rfl, after_eq, .number figure number⟩
  · rw [if_neg figure] at first
    by_cases letter : Text.isLetter c = true
    · rw [if_pos letter] at first
      rcases span : spanName (c :: after) with ⟨spelling', rest'⟩
      rw [span] at first
      cases first
      obtain ⟨text_eq, name⟩ := nameAt_of_spanName span
      obtain ⟨others, rfl, after_eq⟩ := name.starts letter text_eq
      exact ⟨others, rfl, after_eq, .name (Bool.eq_false_iff.mpr figure) letter name⟩
    · rw [if_neg letter] at first
      obtain ⟨mark, found, cut⟩ := Option.map_eq_some_iff.mp first
      cases cut
      have noFigure := Bool.eq_false_iff.mpr figure
      exact ⟨[], rfl, rfl, .mark noFigure (Bool.eq_false_iff.mpr letter) found⟩

theorem CutOff.nonempty {kind : LexemeKind} {spelling rest : List Char}
    (cut : CutOff kind spelling rest) : spelling ≠ [] := by
  cases cut <;> exact List.cons_ne_nil _ _

/-- Letters are met in names only, unless they are figures too. -/
theorem CutOff.name_of_letter {kind : LexemeKind} {spelling rest : List Char}
    (cut : CutOff kind spelling rest) {c : Char} (member : c ∈ spelling)
    (noFigure : (c.isDigit || c = '.') = false) (letter : Text.isLetter c = true) :
    kind = .name ∧ NameAt spelling rest := by
  cases cut with
  | number _ number =>
      rw [number.figure member] at noFigure
      cases noFigure
  | name _ _ name => exact ⟨rfl, name⟩
  | mark _ noLetter _ =>
      rw [List.mem_singleton.mp member, noLetter] at letter
      cases letter

/-- A step of cutting passes a blank or cuts off a lexeme. -/
theorem splitFrom_cons {fuel position : Nat} {c : Char} {rest : List Char} {lexemes : List Lexeme}
    (cuts : splitFrom (fuel + 1) position (c :: rest) = .ok lexemes) :
    (Text.isBlank c = true ∧ splitFrom fuel (position + c.utf8Size) rest = .ok lexemes) ∨
      ∃ kind others behind later, rest = others ++ behind ∧ Text.isBlank c = false ∧
        CutOff kind (c :: others) behind ∧ c :: others ≠ ['.'] ∧
        splitFrom fuel (position + Text.byteLength (c :: others)) behind = .ok later ∧
        lexemes = ⟨kind, c :: others, position⟩ :: later := by
  rw [splitFrom] at cuts
  by_cases blank : Text.isBlank c = true
  · rw [if_pos blank] at cuts
    exact .inl ⟨blank, cuts⟩
  · rw [if_neg blank] at cuts
    split at cuts
    · cases cuts
    · rename_i kind spelling behind first
      obtain ⟨others, rfl, rest_eq, cut⟩ := cutOff_of_first? first
      by_cases point : c :: others = ['.']
      · rw [if_pos point] at cuts
        cases cuts
      · rw [if_neg point] at cuts
        cases later_cuts : splitFrom fuel (position + Text.byteLength (c :: others)) behind with
        | error fault =>
            rw [later_cuts] at cuts
            cases cuts
        | ok later =>
            rw [later_cuts] at cuts
            cases cuts
            exact .inr ⟨kind, others, behind, later, rest_eq, Bool.eq_false_iff.mpr blank, cut,
              point, later_cuts, rfl⟩

/-! ## Whole texts -/

/-- A text that stands from a byte on is nothing but lexemes with blanks around them. -/
inductive Covers : Nat → List Char → List Lexeme → Prop
  | nil (position : Nat) : Covers position [] []
  | blank {position : Nat} {c : Char} {text : List Char} {lexemes : List Lexeme}
      (isBlank : Text.isBlank c = true) (covers : Covers (position + c.utf8Size) text lexemes) :
      Covers position (c :: text) lexemes
  | lexeme {position : Nat} {kind : LexemeKind} {c : Char} {others text : List Char}
      {lexemes : List Lexeme} (noBlank : Text.isBlank c = false)
      (cut : CutOff kind (c :: others) text) (noLonePoint : c :: others ≠ ['.'])
      (covers : Covers (position + Text.byteLength (c :: others)) text lexemes) :
      Covers position (c :: others ++ text) (⟨kind, c :: others, position⟩ :: lexemes)

theorem covers_of_splitFrom {fuel position : Nat} {text : List Char} {lexemes : List Lexeme}
    (enough : text.length ≤ fuel) (cuts : splitFrom fuel position text = .ok lexemes) :
    Covers position text lexemes := by
  induction fuel generalizing position text lexemes with
  | zero =>
      rw [List.eq_nil_of_length_eq_zero (Nat.le_zero.mp enough)]
      cases cuts
      exact .nil position
  | succ fuel ih =>
      cases text with
      | nil =>
          cases cuts
          exact .nil position
      | cons c rest =>
          rw [List.length_cons] at enough
          rcases splitFrom_cons cuts with
            ⟨blank, later_cuts⟩ |
            ⟨kind, others, behind, later, rfl, noBlank, cut, noLonePoint, later_cuts, rfl⟩
          · exact .blank blank (ih (by omega) later_cuts)
          · rw [List.length_append] at enough
            exact .lexeme noBlank cut noLonePoint (ih (by omega) later_cuts)

theorem covers_of_split {text : List Char} {lexemes : List Lexeme}
    (cuts : split text = .ok lexemes) : Covers 0 text lexemes := covers_of_splitFrom le_rfl cuts

/-- Each lexeme stands in the text where its position says. -/
theorem Covers.stands {position : Nat} {text : List Char} {lexemes : List Lexeme}
    (covers : Covers position text lexemes) {l : Lexeme} (member : l ∈ lexemes) :
    ∃ front back, text = front ++ l.spelling ++ back ∧
      l.position = position + Text.byteLength front ∧ CutOff l.kind l.spelling back ∧
      ∀ c ∈ l.spelling.head?, Text.isBlank c = false := by
  induction covers with
  | nil => cases member
  | @blank position c text lexemes _ _ ih =>
      obtain ⟨front, back, text_eq, at_front, rest⟩ := ih member
      refine ⟨c :: front, back, by rw [text_eq]; rfl, ?_, rest⟩
      rw [at_front, Text.byteLength_cons, Nat.add_assoc]
  | @lexeme position kind c others text lexemes noBlank cut _ _ ih =>
      rcases List.mem_cons.mp member with rfl | later
      · refine ⟨[], text, rfl, rfl, cut, fun d first => ?_⟩
        cases first
        exact noBlank
      · obtain ⟨front, back, text_eq, at_front, rest⟩ := ih later
        refine ⟨c :: others ++ front, back, by simp [text_eq], ?_, rest⟩
        rw [at_front, Text.byteLength_append, Nat.add_assoc]

/-- Lexemes do not overlap. -/
theorem Covers.pairwise {position : Nat} {text : List Char} {lexemes : List Lexeme}
    (covers : Covers position text lexemes) :
    lexemes.Pairwise fun a b => a.position + Text.byteLength a.spelling ≤ b.position := by
  induction covers with
  | nil => exact .nil
  | blank _ _ ih => exact ih
  | lexeme _ _ _ covers ih =>
      refine .cons (fun l later => ?_) ih
      obtain ⟨front, -, -, at_front, -⟩ := covers.stands later
      rw [at_front]
      exact Nat.le_add_right _ _

/-- A lexeme that stands in front of another comes before it. -/
theorem Covers.mem_before {position : Nat} {text : List Char} {before after : List Lexeme}
    {l m : Lexeme} (covers : Covers position text (before ++ l :: after))
    (member : m ∈ before ++ l :: after) (in_front : m.position < l.position) : m ∈ before := by
  obtain ⟨-, ordered, -⟩ := List.pairwise_append.mp covers.pairwise
  rcases List.mem_append.mp member with earlier | later
  · exact earlier
  · rcases List.mem_cons.mp later with rfl | later
    · omega
    · have := List.rel_of_pairwise_cons ordered later
      omega

/-- A lexeme has a character at a byte of the text, with a text behind it. -/
def HasAt (l : Lexeme) (place : Nat) (c : Char) (rest : List Char) : Prop :=
  ∃ before others behind, l.spelling = before ++ c :: others ∧ rest = others ++ behind ∧
    place = l.position + Text.byteLength before ∧ CutOff l.kind l.spelling behind

/-- A character of the text is a blank or lies in a lexeme. -/
theorem Covers.at_char {position : Nat} {text : List Char} {lexemes : List Lexeme}
    (covers : Covers position text lexemes) {front rest : List Char} {c : Char}
    (text_eq : text = front ++ c :: rest) :
    Text.isBlank c = true ∨
      ∃ l ∈ lexemes, l.HasAt (position + Text.byteLength front) c rest := by
  induction covers generalizing front with
  | nil => simp at text_eq
  | @blank position d text lexemes isBlank _ ih =>
      cases front with
      | nil =>
          rw [List.nil_append, List.cons.injEq] at text_eq
          exact .inl (text_eq.1 ▸ isBlank)
      | cons e front =>
          rw [List.cons_append, List.cons.injEq] at text_eq
          rw [Text.byteLength_cons, ← text_eq.1, ← Nat.add_assoc]
          exact ih text_eq.2
  | @lexeme position kind d others text lexemes _ cut _ _ ih =>
      have later {before : List Char} (front_eq : front = d :: others ++ before)
          (text_eq' : text = before ++ c :: rest) :
          Text.isBlank c = true ∨ ∃ l ∈ ⟨kind, d :: others, position⟩ :: lexemes,
            l.HasAt (position + Text.byteLength front) c rest := by
        rw [front_eq, Text.byteLength_append, ← Nat.add_assoc]
        rcases ih text_eq' with blank | ⟨l, member, has⟩
        · exact .inl blank
        · exact .inr ⟨l, List.mem_cons_of_mem _ member, has⟩
      rcases List.append_eq_append_iff.mp text_eq with
        ⟨before, front_eq, text_eq'⟩ | ⟨left, spelling, rest_eq⟩
      · exact later front_eq text_eq'
      · cases left with
        | nil =>
            rw [List.append_nil] at spelling
            exact later (spelling.symm.trans (List.append_nil _).symm) rest_eq.symm
        | cons e left =>
            rw [List.cons_append, List.cons.injEq] at rest_eq
            obtain ⟨rfl, rest_eq⟩ := rest_eq
            exact .inr ⟨_, List.mem_cons_self, front, left, text, spelling, rest_eq, rfl, cut⟩

end Lexeme

end Tonegraph
