import Mathlib.Data.List.Infix
import Mathlib.Data.List.Chain
import Tonegraph.Formula.Latex
/-!
# Glyphs: what displays are put together from

A display is a list of glyphs: the sizes of numbers, which have many texts, and pieces, which have
one each. `written` is the text of such a list. No text of a piece starts another one, and no digit
starts one, so a text tells its glyphs (`written_injective`), as long as no two sizes that are
written in digits stand side by side (`Spaced`).
-/

set_option autoImplicit false

namespace Tonegraph.Latex

/-! ## Numbers -/

/-- Digits, possibly with points among them, and a digit at both ends. -/
structure Figures (text : List Char) : Prop where
  first : ∃ c ∈ text.head?, c.isDigit = true
  last : ∃ c ∈ text.getLast?, c.isDigit = true
  all : ∀ c ∈ text, c.isDigit = true ∨ c = '.'

/-- A number without its sign, as it is written. -/
inductive Size where
  | infinite
  | undefined
  | figures (text : List Char) (isFigures : Figures text)

/-- A number as it is written. -/
structure Spelling where
  negative : Bool
  size : Size

/-- The text of a size. -/
def Size.text : Size → List Char
  | .infinite => "inf".toList
  | .undefined => "NaN".toList
  | .figures text _ => text

theorem Size.head?_text_ne_sign (size : Size) : size.text.head? ≠ some '-' := by
  match size with
  | .infinite | .undefined => decide
  | .figures text isFigures =>
      obtain ⟨c, head, digit⟩ := isFigures.first
      rintro sign
      cases head.symm.trans sign
      cases digit

/-- The opposite number is written with the other sign. -/
instance : Neg Spelling where
  neg spelling := { spelling with negative := !spelling.negative }

/-! ## Pieces -/

/-- The brackets that one operand stands between. -/
inductive Enclosure where
  | parentheses
  | bars
  | floor
  | ceil
  | sin
  | cos
  | tan
deriving DecidableEq

/-- What opens an enclosure. -/
def Enclosure.opening : Enclosure → String
  | .parentheses => "("
  | .bars => "|"
  | .floor => "\\lfloor "
  | .ceil => "\\lceil "
  | .sin => "\\sin("
  | .cos => "\\cos("
  | .tan => "\\tan("

/-- What displays are put together from, the sizes of numbers apart. A bar stands on both sides of
what it encloses, so there is no piece of its own that closes bars. -/
inductive Piece where
  | time
  | constant (constant : Constant)
  | plus
  | minus
  | percent
  | sign
  | caret
  | fraction
  | logarithm
  | brace
  | unbrace
  | opens (enclosure : Enclosure)
  | closesParentheses
  | closesFloor
  | closesCeil
deriving DecidableEq

namespace Piece

/-- The text of a piece. -/
def text : Piece → String
  | .time => timeName
  | .constant c => Latex.constant c
  | .plus => " + "
  | .minus => " - "
  | .percent => " % "
  | .sign => "-"
  | .caret => "^"
  | .fraction => "\\frac"
  | .logarithm => "\\log_"
  | .brace => "\x7b"
  | .unbrace => "\x7d"
  | .opens enclosure => enclosure.opening
  | .closesParentheses => ")"
  | .closesFloor => " \\rfloor"
  | .closesCeil => " \\rceil"

/-- All pieces. -/
def all : List Piece :=
  [.time, .constant .pi, .constant .euler, .plus, .minus, .percent, .sign, .caret, .fraction,
    .logarithm, .brace, .unbrace, .closesParentheses, .closesFloor, .closesCeil] ++
    [Enclosure.parentheses, .bars, .floor, .ceil, .sin, .cos, .tan].map .opens

theorem mem_all (p : Piece) : p ∈ all := by
  cases p with
  | constant c => cases c <;> decide
  | opens e => cases e <;> decide
  | _ => decide

/-- No piece's text starts another piece's text. -/
theorem eq_of_prefix {p q : Piece} (starts : p.text.toList <+: q.text.toList) : p = q :=
  have distinct : ∀ p ∈ all, ∀ q ∈ all, p.text.toList <+: q.text.toList → p = q := by
    decide
  distinct p (mem_all p) q (mem_all q) starts

end Piece

/-! ## Glyphs -/

/-- What stands in a display without being put together: the size of a number, or a piece. -/
inductive Glyph where
  | size (s : Size)
  | piece (p : Piece)

namespace Glyph

/-- The text of a glyph. -/
def text : Glyph → List Char
  | .size s => s.text
  | .piece p => p.text.toList

/-- Whether a glyph is written in figures. -/
def inFigures : Glyph → Bool
  | .size (.figures _ _) => true
  | _ => false

/-- The kinds of glyphs that a first character tells apart. -/
inductive Kind where
  | infinite
  | undefined
  | figures
  | piece
deriving DecidableEq

/-- The kind of a glyph. -/
def kind : Glyph → Kind
  | .size .infinite => .infinite
  | .size .undefined => .undefined
  | .size (.figures _ _) => .figures
  | .piece _ => .piece

/-- The kind of the glyphs that start with a character. -/
def Kind.ofChar (c : Char) : Kind :=
  if c.isDigit then .figures
  else if c = 'i' then .infinite
  else if c = 'N' then .undefined
  else .piece

/-- No glyph is empty or starts with a point, and what it starts with tells its kind. -/
theorem head?_text (g : Glyph) :
    ∃ c, g.text.head? = some c ∧ Kind.ofChar c = g.kind ∧ c ≠ '.' := by
  match g with
  | .size .infinite => exact ⟨'i', rfl, rfl, by decide⟩
  | .size .undefined => exact ⟨'N', rfl, rfl, by decide⟩
  | .size (.figures text isFigures) =>
      obtain ⟨c, head, digit⟩ := isFigures.first
      refine ⟨c, head, if_pos digit, ?_⟩
      rintro rfl
      cases digit
  | .piece p =>
      have starts : ∀ p ∈ Piece.all, p.text.toList.head?.any
          (fun c => Kind.ofChar c == .piece && c != '.') = true := by decide
      have start := starts p (Piece.mem_all p)
      show ∃ c, p.text.toList.head? = some c ∧ _
      cases head : p.text.toList.head? with
      | none =>
          rw [head] at start
          cases start
      | some c =>
          rw [head] at start
          exact ⟨c, rfl, by simpa [kind] using start⟩

theorem text_ne_nil (g : Glyph) : g.text ≠ [] := by
  obtain ⟨c, head, -⟩ := g.head?_text
  rintro empty
  rw [empty] at head
  cases head

end Glyph

/-- Whether a character can stand in figures. -/
def isNumeric (c : Char) : Bool := c.isDigit || c == '.'

/-- Nothing at the front of a text goes on with figures. -/
def EndsFigures (text : List Char) : Prop := ∀ c ∈ text.head?, isNumeric c = false

theorem Figures.takeWhile_append {text rest : List Char} (figures : Figures text)
    (ends : EndsFigures rest) : (text ++ rest).takeWhile isNumeric = text := by
  have all : ∀ c ∈ text, isNumeric c = true := by
    intro c member
    simpa [isNumeric] using figures.all c member
  have none : rest.takeWhile isNumeric = [] := by
    cases rest with
    | nil => rfl
    | cons c rest => exact List.takeWhile_cons_of_neg (by simp [ends c rfl])
  rw [List.takeWhile_append_of_pos all, none, List.append_nil]

/-- Equal texts that start with glyphs start with the same glyph, if figures end where the glyph
that they are ends. -/
theorem Glyph.eq_of_append_eq {g h : Glyph} {rest others : List Char}
    (same : g.text ++ rest = h.text ++ others)
    (ends : g.inFigures = true → EndsFigures rest)
    (ends' : h.inFigures = true → EndsFigures others) : g = h := by
  have kinds : g.kind = h.kind := by
    obtain ⟨c, head, kind, -⟩ := g.head?_text
    obtain ⟨d, head', kind', -⟩ := h.head?_text
    have heads := congrArg List.head? same
    rw [List.head?_append_of_ne_nil _ g.text_ne_nil, List.head?_append_of_ne_nil _ h.text_ne_nil,
      head, head'] at heads
    cases heads
    exact kind.symm.trans kind'
  match g, h, kinds with
  | .size .infinite, .size .infinite, _ => rfl
  | .size .undefined, .size .undefined, _ => rfl
  | .size (.figures text isFigures), .size (.figures text' isFigures'), _ =>
      have equal : text = text' :=
        calc text = (text ++ rest).takeWhile isNumeric :=
              (isFigures.takeWhile_append (ends rfl)).symm
          _ = (text' ++ others).takeWhile isNumeric := congrArg _ same
          _ = text' := isFigures'.takeWhile_append (ends' rfl)
      subst equal
      rfl
  | .piece p, .piece q, _ =>
      have starts : p.text.toList <+: q.text.toList ∨ q.text.toList <+: p.text.toList :=
        List.prefix_or_prefix_of_prefix (List.prefix_append _ rest) ⟨others, same.symm⟩
      cases starts with
      | inl starts => rw [Piece.eq_of_prefix starts]
      | inr starts => rw [Piece.eq_of_prefix starts]

/-! ## Texts of glyphs -/

/-- The text of a list of glyphs. -/
def written (glyphs : List Glyph) : List Char := glyphs.flatMap Glyph.text

@[simp] theorem written_nil : written [] = [] := rfl

@[simp] theorem written_cons (g : Glyph) (glyphs : List Glyph) :
    written (g :: glyphs) = g.text ++ written glyphs := rfl

@[simp] theorem written_append (glyphs others : List Glyph) :
    written (glyphs ++ others) = written glyphs ++ written others := List.flatMap_append

/-- No two sizes written in figures stand side by side. -/
def Spaced (glyphs : List Glyph) : Prop :=
  glyphs.IsChain fun g h => ¬(g.inFigures = true ∧ h.inFigures = true)

/-- Figures end in front of a glyph that is not written in figures. -/
theorem endsFigures_written {glyphs : List Glyph}
    (other : ∀ g ∈ glyphs.head?, g.inFigures = false) : EndsFigures (written glyphs) := by
  match glyphs with
  | [] => rintro c ⟨⟩
  | g :: rest =>
      intro c head
      have plain := other g rfl
      rw [written_cons, List.head?_append_of_ne_nil _ g.text_ne_nil] at head
      obtain ⟨d, head', kind, noPoint⟩ := g.head?_text
      cases head.symm.trans head'
      have noDigit : c.isDigit = false := by
        by_contra digit
        have figures : g.kind = .figures :=
          kind.symm.trans (if_pos (by simpa using digit))
        match g with
        | .size (.figures _ _) => cases plain
      simp [isNumeric, noDigit, noPoint]

theorem Spaced.endsFigures {g : Glyph} {glyphs : List Glyph} (spaced : Spaced (g :: glyphs))
    (figures : g.inFigures = true) : EndsFigures (written glyphs) := by
  apply endsFigures_written
  intro h head
  rw [Spaced, List.isChain_cons] at spaced
  have apart := spaced.1 h head
  simpa [figures] using apart

/-- A text tells the glyphs that it is put together from. -/
theorem written_injective {glyphs others : List Glyph} (spaced : Spaced glyphs)
    (spaced' : Spaced others) (same : written glyphs = written others) : glyphs = others := by
  induction glyphs generalizing others with
  | nil =>
      cases others with
      | nil => rfl
      | cons h others => exact absurd same.symm (List.append_ne_nil_of_left_ne_nil h.text_ne_nil _)
  | cons g glyphs ih =>
      cases others with
      | nil => exact absurd same (List.append_ne_nil_of_left_ne_nil g.text_ne_nil _)
      | cons h others =>
          have first : g = h :=
            Glyph.eq_of_append_eq same spaced.endsFigures spaced'.endsFigures
          subst first
          have apart : Spaced others := spaced'.tail
          rw [ih spaced.tail apart (List.append_cancel_left same)]

/-! ## Figures at the ends -/

/-- A text that ends with a glyph in figures ends with a digit. -/
theorem getLast?_written {glyphs : List Glyph} {g : Glyph} (last : g ∈ glyphs.getLast?)
    (figures : g.inFigures = true) : ∃ c ∈ (written glyphs).getLast?, c.isDigit = true := by
  obtain ⟨front, rfl⟩ := List.getLast?_eq_some_iff.mp last
  match g with
  | .size (.figures text isFigures) =>
      obtain ⟨c, last, digit⟩ := isFigures.last
      refine ⟨c, ?_, digit⟩
      have ends : written [.size (.figures text isFigures)] = text := List.append_nil text
      rw [written_append, ends]
      exact List.mem_getLast?_append_of_mem_getLast? last
  | .size .infinite | .size .undefined | .piece _ => cases figures

/-- A text that starts with a glyph in figures starts with a digit. -/
theorem head?_written {glyphs : List Glyph} {g : Glyph} (head : g ∈ glyphs.head?)
    (figures : g.inFigures = true) : ∃ c ∈ (written glyphs).head?, c.isDigit = true := by
  obtain ⟨rest, rfl⟩ := List.head?_eq_some_iff.mp head
  match g with
  | .size (.figures text isFigures) =>
      obtain ⟨c, head, digit⟩ := isFigures.first
      exact ⟨c, List.mem_head?_append_of_mem_head? head, digit⟩
  | .size .infinite | .size .undefined | .piece _ => cases figures

namespace Spaced

variable {glyphs others : List Glyph}

/-- Two displays side by side are spaced when their texts do not join two digits. -/
theorem append (spaced : Spaced glyphs) (spaced' : Spaced others)
    (apart : ¬((∃ c ∈ (written glyphs).getLast?, c.isDigit = true) ∧
      ∃ c ∈ (written others).head?, c.isDigit = true)) : Spaced (glyphs ++ others) := by
  refine List.isChain_append.mpr ⟨spaced, spaced', ?_⟩
  rintro g last h head ⟨figures, figures'⟩
  exact apart ⟨getLast?_written last figures, head?_written head figures'⟩

theorem piece (p : Piece) (spaced : Spaced glyphs) : Spaced (.piece p :: glyphs) :=
  List.isChain_cons.mpr ⟨by rintro g - ⟨⟨⟩, -⟩, spaced⟩

theorem append_piece {p : Piece} (spaced : Spaced glyphs) (spaced' : Spaced (.piece p :: others)) :
    Spaced (glyphs ++ .piece p :: others) := by
  refine List.isChain_append.mpr ⟨spaced, spaced', ?_⟩
  rintro g - h ⟨⟩ ⟨-, ⟨⟩⟩

theorem between (p : Piece) (spaced : Spaced glyphs) (spaced' : Spaced others) :
    Spaced (glyphs ++ .piece p :: others) :=
  spaced.append_piece (spaced'.piece p)

end Spaced

theorem spaced_singleton (g : Glyph) : Spaced [g] := List.isChain_singleton g

/-! ## Brackets -/

/-- What closes an enclosure. -/
def Enclosure.closing : Enclosure → Glyph
  | .bars => .piece (.opens .bars)
  | .floor => .piece .closesFloor
  | .ceil => .piece .closesCeil
  | .parentheses | .sin | .cos | .tan => .piece .closesParentheses

/-- A list of glyphs in an enclosure. -/
def enclosed (e : Enclosure) (content : List Glyph) : List Glyph :=
  .piece (.opens e) :: (content ++ [e.closing])

/-- A list of glyphs in braces. -/
def bracedGlyphs (content : List Glyph) : List Glyph :=
  .piece .brace :: (content ++ [.piece .unbrace])

theorem Spaced.enclosed {glyphs : List Glyph} (spaced : Spaced glyphs) (e : Enclosure) :
    Spaced (enclosed e glyphs) := by
  have closed : ∃ p, e.closing = .piece p := by cases e <;> exact ⟨_, rfl⟩
  obtain ⟨p, closing⟩ := closed
  rw [Latex.enclosed, closing]
  exact (spaced.between p List.isChain_nil).piece _

theorem Spaced.braced {glyphs : List Glyph} (spaced : Spaced glyphs) :
    Spaced (bracedGlyphs glyphs) :=
  (spaced.between .unbrace List.isChain_nil).piece .brace

theorem written_parenthesised {content : List Glyph} {text : String}
    (same : written content = text.toList) :
    written (enclosed .parentheses content) = (parenthesised text).toList := by
  simp [enclosed, parenthesised, Enclosure.closing, Glyph.text, Piece.text, Enclosure.opening, same]

theorem written_braced {content : List Glyph} {text : String}
    (same : written content = text.toList) :
    written (bracedGlyphs content) = (braced text).toList := by
  simp [bracedGlyphs, braced, Glyph.text, Piece.text, same]

end Tonegraph.Latex
