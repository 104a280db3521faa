import Tonegraph.Proofs.Formula.Completeness
import Tonegraph.Proofs.Formula.Lexemes
import Tonegraph.Proofs.Formula.Names
/-!
# Where an unknown name is reported

A text that is a formula is refused for playing when it has a variable other than the time, and the
error has the first of them: the tree mentions names in the order of the text. Its position is where
that name first occurs in the text as a run of characters. An occurrence in front of the name itself
lies within one name, for a reserved name and the time are all letters, and a name does not go on
behind these (`Lexeme.Covers.infix_of_earlier`). So the error points at the name just where no name
in front of it has it in its spelling.
-/

set_option autoImplicit false

namespace Tonegraph

/-! ## First occurrences -/

/-- A part that occurs in a text is found where it occurs first. -/
theorem Formula.find?_of_occurs {part text front back : List Char} (position : Nat)
    (occurs : text = front ++ part ++ back) :
    ∃ first after, text = first ++ part ++ after ∧
      find? part position text = some (position + Text.byteLength first) ∧
      ∀ front back, text = front ++ part ++ back →
        Text.byteLength first ≤ Text.byteLength front := by
  induction text generalizing front position with
  | nil =>
      have empty : part = [] := by simp_all
      refine ⟨[], [], by simp [empty], by simp [find?, empty, Text.byteLength], fun _ _ _ => ?_⟩
      exact Nat.zero_le _
  | cons c rest ih =>
      by_cases here : part <+: c :: rest
      · obtain ⟨after, text_eq⟩ := here
        refine ⟨[], after, text_eq.symm, ?_, fun _ _ _ => Nat.zero_le _⟩
        rw [find?, if_pos (List.isPrefixOf_iff_prefix.mpr ⟨after, text_eq⟩)]
        rfl
      · -- so an occurrence has the first character of the text in front of it
        have further {front back : List Char} (occurs : c :: rest = front ++ part ++ back) :
            ∃ front', front = c :: front' ∧ rest = front' ++ part ++ back := by
          cases front with
          | nil => exact absurd ⟨back, occurs.symm⟩ here
          | cons d front' =>
              rw [List.cons_append, List.cons_append, List.cons.injEq] at occurs
              exact ⟨front', by rw [occurs.1], occurs.2⟩
        obtain ⟨front', -, occurs'⟩ := further occurs
        obtain ⟨first, after, text_eq, found, least⟩ := ih (position + c.utf8Size) occurs'
        refine ⟨c :: first, after, by rw [text_eq]; rfl, ?_, fun front back occurs => ?_⟩
        · rw [find?, if_neg (mt List.isPrefixOf_iff_prefix.mp here), found, Text.byteLength_cons,
            Nat.add_assoc]
        · obtain ⟨front', rfl, occurs'⟩ := further occurs
          exact Nat.add_le_add_left (least front' back occurs') _

/-! ## Foreign names in the text -/

namespace Lexeme

/-- A lexeme is a name that is neither reserved nor that of the time. -/
def IsForeign (l : Lexeme) : Prop :=
  l.kind = .name ∧ String.ofList l.spelling ∉ reservedNames ∧ String.ofList l.spelling ≠ timeName

instance : DecidablePred IsForeign := fun _ => inferInstanceAs (Decidable (_ ∧ _))

/-- A name that is not foreign is made of letters only. -/
theorem letters_of_not_foreign {l : Lexeme} (name : l.kind = .name) (home : ¬l.IsForeign) :
    ∀ c ∈ l.spelling, Text.isLetter c = true := by
  have letters : ((timeName :: reservedNames).all (·.toList.all Text.isLetter)) = true := by decide
  have listed : String.ofList l.spelling ∈ timeName :: reservedNames := by
    by_contra unlisted
    rw [List.mem_cons, not_or] at unlisted
    exact home ⟨name, unlisted.2, unlisted.1⟩
  have spelled := List.all_eq_true.mp letters _ listed
  rw [String.toList_ofList] at spelled
  exact List.all_eq_true.mp spelled

variable {R : Type} [OfScientific R]

theorem freeName?_token (l : Lexeme) :
    (l.token : PlacedToken R).token.freeName? =
      if l.kind = .name ∧ String.ofList l.spelling ∉ reservedNames then
        some (String.ofList l.spelling) else none := by
  rcases l with ⟨kind, spelling, position⟩
  cases kind with
  | number => rfl
  | mark => rfl
  | name =>
      by_cases reserved : String.ofList spelling ∈ reservedNames
      · simp [token, Token.freeName?_of_reserved reserved, reserved]
      · simp [token, Token.freeName?_of_free reserved, reserved]

theorem freeName?_token_of_isForeign {l : Lexeme} (foreign : l.IsForeign) :
    (l.token : PlacedToken R).token.freeName? = some (String.ofList l.spelling) := by
  rw [freeName?_token, if_pos ⟨foreign.1, foreign.2.1⟩]

/-- A lexeme is foreign when it names a variable other than the time. -/
theorem any_freeName?_token (l : Lexeme) :
    (l.token : PlacedToken R).token.freeName?.any (· ≠ timeName) = decide l.IsForeign := by
  rw [freeName?_token]
  by_cases free : l.kind = .name ∧ String.ofList l.spelling ∉ reservedNames
  · rw [if_pos free, Option.any_some]
    simp [IsForeign, free.1, free.2]
  · rw [if_neg free, Option.any_none]
    have home : ¬l.IsForeign := fun foreign => free ⟨foreign.1, foreign.2.1⟩
    simp [home]

/-- A name that begins in front of a name in the text, and is spelled as this is, lies within one
name, if the names in front are made of letters only. -/
theorem Covers.infix_of_earlier {text front back : List Char} {before after : List Lexeme}
    {l : Lexeme} (covers : Covers 0 text (before ++ l :: after)) (name : l.kind = .name)
    (letters : ∀ m ∈ before, m.kind = .name → ∀ c ∈ m.spelling, Text.isLetter c = true)
    (occurs : text = front ++ l.spelling ++ back) (earlier : Text.byteLength front < l.position) :
    ∃ m ∈ before, m.kind = .name ∧ l.spelling <:+: m.spelling := by
  obtain ⟨-, rest, -, -, cut, noBlank⟩ :=
    covers.stands (List.mem_append_right before List.mem_cons_self)
  rcases l with ⟨kind, spelling, position⟩
  dsimp only at name occurs earlier cut noBlank ⊢
  subst name
  cases cut with
  | @name c others _ noFigure starts at_front =>
      rw [List.append_assoc, List.cons_append] at occurs
      rcases covers.at_char occurs with
        blank | ⟨m, member, left, right, behind, m_eq, rest_eq, place, cut⟩
      · rw [noBlank c rfl] at blank
        cases blank
      · have m_before : m ∈ before := by
          refine covers.mem_before member ?_
          show m.position < position
          omega
        have c_mem : c ∈ m.spelling := by simp [m_eq]
        obtain ⟨m_name, m_at⟩ := cut.name_of_letter c_mem noFigure starts
        obtain ⟨run, noSubscript⟩ := m_at.plain_of_letters (letters m m_before m_name)
        rw [m_eq] at run
        have overlap : c :: others ++ back = c :: right ++ behind := by
          rw [List.cons_append, List.cons_append, rest_eq]
        obtain ⟨more, more_eq⟩ := at_front.prefix_of_overlap run.of_append noSubscript overlap
        exact ⟨m, m_before, m_name, left, more, by rw [m_eq, List.append_assoc, more_eq]⟩

/-- A name that is part of a name in front of it in the text occurs in front of itself. -/
theorem Covers.earlier_of_infix {text : List Char} {before after : List Lexeme} {l m : Lexeme}
    (covers : Covers 0 text (before ++ l :: after)) (member : m ∈ before)
    (part : l.spelling <:+: m.spelling) :
    ∃ front back, text = front ++ l.spelling ++ back ∧ Text.byteLength front < l.position := by
  obtain ⟨front, back, text_eq, place, -, -⟩ := covers.stands (List.mem_append_left _ member)
  obtain ⟨_, _, _, _, cut, _⟩ := covers.stands (List.mem_append_right before List.mem_cons_self)
  obtain ⟨-, -, apart⟩ := List.pairwise_append.mp covers.pairwise
  have apart := apart m member l List.mem_cons_self
  obtain ⟨left, right, m_eq⟩ := part
  refine ⟨front ++ left, right ++ back, by rw [text_eq, ← m_eq]; simp, ?_⟩
  have positive := Text.byteLength_pos cut.nonempty
  rw [← m_eq] at apart
  simp only [Text.byteLength_append] at apart ⊢
  omega

end Lexeme

namespace Formula

variable {R : Type} [OfScientific R] [Neg R]

/-- The variables of a text that is a formula are those that its lexemes name. -/
theorem mentions_of_parse {text : String} {x : Formula R} (parsed : parse text = .ok x) :
    ∃ lexemes, Lexeme.split text.toList = .ok lexemes ∧
      x.mentions = lexemes.filterMap fun l => (l.token : PlacedToken R).token.freeName? := by
  obtain ⟨tokens, tokenized, -, read⟩ := parse_eq_ok_iff_ofTokens.mp parsed
  obtain ⟨⟨n, -, derives⟩, -⟩ := ofTokens_eq_ok_iff.mp read
  rw [tokenize] at tokenized
  cases cuts : Lexeme.split text.toList with
  | error fault =>
      rw [cuts] at tokenized
      cases tokenized
  | ok lexemes =>
      rw [cuts] at tokenized
      cases tokenized
      refine ⟨lexemes, rfl, ?_⟩
      rw [mentions_of_derives derives, List.map_map, List.filterMap_map]
      rfl

/-- The first foreign name of the tree is the first of the text. -/
theorem foreignName?_of_parse {text : String} {x : Formula R} (parsed : parse text = .ok x) :
    ∃ lexemes, Lexeme.split text.toList = .ok lexemes ∧
      x.foreignName? = (lexemes.find? (·.IsForeign)).map fun l => String.ofList l.spelling := by
  obtain ⟨lexemes, cuts, mentions⟩ := mentions_of_parse parsed
  refine ⟨lexemes, cuts, ?_⟩
  rw [foreignName?, find?_names, mentions, List.find?_filterMap]
  simp only [Lexeme.any_freeName?_token]
  cases first : lexemes.find? (·.IsForeign) with
  | none => rfl
  | some l =>
      have foreign : decide l.IsForeign = true :=
        List.find?_some (p := fun l : Lexeme => decide l.IsForeign) first
      exact Lexeme.freeName?_token_of_isForeign (of_decide_eq_true foreign)

/-- **An unknown name is reported where it is first spelled.** A text that is a formula with a
variable other than the time is refused for its first foreign name. The position is that of the
first place at which this name is spelled in the text, which is the place of the name itself just
when no name in front of it is spelled with it. -/
theorem parsePlayable_of_foreign {text : String} {x : Formula R} (parsed : parse text = .ok x)
    (foreign : ∃ name ∈ x.names, name ≠ timeName) :
    ∃ before l after front back,
      Lexeme.split text.toList = .ok (before ++ l :: after) ∧
      l.IsForeign ∧ (∀ m ∈ before, ¬m.IsForeign) ∧
      (∃ start rest, text.toList = start ++ l.spelling ++ rest ∧
        Text.byteLength start = l.position) ∧
      parsePlayable (R := R) text =
        .error ⟨.unknownVariable (String.ofList l.spelling), Text.byteLength front⟩ ∧
      text.toList = front ++ l.spelling ++ back ∧
      (∀ front' back', text.toList = front' ++ l.spelling ++ back' →
        Text.byteLength front ≤ Text.byteLength front') ∧
      (Text.byteLength front = l.position ↔
        ∀ m ∈ before, m.kind = .name → ¬l.spelling <:+: m.spelling) := by
  obtain ⟨lexemes, cuts, first⟩ := foreignName?_of_parse parsed
  cases found : lexemes.find? (·.IsForeign) with
  | none =>
      rw [found, Option.map_none, foreignName?_eq_none_iff] at first
      obtain ⟨name, member, other⟩ := foreign
      exact absurd (first name member) other
  | some l =>
      obtain ⟨l_foreign, before, after, rfl, none_before⟩ := List.find?_eq_some_iff_append.mp found
      have l_foreign : l.IsForeign := of_decide_eq_true l_foreign
      have none_before : ∀ m ∈ before, ¬m.IsForeign := by simpa using none_before
      have covers := Lexeme.covers_of_split cuts
      obtain ⟨start, rest, start_eq, place, -, -⟩ :=
        covers.stands (List.mem_append_right before List.mem_cons_self)
      rw [Nat.zero_add] at place
      obtain ⟨front, back, front_eq, located, least⟩ := find?_of_occurs 0 start_eq
      rw [Nat.zero_add] at located
      refine ⟨before, l, after, front, back, cuts, l_foreign, none_before,
        ⟨start, rest, start_eq, place.symm⟩, ?_, front_eq, least, ?_⟩
      · rw [found, Option.map_some] at first
        rw [parsePlayable_of_foreignName parsed first, String.toList_ofList, located,
          Option.getD_some]
      · constructor
        · intro at_place m member name part
          obtain ⟨front', back', occurs, earlier⟩ := covers.earlier_of_infix member part
          have := least front' back' occurs
          omega
        · intro apart
          by_contra elsewhere
          have := least start rest start_eq
          obtain ⟨m, member, name, part⟩ := covers.infix_of_earlier l_foreign.1
            (fun m member name => Lexeme.letters_of_not_foreign name (none_before m member))
            front_eq (by omega)
          exact apart m member name part

/-- With a subscript the name `i` behind a sine is reported where it stands. -/
theorem parsePlayable_behind_sine :
    ∃ x : Formula Float, parse "sin(t)+i_1" = .ok x ∧ (∃ name ∈ x.names, name ≠ timeName) ∧
      ∃ l : Lexeme, l.IsForeign ∧ l.position = 7 ∧
        parsePlayable (R := Float) "sin(t)+i_1" =
          .error ⟨.unknownVariable (String.ofList l.spelling), l.position⟩ := by
  let x : Formula Float := .binary .add (.unary .sin (.named "t")) (.named "i_1")
  have parsed : parse "sin(t)+i_1" = .ok x := by decide +kernel
  have foreign : ∃ name ∈ x.names, name ≠ timeName := ⟨"i_1", by decide, by decide⟩
  let lexemes : List Lexeme :=
    [⟨.name, ['s', 'i', 'n'], 0⟩, ⟨.mark .opening, ['('], 3⟩, ⟨.name, ['t'], 4⟩,
      ⟨.mark .closing, [')'], 5⟩, ⟨.mark .plus, ['+'], 6⟩, ⟨.name, ['i', '_', '1'], 7⟩]
  have cuts : Lexeme.split "sin(t)+i_1".toList = .ok lexemes := by decide +kernel
  obtain ⟨before, l, after, front, -, cuts', l_foreign, none_before, -, refused, -, -, at_place⟩ :=
    parsePlayable_of_foreign parsed foreign
  rw [cuts, Except.ok.injEq] at cuts'
  have l_mem : l ∈ lexemes := by simp [cuts']
  have only : ∀ m ∈ lexemes, m.IsForeign → m = ⟨.name, ['i', '_', '1'], 7⟩ := by decide
  obtain rfl := only l l_mem l_foreign
  have apart : ∀ m ∈ lexemes, ¬m.IsForeign → ¬['i', '_', '1'] <:+: m.spelling := by decide
  have place : Text.byteLength front = 7 := at_place.mpr fun m member _ =>
    apart m (by simp [cuts', member]) (none_before m member)
  rw [place] at refused
  exact ⟨x, parsed, foreign, _, l_foreign, rfl, refused⟩

/-- The name `i` behind a sine is reported within the sine. -/
theorem parsePlayable_within_sine :
    ∃ (x : Formula Float) (before : List Lexeme) (l : Lexeme) (after : List Lexeme),
      parse "sin(t)+i" = .ok x ∧ (∃ name ∈ x.names, name ≠ timeName) ∧
      Lexeme.split "sin(t)+i".toList = .ok (before ++ l :: after) ∧ l.IsForeign ∧
      (∀ m ∈ before, ¬m.IsForeign) ∧ l.position = 7 ∧
      parsePlayable (R := Float) "sin(t)+i" = .error ⟨.unknownVariable "i", 1⟩ := by
  let x : Formula Float := .binary .add (.unary .sin (.named "t")) (.named "i")
  let before : List Lexeme :=
    [⟨.name, ['s', 'i', 'n'], 0⟩, ⟨.mark .opening, ['('], 3⟩, ⟨.name, ['t'], 4⟩,
      ⟨.mark .closing, [')'], 5⟩, ⟨.mark .plus, ['+'], 6⟩]
  refine ⟨x, before, ⟨.name, ['i'], 7⟩, [], by decide +kernel, ⟨"i", by decide, by decide⟩,
    by decide +kernel, by decide, by decide, rfl, by decide +kernel⟩

end Formula

end Tonegraph
