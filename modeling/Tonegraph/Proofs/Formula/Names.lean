import Tonegraph.Proofs.Formula.Grammar
/-!
# The names in a formula

`Formula.mentions` lists the variables of a formula from left to right, as often as they stand in
it; `Formula.names` has each of them once, where it is met first. So both have the same members
(`mem_names`), and the first of them that has some property is the same (`find?_names`).

A derivation keeps the order of the names: the tree mentions what the tokens name, reserved names
apart (`mentions_of_derives`).
-/

set_option autoImplicit false

namespace Tonegraph

deriving instance DecidableEq for Formula

namespace Formula

variable {R : Type}

/-! ## Mentions -/

/-- The variables of a formula from left to right, each as often as it stands there. -/
def mentions : Formula R → List String
  | .named name => [name]
  | .unary _ x => x.mentions
  | .binary _ x y => x.mentions ++ y.mentions
  | _ => []

@[simp] theorem mentions_named (name : String) : (named name : Formula R).mentions = [name] := rfl

@[simp] theorem mentions_unary (op : UnaryOp) (x : Formula R) :
    (unary op x).mentions = x.mentions := rfl

@[simp] theorem mentions_binary (op : BinaryOp) (x y : Formula R) :
    (binary op x y).mentions = x.mentions ++ y.mentions := rfl

/-- Adds a name to those seen before it, unless it is one of them. -/
def addName (seen : List String) (name : String) : List String :=
  if name ∈ seen then seen else seen ++ [name]

theorem addNames_eq_foldl (x : Formula R) (seen : List String) :
    x.addNames seen = x.mentions.foldl addName seen := by
  induction x generalizing seen with
  | number _ | constant _ | named _ => rfl
  | unary op x ih => exact ih seen
  | binary op x y ihX ihY =>
      rw [mentions_binary, List.foldl_append, ← ihX, ← ihY]
      rfl

/-- A name that is seen again is found where it was seen first. -/
theorem find?_foldl_addName (p : String → Bool) (mentions seen : List String) :
    (mentions.foldl addName seen).find? p = (seen ++ mentions).find? p := by
  induction mentions generalizing seen with
  | nil => simp
  | cons name rest ih =>
      rw [List.foldl_cons, ih, addName]
      by_cases old : name ∈ seen
      · rw [if_pos old, List.find?_append, List.find?_append]
        by_cases holds : p name = true
        · have found : (seen.find? p).isSome = true := List.find?_isSome.mpr ⟨name, old, holds⟩
          obtain ⟨first, first_eq⟩ := Option.isSome_iff_exists.mp found
          simp [first_eq]
        · rw [List.find?_cons_of_neg holds]
      · rw [if_neg old, List.append_assoc, List.singleton_append]

theorem find?_names (x : Formula R) (p : String → Bool) :
    x.names.find? p = x.mentions.find? p := by
  rw [names, addNames_eq_foldl, find?_foldl_addName, List.nil_append]

theorem mem_names {x : Formula R} {name : String} : name ∈ x.names ↔ name ∈ x.mentions := by
  have found := congrArg Option.isSome (x.find?_names (· = name))
  rw [Bool.eq_iff_iff, List.find?_isSome, List.find?_isSome] at found
  simpa using found

theorem mem_names_binary {op : BinaryOp} {x y : Formula R} {name : String} :
    name ∈ (Formula.binary op x y).names ↔ name ∈ x.names ∨ name ∈ y.names := by
  simp [mem_names]

/-- A formula has no foreign name when time is the only name in it. -/
theorem foreignName?_eq_none_iff {x : Formula R} :
    x.foreignName? = none ↔ ∀ name ∈ x.names, name = timeName := by
  simp [foreignName?]

end Formula

/-! ## Names among tokens -/

/-- The variable that a token names. -/
def Token.freeName? {R : Type} : Token R → Option String
  | .name word => if word ∈ reservedNames then none else some word
  | _ => none

section

variable {R : Type}

@[simp] theorem Token.freeName?_number (value : R) : (Token.number value).freeName? = none := rfl

@[simp] theorem Token.freeName?_mark (mark : Mark) : (Token.mark mark : Token R).freeName? = none :=
  rfl

theorem Token.freeName?_of_reserved {name : String} (reserved : name ∈ reservedNames) :
    (Token.name name : Token R).freeName? = none := if_pos reserved

theorem Token.freeName?_of_free {name : String} (free : name ∉ reservedNames) :
    (Token.name name : Token R).freeName? = some name := if_neg free

theorem mem_reservedNames_of_constant {name : String} {c : Constant}
    (known : (name, c) ∈ constantNames) : name ∈ reservedNames := by
  have listed : name ∈ constantNames.map (·.1) := List.mem_map_of_mem known
  simp [reservedNames, listed]

theorem mem_reservedNames_of_function {name : String} {op : UnaryOp}
    (known : (name, op) ∈ functionNames) : name ∈ reservedNames := by
  have listed : name ∈ functionNames.map (·.1) := List.mem_map_of_mem known
  simp [reservedNames, listed]

/-- A tree mentions the variables that its tokens name, in their order. -/
theorem Formula.mentions_of_derives [Neg R] {symbol : Symbol} {ts : List (Token R)}
    {x : Formula R} {n : Nat} (derives : Derives symbol ts x n) :
    x.mentions = ts.filterMap Token.freeName? := by
  induction derives with
  | ofTerm _ ih | ofProduct _ ih | ofSigned _ ih | ofPower _ ih | ofAtom _ ih => exact ih
  | added _ _ _ ihX ihY | multiplied _ _ _ ihX ihY | raised _ _ ihX ihY =>
      simp [ihX, ihY, List.filterMap_cons]
  | beside _ _ _ ihX ihY =>
      rw [mentions_binary, ihX, ihY, List.filterMap_append]
  | negativeNumber _ ih => rw [List.filterMap_cons, ← ih]; rfl
  | negated _ _ ih => simp [ih, List.filterMap_cons]
  | number value => rfl
  | named free => simp [Token.freeName?_of_free free]
  | constant known =>
      simp [Token.freeName?_of_reserved (mem_reservedNames_of_constant known), mentions]
  | parenthesized _ ih | absolute _ ih => simp [ih, List.filterMap_cons]
  | applied known _ ih =>
      simp [ih, List.filterMap_cons,
        Token.freeName?_of_reserved (mem_reservedNames_of_function known)]
  | naturalLogarithm _ ih =>
      have reserved : "ln" ∈ reservedNames := by decide
      simp [ih, List.filterMap_cons, Token.freeName?_of_reserved reserved, mentions]
  | logarithm _ _ ihX ihY =>
      have reserved : "log" ∈ reservedNames := by decide
      simp [ihX, ihY, List.filterMap_cons, Token.freeName?_of_reserved reserved]

end

/-! ## Playable formulas -/

namespace Formula

variable {R : Type} [OfScientific R] [Neg R] {text : String} {x : Formula R}

theorem parsePlayable_of_closed (parsed : parse text = .ok x) (closed : x.foreignName? = none) :
    parsePlayable text = .ok x := by
  rw [parsePlayable, parsed]
  dsimp only [bind, Except.bind]
  rw [closed]
  rfl

theorem parsePlayable_of_foreignName {name : String} (parsed : parse text = .ok x)
    (foreign : x.foreignName? = some name) :
    parsePlayable (R := R) text =
      .error ⟨.unknownVariable name, (find? name.toList 0 text.toList).getD 0⟩ := by
  rw [parsePlayable, parsed]
  dsimp only [bind, Except.bind]
  rw [foreign]
  rfl

theorem parsePlayable_eq_ok_iff :
    parsePlayable text = .ok x ↔ parse text = .ok x ∧ x.foreignName? = none := by
  constructor
  · intro read
    cases parsed : parse (R := R) text with
    | error fault =>
        rw [parsePlayable, parsed] at read
        cases read
    | ok y =>
        cases foreign : y.foreignName? with
        | some name =>
            rw [parsePlayable_of_foreignName parsed foreign] at read
            cases read
        | none =>
            rw [parsePlayable_of_closed parsed foreign] at read
            cases read
            exact ⟨rfl, foreign⟩
  · rintro ⟨parsed, closed⟩
    exact parsePlayable_of_closed parsed closed

end Formula

end Tonegraph
