import Tonegraph.Formula.Parse
/-!
# The grammar of formulas

A grammar over tokens, with the tree that each rule makes. Its symbols follow the tightness of the
operators, and all but the tightest come in two kinds: directly between bars, where a bar cannot
start a further factor, and elsewhere.

`Derives symbol tokens formula nesting` says that the tokens are derived from the symbol with this
tree. `nesting` is the greatest number of powers and signs inside each other on any path of the
derivation; every operand counts as a power, with an exponent or without.

The grammar is written down without the reader in `Formula/Parse`. It names what is reserved by
lists of its own; `meaning_*` compare these with `NameMeaning.of`, and `Derives.negative` compares
the tree that a sign makes with the reader's.
-/

set_option autoImplicit false

namespace Tonegraph

/-! ## Words -/

/-- The operators of sums. -/
def Mark.additive? : Mark → Option BinaryOp
  | .plus => some .add
  | .minus => some .sub
  | _ => none

/-- The operators of terms. -/
def Mark.multiplicative? : Mark → Option BinaryOp
  | .star => some .mul
  | .slash => some .div
  | .percent => some .mod
  | _ => none

/-- Whether a token starts a further factor, directly between bars or not. -/
def Token.startsFactor {R : Type} (barred : Bool) : Token R → Bool
  | .number _ | .name _ | .mark .opening => true
  | .mark .bar => !barred
  | _ => false

/-- The names of constants. -/
def constantNames : List (String × Constant) := [("pi", .pi), ("e", .euler)]

/-- The names of functions with one argument that are operations by themselves. -/
def functionNames : List (String × UnaryOp) :=
  [("sin", .sin), ("cos", .cos), ("tan", .tan), ("abs", .abs), ("floor", .floor), ("ceil", .ceil)]

/-- The names that no variable can have. -/
def reservedNames : List String :=
  constantNames.map (·.1) ++ functionNames.map (·.1) ++ ["ln", "log"]

/-! ## Rules -/

/-- The symbols of the grammar. The flag says whether they stand directly between bars. -/
inductive Symbol where
  | sum (barred : Bool)
  | term (barred : Bool)
  | product (barred : Bool)
  | signed (barred : Bool)
  | power (barred : Bool)
  | atom

/-- The tokens that a symbol derives, with their tree and the nesting of the derivation. -/
inductive Derives {R : Type} [Neg R] : Symbol → List (Token R) → Formula R → Nat → Prop
  | ofTerm {b : Bool} {ts : List (Token R)} {x : Formula R} {n : Nat} :
      Derives (.term b) ts x n → Derives (.sum b) ts x n
  | added {b : Bool} {mark : Mark} {op : BinaryOp} {ts us : List (Token R)} {x y : Formula R}
      {n m : Nat} (operator : mark.additive? = some op) :
      Derives (.sum b) ts x n → Derives (.term b) us y m →
        Derives (.sum b) (ts ++ .mark mark :: us) (.binary op x y) (max n m)
  | ofProduct {b : Bool} {ts : List (Token R)} {x : Formula R} {n : Nat} :
      Derives (.product b) ts x n → Derives (.term b) ts x n
  | multiplied {b : Bool} {mark : Mark} {op : BinaryOp} {ts us : List (Token R)}
      {x y : Formula R} {n m : Nat} (operator : mark.multiplicative? = some op) :
      Derives (.term b) ts x n → Derives (.product b) us y m →
        Derives (.term b) (ts ++ .mark mark :: us) (.binary op x y) (max n m)
  | ofSigned {b : Bool} {ts : List (Token R)} {x : Formula R} {n : Nat} :
      Derives (.signed b) ts x n → Derives (.product b) ts x n
  | beside {b : Bool} {first : Token R} {ts us : List (Token R)} {x y : Formula R} {n m : Nat}
      (starts : first.startsFactor b = true) :
      Derives (.product b) ts x n → Derives (.power b) (first :: us) y m →
        Derives (.product b) (ts ++ first :: us) (.binary .mul x y) (max n m)
  | ofPower {b : Bool} {ts : List (Token R)} {x : Formula R} {n : Nat} :
      Derives (.power b) ts x n → Derives (.signed b) ts x n
  | negativeNumber {b : Bool} {ts : List (Token R)} {value : R} {n : Nat} :
      Derives (.signed b) ts (.number value) n →
        Derives (.signed b) (.mark .minus :: ts) (.number (-value)) (n + 1)
  | negated {b : Bool} {ts : List (Token R)} {x : Formula R} {n : Nat}
      (other : ∀ value, x ≠ .number value) :
      Derives (.signed b) ts x n →
        Derives (.signed b) (.mark .minus :: ts) (.unary .neg x) (n + 1)
  | ofAtom {b : Bool} {ts : List (Token R)} {x : Formula R} {n : Nat} :
      Derives .atom ts x n → Derives (.power b) ts x (n + 1)
  | raised {b : Bool} {ts us : List (Token R)} {x y : Formula R} {n m : Nat} :
      Derives .atom ts x n → Derives (.signed b) us y m →
        Derives (.power b) (ts ++ .mark .caret :: us) (.binary .pow x y) (max n m + 1)
  | number (value : R) : Derives .atom [.number value] (.number value) 0
  | named {name : String} (free : name ∉ reservedNames) :
      Derives .atom [.name name] (.named name) 0
  | constant {name : String} {c : Constant} (known : (name, c) ∈ constantNames) :
      Derives .atom [.name name] (.constant c) 0
  | parenthesized {ts : List (Token R)} {x : Formula R} {n : Nat} :
      Derives (.sum false) ts x n →
        Derives .atom (.mark .opening :: (ts ++ [.mark .closing])) x n
  | absolute {ts : List (Token R)} {x : Formula R} {n : Nat} :
      Derives (.sum true) ts x n →
        Derives .atom (.mark .bar :: (ts ++ [.mark .bar])) (.unary .abs x) n
  | applied {name : String} {op : UnaryOp} {ts : List (Token R)} {x : Formula R} {n : Nat}
      (known : (name, op) ∈ functionNames) :
      Derives (.sum false) ts x n →
        Derives .atom (.name name :: .mark .opening :: (ts ++ [.mark .closing])) (.unary op x) n
  | naturalLogarithm {ts : List (Token R)} {x : Formula R} {n : Nat} :
      Derives (.sum false) ts x n →
        Derives .atom (.name "ln" :: .mark .opening :: (ts ++ [.mark .closing]))
          (.binary .log (.constant .euler) x) n
  | logarithm {ts us : List (Token R)} {x y : Formula R} {n m : Nat} :
      Derives (.sum false) ts x n → Derives (.sum false) us y m →
        Derives .atom
          (.name "log" :: .mark .opening :: (ts ++ .mark .comma :: (us ++ [.mark .closing])))
          (.binary .log x y) (max n m)

/-! ## Signs -/

/-- The reader makes of a sign and an operand the tree that the grammar does. -/
theorem Derives.negative {R : Type} [Neg R] {b : Bool} {ts : List (Token R)} {x : Formula R}
    {n : Nat} (operand : Derives (.signed b) ts x n) :
    Derives (.signed b) (.mark .minus :: ts) (Parse.negative x) (n + 1) := by
  cases x with
  | number value => exact .negativeNumber operand
  | named name => exact .negated (fun _ => nofun) operand
  | constant c => exact .negated (fun _ => nofun) operand
  | unary op x => exact .negated (fun _ => nofun) operand
  | binary op x y => exact .negated (fun _ => nofun) operand

theorem Parse.negative_of_ne {R : Type} [Neg R] {x : Formula R} (other : ∀ value, x ≠ .number value) :
    negative x = .unary .neg x := by
  cases x with
  | number value => exact absurd rfl (other value)
  | _ => rfl

/-! ## Names -/

theorem meaning_free_iff {name : String} : NameMeaning.of name = .free ↔ name ∉ reservedNames := by
  simp only [reservedNames, constantNames, functionNames]
  unfold NameMeaning.of
  split <;> simp_all

theorem meaning_constant_iff {name : String} {c : Constant} :
    NameMeaning.of name = .constant c ↔ (name, c) ∈ constantNames := by
  simp only [constantNames]
  unfold NameMeaning.of
  split <;> simp_all [eq_comm]

theorem meaning_function_iff {name : String} {op : UnaryOp} :
    NameMeaning.of name = .function op ↔ (name, op) ∈ functionNames := by
  simp only [functionNames]
  unfold NameMeaning.of
  split <;> simp_all [eq_comm]

theorem meaning_naturalLogarithm_iff {name : String} :
    NameMeaning.of name = .naturalLogarithm ↔ name = "ln" := by
  unfold NameMeaning.of
  split <;> simp_all

theorem meaning_logarithm_iff {name : String} :
    NameMeaning.of name = .logarithm ↔ name = "log" := by
  unfold NameMeaning.of
  split <;> simp_all

/-! ## First tokens -/

namespace Derives

variable {R : Type} [Neg R] {ts : List (Token R)} {x : Formula R} {n : Nat}

/-- What an atom starts with could start a further factor outside bars. -/
theorem atom_head (derives : Derives .atom ts x n) :
    ∃ first us, ts = first :: us ∧ first.startsFactor false = true := by
  cases derives <;> exact ⟨_, _, rfl, rfl⟩

theorem power_head {b : Bool} (derives : Derives (.power b) ts x n) :
    ∃ first us, ts = first :: us ∧ first.startsFactor false = true := by
  cases derives with
  | ofAtom atom => exact atom.atom_head
  | raised atom _ =>
      obtain ⟨first, us, rfl, starts⟩ := atom.atom_head
      exact ⟨first, _, rfl, starts⟩

/-- Nothing is derived from no tokens. -/
theorem ne_nil {symbol : Symbol} (derives : Derives symbol ts x n) : ts ≠ [] := by
  induction derives with
  | ofTerm _ ih | ofProduct _ ih | ofSigned _ ih | ofPower _ ih | ofAtom _ ih => exact ih
  | _ => simp

end Derives

end Tonegraph
