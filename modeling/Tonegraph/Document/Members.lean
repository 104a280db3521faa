import Tonegraph.Document.Skip
/-!
# Values of a known shape

Strings and integers, records, and tables whose keys are natural numbers. A record is written as
an object of its members in any order, where a member of an unknown name is skipped, or as a list
of its members in their order. A table is an object in which a key that comes again replaces what
it had before.

A record is gathered in a draft that its members fill in one after the other; `Member.isFilled`
tells whether a member has been met before.
-/

set_option autoImplicit false

namespace Tonegraph.Document

/-- Reads a string. -/
def string : Reader String := do
  if (← peek) == '"' then
    skip
    stringRest
  else failShape

/-- Reads an integer within bounds. -/
def integer (low high : Int) : Reader Int := do
  if startsNumber (← peek) then wholeNumber low high else failShape

/-- A member of a record that is gathered in drafts `σ`. -/
structure Member (σ : Type) where
  name : String
  isFilled : σ → Bool
  fill : σ → Reader σ

/-- Passes on to the next entry of an object or a list, over a comma unless it is the first. The
result tells whether there is one. After a comma there has to be. -/
def nextEntry (enclosure : Enclosure) (isFirst : Bool) : Reader Bool := do
  let c ← peek
  if c == enclosure.closing then
    skip
    return false
  else
    unless isFirst do
      expect ','
      if (← peek) == enclosure.closing then throw .malformed
    return true

/-- Passes on to the next name of an object and over its opening quote. The result tells whether
there is one. -/
def nextName (isFirst : Bool) : Reader Bool := do
  if ← nextEntry .object isFirst then
    expect '"'
    return true
  else return false

section Records

variable {σ : Type}

/-- Reads the members of an object into a draft. A member must not come twice. Each turn passes
over a character, so as many turns as there are characters suffice. -/
def objectMembers (members : List (Member σ)) : Nat → Bool → σ → Reader σ
  | 0, _, _ => throw .early
  | fuel + 1, isFirst, draft => do
    if ← nextName isFirst then
      let name ← stringRest
      match members.find? (·.name = name) with
      | some member =>
        if member.isFilled draft then throw .misshapen
        expect ':'
        objectMembers members fuel false (← member.fill draft)
      | none =>
        expect ':'
        skipValue
        objectMembers members fuel false draft
    else return draft

/-- Reads the members of a list into a draft. All of them have to be there, and nothing else. -/
def listMembers : List (Member σ) → Bool → σ → Reader σ
  | [], _, draft => do
    expect ']'
    return draft
  | member :: members, isFirst, draft => do
    if ← nextEntry .list isFirst then
      listMembers members false (← member.fill draft)
    else throw .misshapen

/-- Reads a record from an empty draft. A record whose draft cannot be finished lacks a member. -/
def recordOf {α : Type} (members : List (Member σ)) (empty : σ) (finish : σ → Option α) :
    Reader α := do
  let draft ← match Enclosure.opened? (← peek) with
    | some .object => do
      skip
      objectMembers members ((← get).length + 1) true empty
    | some .list => do
      skip
      listMembers members true empty
    | none => failShape
  match finish draft with
  | some value => return value
  | none => throw .misshapen

/-- Reads a key, a natural number below a bound, from behind its opening quote on. -/
def naturalKey (bound : Nat) : Reader Nat := do
  match ← next? with
  | some c => unless startsNumber c do throw .malformed
  | none => throw .malformed
  let key ← wholeNumber 0 (bound - 1)
  unless ← skipIf (· == '"') do throw .malformed
  return key.toNat

/-- Reads the entries of a table, each of them put into what was read so far. -/
def tableEntries {α : Type} (bound : Nat) (entry : Reader α) (insert : Nat → α → σ → σ) :
    Nat → Bool → σ → Reader σ
  | 0, _, _ => throw .early
  | fuel + 1, isFirst, table => do
    if ← nextName isFirst then
      let key ← naturalKey bound
      expect ':'
      let value ← entry
      tableEntries bound entry insert fuel false (insert key value table)
    else return table

/-- Reads a table whose keys are natural numbers below a bound. -/
def tableOf {α : Type} (bound : Nat) (entry : Reader α) (insert : Nat → α → σ → σ) (empty : σ) :
    Reader σ := do
  if Enclosure.opened? (← peek) = some .object then
    skip
    tableEntries bound entry insert ((← get).length + 1) true empty
  else failShape

end Records

end Tonegraph.Document
