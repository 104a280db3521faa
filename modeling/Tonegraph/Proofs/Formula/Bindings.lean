import Mathlib.Data.List.Induction
import Mathlib.Data.List.Nodup
import Mathlib.Data.List.Perm.Basic
import Tonegraph.Proofs.Evaluation
/-!
# Bindings are a map with four places

What a call of `Bindings.bind` does is one of three things, by whether its name is bound and a place
is free (`bind_cases`); whichever it is, a call that succeeds changes one value and no other
(`get?_of_bind`). From these two follows what any sequence of calls leaves (`bindAll`, in which a
call that fails changes nothing): the names that were met first, in that order
(`names_bindAll`), each with the value that it was given last (`get?_bindAll`).

So as long as the names do not outnumber the places, the bindings are told by the last values alone,
and the order in which the names were bound is of no account for any formula.
-/

set_option autoImplicit false

namespace Tonegraph

variable {R : Type}

/-! ## Lists of bindings -/

/-- The names of a list of bindings, each once, in the order in which they are first met. -/
def namesOf (binds : List (String × R)) : List String := (binds.map (·.1)).eraseDups

/-- The value that a list of bindings gives to a name last. -/
def lastValue? (binds : List (String × R)) (name : String) : Option R := binds.reverse.lookup name

section Lists

variable {binds others : List (String × R)} {name other : String} {value : R}

theorem mem_namesOf : name ∈ namesOf binds ↔ name ∈ binds.map (·.1) := List.mem_eraseDups

theorem namesOf_concat_of_mem (met : name ∈ namesOf binds) :
    namesOf (binds ++ [(name, value)]) = namesOf binds := by
  have passed : [name].removeAll (binds.map (·.1)) = [] := by
    simpa [List.removeAll] using mem_namesOf.mp met
  rw [namesOf, List.map_append, List.map_singleton, List.eraseDups_append, passed,
    List.eraseDups_nil, List.append_nil, namesOf]

theorem namesOf_concat_of_not_mem (unmet : name ∉ namesOf binds) :
    namesOf (binds ++ [(name, value)]) = namesOf binds ++ [name] := by
  have kept : [name].removeAll (binds.map (·.1)) = [name] := by
    simpa [List.removeAll] using mt mem_namesOf.mpr unmet
  rw [namesOf, List.map_append, List.map_singleton, List.eraseDups_append, kept, namesOf]
  rfl

theorem namesOf_nodup (binds : List (String × R)) : (namesOf binds).Nodup := by
  induction binds using List.reverseRecOn with
  | nil => exact List.nodup_nil
  | append_singleton binds bind ih =>
      by_cases met : bind.1 ∈ namesOf binds
      · rwa [namesOf_concat_of_mem met]
      · rw [namesOf_concat_of_not_mem met]
        exact List.nodup_append.mpr ⟨ih, List.nodup_singleton _, by grind⟩

theorem lastValue?_concat :
    lastValue? (binds ++ [(name, value)]) other =
      if other = name then some value else lastValue? binds other := by
  rw [lastValue?, List.reverse_append, List.reverse_singleton, List.singleton_append,
    List.lookup_cons]
  by_cases same : other = name
  · rw [if_pos same, beq_iff_eq.mpr same]
  · rw [if_neg same, beq_eq_false_iff_ne.mpr same, lastValue?]

theorem lastValue?_eq_none_iff : lastValue? binds name = none ↔ name ∉ namesOf binds := by
  rw [lastValue?, List.lookup_eq_none_iff, mem_namesOf]
  simp only [List.mem_reverse, bne_iff_ne, List.mem_map, not_exists, not_and]
  exact forall₂_congr fun _ _ => ne_comm

/-- Lists of bindings with the same last values have the same names, maybe in another order. -/
theorem namesOf_perm (same : ∀ name, lastValue? others name = lastValue? binds name) :
    (namesOf others).Perm (namesOf binds) := by
  refine (List.perm_ext_iff_of_nodup (namesOf_nodup _) (namesOf_nodup _)).mpr fun name => ?_
  rw [← not_iff_not, ← lastValue?_eq_none_iff, ← lastValue?_eq_none_iff, same]

end Lists

namespace Bindings

/-! ## One call -/

/-- The names that are bound, in their places. -/
def names (b : Bindings R) : List String := b.entries.map (·.1)

section Call

variable {b after : Bindings R} {name other : String} {value : R}

theorem length_names (b : Bindings R) : b.names.length = b.size := List.length_map _

theorem get?_eq_none_iff : b.get? name = none ↔ name ∉ b.names := by
  rw [get?, Option.map_eq_none_iff, List.find?_eq_none, names]
  simp only [decide_eq_true_eq, List.mem_map, not_exists, not_and]

/-- A name that is bound keeps its place, a new one takes the next place, and there may be none. -/
theorem bind_cases (b : Bindings R) (name : String) (value : R) :
    (name ∈ b.names ∧ ∃ after, b.bind name value = .ok after ∧ after.names = b.names) ∨
      (name ∉ b.names ∧ b.size < capacity ∧
        ∃ after, b.bind name value = .ok after ∧ after.names = b.names ++ [name]) ∨
      (name ∉ b.names ∧ b.size = capacity ∧ b.bind name value = .error .full) := by
  have named : b.entries.any (·.1 = name) = true ↔ name ∈ b.names := by simp [names]
  unfold bind
  split
  · rename_i present
    refine .inl ⟨named.mp present, _, rfl, ?_⟩
    rw [names, names, List.map_map]
    refine List.map_congr_left fun e _ => ?_
    by_cases same : e.1 = name <;> simp [same]
  · rename_i absent
    split
    · rename_i free
      exact .inr (.inl ⟨mt named.mpr absent, free, _, rfl, by simp [names]⟩)
    · rename_i full
      exact .inr (.inr ⟨mt named.mpr absent, le_antisymm b.length_le (not_lt.mp full), rfl⟩)

theorem bind_eq_error_iff {e : EvalError} :
    b.bind name value = .error e ↔ e = .full ∧ name ∉ b.names ∧ b.size = capacity := by
  obtain ⟨present, after, done, -⟩ | ⟨-, free, after, done, -⟩ | ⟨absent, full, refused⟩ :=
    bind_cases b name value
  · simp [done, present]
  · simp [done, free.ne]
  · simp [refused, absent, full, eq_comm]

/-- An entry with its value replaced, if it is that of a name. -/
def replaced (name : String) (value : R) (e : String × R) : String × R :=
  if e.1 = name then (name, value) else e

theorem replaced_fst (e : String × R) : (replaced name value e).1 = e.1 := by
  by_cases own : e.1 = name <;> simp [replaced, own]

theorem replaced_snd (e : String × R) :
    (replaced name value e).2 = if e.1 = name then value else e.2 := by
  by_cases own : e.1 = name <;> simp [replaced, own]

/-- A call that succeeds changes the value of its name and of no other. -/
theorem get?_of_bind (done : b.bind name value = .ok after) (other : String) :
    after.get? other = if other = name then some value else b.get? other := by
  unfold bind at done
  split at done
  · rename_i present
    cases done
    have sameNames : (fun e : String × R => decide (e.1 = other)) ∘ replaced name value =
        fun e => decide (e.1 = other) := funext fun e => by simp [replaced_fst]
    have found : (b.entries.map (replaced name value)).find? (·.1 = other) =
        (b.entries.find? (·.1 = other)).map (replaced name value) := by
      rw [List.find?_map, sameNames]
    show Option.map _ ((b.entries.map (replaced name value)).find? (·.1 = other)) = _
    rw [found, Option.map_map, get?]
    cases first : b.entries.find? (·.1 = other) with
    | none =>
        obtain ⟨e, member, own⟩ := List.any_eq_true.mp present
        have differs : other ≠ name := by
          rintro rfl
          exact absurd own (List.find?_eq_none.mp first e member)
        rw [if_neg differs]
        rfl
    | some e =>
        have own : e.1 = other := by simpa using List.find?_some first
        simp only [Option.map_some, Function.comp_apply, replaced_snd, own]
        split <;> rfl
  · rename_i absent
    split at done
    · cases done
      rw [get?, List.find?_append, Option.map_or, ← get?]
      by_cases own : other = name
      · subst own
        have unbound : b.get? other = none := by
          rw [get?_eq_none_iff, names]
          simpa using absent
        simp [unbound]
      · simp [own, Ne.symm own]
    · cases done

theorem mem_names_of_bind (done : b.bind name value = .ok after) :
    other ∈ after.names ↔ other = name ∨ other ∈ b.names := by
  rw [← not_iff_not, ← get?_eq_none_iff, get?_of_bind done]
  by_cases own : other = name <;> simp [own, get?_eq_none_iff]

end Call

/-! ## Sequences of calls -/

/-- The bindings after a call; one that fails leaves them as they are. -/
def bound (b : Bindings R) (binding : String × R) : Bindings R :=
  match b.bind binding.1 binding.2 with
  | .ok after => after
  | .error _ => b

/-- The bindings after a sequence of calls, when nothing was bound before. -/
def bindAll (binds : List (String × R)) : Bindings R := binds.foldl bound empty

section Calls

variable {binds others : List (String × R)} {name : String} {value : R} {after : Bindings R}

theorem bindAll_concat (binds : List (String × R)) (binding : String × R) :
    bindAll (binds ++ [binding]) = (bindAll binds).bound binding := by
  rw [bindAll, List.foldl_concat, bindAll]

theorem bindAll_concat_of_ok (done : (bindAll binds).bind name value = .ok after) :
    bindAll (binds ++ [(name, value)]) = after := by
  rw [bindAll_concat, bound, done]

theorem bindAll_concat_of_error {e : EvalError}
    (refused : (bindAll binds).bind name value = .error e) :
    bindAll (binds ++ [(name, value)]) = bindAll binds := by
  rw [bindAll_concat, bound, refused]

/-- What is bound are the names that were met first. -/
theorem names_bindAll (binds : List (String × R)) :
    (bindAll binds).names = (namesOf binds).take capacity := by
  induction binds using List.reverseRecOn with
  | nil => rfl
  | append_singleton binds binding ih =>
      obtain ⟨name, value⟩ := binding
      have met : name ∈ (bindAll binds).names → name ∈ namesOf binds := by
        rw [ih]
        exact List.mem_of_mem_take
      have size : (bindAll binds).size = min capacity (namesOf binds).length := by
        rw [← length_names, ih, List.length_take]
      obtain ⟨present, after, done, same⟩ | ⟨absent, free, after, done, longer⟩ |
        ⟨absent, full, refused⟩ := bind_cases (bindAll binds) name value
      · rw [bindAll_concat_of_ok done, same, ih, namesOf_concat_of_mem (met present)]
      · have all : (namesOf binds).take capacity = namesOf binds :=
          List.take_of_length_le (by omega)
        rw [ih, all] at absent
        rw [bindAll_concat_of_ok done, longer, ih, all, namesOf_concat_of_not_mem absent,
          List.take_of_length_le (by rw [List.length_append, List.length_singleton]; omega)]
      · rw [bindAll_concat_of_error refused, ih]
        by_cases old : name ∈ namesOf binds
        · rw [namesOf_concat_of_mem old]
        · rw [namesOf_concat_of_not_mem old, List.take_append_of_le_length (by omega)]

/-- A name that is bound has the value that it was given last. -/
theorem get?_bindAll (stored : name ∈ (bindAll binds).names) :
    (bindAll binds).get? name = lastValue? binds name := by
  induction binds using List.reverseRecOn with
  | nil => cases stored
  | append_singleton binds binding ih =>
      obtain ⟨next, value⟩ := binding
      rw [lastValue?_concat]
      cases called : (bindAll binds).bind next value with
      | ok after =>
          rw [bindAll_concat_of_ok called] at stored ⊢
          rw [get?_of_bind called]
          split
          · rfl
          · rename_i other
            exact ih (((mem_names_of_bind called).mp stored).resolve_left other)
      | error e =>
          rw [bindAll_concat_of_error called] at stored ⊢
          obtain ⟨-, absent, -⟩ := bind_eq_error_iff.mp called
          have other : name ≠ next := by
            rintro rfl
            exact absent stored
          rw [if_neg other, ih stored]

theorem names_bindAll_of_few (few : (namesOf binds).length ≤ capacity) :
    (bindAll binds).names = namesOf binds := by
  rw [names_bindAll, List.take_of_length_le few]

theorem get?_bindAll_of_few (few : (namesOf binds).length ≤ capacity) (name : String) :
    (bindAll binds).get? name = lastValue? binds name := by
  by_cases stored : name ∈ (bindAll binds).names
  · exact get?_bindAll stored
  · rw [get?_eq_none_iff.mpr stored, eq_comm, lastValue?_eq_none_iff]
    rwa [names_bindAll_of_few few] at stored

/-- **Bindings are a map with four places.** After any sequence of calls the names that are bound
are the first four of those in it, each in one place. A further call is refused just when its name
is not among them and there are four, and then it changes nothing; else it gives its name the value
and leaves the values of all other names. As long as there are no more than four names, a formula
has the same value after any other sequence in which each name is last given the same value. -/
theorem bindAll_is_map [Arithmetic R] (binds : List (String × R)) :
    (bindAll binds).names = (namesOf binds).take 4 ∧ (bindAll binds).names.Nodup ∧
      (bindAll binds).size = (bindAll binds).names.length ∧
      (∀ name value e, (bindAll binds).bind name value = .error e ↔
        e = .full ∧ name ∉ (bindAll binds).names ∧ (bindAll binds).names.length = 4) ∧
      (∀ name value e, (bindAll binds).bind name value = .error e →
        bindAll (binds ++ [(name, value)]) = bindAll binds) ∧
      (∀ name value after, (bindAll binds).bind name value = .ok after →
        bindAll (binds ++ [(name, value)]) = after ∧ after.get? name = some value ∧
          ∀ other ≠ name, after.get? other = (bindAll binds).get? other) ∧
      ∀ others : List (String × R), (namesOf binds).length ≤ 4 →
        (∀ name, lastValue? others name = lastValue? binds name) →
        ∀ x : Formula R, x.evaluate (bindAll others) = x.evaluate (bindAll binds) := by
  refine ⟨names_bindAll binds, ?_, (length_names _).symm, fun name value e => ?_,
    fun name value e refused => bindAll_concat_of_error refused,
    fun name value after done => ⟨bindAll_concat_of_ok done, ?_, fun other differs => ?_⟩,
    fun others few same x => ?_⟩
  · rw [names_bindAll]
    exact (namesOf_nodup binds).sublist (List.take_sublist _ _)
  · rw [length_names]
    exact bind_eq_error_iff
  · rw [get?_of_bind done, if_pos rfl]
  · rw [get?_of_bind done, if_neg differs]
  · have few' : (namesOf others).length ≤ capacity := (namesOf_perm same).length_eq ▸ few
    refine Formula.evaluate_congr fun name _ => ?_
    rw [get?_bindAll_of_few few', get?_bindAll_of_few few, same]

end Calls

/-- Four names, of which one is bound a second time. -/
def fourNames : List (String × Fraction) :=
  [("a", ⟨some 1⟩), ("b", ⟨some 2⟩), ("a", ⟨some 3⟩), ("c", ⟨some 4⟩), ("d", ⟨some 5⟩)]

/-- The same names in another order. -/
def fourNamesOtherwise : List (String × Fraction) :=
  [("d", ⟨some 5⟩), ("a", ⟨some 1⟩), ("c", ⟨some 4⟩), ("a", ⟨some 3⟩), ("b", ⟨some 2⟩)]

theorem lastValue?_fourNamesOtherwise (name : String) :
    lastValue? fourNamesOtherwise name = lastValue? fourNames name := by
  simp only [lastValue?, fourNames, fourNamesOtherwise, List.reverse_cons, List.reverse_nil,
    List.nil_append, List.cons_append, List.lookup_cons, List.lookup_nil]
  grind

/-- A fifth name is refused, a name that is bound is not, and the order is of no account. -/
theorem fourNames_bound :
    (bindAll fourNames).bind "e" ⟨some 6⟩ = .error .full ∧
      bindAll (fourNames ++ [("e", ⟨some 6⟩)]) = bindAll fourNames ∧
      (∃ after, (bindAll fourNames).bind "b" ⟨some 6⟩ = .ok after ∧
        after.get? "b" = some ⟨some 6⟩ ∧ after.get? "a" = some ⟨some 3⟩) ∧
      (namesOf fourNames).length ≤ 4 ∧
      (∀ name, lastValue? fourNamesOtherwise name = lastValue? fourNames name) ∧
      ∀ x : Formula Fraction,
        x.evaluate (bindAll fourNamesOtherwise) = x.evaluate (bindAll fourNames) := by
  obtain ⟨-, -, -, refuses, unchanged, changes, agree⟩ := bindAll_is_map fourNames
  have refused : (bindAll fourNames).bind "e" ⟨some 6⟩ = .error .full :=
    (refuses _ _ _).mpr ⟨rfl, by decide, rfl⟩
  have few : (namesOf fourNames).length ≤ 4 := by decide
  refine ⟨refused, unchanged _ _ _ refused, ⟨_, rfl, ?_⟩, few, lastValue?_fourNamesOtherwise,
    agree _ few lastValue?_fourNamesOtherwise⟩
  obtain ⟨-, own, others⟩ := changes "b" ⟨some 6⟩ _ rfl
  exact ⟨own, others "a" (by decide)⟩

end Bindings

end Tonegraph
