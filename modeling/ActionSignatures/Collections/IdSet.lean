/-
**Sets of identifiers below a bound.**

A set has a length and holds identifiers below it.  An identifier at or beyond the length is no
member, and inserting it is ignored; growing the set makes room and keeps the members.

Main definitions:

* `ActionSignatures.IdSet` — sets with a length;
* `ActionSignatures.IdSet.grow`, `ActionSignatures.IdSet.insert` — making room and inserting.

Main results:

* `ActionSignatures.IdSet.contains_insert` — inserting below the length adds just that member;
* `ActionSignatures.IdSet.contains_grow` — growing keeps the members.
-/

import Std.Data.HashSet.Lemmas

set_option relaxedAutoImplicit false
set_option autoImplicit false

namespace ActionSignatures

/-- **A set of identifiers below its length.** -/
structure IdSet where
  length : Nat
  members : Std.HashSet Nat := ∅

namespace IdSet

/-- The empty set of a length. -/
def ofLength (length : Nat) : IdSet := { length }

/-- Whether an identifier is a member. -/
def contains (s : IdSet) (i : Nat) : Bool := s.members.contains i

/-- The set with room for identifiers below a length. -/
def grow (s : IdSet) (length : Nat) : IdSet := { s with length := max s.length length }

/-- The set with one more member, if there is room for it. -/
def insert (s : IdSet) (i : Nat) : IdSet :=
  if i < s.length then { s with members := s.members.insert i } else s

@[simp] theorem length_ofLength (n : Nat) : (ofLength n).length = n := rfl

@[simp] theorem contains_ofLength (n i : Nat) : (ofLength n).contains i = false := by
  simp [ofLength, contains]

@[simp] theorem length_grow (s : IdSet) (n : Nat) : (s.grow n).length = max s.length n := rfl

/-- Growing keeps the members. -/
@[simp] theorem contains_grow (s : IdSet) (n i : Nat) : (s.grow n).contains i = s.contains i := rfl

@[simp] theorem length_insert (s : IdSet) (i : Nat) : (s.insert i).length = s.length := by
  rw [insert]
  split <;> rfl

/-- Inserting below the length adds just that member. -/
theorem contains_insert {s : IdSet} {i : Nat} (h : i < s.length) (j : Nat) :
    (s.insert i).contains j = (i == j || s.contains j) := by
  simp [insert, h, contains, Std.HashSet.contains_insert]

end IdSet

end ActionSignatures
