/-
**Sets of bits with a length.**

A walk may keep what it has visited in a set of bits.  Such a set has a length, and setting a bit at
or beyond the length does not succeed; growing adds bits that are not set.  What a walk asks of a set
is that it makes room for an identifier before it sets the bit, and this much sets of bits have in
common with sets that know no length at all.

Main definitions:

* `ActionSignatures.BitSets` — operations on sets of bits;
* `ActionSignatures.BitSets.Lawful` — **what the operations do**, by lengths and bits;
* `ActionSignatures.BitSets.MakesRoom` — sets in which there is room for identifiers;
* `ActionSignatures.BitSets.bits`, `ActionSignatures.BitSets.unbounded` — lists of bits, and sets
  without a length.

Main results:

* `ActionSignatures.BitSets.Lawful.makesRoom` — sets of bits have room below their length;
* `ActionSignatures.BitSets.makesRoom_unbounded` — sets without a length have room everywhere;
* `ActionSignatures.BitSets.MakesRoom.room_reserve` — reserving makes room;
* `ActionSignatures.BitSets.lawful_bits` — lists of bits are such sets.
-/

set_option relaxedAutoImplicit false
set_option autoImplicit false

namespace ActionSignatures

/-- **Operations on sets of bits.**  Setting a bit has no result where it does not succeed, and
putting it also tells whether it was set before. -/
structure BitSets (β : Type) where
  ofLength : Nat → β
  length : β → Nat
  contains : β → Nat → Bool
  insert? : β → Nat → Option β
  put? : β → Nat → Option (Bool × β)
  grow : β → Nat → β

namespace BitSets

variable {β : Type}

/-- **What the operations do.**  A bit can be set exactly if it is below the length; growing keeps the
bits there are and adds bits that are not set. -/
structure Lawful (B : BitSets β) : Prop where
  length_ofLength (n : Nat) : B.length (B.ofLength n) = n
  contains_ofLength (n i : Nat) : B.contains (B.ofLength n) i = false
  contains_of_le {s : β} {i : Nat} (h : B.length s ≤ i) : B.contains s i = false
  insert?_eq_none_iff {s : β} {i : Nat} : B.insert? s i = none ↔ B.length s ≤ i
  length_insert? {s t : β} {i : Nat} (h : B.insert? s i = some t) : B.length t = B.length s
  contains_insert? {s t : β} {i : Nat} (h : B.insert? s i = some t) (j : Nat) :
    B.contains t j = (i == j || B.contains s j)
  put?_eq (s : β) (i : Nat) : B.put? s i = (B.insert? s i).map (B.contains s i, ·)
  length_grow (s : β) (n : Nat) : B.length (B.grow s n) = max (B.length s) n
  contains_grow_of_lt {s : β} {i : Nat} (h : i < B.length s) (n : Nat) :
    B.contains (B.grow s n) i = B.contains s i
  contains_grow_of_le {s : β} {i : Nat} (h : B.length s ≤ i) (n : Nat) :
    B.contains (B.grow s n) i = false

/-- The set with room for an identifier: it grows if the identifier is not below its length. -/
def reserve (B : BitSets β) (s : β) (i : Nat) : β :=
  if B.length s ≤ i then B.grow s (i + 1) else s

/-! ### Room -/

/-- **Sets in which there is room for identifiers**: where there is room a bit can be set, which
changes that bit alone and takes no room away. -/
structure MakesRoom (B : BitSets β) (room : β → Nat → Prop) : Prop where
  room_ofLength {n i : Nat} (h : i < n) : room (B.ofLength n) i
  contains_ofLength (n i : Nat) : B.contains (B.ofLength n) i = false
  room_of_lt {s : β} {i : Nat} (h : i < B.length s) : room s i
  room_grow {s : β} {n i : Nat} (h : room s i ∨ i < n) : room (B.grow s n) i
  contains_grow (s : β) (n i : Nat) : B.contains (B.grow s n) i = B.contains s i
  exists_insert? {s : β} {i : Nat} (h : room s i) : ∃ t, B.insert? s i = some t ∧
    (∀ j, room s j → room t j) ∧ ∀ j, B.contains t j = (i == j || B.contains s j)
  put?_eq (s : β) (i : Nat) : B.put? s i = (B.insert? s i).map (B.contains s i, ·)

namespace MakesRoom

variable {B : BitSets β} {room : β → Nat → Prop} (hB : B.MakesRoom room)
include hB

/-- Reserving makes room for an identifier and keeps the room there was. -/
theorem room_reserve {s : β} {i j : Nat} (h : room s j ∨ j = i) : room (B.reserve s i) j := by
  rw [reserve]
  split
  · exact hB.room_grow (h.imp_right fun heq => by omega)
  · rename_i hle
    obtain h | rfl := h
    · exact h
    · exact hB.room_of_lt (Nat.not_le.1 hle)

theorem contains_reserve (s : β) (i j : Nat) :
    B.contains (B.reserve s i) j = B.contains s j := by
  rw [reserve]
  split
  · exact hB.contains_grow s (i + 1) j
  · rfl

end MakesRoom

/-- **Sets of bits have room below their length.** -/
theorem Lawful.makesRoom {B : BitSets β} (hB : B.Lawful) :
    B.MakesRoom fun s i => i < B.length s where
  room_ofLength h := by rwa [hB.length_ofLength]
  contains_ofLength := hB.contains_ofLength
  room_of_lt h := h
  room_grow h := by
    rw [hB.length_grow]
    omega
  contains_grow s n i := by
    by_cases h : i < B.length s
    · exact hB.contains_grow_of_lt h n
    · rw [hB.contains_grow_of_le (Nat.not_lt.1 h), hB.contains_of_le (Nat.not_lt.1 h)]
  exists_insert? {s i} h := by
    cases hinsert : B.insert? s i with
    | none => exact absurd (hB.insert?_eq_none_iff.1 hinsert) (Nat.not_le.2 h)
    | some t =>
        refine ⟨t, rfl, fun j hj => ?_, hB.contains_insert? hinsert⟩
        rwa [hB.length_insert? hinsert]
  put?_eq := hB.put?_eq

/-! ### Sets without a length -/

/-- **Sets without a length**: every bit can be set, and growing changes nothing. -/
def unbounded : BitSets (Nat → Bool) where
  ofLength _ _ := false
  length _ := 0
  contains s i := s i
  insert? s i := some fun j => i == j || s j
  put? s i := some (s i, fun j => i == j || s j)
  grow s _ := s

theorem makesRoom_unbounded : unbounded.MakesRoom fun _ _ => True where
  room_ofLength _ := trivial
  contains_ofLength _ _ := rfl
  room_of_lt _ := trivial
  room_grow _ := trivial
  contains_grow _ _ _ := rfl
  exists_insert? _ := ⟨_, rfl, fun _ _ => trivial, fun _ => rfl⟩
  put?_eq _ _ := rfl

/-! ### Lists of bits -/

/-- **Lists of bits.** -/
def bits : BitSets (List Bool) where
  ofLength n := List.replicate n false
  length s := s.length
  contains s i := s[i]?.getD false
  insert? s i := if i < s.length then some (s.set i true) else none
  put? s i := if i < s.length then some (s[i]?.getD false, s.set i true) else none
  grow s n := s ++ List.replicate (n - s.length) false

theorem contains_bits (s : List Bool) (i : Nat) : bits.contains s i = s[i]?.getD false := rfl

theorem insert?_bits (s : List Bool) (i : Nat) :
    bits.insert? s i = if i < s.length then some (s.set i true) else none := rfl

theorem insert?_bits_eq_some_iff {s t : List Bool} {i : Nat} :
    bits.insert? s i = some t ↔ i < s.length ∧ s.set i true = t := by
  rw [insert?_bits, Option.ite_none_right_eq_some, Option.some.injEq]

theorem grow_bits (s : List Bool) (n : Nat) :
    bits.grow s n = s ++ List.replicate (n - s.length) false := rfl

/-- **Lists of bits are such sets.** -/
theorem lawful_bits : bits.Lawful where
  length_ofLength n := List.length_replicate
  contains_ofLength n i := by
    change (List.replicate n false)[i]?.getD false = false
    rw [List.getElem?_replicate]
    split <;> rfl
  contains_of_le h := by rw [contains_bits, List.getElem?_eq_none h, Option.getD_none]
  insert?_eq_none_iff {s i} := by
    change _ ↔ s.length ≤ i
    rw [insert?_bits]
    simp
  length_insert? h := by
    obtain ⟨-, rfl⟩ := insert?_bits_eq_some_iff.1 h
    exact List.length_set
  contains_insert? {s t i} h j := by
    obtain ⟨hlt, rfl⟩ := insert?_bits_eq_some_iff.1 h
    rw [contains_bits, contains_bits, List.getElem?_set]
    by_cases hij : i = j
    · subst hij
      simp [hlt]
    · simp [hij]
  put?_eq s i := by
    rw [insert?_bits, apply_ite (Option.map _)]
    rfl
  length_grow s n := by
    change (bits.grow s n).length = max s.length n
    rw [grow_bits, List.length_append, List.length_replicate]
    omega
  contains_grow_of_lt h n := by
    rw [contains_bits, contains_bits, grow_bits, List.getElem?_append_left h]
  contains_grow_of_le h n := by
    rw [contains_bits, grow_bits, List.getElem?_append_right h, List.getElem?_replicate]
    split <;> rfl

end BitSets

end ActionSignatures
