/-
**The keys of default values.**

The member that holds a default value has a key: the action in upper case, an underscore, and the
position in decimal digits.  Nothing is escaped, and an action may hold underscores and end in digits
itself, so that `f_1` at position 2 and `f` at position 12 have keys that look alike.  They can still
be told apart, since digits hold no underscore: the last underscore of a key is the one in front of the
position.  Nothing of this depends on how texts are upper-cased.

Main definitions:

* `ActionSignatures.DefaultValueId.keyOf` — the key of an upper-cased action and a position;
* `ActionSignatures.DefaultValueId.readKey` — **reading a key** at its last underscore.

Main results:

* `ActionSignatures.DefaultValueId.readKey_eq_some_iff` — reading accepts exactly the keys, and gives
  back what they are made of;
* `ActionSignatures.DefaultValueId.keys_decode_uniquely` — **what keys, names of members and written
  forms tell** about the default value.
-/

import ActionSignatures.Proofs.Text.Replacing
import ActionSignatures.Prototype
import Mathlib.Data.List.DropRight
import Std.Data.String.ToNat

set_option relaxedAutoImplicit false
set_option autoImplicit false

namespace ActionSignatures.DefaultValueId

open Text (upper)

/-! ### Keys -/

/-- The key of an action, given in upper case, and a position. -/
def keyOf (action : String) (position : Nat) : String := action ++ "_" ++ toString position

theorem key_eq (d : DefaultValueId) : d.key = keyOf (upper d.action) d.position := rfl

theorem toList_keyOf (action : String) (position : Nat) :
    (keyOf action position).toList = action.toList ++ '_' :: (toString position).toList := by
  simp [keyOf]

/-! ### Reading keys -/

/-- **Reading a key**: the number behind the last underscore and the text in front of it, if they make
up the key again. -/
def readKey (key : String) : Option (String × Nat) := do
  let action := String.ofList (key.toList.rdropWhile (· ≠ '_')).dropLast
  let position ← (String.ofList (key.toList.rtakeWhile (· ≠ '_'))).toNat?
  if keyOf action position = key then some (action, position) else none

section

variable {front back : List Char}

/-- What stands behind the last underscore. -/
theorem rtakeWhile_of_notMem (h : '_' ∉ back) :
    (front ++ '_' :: back).rtakeWhile (· ≠ '_') = back := by
  have hpass : ∀ c ∈ back.reverse, decide (c ≠ '_') = true := fun c hc =>
    decide_eq_true fun he => h (he ▸ List.mem_reverse.1 hc)
  rw [List.rtakeWhile, List.reverse_append, List.reverse_cons, List.append_assoc,
    List.takeWhile_append_of_pos hpass]
  simp

/-- What stands in front of the last underscore, and the underscore. -/
theorem rdropWhile_of_notMem (h : '_' ∉ back) :
    (front ++ '_' :: back).rdropWhile (· ≠ '_') = front ++ ['_'] := by
  have hpass : ∀ c ∈ back.reverse, decide (c ≠ '_') = true := fun c hc =>
    decide_eq_true fun he => h (he ▸ List.mem_reverse.1 hc)
  rw [List.rdropWhile, List.reverse_append, List.reverse_cons, List.append_assoc,
    List.dropWhile_append_of_pos hpass]
  simp

end

theorem readKey_keyOf (action : String) (position : Nat) :
    readKey (keyOf action position) = some (action, position) := by
  have hdigits : '_' ∉ (toString position).toList := Text.notMem_toString rfl position
  have hread : (String.ofList ((keyOf action position).toList.rtakeWhile (· ≠ '_'))).toNat? =
      some position := by
    rw [toList_keyOf, rtakeWhile_of_notMem hdigits, String.ofList_toList]
    exact Nat.toNat?_repr position
  have hfront : String.ofList ((keyOf action position).toList.rdropWhile (· ≠ '_')).dropLast =
      action := by
    rw [toList_keyOf, rdropWhile_of_notMem hdigits, List.dropLast_concat, String.ofList_toList]
  simp only [readKey, hread, hfront, bind, Option.bind, if_true]

/-- **Reading accepts exactly the keys**, and gives back what a key is made of. -/
theorem readKey_eq_some_iff {key action : String} {position : Nat} :
    readKey key = some (action, position) ↔ key = keyOf action position := by
  constructor
  · intro h
    obtain ⟨n, -, h⟩ := Option.bind_eq_some_iff.1 h
    split at h
    · rename_i hkey
      cases h
      exact hkey.symm
    · cases h
  · rintro rfl
    exact readKey_keyOf action position

/-- A key can be made up in one way only. -/
theorem keyOf_inj {s t : String} {i j : Nat} : keyOf s i = keyOf t j ↔ s = t ∧ i = j := by
  rw [← readKey_eq_some_iff, readKey_keyOf, Option.some.injEq, Prod.mk.injEq]

/-! ### What keys tell -/

/-- Two keys are equal exactly where the upper-cased actions and the positions are. -/
theorem key_eq_key_iff {a b : DefaultValueId} :
    a.key = b.key ↔ upper a.action = upper b.action ∧ a.position = b.position := by
  rw [key_eq, key_eq, keyOf_inj]

/-- The written form begins with the owner, up to the first number sign, if the owner has none. -/
theorem display_eq_display_iff {a b : DefaultValueId} (ha : '#' ∉ a.owner.toList)
    (hb : '#' ∉ b.owner.toList) : a.display = b.display ↔ a.key = b.key ∧ a.owner = b.owner := by
  have hform : ∀ d : DefaultValueId, d.display.toList = d.owner.toList ++ '#' :: d.key.toList :=
    fun d => by simp [display]
  constructor
  · intro h
    have hlist := congrArg String.toList h
    rw [hform, hform] at hlist
    obtain ⟨howner, hkey⟩ := Text.append_cons_inj ha hb hlist
    exact ⟨String.toList_inj.1 hkey, String.toList_inj.1 howner⟩
  · rintro ⟨hkey, howner⟩
    rw [display, display, hkey, howner]

/-- **What the names of a default value tell.**  A key is read back as the upper-cased action and the
position, so two default values have the same key, and the same name of the member, exactly where
these agree.  The written forms agree exactly where moreover the owners do, if these have no number
sign. -/
theorem keys_decode_uniquely (a b : DefaultValueId) :
    readKey a.key = some (upper a.action, a.position) ∧
      (a.key = b.key ↔ upper a.action = upper b.action ∧ a.position = b.position) ∧
      (a.memberName = b.memberName ↔ upper a.action = upper b.action ∧ a.position = b.position) ∧
      ('#' ∉ a.owner.toList → '#' ∉ b.owner.toList →
        (a.display = b.display ↔
          (upper a.action = upper b.action ∧ a.position = b.position) ∧ a.owner = b.owner)) := by
  refine ⟨?_, key_eq_key_iff, ?_, fun ha hb => ?_⟩
  · rw [key_eq, readKey_keyOf]
  · rw [memberName, memberName, String.append_right_inj]
    exact key_eq_key_iff
  · rw [display_eq_display_iff ha hb, key_eq_key_iff]

/-- An action that imitates the end of a key beside the one that it imitates. -/
theorem keys_decode_imitated :
    ('#' ∉ "Canvas".toList ∧ '#' ∉ "Canvas".toList) ∧
      (display ⟨"Canvas", "f_1", 2⟩ = display ⟨"Canvas", "f", 12⟩ ↔
        (upper "f_1" = upper "f" ∧ 2 = 12) ∧ "Canvas" = "Canvas") :=
  ⟨⟨by decide, by decide⟩,
    (keys_decode_uniquely ⟨"Canvas", "f_1", 2⟩ ⟨"Canvas", "f", 12⟩).2.2.2 (by decide) (by decide)⟩

/-- With a number sign in an owner the written form does not tell the owner. -/
example : display ⟨"A#B", "c", 0⟩ = display ⟨"A", "b#c", 0⟩ := by cbv

end ActionSignatures.DefaultValueId
