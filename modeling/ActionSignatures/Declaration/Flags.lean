/-
**Modifiers of operations.**

The modifiers that matter for inheritance are the bits of one byte.  Bits without a name are kept.
The written form lists the names of the bits with bars between them, and the nameless bits as one
hexadecimal number at the end; reading takes names and hexadecimal numbers in any order.

Main definitions:

* `ActionSignatures.OperationFlags` — sets of modifiers;
* `ActionSignatures.OperationFlags.display`, `ActionSignatures.OperationFlags.parse` — **the written
  form**.

Main results:

* `ActionSignatures.OperationFlags.contains_union` — a union has the bits of either side.
-/

import ActionSignatures.Text.Blank
import ActionSignatures.Text.Pieces

set_option relaxedAutoImplicit false
set_option autoImplicit false

namespace ActionSignatures

/-! ### Sets of modifiers -/

/-- **A set of modifiers**, as the bits of a byte. -/
structure OperationFlags where
  bits : UInt8
deriving DecidableEq, Repr

namespace OperationFlags

/-- No modifier. -/
def none : OperationFlags := ⟨0⟩

instance : Inhabited OperationFlags := ⟨none⟩

/-- The operation has no body. -/
def abstract : OperationFlags := ⟨1⟩

/-- The operation cannot be overridden. -/
def final : OperationFlags := ⟨2⟩

/-- The operation belongs to the type and not to its instances. -/
def static : OperationFlags := ⟨4⟩

/-- The operation was generated, for instance as an overload for a default value. -/
def synthetic : OperationFlags := ⟨8⟩

/-- The modifiers of either set. -/
def union (f g : OperationFlags) : OperationFlags := ⟨f.bits ||| g.bits⟩

/-- Whether a set has all the bits of another. -/
def contains (f g : OperationFlags) : Bool := f.bits &&& g.bits == g.bits

theorem contains_union (f g : OperationFlags) :
    (f.union g).contains f = true ∧ (f.union g).contains g = true := by
  simp only [contains, union, beq_iff_eq, ← UInt8.toBitVec_inj, UInt8.toBitVec_and,
    UInt8.toBitVec_or]
  constructor <;> ext i <;> simp only [BitVec.getElem_and, BitVec.getElem_or] <;> grind

/-! ### The written form -/

/-- The modifiers that have a name, in the order of the written form. -/
def named : List (String × OperationFlags) :=
  [("ABSTRACT", abstract), ("FINAL", final), ("STATIC", static), ("SYNTHETIC", synthetic)]

/-- The bits without a name. -/
def nameless (f : OperationFlags) : UInt8 := f.bits &&& 0xF0

/-- A number in hexadecimal digits, in lower case. -/
def hexadecimal (n : Nat) : String := String.ofList (Nat.toDigits 16 n)

/-- The written form: the names of the bits, and the nameless bits as a hexadecimal number. -/
def display (f : OperationFlags) : String :=
  let names := (named.filter fun flag => f.contains flag.2).map (·.1)
  let rest := if f.nameless = 0 then [] else ["0x" ++ hexadecimal f.nameless.toNat]
  " | ".intercalate (names ++ rest)

/-- The value of a hexadecimal digit of either case. -/
def digitValue (c : Char) : Option Nat :=
  if c.isDigit then some (c.toNat - '0'.toNat)
  else if 'a' ≤ c ∧ c ≤ 'f' then some (c.toNat - 'a'.toNat + 10)
  else if 'A' ≤ c ∧ c ≤ 'F' then some (c.toNat - 'A'.toNat + 10)
  else .none

/-- The number that hexadecimal digits write behind the given one. -/
def hexValueFrom (n : Nat) : List Char → Option Nat
  | [] => some n
  | c :: cs =>
      match digitValue c with
      | some d => hexValueFrom (16 * n + d) cs
      | .none => .none

/-- The byte that hexadecimal digits write, with an optional plus sign in front of them. -/
def byteOf (cs : List Char) : Option UInt8 :=
  let digits := if cs.head? = some '+' then cs.drop 1 else cs
  if digits = [] then .none
  else
    match hexValueFrom 0 digits with
    | some n => if n < 256 then some (UInt8.ofNat n) else .none
    | .none => .none

/-- The modifiers that one part of the written form stands for. -/
def ofPart (part : List Char) : Option OperationFlags :=
  if "0x".toList.isPrefixOf part then
    (byteOf (part.drop 2)).map OperationFlags.mk
  else
    named.lookup (String.ofList part)

/-- The modifiers that all parts stand for together. -/
def ofParts : List (List Char) → Option OperationFlags
  | [] => some none
  | part :: parts => do
      let f ← ofPart part
      let g ← ofParts parts
      return f.union g

/-- **Reading modifiers**: a blank text is the empty set; in any other each part between bars is a
name or a hexadecimal number of one byte.  Blanks around the parts are ignored. -/
def parse (text : String) : Option OperationFlags :=
  let cs := Text.trim text.toList
  if cs = [] then some none else ofParts ((Text.pieces '|' cs).map Text.trim)

end OperationFlags

end ActionSignatures
