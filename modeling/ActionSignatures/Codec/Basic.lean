/-
**Taking data out of JSON values.**

A record is written as an object.  Fields with unknown names are ignored, a known field may not be
repeated, and of several faults the one in the field that comes first is reported; that a field is
missing shows only when all others are in order.  A record may also be written as an array of the
values of its fields, where values at the end may be left out if they have defaults.

A tagged value is a record whose field `kind` says what the other fields are; as an array it starts
with the tag.  It is taken in as a whole before its parts are looked at, and this makes room for some
other ways to write what lies inside it: a tag as the position of the name in the list of names, and
an empty object for null behind a name.

Main definitions:

* `ActionSignatures.DecodeFault` — what can be wrong with a value;
* `ActionSignatures.Json.oneOf` — one of a few names;
* `ActionSignatures.Json.record`, `ActionSignatures.Json.inOrder` — the fields of a record, and the
  fault that is reported;
* `ActionSignatures.Json.required`, `ActionSignatures.Json.optional` — one field;
* `ActionSignatures.Json.tagged?` — **a tagged value**: its tag and the values of its fields.

Main results:

* `ActionSignatures.Json.inOrder_eq_ok` — fields without faults are in order;
* `ActionSignatures.Json.sizeOf_lt_of_tagged?` — the values of the fields are smaller than the whole.
-/

import ActionSignatures.Json.Basic
import ActionSignatures.ParameterTypes

set_option relaxedAutoImplicit false
set_option autoImplicit false

namespace ActionSignatures

/-! ### Faults -/

/-- **What is wrong with a value**: it does not have the expected form, or it has that form and writes
an invalid signature or prototype. -/
inductive DecodeFault where
  | malformed
  | signature (offence : InvalidSignature)
  | prototype (fault : PrototypeFault)
deriving DecidableEq, Repr

/-- The wording of a fault, where the library has one. -/
def DecodeFault.message? : DecodeFault → Option String
  | .malformed => none
  | .signature offence => some offence.message
  | .prototype fault => some fault.message

/-- Something taken out of a value, or what is wrong with the value. -/
abbrev Decoded := Except DecodeFault

/-- The fault of something that could not be taken out. -/
def Decoded.fault? {α : Type} : Decoded α → Option DecodeFault
  | .ok _ => none
  | .error e => some e

@[simp] theorem Decoded.fault?_ok {α : Type} (a : α) : Decoded.fault? (.ok a) = none := rfl

namespace Json

variable {α : Type}

/-! ### Scalars and lists -/

/-- A text. -/
def text : Json → Decoded String
  | .str s => .ok s
  | _ => .error .malformed

/-- A truth value. -/
def truth : Json → Decoded Bool
  | .bool b => .ok b
  | _ => .error .malformed

/-- A whole number from zero up to a bound, which it does not reach. -/
def natBelow (bound : Nat) : Json → Decoded Nat
  | .int n => if 0 ≤ n ∧ n < bound then .ok n.toNat else .error .malformed
  | _ => .error .malformed

/-- A whole number that fits an unsigned word of 32 bits. -/
def word32 : Json → Decoded Nat := natBelow UInt32.size

/-- A whole number that fits an unsigned word of 64 bits. -/
def word64 : Json → Decoded Nat := natBelow UInt64.size

/-- A list of values of one sort. -/
def list (decode : Json → Decoded α) : Json → Decoded (List α)
  | .arr items => items.mapM decode
  | _ => .error .malformed

/-- A value that may be null. -/
def nullable (decode : Json → Decoded α) : Json → Decoded (Option α)
  | .null => .ok none
  | value => (decode value).map some

/-! ### Names -/

/-- Where a value stands: outside all tagged values, or inside one. -/
inductive Standing where
  | outside
  | inside
deriving DecidableEq, Repr

/-- Whether a value says nothing: null does, and inside a tagged value so does an empty object. -/
def saysNothing : Standing → Json → Bool
  | _, .null => true
  | .inside, .obj [] => true
  | _, _ => false

/-- The name that a value writes: a text, or an object that has the name as its only field, with a
value that says nothing. -/
def name? (standing : Standing) : Json → Option String
  | .str name => some name
  | .obj [(name, value)] => if saysNothing standing value then some name else none
  | _ => none

/-- One of a few things by its name. -/
def oneOf (standing : Standing) (all : List α) (name : α → String) (j : Json) : Decoded α :=
  match (name? standing j).bind fun s => all.find? (name · == s) with
  | some a => .ok a
  | none => .error .malformed

/-- The tag that a value writes: one of the given names or, inside a tagged value, the position of
one among them. -/
def tag? (standing : Standing) (names : List String) : Json → Option String
  | .str name => if name ∈ names then some name else none
  | .int position =>
      if standing = .inside ∧ 0 ≤ position then names[position.toNat]? else none
  | _ => none

/-! ### Records -/

/-- Whether none of the names is the name of two fields. -/
def unrepeated (names : List String) (fields : List (String × Json)) : Bool :=
  names.all fun name => fieldCount name fields ≤ 1

/-- The fields of a record whose known fields have the given names.  An array may have more values
than there are names. -/
def leadingFields (names : List String) : Json → Decoded (List (String × Json))
  | .obj fields => if unrepeated names fields then .ok fields else .error .malformed
  | .arr items => .ok (names.zip items)
  | _ => .error .malformed

/-- An array has no more values than there are names. -/
def noneLeft (names : List String) : Json → Decoded Unit
  | .arr items => if items.length ≤ names.length then .ok () else .error .malformed
  | _ => .ok ()

/-- **The fields of a record** whose known fields have the given names. -/
def record (names : List String) (j : Json) : Decoded (List (String × Json)) := do
  noneLeft names j
  leadingFields names j

/-- A field that has to be there. -/
def required (fields : List (String × Json)) (name : String) (decode : Json → Decoded α) :
    Decoded α :=
  match field? name fields with
  | some value => decode value
  | none => .error .malformed

/-- A field that has a default. -/
def optional (fields : List (String × Json)) (name : String) (default : α)
    (decode : Json → Decoded α) : Decoded α :=
  match field? name fields with
  | some value => decode value
  | none => .ok default

/-- **The fault that is reported**: the one in the field that comes first. -/
def inOrder (fields : List (String × Json)) (faults : List (String × Option DecodeFault)) :
    Decoded Unit :=
  match fields.findSome? fun f => (faults.lookup f.1).join with
  | some fault => .error fault
  | none => .ok ()

/-- Fields without faults are in order. -/
theorem inOrder_eq_ok {fields : List (String × Json)} {faults : List (String × Option DecodeFault)}
    (h : ∀ f ∈ faults, f.2 = none) : inOrder fields faults = .ok () := by
  have none_of (name : String) : (faults.lookup name).join = none := by
    cases hl : faults.lookup name with
    | none => rfl
    | some fault =>
        obtain ⟨l, r, hf, _⟩ := List.lookup_eq_some_iff.1 hl
        have : fault = none := h (name, fault) (by simp [hf])
        rw [this]
        rfl
  rw [inOrder, List.findSome?_eq_none_iff.2 fun f _ => none_of f.1]

/-! ### Tagged values -/

/-- The values of the named fields, in the order of the names. -/
def valuesOf? (names : List String) : Json → Option (List (Option Json))
  | .obj fields => if unrepeated names fields then some (names.map (field? · fields)) else none
  | .arr items =>
      if items.length ≤ names.length then
        some (items.map some ++ List.replicate (names.length - items.length) none)
      else
        none
  | _ => none

/-- The tag of a tagged value, and the value without it. -/
def untagged? (standing : Standing) (tags : List String) : Json → Option (String × Json)
  | .obj fields =>
      if unrepeated ["kind"] fields then
        ((field? "kind" fields).bind (tag? standing tags)).map (·, .obj fields)
      else
        none
  | .arr (first :: items) => (tag? standing tags first).map (·, .arr items)
  | _ => none

/-- **A tagged value**: its tag, one of those listed with the names of their fields, and the values of
these fields. -/
def tagged? (standing : Standing) (cases : List (String × List String)) (j : Json) :
    Option (String × List (Option Json)) := do
  let (tag, rest) ← untagged? standing (cases.map (·.1)) j
  let names ← cases.lookup tag
  return (tag, ← valuesOf? names rest)

theorem sizeOf_lt_of_valuesOf? {names : List String} {j value : Json}
    {values : List (Option Json)} (h : valuesOf? names j = some values) (hv : some value ∈ values) :
    sizeOf value < sizeOf j := by
  cases j with
  | obj fields =>
      rw [valuesOf?] at h
      split at h
      · cases h
        obtain ⟨name, -, hn⟩ := List.mem_map.1 hv
        have := sizeOf_field?_lt hn
        simp only [obj.sizeOf_spec]
        omega
      · cases h
  | arr items =>
      rw [valuesOf?] at h
      split at h
      · cases h
        have hi : value ∈ items := by
          rcases List.mem_append.1 hv with hm | hr
          · simpa using hm
          · simpa using List.eq_of_mem_replicate hr
        have := List.sizeOf_lt_of_mem hi
        simp only [arr.sizeOf_spec]
        omega
      · cases h
  | _ => simp [valuesOf?] at h

theorem sizeOf_le_of_untagged? {standing : Standing} {tags : List String} {j rest : Json}
    {tag : String} (h : untagged? standing tags j = some (tag, rest)) : sizeOf rest ≤ sizeOf j := by
  unfold untagged? at h
  split at h
  · split at h
    · obtain ⟨_, -, hr⟩ := Option.map_eq_some_iff.1 h
      cases hr
      exact Nat.le_refl _
    · cases h
  · obtain ⟨_, -, hr⟩ := Option.map_eq_some_iff.1 h
    cases hr
    simp
  · cases h

/-- The values of the fields are smaller than the whole. -/
theorem sizeOf_lt_of_tagged? {standing : Standing} {cases : List (String × List String)}
    {j v : Json} {tag : String} {values : List (Option Json)}
    (h : tagged? standing cases j = some (tag, values)) (hv : some v ∈ values) :
    sizeOf v < sizeOf j := by
  rw [tagged?] at h
  obtain ⟨⟨_, rest⟩, hu, h⟩ := Option.bind_eq_some_iff.1 h
  obtain ⟨_, -, h⟩ := Option.bind_eq_some_iff.1 h
  obtain ⟨_, hvs, h⟩ := Option.bind_eq_some_iff.1 h
  cases h
  exact Nat.lt_of_lt_of_le (sizeOf_lt_of_valuesOf? hvs hv) (sizeOf_le_of_untagged? hu)

end Json

end ActionSignatures
