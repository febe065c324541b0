/-
**JSON values.**

The fields of an object keep the order in which they are written, and a field may be repeated: what
that means is up to the reader of the object.  Whole numbers stand apart from all other numbers, of
which only the text is kept.  A value that follows the grammar but cannot be taken up — a text with
half of a surrogate pair, a number beyond the range of floating-point numbers, a container nested
too deeply — is `unreadable`: it does no harm where nobody looks at it.

Main definitions:

* `ActionSignatures.Json` — values;
* `ActionSignatures.Json.readable` — no part of the value is unreadable.
-/

set_option relaxedAutoImplicit false
set_option autoImplicit false

namespace ActionSignatures

/-- **A JSON value.** -/
inductive Json where
  | null
  | bool (value : Bool)
  | int (value : Int)
  | decimal (text : String)
  | str (value : String)
  | arr (items : List Json)
  | obj (fields : List (String × Json))
  | unreadable
deriving Inhabited, Repr

namespace Json

/-! ### Readable values -/

mutual

/-- No part of the value is unreadable. -/
def readable : Json → Bool
  | .unreadable => false
  | .arr items => readableItems items
  | .obj fields => readableFields fields
  | _ => true

/-- Every item is readable. -/
def readableItems : List Json → Bool
  | [] => true
  | item :: items => item.readable && readableItems items

/-- Every field has a readable value. -/
def readableFields : List (String × Json) → Bool
  | [] => true
  | (_, value) :: fields => value.readable && readableFields fields

end

/-! ### Fields -/

/-- The value of the first field of a name. -/
def field? (name : String) : List (String × Json) → Option Json
  | [] => none
  | (n, value) :: fields => if n = name then some value else field? name fields

@[simp] theorem field?_nil (name : String) : field? name [] = none := rfl

theorem field?_cons (name n : String) (value : Json) (fields : List (String × Json)) :
    field? name ((n, value) :: fields) = if n = name then some value else field? name fields := rfl

/-- The value of a field is smaller than the list of fields. -/
theorem sizeOf_field?_lt {name : String} {fields : List (String × Json)} {value : Json}
    (h : field? name fields = some value) : sizeOf value < sizeOf fields := by
  induction fields with
  | nil => simp at h
  | cons f fields ih =>
      obtain ⟨n, v⟩ := f
      rw [field?_cons] at h
      split at h
      · cases h
        simp only [List.cons.sizeOf_spec, Prod.mk.sizeOf_spec]
        omega
      · have := ih h
        simp only [List.cons.sizeOf_spec]
        omega

/-- How many fields have a name. -/
def fieldCount (name : String) (fields : List (String × Json)) : Nat :=
  fields.countP fun f => f.1 = name

/-- Optional fields of an object: those with a value. -/
def present (fields : List (String × Option Json)) : List (String × Json) :=
  fields.filterMap fun f => f.2.map fun value => (f.1, value)

end Json

end ActionSignatures
