/-
**What is written as a record is read as one.**

A record is written as an object without the fields that have no value, and its names are all
different.  So the fields are in the order of a reader, none is repeated, and each is found under its
name.  A field that may be missing is read back if it is left out for its default only.  A tagged
value is a record with one more field in front, and its tag picks the names of the others.

Main definitions:

* `ActionSignatures.Json.ReadBack` — **whatever is written is read back**;
* `ActionSignatures.Json.StandsFor` — what stands in a field with a default, if anything does.

Main results:

* `ActionSignatures.Json.field?_present` — a field is found under its name;
* `ActionSignatures.Json.leadingFields_present` — what is written as a record is one;
* `ActionSignatures.Json.required_present`, `ActionSignatures.Json.optional_present` — **fields are
  read back**;
* `ActionSignatures.Json.tagged?_written` — **tags are read back**.
-/

import ActionSignatures.Codec.Basic
import ActionSignatures.Codec.Declaration
import Mathlib.Data.List.Nodup

set_option relaxedAutoImplicit false
set_option autoImplicit false

namespace ActionSignatures.Json

variable {α : Type}

/-! ### Reading back -/

/-- **Whatever is written is read back.** -/
def ReadBack (write : α → Json) (read : Json → Decoded α) : Prop := ∀ a, read (write a) = .ok a

section

variable {write : α → Json} {read : Json → Decoded α}

/-- A list is read back item by item. -/
theorem ReadBack.list (h : ReadBack write read) :
    ReadBack (fun items => .arr (items.map write)) (list read) := by
  intro items
  change (items.map write).mapM read = .ok items
  induction items with
  | nil => rfl
  | cons a items ih =>
      rw [List.map_cons, List.mapM_cons, h a, ih]
      rfl

/-- One of a few things is read back if no other one has its name. -/
theorem ReadBack.oneOf {all : List α} {name : α → String}
    (h : ∀ a, all.find? (name · == name a) = some a) (standing : Standing) :
    ReadBack (fun a => .str (name a)) (oneOf standing all name) := by
  intro a
  have hname : (name? standing (.str (name a))).bind (fun s => all.find? (name · == s)) = some a :=
    h a
  rw [Json.oneOf, hname]

end

theorem readBack_text : ReadBack .str text := fun _ => rfl

theorem readBack_truth : ReadBack .bool truth := fun _ => rfl

theorem ok_bind {β : Type} (a : α) (f : α → Decoded β) : ((.ok a : Decoded α) >>= f) = f a := rfl

/-! ### The fields of a record -/

section

variable {fields : List (String × Option Json)}

theorem present_cons_some (name : String) (value : Json) (fields : List (String × Option Json)) :
    present ((name, some value) :: fields) = (name, value) :: present fields := rfl

theorem sublist_map_fst_present (fields : List (String × Option Json)) :
    ((present fields).map (·.1)).Sublist (fields.map (·.1)) := by
  induction fields with
  | nil => exact .slnil
  | cons f fields ih =>
      obtain ⟨name, value⟩ := f
      cases value with
      | none => exact ih.cons name
      | some value => exact ih.cons_cons name

theorem field?_eq_none {name : String} {fields : List (String × Json)}
    (h : name ∉ fields.map (·.1)) : field? name fields = none := by
  induction fields with
  | nil => rfl
  | cons f fields ih =>
      rw [List.map_cons, List.mem_cons, not_or] at h
      rw [field?_cons, if_neg (Ne.symm h.1), ih h.2]

variable (hnodup : (fields.map (·.1)).Nodup)
include hnodup

/-- **A field is found under its name.** -/
theorem field?_present (i : Nat) {name : String} {value : Option Json}
    (h : fields[i]? = some (name, value)) : field? name (present fields) = value := by
  induction fields generalizing i with
  | nil => cases h
  | cons f fields ih =>
      obtain ⟨hf, hfields⟩ := List.nodup_cons.1 hnodup
      have hlater : f.1 ∉ (present fields).map (·.1) :=
        fun hmem => hf ((sublist_map_fst_present fields).subset hmem)
      cases i with
      | zero =>
          obtain rfl : f = (name, value) := Option.some.inj h
          cases value with
          | none => exact field?_eq_none hlater
          | some value => rw [present_cons_some, field?_cons, if_pos rfl]
      | succ i =>
          have hmem : (name, value) ∈ fields := List.mem_of_getElem? h
          have hne : f.1 ≠ name := fun he => hf (List.mem_map.2 ⟨_, hmem, he.symm⟩)
          obtain ⟨other, value'⟩ := f
          cases value' with
          | none => exact ih hfields i h
          | some value' => rw [present_cons_some, field?_cons, if_neg hne, ih hfields i h]

theorem unrepeated_present (names : List String) : unrepeated names (present fields) = true := by
  have hpresent : ((present fields).map (·.1)).Nodup := hnodup.sublist (sublist_map_fst_present _)
  refine List.all_eq_true.2 fun name _ => decide_eq_true ?_
  have hcount := List.nodup_iff_count_le_one.1 hpresent name
  rw [List.count, List.countP_map] at hcount
  exact hcount

/-- **What is written as a record is one.** -/
theorem leadingFields_present (names : List String) :
    leadingFields names (.obj (present fields)) = .ok (present fields) :=
  if_pos (unrepeated_present hnodup names)

theorem record_present (names : List String) :
    record names (.obj (present fields)) = .ok (present fields) :=
  leadingFields_present hnodup names

end

/-! ### One field -/

/-- **What stands in a field with a default**: a value that is read back, or nothing for the
default. -/
def StandsFor (read : Json → Decoded α) (default a : α) : Option Json → Prop
  | some value => read value = .ok a
  | none => default = a

section

variable {write : α → Json} {read : Json → Decoded α}

theorem ReadBack.standsFor_some (h : ReadBack write read) (default a : α) :
    StandsFor read default a (some (write a)) := h a

/-- A list may be left out where it is empty. -/
theorem ReadBack.standsFor_unlessEmpty (h : ReadBack write read) (items : List α) :
    StandsFor (Json.list read) [] items (unlessEmpty write items) := by
  cases items with
  | nil => rfl
  | cons a items => exact h.list (a :: items)

/-- What is not written as null may be missing. -/
theorem ReadBack.standsFor_map (h : ReadBack write read) (hnull : ∀ a, write a ≠ .null)
    (o : Option α) : StandsFor (nullable read) none o (o.map write) := by
  cases o with
  | none => rfl
  | some a =>
      change nullable read (write a) = .ok (some a)
      rw [nullable, h a]
      · rfl
      · exact hnull a

variable {fields : List (String × Option Json)} (hnodup : (fields.map (·.1)).Nodup)
  {name : String} {a : α}
include hnodup

theorem required_present (i : Nat) {value : Json} (hi : fields[i]? = some (name, some value))
    (h : read value = .ok a) : required (present fields) name read = .ok a := by
  rw [required, field?_present hnodup i hi]
  exact h

theorem optional_present (i : Nat) {default : α} {value : Option Json}
    (hi : fields[i]? = some (name, value)) (h : StandsFor read default a value) :
    optional (present fields) name default read = .ok a := by
  rw [optional, field?_present hnodup i hi]
  cases value with
  | none => exact congrArg Except.ok h
  | some value => exact h

end

/-! ### Readable values -/

@[simp] theorem readableItems_eq_all (items : List Json) :
    readableItems items = items.all readable := by
  induction items with
  | nil => rfl
  | cons item items ih => rw [readableItems, ih, List.all_cons]

@[simp] theorem readableFields_eq_all (fields : List (String × Json)) :
    readableFields fields = fields.all (·.2.readable) := by
  induction fields with
  | nil => rfl
  | cons f fields ih => rw [readableFields, ih, List.all_cons]

/-! ### Tagged values -/

/-- **Tags are read back**, and so are the values of the fields, where the fields of the tag have the
names under which they are written. -/
theorem tagged?_written (standing : Standing) {cases : List (String × List String)} {tag : String}
    {fields : List (String × Option Json)} (hcases : cases.lookup tag = some (fields.map (·.1)))
    (hnodup : ("kind" :: fields.map (·.1)).Nodup) :
    tagged? standing cases (.obj (("kind", .str tag) :: present fields)) =
      some (tag, fields.map (·.2)) := by
  have hmem : tag ∈ cases.map (·.1) := by
    obtain ⟨before, after, rfl, -⟩ := List.lookup_eq_some_iff.1 hcases
    simp
  have hwhole : ((("kind", some (.str tag)) :: fields).map (·.1)).Nodup := hnodup
  have huntagged :
      untagged? standing (cases.map (·.1)) (.obj (("kind", .str tag) :: present fields)) =
        some (tag, .obj (("kind", .str tag) :: present fields)) := by
    rw [← present_cons_some, untagged?, if_pos (unrepeated_present hwhole _),
      field?_present hwhole 0 rfl, Option.bind_some, tag?, if_pos hmem]
    rfl
  have hvalues : valuesOf? (fields.map (·.1)) (.obj (("kind", .str tag) :: present fields)) =
      some (fields.map (·.2)) := by
    rw [← present_cons_some, valuesOf?, if_pos (unrepeated_present hwhole _), List.map_map]
    refine congrArg some (List.map_congr_left fun f hf => ?_)
    obtain ⟨i, hi⟩ := List.getElem?_of_mem hf
    exact field?_present hwhole (i + 1) hi
  rw [tagged?, huntagged]
  simp only [Option.bind_eq_bind, Option.bind_some, hcases, hvalues, Option.pure_def]

end ActionSignatures.Json
