/-
**Reading a JSON text.**

The reader takes one token after another and keeps the containers that are still open in a list, the
innermost first.  It accepts the grammar of JSON and nothing beside it: no comments, no trailing
commas, no text behind the value.  Containers are read at any depth, but one that lies inside
`nestingLimit` others cannot be taken up.

Main definitions:

* `ActionSignatures.Json.nestingLimit` — how many containers may lie inside one another;
* `ActionSignatures.Json.parse` — **the value that a text writes**.
-/

import ActionSignatures.Json.Token

set_option relaxedAutoImplicit false
set_option autoImplicit false

namespace ActionSignatures.Json

/-! ### Open containers -/

/-- The greatest number of containers that may lie inside one another. -/
def nestingLimit : Nat := 127

/-- A container still open: an array with its items, or an object with its fields, whether its names
can be taken up, and the name whose value comes next; items and fields are given last first. -/
inductive Frame where
  | array (items : List Json)
  | object (fields : List (String × Json)) (sound : Bool) (name : String)

/-- The value of a container that closes inside `outer` others. -/
def Frame.value (outer : Nat) : Frame → Json
  | .array items => if outer < nestingLimit then .arr items.reverse else .unreadable
  | .object fields sound _ =>
      if outer < nestingLimit && sound then .obj fields.reverse else .unreadable

/-- What may come next. -/
inductive Expected where
  | value
  | itemOrClose
  | nameOrClose
  | name
  | colon
  | separator

/-! ### Reading -/

/-- A reader: the open containers, innermost first, and their number; what may come next; and the
whole value once it is complete. -/
structure Reader where
  frames : List Frame := []
  depth : Nat := 0
  expected : Expected := .value
  result : Option Json := none

namespace Reader

/-- The reader after a complete value. -/
def place (r : Reader) (value : Json) : Reader :=
  match r.frames with
  | [] => { r with expected := .separator, result := some value }
  | .array items :: outer =>
      { r with frames := .array (value :: items) :: outer, expected := .separator }
  | .object fields sound name :: outer =>
      { r with frames := .object ((name, value) :: fields) sound name :: outer,
               expected := .separator }

/-- The reader after a bracket that opens a container. -/
def enter (r : Reader) (frame : Frame) (expected : Expected) : Reader :=
  { r with frames := frame :: r.frames, depth := r.depth + 1, expected := expected }

/-- The reader after a bracket that closes an array. -/
def closeArray (r : Reader) : Option Reader :=
  match r.frames with
  | .array items :: outer =>
      some (place { r with frames := outer, depth := r.depth - 1 }
        ((Frame.array items).value (r.depth - 1)))
  | _ => none

/-- The reader after a bracket that closes an object. -/
def closeObject (r : Reader) : Option Reader :=
  match r.frames with
  | .object fields sound name :: outer =>
      some (place { r with frames := outer, depth := r.depth - 1 }
        ((Frame.object fields sound name).value (r.depth - 1)))
  | _ => none

/-- The reader after the name of a field; a name that cannot be taken up spoils its object. -/
def named (r : Reader) (name : Option String) : Option Reader :=
  match r.frames with
  | .object fields sound _ :: outer =>
      some { r with
        frames := .object fields (sound && name.isSome) (name.getD "") :: outer
        expected := .colon }
  | _ => none

/-- The reader after the start of a value, if the token is one. -/
def begin (r : Reader) : Token → Option Reader
  | .openArray => some (r.enter (.array []) .itemOrClose)
  | .openObject => some (r.enter (.object [] true "") .nameOrClose)
  | .text (some value) => some (r.place (.str value))
  | .text none => some (r.place .unreadable)
  | .scalar value => some (r.place value)
  | _ => none

/-- The reader after a token. -/
def step (r : Reader) (token : Token) : Option Reader :=
  match r.expected, token with
  | .value, token => r.begin token
  | .itemOrClose, .closeArray => r.closeArray
  | .itemOrClose, token => r.begin token
  | .nameOrClose, .closeObject => r.closeObject
  | .nameOrClose, .text name => r.named name
  | .name, .text name => r.named name
  | .colon, .colon => some { r with expected := .value }
  | .separator, .closeArray => r.closeArray
  | .separator, .closeObject => r.closeObject
  | .separator, .comma =>
      match r.frames with
      | [] => none
      | .array _ :: _ => some { r with expected := .value }
      | .object .. :: _ => some { r with expected := .name }
  | _, _ => none

/-- The reader after all tokens. -/
def run (r : Reader) : List Token → Option Reader
  | [] => some r
  | token :: tokens =>
      match r.step token with
      | some r => r.run tokens
      | none => none

end Reader

/-- **The value that a text writes**, if it follows the grammar. -/
def parse (text : String) : Option Json := do
  let found ← tokens text
  let r ← Reader.run {} found
  if r.frames.isEmpty then r.result else none

end ActionSignatures.Json
