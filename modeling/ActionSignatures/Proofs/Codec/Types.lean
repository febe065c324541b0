/-
**Types and expressions are read back.**

A reference to a type, a literal and an expression are written with the tags that a reader looks for.
A reader takes in a type or an expression as a whole, wants every part of it to be readable, and goes
on to the parts from within; so what is proved of a part is proved of it wherever it stands.

Main results:

* `ActionSignatures.TypeRef.rec_inside_bounds` — induction on a type that goes into bounds;
* `ActionSignatures.TypeRef.ofReadable_toJson`, `ActionSignatures.Expr.ofReadable_toJson` — a type
  or an expression is read back where it stands;
* `ActionSignatures.TypeRef.readBack`, `ActionSignatures.Literal.readBack`,
  `ActionSignatures.Expr.readBack` — **types, literals and expressions are read back**.
-/

import ActionSignatures.Codec.TypeRef
import ActionSignatures.Proofs.Codec.Records

set_option relaxedAutoImplicit false
set_option autoImplicit false

namespace ActionSignatures

open Json (present required ReadBack required_present field?_present unrepeated_present
  tagged?_written)

/-! ### Induction inside bounds -/

namespace TypeRef

/-- **Induction on a type that goes into bounds.** -/
@[elab_as_elim]
theorem rec_inside_bounds {motive : TypeRef → Prop} (named : ∀ name, motive (.named name))
    (param : ∀ owner name bound, (∀ b ∈ bound, motive b) → motive (.param owner name bound))
    (array : ∀ element, motive element → motive (.array element))
    (generic : ∀ base args, (∀ arg ∈ args, motive arg) → motive (.generic base args)) :
    ∀ t, motive t
  | .named name => named name
  | .param owner name bound =>
      param owner name bound fun b _ => rec_inside_bounds named param array generic b
  | .array element => array element (rec_inside_bounds named param array generic element)
  | .generic base args =>
      generic base args fun arg _ => rec_inside_bounds named param array generic arg

/-! ### Written references -/

@[simp] theorem argsToJson_eq_map (args : List TypeRef) : argsToJson args = args.map toJson := by
  induction args with
  | nil => rfl
  | cons arg args ih => rw [argsToJson, ih, List.map_cons]

theorem toJson_named (name : String) :
    (named name).toJson =
      .obj (("kind", .str "named") :: present [("name", some (.str name))]) := by
  rw [toJson]
  rfl

theorem toJson_param (owner name : String) (bound : Option TypeRef) :
    (param owner name bound).toJson =
      .obj (("kind", .str "param") ::
        present [("owner", some (.str owner)), ("name", some (.str name)),
          ("bound", bound.map toJson)]) := by
  rw [toJson]
  cases bound <;> rfl

theorem toJson_array (element : TypeRef) :
    (array element).toJson =
      .obj (("kind", .str "array") :: present [("element", some element.toJson)]) := by
  rw [toJson]
  rfl

theorem toJson_generic (base : String) (args : List TypeRef) :
    (generic base args).toJson =
      .obj (("kind", .str "generic") ::
        present [("base", some (.str base)), ("args", some (.arr (args.map toJson)))]) := by
  rw [toJson, argsToJson_eq_map]
  rfl

theorem toJson_ne_null (t : TypeRef) : t.toJson ≠ .null := by
  cases t <;> rw [toJson] <;> nofun

section

variable {standing : Json.Standing} {j : Json}

/-! What is read of a tagged value depends on its tag and on the values of its fields alone. -/

theorem ofReadable_of_named {name : Json}
    (h : j.tagged? standing cases = some ("named", [some name])) :
    ofReadable standing j = named <$> name.text := by
  rw [ofReadable]
  split <;> simp_all

theorem ofReadable_of_param_unbounded {owner name : Json}
    (h : j.tagged? standing cases = some ("param", [some owner, some name, none])) :
    ofReadable standing j = return param (← owner.text) (← name.text) none := by
  rw [ofReadable]
  split <;> simp_all

theorem ofReadable_of_param_bounded {owner name bound : Json} (hbound : bound ≠ .null)
    (h : j.tagged? standing cases = some ("param", [some owner, some name, some bound])) :
    ofReadable standing j =
      return param (← owner.text) (← name.text) (some (← ofReadable .inside bound)) := by
  rw [ofReadable]
  split <;> simp_all

theorem ofReadable_of_array {element : Json}
    (h : j.tagged? standing cases = some ("array", [some element])) :
    ofReadable standing j = array <$> ofReadable .inside element := by
  rw [ofReadable]
  split <;> simp_all

theorem ofReadable_of_generic {base : Json} {args : List Json}
    (h : j.tagged? standing cases = some ("generic", [some base, some (.arr args)])) :
    ofReadable standing j = return generic (← base.text) (← argsOfReadable args) := by
  rw [ofReadable]
  split <;> simp_all

end

/-! ### References are read back -/

theorem readable_toJson (t : TypeRef) : t.toJson.readable = true := by
  induction t using rec_inside_bounds with
  | named name => simp [toJson, Json.readable]
  | param owner name bound ih => cases bound <;> simp_all [toJson, boundToJson, Json.readable]
  | array element ih => simp [toJson, Json.readable, ih]
  | generic base args ih => simpa [toJson, Json.readable] using ih

theorem argsOfReadable_map_toJson {args : List TypeRef}
    (h : ∀ arg ∈ args, ofReadable .inside arg.toJson = .ok arg) :
    argsOfReadable (args.map toJson) = .ok args := by
  induction args with
  | nil => rw [List.map_nil, argsOfReadable]
  | cons arg args ih =>
      obtain ⟨harg, hargs⟩ := List.forall_mem_cons.1 h
      rw [List.map_cons, argsOfReadable, harg, ih hargs]
      rfl

/-- **A reference is read back** where it stands. -/
theorem ofReadable_toJson (t : TypeRef) (standing : Json.Standing) :
    ofReadable standing t.toJson = .ok t := by
  induction t using rec_inside_bounds generalizing standing with
  | named name =>
      rw [toJson_named, ofReadable_of_named (tagged?_written standing rfl (by simp))]
      rfl
  | param owner name bound ih =>
      have htagged : (param owner name bound).toJson.tagged? standing cases =
          some ("param", [some (.str owner), some (.str name), bound.map toJson]) := by
        rw [toJson_param]
        exact tagged?_written standing rfl (by simp)
      cases bound with
      | none =>
          rw [ofReadable_of_param_unbounded htagged]
          rfl
      | some bound =>
          rw [ofReadable_of_param_bounded bound.toJson_ne_null htagged, ih bound rfl]
          rfl
  | array element ih =>
      rw [toJson_array, ofReadable_of_array (tagged?_written standing rfl (by simp)), ih]
      rfl
  | generic base args ih =>
      have hargs := argsOfReadable_map_toJson fun arg harg => ih arg harg .inside
      rw [toJson_generic, ofReadable_of_generic (tagged?_written standing rfl (by simp)), hargs]
      rfl

theorem readBack : ReadBack toJson ofJson := by
  intro t
  rw [ofJson, if_pos t.readable_toJson, ofReadable_toJson]

end TypeRef

/-! ### Literals -/

theorem PrimitiveKind.readBack (standing : Json.Standing) :
    ReadBack (fun k => .str (name k)) (ofJson standing) :=
  ReadBack.oneOf ofName?_name standing

namespace Literal

/-- What is written with a tag, which is a name, and a value or none is read that way. -/
theorem ofJson_written {tag : String} (htag : tag ∈ tags) (value : Option Json) :
    ofJson (.obj (present [("kind", some (.str tag)), ("value", value)])) = ofTag tag value := by
  have hnames : ([("kind", some (Json.str tag)), ("value", value)].map (·.1)).Nodup := by simp
  have hkind : required (present [("kind", some (.str tag)), ("value", value)]) "kind"
      (Json.oneOf .inside tags id) = .ok tag := by
    refine required_present hnames 0 rfl ?_
    have hfind : ∀ tag ∈ tags, tags.find? (id · == tag) = some tag := by decide
    change Json.oneOf .inside tags id (.str tag) = _
    rw [Json.oneOf, Json.name?, Option.bind_some, hfind tag htag]
  rw [ofJson, if_pos (unrepeated_present hnames _), hkind, field?_present hnames 1 rfl]
  rfl

/-- The tag of a literal. -/
def tag : Literal → String
  | .null => "null"
  | .boolean _ => "boolean"
  | .integer _ => "integer"
  | .float _ => "float"
  | .double _ => "double"
  | .char _ => "char"

/-- The value that stands beside the tag of a literal. -/
def value? : Literal → Option Json
  | .null => none
  | .boolean value => some (.bool value)
  | .integer value => some (.int value.toInt)
  | .float digits => some (.str digits)
  | .double digits => some (.str digits)
  | .char value => some (.str (String.singleton value))

theorem tag_mem_tags (l : Literal) : l.tag ∈ tags := by
  cases l <;> simp [tag, tags]

theorem toJson_eq (l : Literal) :
    l.toJson = .obj (present [("kind", some (.str l.tag)), ("value", l.value?)]) := by
  cases l <;> rfl

theorem ofTag_tag (l : Literal) : ofTag l.tag l.value? = .ok l := by
  cases l with
  | integer value =>
      have hrange : Int64.minValue.toInt ≤ value.toInt ∧ value.toInt ≤ Int64.maxValue.toInt :=
        ⟨Int64.minValue_le_toInt value, Int64.toInt_le value⟩
      change (if _ then _ else _) = _
      rw [if_pos hrange, Int64.ofInt_toInt]
  | char value => simp [tag, value?, ofTag]
  | _ => rfl

theorem readBack : ReadBack toJson ofJson := by
  intro l
  rw [toJson_eq, ofJson_written l.tag_mem_tags, ofTag_tag]

theorem readable_toJson (l : Literal) : l.toJson.readable = true := by
  cases l <;> simp [toJson, Json.readable]

end Literal

/-! ### Expressions -/

namespace Expr

section

variable {standing : Json.Standing} {j : Json}

theorem ofReadable_of_literal {value : Json}
    (h : j.tagged? standing cases = some ("literal", [some value])) :
    ofReadable standing j = literal <$> Literal.ofJson value := by
  rw [ofReadable]
  split <;> simp_all

theorem ofReadable_of_source {text : Json}
    (h : j.tagged? standing cases = some ("source", [some text])) :
    ofReadable standing j = source <$> text.text := by
  rw [ofReadable]
  split <;> simp_all

theorem ofReadable_of_cast {target operand : Json}
    (h : j.tagged? standing cases = some ("cast", [some target, some operand])) :
    ofReadable standing j =
      return cast (← PrimitiveKind.ofJson .inside target) (← ofReadable .inside operand) := by
  rw [ofReadable]
  split <;> simp_all

end

theorem toJson_literal (value : Literal) :
    (literal value).toJson =
      .obj (("kind", .str "literal") :: present [("value", some value.toJson)]) := rfl

theorem toJson_source (text : String) :
    (source text).toJson =
      .obj (("kind", .str "source") :: present [("text", some (.str text))]) := rfl

theorem toJson_cast (target : PrimitiveKind) (operand : Expr) :
    (cast target operand).toJson =
      .obj (("kind", .str "cast") ::
        present [("target", some (.str target.name)), ("operand", some operand.toJson)]) := rfl

theorem toJson_ne_null (e : Expr) : e.toJson ≠ .null := by
  cases e <;> nofun

theorem readable_toJson (e : Expr) : e.toJson.readable = true := by
  induction e with
  | literal value => simp [toJson, Json.readable, value.readable_toJson]
  | source text => simp [toJson, Json.readable]
  | cast target operand ih => simp [toJson, Json.readable, ih]

/-- **An expression is read back** where it stands. -/
theorem ofReadable_toJson (e : Expr) (standing : Json.Standing) :
    ofReadable standing e.toJson = .ok e := by
  induction e generalizing standing with
  | literal value =>
      rw [toJson_literal, ofReadable_of_literal (tagged?_written standing rfl (by simp)),
        Literal.readBack]
      rfl
  | source text =>
      rw [toJson_source, ofReadable_of_source (tagged?_written standing rfl (by simp))]
      rfl
  | cast target operand ih =>
      have htarget := PrimitiveKind.readBack .inside target
      rw [toJson_cast, ofReadable_of_cast (tagged?_written standing rfl (by simp)), htarget, ih]
      rfl

theorem readBack : ReadBack toJson ofJson := by
  intro e
  rw [ofJson, if_pos e.readable_toJson, ofReadable_toJson]

end Expr

end ActionSignatures
