/-
**A store of declarations.**

Declarations are registered one after another and get the identifiers 1, 2, 3, …; zero is never
given.  A name stands for the declaration that was registered last under it, while earlier ones stay
readable under their identifiers.

Main definitions:

* `ActionSignatures.DeclId` — identifiers of declarations;
* `ActionSignatures.DeclarationStore` — **stores**;
* `ActionSignatures.DeclarationStore.register`, `ActionSignatures.DeclarationStore.get?`,
  `ActionSignatures.DeclarationStore.idOf?` — writing and reading.

Main results:

* `ActionSignatures.DeclarationStore.idOf?_register` — a name stands for its last registration.
-/

import ActionSignatures.Declaration.Basic
import Std.Data.HashMap.Lemmas

set_option relaxedAutoImplicit false
set_option autoImplicit false

namespace ActionSignatures

/-! ### Identifiers -/

/-- The identifier of a registered declaration. -/
structure DeclId where
  index : Nat
deriving DecidableEq, Hashable, Repr

namespace DeclId

/-- The identifier that is never given to a declaration. -/
def invalid : DeclId := ⟨0⟩

/-- Whether the identifier may belong to a declaration. -/
def isValid (id : DeclId) : Bool := 1 ≤ id.index

instance : Inhabited DeclId := ⟨invalid⟩

end DeclId

/-! ### Stores -/

/-- The identifier of the last declaration of a name, the first declaration having identifier 1. -/
def latestId? (name : String) (declarations : List TypeDeclaration) : Option DeclId :=
  (declarations.zipIdx 1).foldl (fun found d => if d.1.name = name then some ⟨d.2⟩ else found) none

theorem latestId?_concat (name : String) (ds : List TypeDeclaration) (d : TypeDeclaration) :
    latestId? name (ds ++ [d]) =
      if d.name = name then some ⟨ds.length + 1⟩ else latestId? name ds := by
  simp [latestId?, List.zipIdx_append, Nat.add_comm]

/-- **A store of declarations**: the declarations in the order of registration, and an index of their
names. -/
structure DeclarationStore where
  declarations : Array TypeDeclaration := #[]
  byName : Std.HashMap String DeclId := ∅
  byName_eq : ∀ name : String, byName[name]? = latestId? name declarations.toList := by
    simp [latestId?]

namespace DeclarationStore

instance : Inhabited DeclarationStore := ⟨{}⟩

/-- The number of declarations. -/
def size (s : DeclarationStore) : Nat := s.declarations.size

/-- The identifier of the next registration. -/
def nextId (s : DeclarationStore) : DeclId := ⟨s.size + 1⟩

/-- **Registers a declaration** under the next identifier; its name stands for it from now on. -/
def register (s : DeclarationStore) (d : TypeDeclaration) : DeclarationStore :=
  -- the identifier comes first, so that nothing else holds the array when it grows
  let id := s.nextId
  { declarations := s.declarations.push d
    byName := s.byName.insert d.name id
    byName_eq := fun name => by
      rw [Array.toList_push, latestId?_concat, Std.HashMap.getElem?_insert, s.byName_eq name]
      by_cases h : d.name = name <;> simp [h, id, nextId, size] }

/-- The store of a list of declarations, registered in order. -/
def ofList (ds : List TypeDeclaration) : DeclarationStore := ds.foldl register {}

/-- The declaration with an identifier. -/
def get? (s : DeclarationStore) (id : DeclId) : Option TypeDeclaration :=
  if id.index = 0 then none else s.declarations[id.index - 1]?

/-- Whether a declaration has the identifier. -/
def contains (s : DeclarationStore) (id : DeclId) : Bool := (s.get? id).isSome

/-- The identifier of the declaration that a name stands for. -/
def idOf? (s : DeclarationStore) (name : String) : Option DeclId := s.byName[name]?

/-- The declaration that a name stands for. -/
def lookup? (s : DeclarationStore) (name : String) : Option TypeDeclaration :=
  (s.idOf? name).bind s.get?

/-- All identifiers, in the order of registration. -/
def ids (s : DeclarationStore) : List DeclId := (List.range' 1 s.size).map DeclId.mk

/-- A summary of the store for humans; the number tells stores apart. -/
def summary (s : DeclarationStore) (number : String) : String :=
  "DeclarationStore \x7b instance_id: " ++ number ++ ", len: " ++ toString s.size ++ ", .. \x7d"

theorem idOf?_eq (s : DeclarationStore) (name : String) :
    s.idOf? name = latestId? name s.declarations.toList := s.byName_eq name

/-- A name stands for its last registration. -/
theorem idOf?_register (s : DeclarationStore) (d : TypeDeclaration) (name : String) :
    (s.register d).idOf? name = if d.name = name then some s.nextId else s.idOf? name := by
  rw [idOf?_eq, idOf?_eq, register, Array.toList_push, latestId?_concat]
  rfl

end DeclarationStore

end ActionSignatures
