/-
**Instantiation along a chain.**

In a chain of declarations each one extends the next one with some type arguments.  A type that the
last one declares can be brought to the first one step by step: the type parameters of the last
declaration are replaced by the arguments of the last extension point, then those of the declaration
before by the arguments of the extension point before, and so on.  The bindings of the first
declaration hold the arguments of all extension points in one map.  This module proves that
substitution under this map, which follows bindings with bounded room, gives the same type for
chains of every length.

Main definitions:

* `ActionSignatures.Extension` — a declaration that is extended, with the type arguments;
* `ActionSignatures.DeclarationStore.ExtensionChain` — **chains**;
* `ActionSignatures.Extension.instantiate`, `ActionSignatures.instantiateAlong` — **instantiation**
  at one extension point, and at all of a chain from its end on.

Main results:

* `ActionSignatures.DeclarationStore.ExtensionChain.typeBindings_lookup` — the bindings of a chain
  are those of its extension points;
* `ActionSignatures.DeclarationStore.ExtensionChain.isAcyclic` — they are acyclic;
* `ActionSignatures.TypeBindings.IsAcyclic.substitute_instantiateAlong` — instantiation is a part of
  substitution;
* `ActionSignatures.DeclarationStore.substitute_along_chain` — **substitution is instantiation step
  by step**.
-/

import ActionSignatures.Proofs.Substitution.Acyclic
import ActionSignatures.Proofs.Substitution.ExtensionPoint

set_option relaxedAutoImplicit false
set_option autoImplicit false

namespace ActionSignatures

/-! ### Extension points and chains of them -/

/-- A declaration that is extended, and the type arguments that its type parameters get. -/
structure Extension where
  target : TypeDeclaration
  args : List TypeRef

namespace Extension

/-- What the type parameters of the declaration that is extended are replaced by. -/
def replacements (x : Extension) : List (TypeParamKey × TypeRef) := x.target.paramKeys.zip x.args

/-- The replacement for one type parameter; others stay. -/
def replace (x : Extension) (p : TypeRef) : TypeRef :=
  (p.paramKey?.bind fun k => x.replacements.lookup k).getD p

/-- **Instantiation at one extension point**: the type parameters of the declaration that is
extended are replaced by the arguments, all at once, wherever they occur in arrays and type
arguments. -/
def instantiate (x : Extension) (t : TypeRef) : TypeRef := t.mapParams x.replace

end Extension

/-- **Instantiation along a chain**, from its last extension point to the first. -/
def instantiateAlong (steps : List Extension) (t : TypeRef) : TypeRef :=
  steps.foldr Extension.instantiate t

namespace DeclarationStore

/-- **A chain of declarations**: the last one has no super-type, and the only super-type reference
of every other one names the next one, with an argument for each of its type parameters in which no
other type parameters occur than those of the declaration itself. -/
inductive ExtensionChain (s : DeclarationStore) :
    DeclId → TypeDeclaration → List Extension → Prop
  | last {i : DeclId} {d : TypeDeclaration} (hd : s.get? i = some d) (hnone : d.supertypes = []) :
      ExtensionChain s i d []
  | extend {i j : DeclId} {d e : TypeDeclaration} {reference : TypeRef} {steps : List Extension}
      (hd : s.get? i = some d) (honly : d.supertypes = [reference])
      (htarget : s.ancestor? reference = some (j, e))
      (hlength : reference.arguments.length = e.typeParams.length)
      (hscope : ∀ arg ∈ reference.arguments, ∀ k ∈ arg.paramKeys, k ∈ d.paramKeys)
      (later : ExtensionChain s j e steps) :
      ExtensionChain s i d (⟨e, reference.arguments⟩ :: steps)

end DeclarationStore

/-- The names of the declarations of a chain. -/
def chainNames (d : TypeDeclaration) (steps : List Extension) : List String :=
  d.name :: steps.map (·.target.name)

/-- The last declaration of a chain. -/
def lastOfChain (d : TypeDeclaration) : List Extension → TypeDeclaration
  | [] => d
  | x :: steps => lastOfChain x.target steps

/-! ### Replacements -/

namespace Extension

variable {x : Extension} {k : TypeParamKey}

/-- Only type parameters of the declaration that is extended have a replacement. -/
theorem lookup_replacements_of_ne (h : k.owner ≠ x.target.name) : x.replacements.lookup k = none :=
  TypeDeclaration.lookup_zip_paramKeys_of_ne h x.args

theorem mem_of_lookup_replacements {u : TypeRef} (h : x.replacements.lookup k = some u) :
    k ∈ x.target.paramKeys ∧ u ∈ x.args :=
  List.of_mem_zip (mem_of_lookup h)

theorem replace_param (x : Extension) (owner name : String) (bound : Option TypeRef) :
    x.replace (.param owner name bound) =
      (x.replacements.lookup ⟨owner, name⟩).getD (.param owner name bound) := rfl

/-- Where all replacements stem from a declaration, so do the type parameters after instantiation.
-/
theorem mem_paramKeys_of_instantiate {d : TypeDeclaration}
    (hlength : x.args.length = x.target.typeParams.length)
    (hscope : ∀ arg ∈ x.args, ∀ k ∈ arg.paramKeys, k ∈ d.paramKeys) {t : TypeRef}
    (ht : ∀ k ∈ t.paramKeys, k ∈ x.target.paramKeys) :
    ∀ k ∈ (x.instantiate t).paramKeys, k ∈ d.paramKeys := by
  intro k hk
  obtain ⟨p, hp, hk⟩ := TypeRef.mem_paramKeys_mapParams_iff.1 hk
  obtain ⟨owner, name, bound, rfl⟩ := TypeRef.exists_eq_param_of_mem_params hp
  have hdeclared := ht ⟨owner, name⟩ (TypeRef.mem_paramKeys_iff.2 ⟨_, hp, rfl⟩)
  obtain ⟨u, hu⟩ := TypeDeclaration.exists_lookup_zip_paramKeys hlength hdeclared
  have hreplaced : x.replace (.param owner name bound) = u := by
    rw [replace_param, replacements, hu, Option.getD_some]
  rw [hreplaced] at hk
  exact hscope u (mem_of_lookup_replacements hu).2 k hk

end Extension

/-- The replacements at one of several extension points of different declarations are what is found
for its type parameters among all of them. -/
theorem lookup_flatMap_replacements {steps : List Extension}
    (hnames : (steps.map (·.target.name)).Nodup) {x : Extension} (hx : x ∈ steps)
    {k : TypeParamKey} (hk : k.owner = x.target.name) :
    (steps.flatMap Extension.replacements).lookup k = x.replacements.lookup k := by
  obtain ⟨before, after, rfl⟩ := List.append_of_mem hx
  rw [List.map_append, List.map_cons, List.nodup_append, List.nodup_cons] at hnames
  obtain ⟨_, ⟨hafter, _⟩, hbefore⟩ := hnames
  have hfront : (before.flatMap Extension.replacements).lookup k = none := by
    refine lookup_flatMap_of_ne fun y hy => Extension.lookup_replacements_of_ne fun heq => ?_
    exact hbefore _ (List.mem_map_of_mem hy) _ List.mem_cons_self (heq.symm.trans hk)
  have hback : (after.flatMap Extension.replacements).lookup k = none := by
    refine lookup_flatMap_of_ne fun y hy => Extension.lookup_replacements_of_ne fun heq => ?_
    exact hafter (List.mem_map.2 ⟨y, hy, heq.symm.trans hk⟩)
  rw [List.flatMap_append, List.flatMap_cons, List.lookup_append, List.lookup_append, hfront, hback,
    Option.none_or, Option.or_none]

/-! ### Instantiation is a part of substitution -/

/-- **Instantiation is a part of substitution** under acyclic bindings that hold the replacements.
-/
theorem TypeBindings.IsAcyclic.substitute_instantiateAlong {b : TypeBindings} (h : b.IsAcyclic)
    {steps : List Extension}
    (hbound : ∀ x ∈ steps, ∀ k u, x.replacements.lookup k = some u → b.get? k = some u)
    (t : TypeRef) : b.substitute (instantiateAlong steps t) = b.substitute t := by
  induction steps with
  | nil => rfl
  | cons x steps ih =>
      have hstep : instantiateAlong (x :: steps) t = x.instantiate (instantiateAlong steps t) := rfl
      rw [hstep, Extension.instantiate, h.substitute_mapParams,
        ih fun y hy => hbound y (List.mem_cons_of_mem x hy)]
      intro p hp
      obtain ⟨owner, name, bound, rfl⟩ := TypeRef.exists_eq_param_of_mem_params hp
      rw [Extension.replace_param]
      cases hu : x.replacements.lookup ⟨owner, name⟩ with
      | none => exact .inl rfl
      | some u => exact .inr (hbound x List.mem_cons_self _ u hu)

namespace DeclarationStore

/-! ### The bindings of a chain -/

theorem expansions_nil (s : DeclarationStore) (limit : Nat) (expanded : List DeclId) :
    s.expansions limit expanded [] = [] := by
  cases limit <;> rfl

namespace ExtensionChain

variable {s : DeclarationStore} {i : DeclId} {d : TypeDeclaration} {steps : List Extension}

theorem get?_eq (h : s.ExtensionChain i d steps) : s.get? i = some d := by
  cases h with
  | last hd _ => exact hd
  | extend hd _ _ _ _ _ => exact hd

/-- The walk for the bindings goes up the chain, one declaration after another. -/
theorem flatMap_expansions (h : s.ExtensionChain i d steps) (hnames : (chainNames d steps).Nodup)
    (hobject : ∀ x ∈ steps, x.target.name ≠ WellKnown.object) {limit : Nat}
    (hlimit : steps.length ≤ limit) {expanded : List DeclId}
    (hnew : ∀ j ∈ expanded, ∀ e, s.get? j = some e → e.name ∉ chainNames d steps) :
    (s.expansions limit expanded [i]).flatMap s.bindingsOf =
      steps.flatMap Extension.replacements := by
  have hi : i ∉ expanded := fun hi => hnew i hi d h.get?_eq List.mem_cons_self
  induction h generalizing limit expanded with
  | last hd hnone =>
      cases limit with
      | zero => rfl
      | succ limit =>
          rw [expansions, if_neg hi, targets_of_get? hd, hnone, List.filterMap_nil,
            List.append_nil, expansions_nil, List.flatMap_singleton, bindingsOf_of_get? hd, hnone]
          rfl
  | @extend i j d e reference steps hd honly htarget hlength hscope later ih =>
      obtain ⟨limit, rfl⟩ : ∃ k, limit = k + 1 := ⟨limit - 1, by simp at hlimit; omega⟩
      obtain ⟨hfresh, hnames⟩ := List.nodup_cons.1 hnames
      have hopen : WellKnown.isObject e.name = false :=
        isObject_eq_false_iff.2 (hobject _ List.mem_cons_self)
      have hlead := target?_of_ancestor? htarget hopen
      have hrest : ∀ k ∈ i :: expanded, ∀ c, s.get? k = some c → c.name ∉ chainNames e steps := by
        intro k hk c hc
        rcases List.mem_cons.1 hk with rfl | hk
        · obtain rfl : d = c := Option.some.inj (hd.symm.trans hc)
          exact hfresh
        · exact fun hmem => hnew k hk c hc (List.mem_cons_of_mem _ hmem)
      have hj : j ∉ i :: expanded :=
        fun hj => hrest j hj e later.get?_eq List.mem_cons_self
      rw [expansions, if_neg hi, targets_of_get? hd, honly, List.filterMap_cons_some hlead,
        List.filterMap_nil, List.nil_append, List.flatMap_cons, List.flatMap_cons,
        ih hnames (fun x hx => hobject x (List.mem_cons_of_mem _ hx))
          (Nat.le_of_succ_le_succ hlimit) hrest hj,
        bindingsOf_of_get? hd, honly, List.flatMap_singleton,
        pointBindings_of_target? hlead later.get?_eq, TypeDeclaration.argumentBindings_eq]
      rfl

/-- **The bindings of a chain** are those of its extension points. -/
theorem typeBindings_lookup (h : s.ExtensionChain i d steps) (hnames : (chainNames d steps).Nodup)
    (hobject : ∀ x ∈ steps, x.target.name ≠ WellKnown.object)
    (hlimit : steps.length ≤ Limits.maxAncestorEdges) (k : TypeParamKey) :
    (s.typeBindings i).get? k = (steps.flatMap Extension.replacements).lookup k := by
  rw [get?_typeBindings, requestedBindings, h.flatMap_expansions hnames hobject hlimit]
  intro j hj
  exact absurd hj List.not_mem_nil

/-- The type parameters in an argument belong to the declaration before the one that is extended. -/
theorem idxOf_owner (h : s.ExtensionChain i d steps) (hnames : (chainNames d steps).Nodup)
    {x : Extension} (hx : x ∈ steps) {arg : TypeRef} (harg : arg ∈ x.args) {k : TypeParamKey}
    (hk : k ∈ arg.paramKeys) :
    (chainNames d steps).idxOf k.owner + 1 = (chainNames d steps).idxOf x.target.name := by
  induction h with
  | last _ _ => exact absurd hx List.not_mem_nil
  | @extend i j d e reference steps hd honly htarget hlength hscope later ih =>
      have hnodup : (chainNames e steps).Nodup := (List.nodup_cons.1 hnames).2
      have hfresh : d.name ∉ chainNames e steps := (List.nodup_cons.1 hnames).1
      have hcons : chainNames d (⟨e, reference.arguments⟩ :: steps) =
          d.name :: chainNames e steps := rfl
      rw [hcons]
      rcases List.mem_cons.1 hx with rfl | hx
      · -- the argument stands at the first declaration, and the second one is extended
        have howner : k.owner = d.name :=
          TypeDeclaration.owner_of_mem_paramKeys (hscope arg harg k hk)
        have hne : d.name ≠ e.name := by
          intro heq
          rw [heq] at hfresh
          exact hfresh List.mem_cons_self
        rw [howner, List.idxOf_cons_self, List.idxOf_cons_ne _ hne, chainNames,
          List.idxOf_cons_self]
      · have hlater := ih hnodup hx
        have hmem : x.target.name ∈ chainNames e steps :=
          List.mem_cons_of_mem _ (List.mem_map.2 ⟨x, hx, rfl⟩)
        have howner : k.owner ∈ chainNames e steps := by
          rw [← List.idxOf_lt_length_iff] at hmem ⊢
          omega
        have hne_owner : d.name ≠ k.owner := fun heq => hfresh (heq ▸ howner)
        have hne_target : d.name ≠ x.target.name := fun heq => hfresh (heq ▸ hmem)
        rw [List.idxOf_cons_ne _ hne_owner, List.idxOf_cons_ne _ hne_target]
        omega

/-- **The bindings of a chain are acyclic**, as dependencies go down the chain. -/
theorem isAcyclic (h : s.ExtensionChain i d steps) (hnames : (chainNames d steps).Nodup)
    (hobject : ∀ x ∈ steps, x.target.name ≠ WellKnown.object)
    (hlimit : steps.length ≤ Limits.maxAncestorEdges) : (s.typeBindings i).IsAcyclic := by
  refine TypeBindings.isAcyclic_of_rank (fun k => (chainNames d steps).idxOf k.owner) ?_
  rintro k l ⟨u, hu, hl⟩
  rw [h.typeBindings_lookup hnames hobject hlimit] at hu
  obtain ⟨x, hx, hpair⟩ := List.mem_flatMap.1 (mem_of_lookup hu)
  obtain ⟨hk, harg⟩ := List.of_mem_zip hpair
  have hbelow := h.idxOf_owner hnames hx harg hl
  rw [← TypeDeclaration.owner_of_mem_paramKeys hk] at hbelow
  omega

/-- Instantiation along a chain brings a type of the last declaration to the first one. -/
theorem mem_paramKeys_of_instantiateAlong (h : s.ExtensionChain i d steps) {t : TypeRef}
    (ht : ∀ k ∈ t.paramKeys, k ∈ (lastOfChain d steps).paramKeys) :
    ∀ k ∈ (instantiateAlong steps t).paramKeys, k ∈ d.paramKeys := by
  induction h with
  | last _ _ => exact ht
  | extend hd honly htarget hlength hscope later ih =>
      exact Extension.mem_paramKeys_of_instantiate hlength hscope (ih ht)

end ExtensionChain

/-! ### Substitution along a chain -/

/-- **Substitution is instantiation step by step.**  For a chain of differently named declarations,
none of them extending the root of the class hierarchy and with no more extension points than the
walk for the bindings follows, and a type in which only type parameters of the last declaration
occur, substitution under the bindings of the first declaration gives the type that is reached by
instantiating at one extension point after another, from the last one down. -/
theorem substitute_along_chain (s : DeclarationStore) (root : DeclId) (d : TypeDeclaration)
    (steps : List Extension) (t : TypeRef) (hchain : s.ExtensionChain root d steps)
    (hnames : (chainNames d steps).Nodup)
    (hobject : ∀ x ∈ steps, x.target.name ≠ WellKnown.object)
    (hlimit : steps.length ≤ Limits.maxAncestorEdges)
    (ht : ∀ k ∈ t.paramKeys, k ∈ (lastOfChain d steps).paramKeys) :
    (s.typeBindings root).substitute t = instantiateAlong steps t := by
  have hlookup := hchain.typeBindings_lookup hnames hobject hlimit
  obtain ⟨hfresh, hsteps⟩ := List.nodup_cons.1 hnames
  have hbound : ∀ x ∈ steps, ∀ k u, x.replacements.lookup k = some u →
      (s.typeBindings root).get? k = some u := by
    intro x hx k u hu
    have howner := TypeDeclaration.owner_of_mem_paramKeys
      (Extension.mem_of_lookup_replacements hu).1
    rw [hlookup, lookup_flatMap_replacements hsteps hx howner, hu]
  -- what is left belongs to the first declaration, which nothing in the chain extends
  have hunbound : ∀ k ∈ (instantiateAlong steps t).paramKeys,
      (s.typeBindings root).get? k = none := by
    intro k hk
    have howner := TypeDeclaration.owner_of_mem_paramKeys
      (hchain.mem_paramKeys_of_instantiateAlong ht k hk)
    rw [hlookup]
    refine lookup_flatMap_of_ne fun x hx => Extension.lookup_replacements_of_ne fun heq => ?_
    exact hfresh (List.mem_map.2 ⟨x, hx, heq.symm.trans howner⟩)
  calc (s.typeBindings root).substitute t
      = (s.typeBindings root).substitute (instantiateAlong steps t) :=
        ((hchain.isAcyclic hnames hobject hlimit).substitute_instantiateAlong hbound t).symm
    _ = instantiateAlong steps t := TypeBindings.substitute_eq_self hunbound

/-! ### A chain in which arguments change places -/

/-- The arguments with which the declaration in the middle extends the last one: its own type
parameters in the other order, and inside other types. -/
def middleArguments : List TypeRef :=
  [.array (.param "Middle" "Y" none),
    .generic "Pair" [.param "Middle" "X" none, .param "Middle" "Y" none]]

/-- The arguments with which the first declaration extends the one in the middle. -/
def rootArguments : List TypeRef := [.param "Root" "T" none, .named "java.lang.String"]

/-- A chain of three declarations, two of which have two type parameters. -/
def pairDeclarations : List TypeDeclaration :=
  [{ name := "Base", kind := .interfaceType, typeParams := [{ name := "A" }, { name := "B" }] },
    { name := "Middle", kind := .interfaceType, typeParams := [{ name := "X" }, { name := "Y" }],
      interfaces := [.generic "Base" middleArguments] },
    { name := "Root", typeParams := [{ name := "T" }],
      interfaces := [.generic "Middle" rootArguments] }]

/-- The extension points of the chain. -/
def pairSteps : List Extension :=
  [⟨pairDeclarations[1], rootArguments⟩, ⟨pairDeclarations[0], middleArguments⟩]

theorem extensionChain_pairSteps :
    (ofList pairDeclarations).ExtensionChain ⟨3⟩ pairDeclarations[2] pairSteps := by
  have hmiddle : (ofList pairDeclarations).ancestor? (.generic "Middle" rootArguments) =
      some (⟨2⟩, pairDeclarations[1]) := rfl
  have hbase : (ofList pairDeclarations).ancestor? (.generic "Base" middleArguments) =
      some (⟨1⟩, pairDeclarations[0]) := rfl
  exact .extend rfl rfl hmiddle rfl (by decide) (.extend rfl rfl hbase rfl (by decide)
    (.last rfl rfl))

/-- A type that the last declaration of the chain declares, as the first one sees it. -/
theorem substitute_pairSteps :
    (ofList pairDeclarations).ExtensionChain ⟨3⟩ pairDeclarations[2] pairSteps ∧
      ((ofList pairDeclarations).typeBindings ⟨3⟩).substitute
          (.generic "Map" [.param "Base" "A" none, .array (.param "Base" "B" none)]) =
        .generic "Map"
          [.array (.named "java.lang.String"),
            .array (.generic "Pair" [.param "Root" "T" none, .named "java.lang.String"])] :=
  ⟨extensionChain_pairSteps,
    (substitute_along_chain _ ⟨3⟩ _ pairSteps _ extensionChain_pairSteps (by decide) (by decide)
      (by decide) (by decide)).trans rfl⟩

end DeclarationStore

end ActionSignatures
