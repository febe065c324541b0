/-
**Default values of one type that nothing separates.**

Two default values of one type do not always collide: a kept parameter of another type between them
tells the overloads apart.  Where there is none, they do.  Of the parameters between the two, leave
out those that have default values, and with them once the first of the two and once the second.
What is kept of the whole stretch is then a list of one and the same type, of one and the same
length; and outside the stretch both choices keep everything.

Main definitions:

* `ActionSignatures.typesLeft` — the erased types that a choice keeps of a stretch of parameters;
* `ActionSignatures.Signature.Unseparated` — **two default values of one type that nothing
  separates**.

Main results:

* `ActionSignatures.exists_typesLeft_eq_replicate` — a stretch that keeps parameters of one type
  only;
* `ActionSignatures.Signature.Unseparated.parameterTypes_eq` — the two choices leave the same
  parameter types;
* `ActionSignatures.unseparated_defaults_are_refused` — **the declaration is refused**.
-/

import ActionSignatures.Proofs.Overload.Collisions
import ActionSignatures.Proofs.Signature.Validity

set_option relaxedAutoImplicit false
set_option autoImplicit false

namespace ActionSignatures

/-! ### Stretches of parameters -/

/-- A list is what stands before one of its elements, the element, and what stands behind it. -/
theorem take_append_cons_drop {α : Type} {l : List α} {i : Nat} {a : α} (h : l[i]? = some a) :
    l.take i ++ a :: l.drop (i + 1) = l := by
  obtain ⟨hlt, rfl⟩ := List.getElem?_eq_some_iff.1 h
  rw [List.getElem_cons_drop hlt, List.take_append_drop]

/-- The erased types that a choice keeps of a stretch of parameters, which starts at a position. -/
def typesLeft (omitted : List Nat) (start : Nat) (ps : List Parameter) : List ErasedType :=
  ((ps.zipIdx start).filter fun e => !omitted.contains e.2).map (·.1.type.erasure)

section

variable {omitted other : List Nat} {start : Nat} {ps qs : List Parameter}

theorem typesLeft_append :
    typesLeft omitted start (ps ++ qs) =
      typesLeft omitted start ps ++ typesLeft omitted (start + ps.length) qs := by
  rw [typesLeft, List.zipIdx_append, List.filter_append, List.map_append]
  rfl

theorem typesLeft_cons_of_mem {p : Parameter} (h : start ∈ omitted) :
    typesLeft omitted start (p :: ps) = typesLeft omitted (start + 1) ps := by
  rw [typesLeft, List.zipIdx_cons, List.filter_cons_of_neg (by simpa using h)]
  rfl

theorem typesLeft_cons_of_notMem {p : Parameter} (h : start ∉ omitted) :
    typesLeft omitted start (p :: ps) =
      p.type.erasure :: typesLeft omitted (start + 1) ps := by
  rw [typesLeft, List.zipIdx_cons, List.filter_cons_of_pos (by simpa using h)]
  rfl

/-- Choices that agree on a stretch keep the same of it. -/
theorem typesLeft_congr
    (h : ∀ k, start ≤ k → k < start + ps.length → (k ∈ omitted ↔ k ∈ other)) :
    typesLeft omitted start ps = typesLeft other start ps := by
  refine congrArg _ (List.filter_congr fun e he => ?_)
  obtain ⟨hstart, hend, -⟩ := List.mem_zipIdx he
  have hagree := h e.2 hstart hend
  simp only [List.contains_eq_mem, decide_eq_decide.2 hagree]

/-- A stretch that keeps parameters of one type only. -/
theorem exists_typesLeft_eq_replicate {t : ErasedType}
    (h : ∀ (k : Nat) p, ps[k]? = some p → start + k ∉ omitted → p.type.erasure = t) :
    ∃ n, typesLeft omitted start ps = .replicate n t := by
  refine ⟨_, List.eq_replicate_iff.2 ⟨rfl, fun u hu => ?_⟩⟩
  obtain ⟨⟨p, i⟩, hmem, rfl⟩ := List.mem_map.1 hu
  obtain ⟨hzip, hkept⟩ := List.mem_filter.1 hmem
  obtain ⟨hstart, hp⟩ := List.mk_mem_zipIdx_iff_le_and_getElem?_sub.1 hzip
  refine h (i - start) p hp ?_
  rw [Nat.add_sub_cancel' hstart]
  simpa using hkept

end

namespace Signature

variable {s : Signature}

/-- The parameter types that a choice leaves, as those of the stretch of all parameters. -/
theorem types_omitting_eq_typesLeft (s : Signature) (omitted : List Nat) :
    (s.omitting omitted).parameterTypes.types = typesLeft omitted 0 s.params := by
  rw [types_omitting, keptParams, List.map_map]
  rfl

/-! ### Two default values that nothing separates -/

/-- **Two default values of one type that nothing separates**: each parameter between them is
flagged as having a default value or has the same type. -/
structure Unseparated (s : Signature) (i j : Nat) (t : ErasedType) : Prop where
  lt : i < j
  first : i ∈ s.defaultPositions
  second : j ∈ s.defaultPositions
  first_type : ∀ p, s.params[i]? = some p → p.type.erasure = t
  second_type : ∀ p, s.params[j]? = some p → p.type.erasure = t
  between : ∀ k p, i < k → k < j → s.params[k]? = some p →
    p.hasDefaultValue = true ∨ p.type.erasure = t

/-- The default positions strictly between two positions. -/
def defaultsBetween (s : Signature) (i j : Nat) : List Nat :=
  s.defaultPositions.filter fun k => decide (i < k ∧ k < j)

theorem mem_defaultsBetween_iff {i j k : Nat} :
    k ∈ s.defaultsBetween i j ↔ k ∈ s.defaultPositions ∧ i < k ∧ k < j := by
  rw [defaultsBetween, List.mem_filter, decide_eq_true_iff]

/-- The choice of a position and the default positions between it and another one. -/
def firstChoice (s : Signature) (i j : Nat) : List Nat := i :: s.defaultsBetween i j

/-- The choice of the other position instead. -/
def secondChoice (s : Signature) (i j : Nat) : List Nat := s.defaultsBetween i j ++ [j]

theorem mem_firstChoice_iff {i j k : Nat} :
    k ∈ s.firstChoice i j ↔ k = i ∨ k ∈ s.defaultsBetween i j := List.mem_cons

theorem mem_secondChoice_iff {i j k : Nat} :
    k ∈ s.secondChoice i j ↔ k ∈ s.defaultsBetween i j ∨ k = j := by
  rw [secondChoice, List.mem_append, List.mem_singleton]

/-- The two choices differ at the two positions only. -/
theorem mem_firstChoice_iff_mem_secondChoice {i j k : Nat} (hi : k ≠ i) (hj : k ≠ j) :
    k ∈ s.firstChoice i j ↔ k ∈ s.secondChoice i j := by
  rw [mem_firstChoice_iff, mem_secondChoice_iff, or_iff_right hi, or_iff_left hj]

theorem left_mem_firstChoice (s : Signature) (i j : Nat) : i ∈ s.firstChoice i j :=
  mem_firstChoice_iff.2 (.inl rfl)

theorem right_mem_secondChoice (s : Signature) (i j : Nat) : j ∈ s.secondChoice i j :=
  mem_secondChoice_iff.2 (.inr rfl)

theorem right_notMem_firstChoice {i j : Nat} (h : i < j) : j ∉ s.firstChoice i j := by
  simp [mem_firstChoice_iff, mem_defaultsBetween_iff, h.ne']

theorem left_notMem_secondChoice {i j : Nat} (h : i < j) : i ∉ s.secondChoice i j := by
  simp [mem_secondChoice_iff, mem_defaultsBetween_iff, h.ne]

/-- A default flag makes a parameter one that a call may leave out. -/
theorem mem_defaultPositions_of_flag {k : Nat} {p : Parameter} (hp : s.params[k]? = some p)
    (hflag : p.hasDefaultValue = true) : k ∈ s.defaultPositions := by
  have hrule := variadicLast_iff_getElem?.1 s.variadicLast k p hp
  refine mem_defaultPositions_iff.2 ⟨p, hp, ?_⟩
  rw [Parameter.isOptional_eq fun hvariadic => (hrule hvariadic).2, hflag]

namespace Unseparated

variable {i j : Nat} {t : ErasedType}

/-- The first of the two can be left out with what is between them. -/
theorem isOmission_firstChoice (h : s.Unseparated i j t) : s.IsOmission (s.firstChoice i j) where
  ne_nil := List.cons_ne_nil _ _
  ascending := List.pairwise_cons.2
    ⟨fun _ hk => (mem_defaultsBetween_iff.1 hk).2.1, s.pairwise_defaultPositions.filter _⟩
  optional := by
    intro k hk
    rcases mem_firstChoice_iff.1 hk with rfl | hk
    · exact h.first
    · exact (mem_defaultsBetween_iff.1 hk).1

/-- The second of the two can be left out with what is between them. -/
theorem isOmission_secondChoice (h : s.Unseparated i j t) : s.IsOmission (s.secondChoice i j) where
  ne_nil := List.concat_ne_nil _ _
  ascending := by
    refine List.pairwise_append.2
      ⟨s.pairwise_defaultPositions.filter _, List.pairwise_singleton .., fun k hk l hl => ?_⟩
    rw [List.mem_singleton.1 hl]
    exact (mem_defaultsBetween_iff.1 hk).2.2
  optional := by
    intro k hk
    rcases mem_secondChoice_iff.1 hk with hk | rfl
    · exact (mem_defaultsBetween_iff.1 hk).1
    · exact h.second

/-- The choices are different. -/
theorem firstChoice_ne (h : s.Unseparated i j t) : s.firstChoice i j ≠ s.secondChoice i j := by
  intro heq
  exact left_notMem_secondChoice h.lt (heq ▸ s.left_mem_firstChoice i j)

/-- The parameters before, between and behind the two. -/
theorem exists_params_eq (h : s.Unseparated i j t) :
    ∃ before p between q after, s.params = before ++ p :: (between ++ q :: after) ∧
      before.length = i ∧ i + 1 + between.length = j ∧
      p.type.erasure = t ∧ q.type.erasure = t ∧
      ∀ (k : Nat) r, between[k]? = some r → s.params[i + 1 + k]? = some r := by
  obtain ⟨p, hp, -⟩ := mem_defaultPositions_iff.1 h.first
  obtain ⟨q, hq, -⟩ := mem_defaultPositions_iff.1 h.second
  have hlt := h.lt
  have hj := lt_length_of_mem_defaultPositions h.second
  have hq' : (s.params.drop (i + 1))[j - (i + 1)]? = some q := by
    rw [List.getElem?_drop, Nat.add_sub_cancel' hlt, hq]
  refine ⟨s.params.take i, p, (s.params.drop (i + 1)).take (j - (i + 1)), q,
    (s.params.drop (i + 1)).drop (j - (i + 1) + 1), ?_, ?_, ?_, h.first_type p hp,
    h.second_type q hq, fun k r hr => ?_⟩
  · rw [take_append_cons_drop hq', take_append_cons_drop hp]
  · rw [List.length_take]
    omega
  · rw [List.length_take, List.length_drop]
    omega
  · rw [List.getElem?_take] at hr
    split at hr
    · rwa [List.getElem?_drop] at hr
    · cases hr

/-- What either choice keeps between the two is of their type. -/
theorem exists_typesLeft_between (h : s.Unseparated i j t) {between : List Parameter}
    (hj : i + 1 + between.length = j)
    (hget : ∀ (k : Nat) r, between[k]? = some r → s.params[i + 1 + k]? = some r) :
    ∃ n, typesLeft (s.secondChoice i j) (i + 1) between = .replicate n t := by
  refine exists_typesLeft_eq_replicate fun k r hr hkept => ?_
  have hk : k < between.length := (List.getElem?_eq_some_iff.1 hr).1
  refine (h.between _ r (by omega) (by omega) (hget k r hr)).resolve_left fun hflag => hkept ?_
  have hdefault := mem_defaultPositions_of_flag (hget k r hr) hflag
  exact mem_secondChoice_iff.2 (.inl (mem_defaultsBetween_iff.2 ⟨hdefault, by omega, by omega⟩))

/-- **The two choices leave the same parameter types.** -/
theorem parameterTypes_eq (h : s.Unseparated i j t) :
    (s.omitting (s.firstChoice i j)).parameterTypes =
      (s.omitting (s.secondChoice i j)).parameterTypes := by
  refine ParameterTypes.ext ?_ ((isVarargs_omitting h.isOmission_firstChoice).trans
    (isVarargs_omitting h.isOmission_secondChoice).symm)
  have hlt := h.lt
  obtain ⟨before, p, between, q, after, hparams, hi, hj, hp, hq, hget⟩ := h.exists_params_eq
  obtain ⟨n, hkept⟩ := h.exists_typesLeft_between hj hget
  have hbefore : typesLeft (s.firstChoice i j) 0 before = typesLeft (s.secondChoice i j) 0 before :=
    typesLeft_congr fun k _ hk => mem_firstChoice_iff_mem_secondChoice (by omega) (by omega)
  have hbetween : typesLeft (s.firstChoice i j) (i + 1) between =
      typesLeft (s.secondChoice i j) (i + 1) between :=
    typesLeft_congr fun k hk hk' => mem_firstChoice_iff_mem_secondChoice (by omega) (by omega)
  have hafter : typesLeft (s.firstChoice i j) (j + 1) after =
      typesLeft (s.secondChoice i j) (j + 1) after :=
    typesLeft_congr fun k hk _ => mem_firstChoice_iff_mem_secondChoice (by omega) (by omega)
  calc (s.omitting (s.firstChoice i j)).parameterTypes.types
      = typesLeft (s.firstChoice i j) 0 before ++
          (typesLeft (s.firstChoice i j) (i + 1) between ++
            t :: typesLeft (s.firstChoice i j) (j + 1) after) := by
        rw [types_omitting_eq_typesLeft, hparams, typesLeft_append, Nat.zero_add, hi,
          typesLeft_cons_of_mem (s.left_mem_firstChoice i j), typesLeft_append, hj,
          typesLeft_cons_of_notMem (right_notMem_firstChoice hlt), hq]
    _ = typesLeft (s.secondChoice i j) 0 before ++
          (.replicate n t ++ t :: typesLeft (s.secondChoice i j) (j + 1) after) := by
        rw [hbefore, hbetween, hkept, hafter]
    _ = typesLeft (s.secondChoice i j) 0 before ++
          t :: (.replicate n t ++ typesLeft (s.secondChoice i j) (j + 1) after) := by
        rw [List.append_cons (.replicate n t), ← List.replicate_succ', List.replicate_succ,
          List.cons_append]
    _ = (s.omitting (s.secondChoice i j)).parameterTypes.types := by
        rw [types_omitting_eq_typesLeft, hparams, typesLeft_append, Nat.zero_add, hi,
          typesLeft_cons_of_notMem (left_notMem_secondChoice hlt), hp, typesLeft_append, hj,
          typesLeft_cons_of_mem (s.right_mem_secondChoice i j), hkept]

/-- **Two default values of one type that nothing separates collide.** -/
theorem hasCollision (h : s.Unseparated i j t) : s.HasCollision :=
  ⟨_, _, h.isOmission_firstChoice, h.isOmission_secondChoice, h.firstChoice_ne, h.parameterTypes_eq⟩

end Unseparated

end Signature

/-- **Two default values of one type that nothing separates are refused**, whatever the rest of the
signature is, as long as the limit allows the number of default values. -/
theorem unseparated_defaults_are_refused {β : Type} {s : Signature} (options : SynthesisOptions)
    (origin : Option ActionOrigin) (body : β)
    (hmax : s.defaultPositions.length ≤ options.effectiveMax.toNat) {i j : Nat} {t : ErasedType}
    (h : s.Unseparated i j t) :
    ∃ types first second, synthesizeFor options origin s body =
      .error (.duplicateOverload s.parameterTypes types first second) := by
  have hbound := options.effectiveMax_le
  have hrepeated := (Signature.hasCollision_iff (by omega)).1 h.hasCollision
  obtain ⟨first, second, hlt, hr⟩ := Signature.exists_firstRepeat hrepeated
  exact ⟨_, _, _, synthesizeFor_of_firstRepeat origin body hmax hr hlt⟩

/-- An action with two optional numbers.  Between them are an optional text and a number that every
call has to give. -/
def moveTo : Signature where
  params :=
    [{ name := "x", type := .primitive .int, hasDefaultValue := true },
      { name := "label", type := .named "java.lang.String", hasDefaultValue := true },
      { name := "y", type := .primitive .int },
      { name := "z", type := .primitive .int, hasDefaultValue := true },
      { name := "tags", type := .named "java.lang.String", isVarargs := true }]
  variadicLast := ⟨nofun, nofun, nofun, nofun, fun _ => ⟨rfl, rfl⟩, trivial⟩

/-- The text can be left out, and the number in between is kept as either of the optional ones. -/
theorem moveTo_is_refused :
    ∃ types first second, synthesize {} moveTo () =
      .error (.duplicateOverload moveTo.parameterTypes types first second) := by
  refine unseparated_defaults_are_refused {} none () (by decide) (i := 0) (j := 3) (t := "int")
    { lt := by decide
      first := by decide
      second := by decide
      first_type := by rintro p ⟨⟩; rfl
      second_type := by rintro p ⟨⟩; rfl
      between := fun k p hk hk' hp => ?_ }
  obtain rfl | rfl : k = 1 ∨ k = 2 := by omega
  · cases hp
    exact .inl rfl
  · cases hp
    exact .inr rfl

end ActionSignatures
