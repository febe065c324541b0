/-
**Replacing a braced pattern.**

Placeholders are texts in braces.  Two of them overlap nowhere, so that the occurrences of one in a
text can be told apart and counted, and the replacement of one leaves the others where they are.  If
some occurrences of a pattern are replaced and others are kept, then this is the replacement of all of
them exactly if all are counted among those replaced, or if the pattern is replaced by itself.

Main definitions:

* `ActionSignatures.Text.IsBraced` — a text in a single pair of braces;
* `ActionSignatures.Text.occurrences` — **how often** a pattern occurs;
* `ActionSignatures.Text.ReplacesSome` — **some occurrences are replaced**, in a number that is told.

Main results:

* `ActionSignatures.Text.IsBraced.eq_of_append_eq` — braced texts do not overlap;
* `ActionSignatures.Text.occurrences_append_cons` — a character foreign to the pattern parts the
  occurrences;
* `ActionSignatures.Text.occurrences_le_replaceAll` — replacing one pattern loses no occurrence of
  another;
* `ActionSignatures.Text.ReplacesSome.replaceAll_eq_iff` — **when all occurrences are replaced**.
-/

import ActionSignatures.Text.Template
import Mathlib.Data.List.Basic
import Mathlib.Tactic.LinearCombination
import Mathlib.Tactic.Zify

set_option relaxedAutoImplicit false
set_option autoImplicit false

namespace ActionSignatures.Text

/-! ### Braced texts -/

/-- The first place of a character splits a text in one way. -/
theorem append_cons_inj {c : Char} {a b x y : List Char} (ha : c ∉ a) (hb : c ∉ b)
    (h : a ++ c :: x = b ++ c :: y) : a = b ∧ x = y := by
  have hidx := congrArg (List.idxOf c) h
  rw [List.idxOf_append_of_notMem ha, List.idxOf_append_of_notMem hb, List.idxOf_cons_self,
    List.idxOf_cons_self] at hidx
  obtain ⟨rfl, hrest⟩ := List.append_inj h hidx
  exact ⟨rfl, (List.cons.inj hrest).2⟩

/-- The characters of a number are digits. -/
theorem notMem_toString {c : Char} (h : c.isDigit = false) (n : Nat) : c ∉ (toString n).toList := by
  intro hc
  have hmem : c ∈ Nat.toDigits 10 n := by rwa [← Nat.toList_repr]
  have hdigit := Nat.isDigit_of_mem_toDigits (by decide) (by decide) hmem
  exact Bool.false_ne_true (h.symm.trans hdigit)

/-- A text that begins with an opening brace, ends with a closing one, and has no other braces. -/
def IsBraced (p : List Char) : Prop :=
  ∃ body, p = '\x7b' :: (body ++ ['\x7d']) ∧ '\x7b' ∉ body ∧ '\x7d' ∉ body

namespace IsBraced

variable {p q x y : List Char}

theorem ne_nil (hp : IsBraced p) : p ≠ [] := by
  obtain ⟨body, rfl, -, -⟩ := hp
  simp

/-- **Braced texts do not overlap**: of two that begin a text neither goes beyond the other. -/
theorem eq_of_append_eq (hp : IsBraced p) (hq : IsBraced q) (h : p ++ x = q ++ y) :
    p = q ∧ x = y := by
  obtain ⟨a, rfl, -, ha⟩ := hp
  obtain ⟨b, rfl, -, hb⟩ := hq
  have htail : a ++ '\x7d' :: x = b ++ '\x7d' :: y := by simpa using h
  obtain ⟨rfl, rfl⟩ := append_cons_inj ha hb htail
  exact ⟨rfl, rfl⟩

theorem eq_of_isPrefix (hp : IsBraced p) (hq : IsBraced q) (h : p <+: q ++ x) : p = q := by
  obtain ⟨y, hy⟩ := h
  exact (hp.eq_of_append_eq hq hy).1

/-- A braced text begins with its brace. -/
theorem head_eq {c : Char} (hp : IsBraced p) (h : p <+: c :: x) : c = '\x7b' := by
  obtain ⟨body, rfl, -, -⟩ := hp
  exact (List.cons_prefix_cons.1 h).1.symm

theorem not_isPrefix_cons {c : Char} (hp : IsBraced p) (hc : '\x7b' ≠ c) : ¬ p <+: c :: x :=
  fun h => hc (hp.head_eq h).symm

/-- It has no brace but its first and its last character. -/
theorem count_open (hp : IsBraced p) : p.count '\x7b' = 1 := by
  obtain ⟨body, rfl, hopen, -⟩ := hp
  simp [List.count_eq_zero_of_not_mem hopen]

end IsBraced

/-- **Induction along the occurrences of patterns**: a text is empty, or begins with one of the
patterns, or begins with a character at which none of them occurs. -/
theorem pattern_induction {motive : List Char → Prop} (Pattern : List Char → Prop)
    (hne : ∀ p, Pattern p → p ≠ []) (nil : motive [])
    (found : ∀ p x, Pattern p → motive x → motive (p ++ x))
    (other : ∀ c x, (∀ p, Pattern p → ¬ p <+: c :: x) → motive x → motive (c :: x))
    (x : List Char) : motive x := by
  induction hn : x.length using Nat.strongRecOn generalizing x with
  | ind n ih =>
    by_cases h : ∃ p, Pattern p ∧ p <+: x
    · obtain ⟨p, hp, y, rfl⟩ := h
      have hpos : 0 < p.length := List.length_pos_iff.2 (hne p hp)
      have hlt : y.length < n := by
        rw [List.length_append] at hn
        omega
      exact found p y hp (ih y.length hlt y rfl)
    · cases x with
      | nil => exact nil
      | cons c y =>
        have hlt : y.length < n := by
          rw [List.length_cons] at hn
          omega
        exact other c y (fun p hp hpre => h ⟨p, hp, hpre⟩) (ih y.length hlt y rfl)

/-! ### Counting occurrences -/

/-- **How often a pattern occurs**: at how many places of the text it begins. -/
def occurrences (p : List Char) : List Char → Nat
  | [] => 0
  | c :: cs => (if p.isPrefixOf (c :: cs) then 1 else 0) + occurrences p cs

section

variable {p q x y : List Char} {c : Char}

@[simp] theorem occurrences_nil : occurrences p [] = 0 := rfl

theorem occurrences_cons_of_not_isPrefix (h : ¬ p <+: c :: x) :
    occurrences p (c :: x) = occurrences p x := by
  rw [occurrences, if_neg (by rwa [List.isPrefixOf_iff_prefix]), Nat.zero_add]

theorem occurrences_cons_of_isPrefix (h : p <+: c :: x) :
    occurrences p (c :: x) = occurrences p x + 1 := by
  rw [occurrences, if_pos (by rwa [List.isPrefixOf_iff_prefix]), Nat.add_comm]

theorem occurrences_le_append (a : List Char) : occurrences p x ≤ occurrences p (a ++ x) := by
  induction a with
  | nil => exact Nat.le_refl _
  | cons c a ih =>
    rw [List.cons_append, occurrences]
    omega

theorem occurrences_eq_zero_iff (hp : p ≠ []) : occurrences p x = 0 ↔ ¬ p <:+: x := by
  induction x with
  | nil => simp [hp]
  | cons c x ih =>
    rw [List.infix_cons_iff, not_or, ← ih]
    by_cases h : p <+: c :: x
    · simp [occurrences_cons_of_isPrefix h, h]
    · simp [occurrences_cons_of_not_isPrefix h, h]

/-- A text without opening braces has no part in any occurrence of what follows it. -/
theorem occurrences_append_of_notMem (hp : IsBraced p) {a : List Char} (ha : '\x7b' ∉ a) :
    occurrences p (a ++ x) = occurrences p x := by
  induction a with
  | nil => rfl
  | cons c a ih =>
    rw [List.mem_cons, not_or] at ha
    obtain ⟨hc, ha⟩ := ha
    rw [List.cons_append, occurrences_cons_of_not_isPrefix (hp.not_isPrefix_cons hc), ih ha]

/-- A braced text holds no other one. -/
theorem occurrences_braced_append (hp : IsBraced p) (hq : IsBraced q) :
    occurrences p (q ++ x) = (if p = q then 1 else 0) + occurrences p x := by
  obtain ⟨body, hq', hbody, -⟩ := id hq
  have happ : q ++ x = '\x7b' :: (body ++ '\x7d' :: x) := by simp [hq']
  have hrest : occurrences p (body ++ '\x7d' :: x) = occurrences p x := by
    simpa using occurrences_append_of_notMem (x := x) hp (a := body ++ ['\x7d']) (by simp [hbody])
  by_cases hpq : p = q
  · have hpre : p <+: '\x7b' :: (body ++ '\x7d' :: x) := by
      rw [← happ, hpq]
      exact List.prefix_append ..
    rw [happ, occurrences_cons_of_isPrefix hpre, hrest, if_pos hpq, Nat.add_comm]
  · have hpre : ¬ p <+: '\x7b' :: (body ++ '\x7d' :: x) := by
      rw [← happ]
      exact fun h => hpq (hp.eq_of_isPrefix hq h)
    rw [happ, occurrences_cons_of_not_isPrefix hpre, hrest, if_neg hpq, Nat.zero_add]

theorem occurrences_self_append (hp : IsBraced p) :
    occurrences p (p ++ x) = occurrences p x + 1 := by
  rw [occurrences_braced_append hp hp, if_pos rfl, Nat.add_comm]

/-- A character that is foreign to the pattern parts its occurrences. -/
theorem occurrences_append_cons (hc : c ∉ p) :
    occurrences p (x ++ c :: y) = occurrences p x + occurrences p (c :: y) := by
  induction x with
  | nil => simp
  | cons d x ih =>
    have hpre : p <+: d :: (x ++ c :: y) ↔ p <+: d :: x := by
      constructor
      · intro h
        rcases List.prefix_or_prefix_of_prefix h (List.prefix_append (d :: x) (c :: y)) with h' | h'
        · exact h'
        · obtain ⟨r, rfl⟩ := h'
          have hr : r <+: c :: y := (List.prefix_append_right_inj (d :: x)).1 h
          cases r with
          | nil => simp
          | cons e r =>
            obtain ⟨rfl, -⟩ := List.cons_prefix_cons.1 hr
            exact absurd (by simp) hc
      · exact fun h => h.trans (List.prefix_append (d :: x) _)
    by_cases h : p <+: d :: x
    · rw [List.cons_append, occurrences_cons_of_isPrefix (hpre.2 h), occurrences_cons_of_isPrefix h, ih]
      omega
    · rw [List.cons_append, occurrences_cons_of_not_isPrefix fun h' => h (hpre.1 h'),
        occurrences_cons_of_not_isPrefix h, ih]

end

/-! ### Replacing all occurrences -/

section

variable {p q v x y : List Char} {c : Char}

@[simp] theorem replaceAll_nil : replaceAll p v [] = [] := rfl

theorem replaceAll_cons_of_not_isPrefix (h : ¬ p <+: c :: x) :
    replaceAll p v (c :: x) = c :: replaceAll p v x := by
  rw [replaceAll, replaceFrom, if_neg (by rwa [List.isPrefixOf_iff_prefix]), replaceAll]

theorem replaceFrom_length_append (a : List Char) :
    replaceFrom p v a.length (a ++ x) = replaceAll p v x := by
  induction a with
  | nil => rfl
  | cons c a ih => rw [List.length_cons, List.cons_append, replaceFrom, ih]

theorem replaceAll_self_append (hp : p ≠ []) :
    replaceAll p v (p ++ x) = v ++ replaceAll p v x := by
  cases p with
  | nil => exact absurd rfl hp
  | cons c p =>
    have hpre : (c :: p).isPrefixOf (c :: (p ++ x)) = true :=
      List.isPrefixOf_iff_prefix.2 (List.prefix_append (c :: p) x)
    rw [List.cons_append, replaceAll, replaceFrom, if_pos hpre, List.length_cons,
      Nat.add_sub_cancel, replaceFrom_length_append]

theorem replaceAll_append_of_notMem (hp : IsBraced p) {a : List Char} (ha : '\x7b' ∉ a) :
    replaceAll p v (a ++ x) = a ++ replaceAll p v x := by
  induction a with
  | nil => rfl
  | cons c a ih =>
    rw [List.mem_cons, not_or] at ha
    obtain ⟨hc, ha⟩ := ha
    rw [List.cons_append, replaceAll_cons_of_not_isPrefix (hp.not_isPrefix_cons hc), ih ha,
      List.cons_append]

/-- Another braced text is left where it is. -/
theorem replaceAll_braced_append (hp : IsBraced p) (hq : IsBraced q) (hpq : p ≠ q) :
    replaceAll p v (q ++ x) = q ++ replaceAll p v x := by
  obtain ⟨body, hq', hbody, -⟩ := id hq
  have happ : ∀ y, q ++ y = '\x7b' :: ((body ++ ['\x7d']) ++ y) := fun y => by rw [hq']; rfl
  have hpre : ¬ p <+: '\x7b' :: ((body ++ ['\x7d']) ++ x) := by
    rw [← happ]
    exact fun h => hpq (hp.eq_of_isPrefix hq h)
  rw [happ, happ, replaceAll_cons_of_not_isPrefix hpre,
    replaceAll_append_of_notMem hp (by simp [hbody])]

/-- Replacing a pattern by itself changes nothing. -/
theorem replaceAll_self (hp : p ≠ []) : replaceAll p p x = x := by
  induction x using pattern_induction (· = p) (fun _ hq => hq ▸ hp) with
  | nil => rfl
  | found q x hq ih =>
    subst hq
    rw [replaceAll_self_append hp, ih]
  | other c x h ih => rw [replaceAll_cons_of_not_isPrefix (h p rfl), ih]

/-- **Every occurrence is replaced** and nothing else, as far as the number of any characters
tells. -/
theorem countP_replaceAll (hp : IsBraced p) (f : Char → Bool) :
    (replaceAll p v x).countP f + occurrences p x * p.countP f =
      x.countP f + occurrences p x * v.countP f := by
  induction x using pattern_induction (· = p) (fun _ hq => hq ▸ hp.ne_nil) with
  | nil => simp
  | found q x hq ih =>
    subst hq
    rw [replaceAll_self_append hp.ne_nil, occurrences_self_append hp, List.countP_append,
      List.countP_append, Nat.succ_mul, Nat.succ_mul]
    omega
  | other c x h ih =>
    rw [replaceAll_cons_of_not_isPrefix (h p rfl), occurrences_cons_of_not_isPrefix (h p rfl),
      List.countP_cons, List.countP_cons]
    omega

/-- **Replacing one pattern loses no occurrence of another.** -/
theorem occurrences_le_replaceAll (hp : IsBraced p) (hq : IsBraced q) (hpq : p ≠ q) :
    occurrences q x ≤ occurrences q (replaceAll p v x) := by
  induction x using pattern_induction (fun r => r = p ∨ r = q)
    (by rintro r (rfl | rfl) <;> exact IsBraced.ne_nil ‹_›) with
  | nil => exact Nat.le_refl _
  | found r x hr ih =>
    rcases hr with rfl | rfl
    · rw [replaceAll_self_append hp.ne_nil, occurrences_braced_append hq hp, if_neg hpq.symm,
        Nat.zero_add]
      exact le_trans ih (occurrences_le_append v)
    · rw [replaceAll_braced_append hp hq hpq, occurrences_self_append hq,
        occurrences_self_append hq]
      omega
  | other c x h ih =>
    rw [replaceAll_cons_of_not_isPrefix (h p (.inl rfl)),
      occurrences_cons_of_not_isPrefix (h q (.inr rfl))]
    exact le_trans ih (occurrences_le_append [c])

end

/-! ### Replacing some occurrences -/

/-- **Some occurrences are replaced**: the second text is the first with as many occurrences of the
pattern replaced by the value as the number says, and everything else kept. -/
inductive ReplacesSome (p v : List Char) : Nat → List Char → List Char → Prop
  | nil : ReplacesSome p v 0 [] []
  | replace {n : Nat} {x y : List Char} (h : ReplacesSome p v n x y) :
      ReplacesSome p v (n + 1) (p ++ x) (v ++ y)
  | keep {n : Nat} {x y : List Char} (c : Char) (h : ReplacesSome p v n x y) :
      ReplacesSome p v n (c :: x) (c :: y)

namespace ReplacesSome

variable {p v x y : List Char} {n : Nat}

/-- What comes before may be kept. -/
theorem append (a : List Char) (h : ReplacesSome p v n x y) :
    ReplacesSome p v n (a ++ x) (a ++ y) := by
  induction a with
  | nil => exact h
  | cons c a ih => exact .keep c ih

theorem le_occurrences (hp : IsBraced p) (h : ReplacesSome p v n x y) : n ≤ occurrences p x := by
  induction h with
  | nil => exact Nat.zero_le _
  | replace h ih =>
    rw [occurrences_self_append hp]
    omega
  | keep c h ih => exact le_trans ih (occurrences_le_append [c])

/-- Nothing but the occurrences counted is replaced, as far as the number of any characters tells. -/
theorem countP (h : ReplacesSome p v n x y) (f : Char → Bool) :
    y.countP f + n * p.countP f = x.countP f + n * v.countP f := by
  induction h with
  | nil => simp
  | replace h ih =>
    rw [List.countP_append, List.countP_append, Nat.succ_mul, Nat.succ_mul]
    omega
  | keep c h ih =>
    rw [List.countP_cons, List.countP_cons]
    omega

/-- Occurrences replaced by the pattern itself are unchanged. -/
theorem eq_of_self (h : ReplacesSome p p n x y) : y = x := by
  induction h with
  | nil => rfl
  | replace h ih => rw [ih]
  | keep c h ih => rw [ih]

/-- What has no opening brace is kept. -/
theorem of_append {a : List Char} (hp : IsBraced p) (ha : '\x7b' ∉ a)
    (h : ReplacesSome p v n (a ++ x) y) : ∃ y', y = a ++ y' ∧ ReplacesSome p v n x y' := by
  induction a generalizing y with
  | nil => exact ⟨y, rfl, h⟩
  | cons c a ih =>
    rw [List.mem_cons, not_or] at ha
    obtain ⟨hc, ha⟩ := ha
    rw [List.cons_append] at h
    generalize hz : c :: (a ++ x) = z at h
    cases h with
    | nil => cases hz
    | @replace m x' y' h =>
      exact absurd ⟨x', hz.symm⟩ (hp.not_isPrefix_cons hc)
    | keep d h =>
      obtain ⟨rfl, rfl⟩ := List.cons.inj hz
      obtain ⟨y', rfl, h'⟩ := ih ha h
      exact ⟨y', rfl, h'⟩

/-- If all occurrences are counted then all are replaced. -/
theorem replaceAll_eq (hp : IsBraced p) (h : ReplacesSome p v n x y) (hn : occurrences p x = n) :
    replaceAll p v x = y := by
  induction h with
  | nil => rfl
  | replace h ih =>
    rw [occurrences_self_append hp] at hn
    rw [replaceAll_self_append hp.ne_nil, ih (by omega)]
  | @keep n x y c h ih =>
    have hle := h.le_occurrences hp
    have hpre : ¬ p <+: c :: x := by
      intro hpre
      rw [occurrences_cons_of_isPrefix hpre] at hn
      omega
    rw [occurrences_cons_of_not_isPrefix hpre] at hn
    rw [replaceAll_cons_of_not_isPrefix hpre, ih hn]

/-- Where value and pattern have one length, an occurrence that is kept shows that they are the
same. -/
theorem eq_of_length_eq (hp : IsBraced p) (hlen : v.length = p.length)
    (h : ReplacesSome p v n x y) (hall : replaceAll p v x = y) :
    v = p ∨ occurrences p x = n := by
  induction h with
  | nil => exact .inr rfl
  | replace h ih =>
    rw [replaceAll_self_append hp.ne_nil] at hall
    rcases ih (List.append_cancel_left hall) with hv | hn
    · exact .inl hv
    · exact .inr (by rw [occurrences_self_append hp, hn])
  | @keep n x y c h ih =>
    by_cases hpre : p <+: c :: x
    · left
      obtain ⟨r, hr⟩ := hpre
      obtain ⟨body, hbody, hopen, -⟩ := id hp
      have hx : x = (body ++ ['\x7d']) ++ r := by
        rw [hbody, List.cons_append] at hr
        exact (List.cons.inj hr).2.symm
      have hc : c = '\x7b' := hp.head_eq ⟨r, hr⟩
      obtain ⟨y', rfl, -⟩ := of_append (x := r) hp (a := body ++ ['\x7d']) (by simp [hopen]) (hx ▸ h)
      -- The kept text begins with the pattern, and the replaced one with the value.
      have hstart : v ++ replaceAll p v r = p ++ y' := by
        rw [← hr, replaceAll_self_append hp.ne_nil] at hall
        rw [hall, hc, hbody]
        rfl
      exact List.append_inj_left hstart hlen
    · rw [replaceAll_cons_of_not_isPrefix hpre] at hall
      rw [occurrences_cons_of_not_isPrefix hpre]
      exact ih (List.cons.inj hall).2

/-- **When all occurrences are replaced**: exactly if all are counted, unless the pattern is replaced
by itself.  Where value and pattern differ in length, the length of the text tells the number. -/
theorem replaceAll_eq_iff (hp : IsBraced p) (h : ReplacesSome p v n x y) :
    replaceAll p v x = y ↔ v = p ∨ occurrences p x = n := by
  constructor
  · intro hall
    by_cases hlen : v.length = p.length
    · exact h.eq_of_length_eq hp hlen hall
    · right
      have hcount := countP_replaceAll (v := v) (x := x) hp fun _ => true
      have hsome := h.countP fun _ => true
      rw [hall] at hcount
      simp only [List.countP_true] at hcount hsome
      have hcross : occurrences p x * v.length + n * p.length =
          occurrences p x * p.length + n * v.length := by omega
      have hfactors : ((occurrences p x : ℤ) - n) * ((v.length : ℤ) - p.length) = 0 := by
        zify at hcross
        linear_combination hcross
      rcases mul_eq_zero.1 hfactors with h | h <;> omega
  · rintro (rfl | hn)
    · rw [replaceAll_self hp.ne_nil, h.eq_of_self]
    · exact h.replaceAll_eq hp hn

end ReplacesSome

end ActionSignatures.Text
