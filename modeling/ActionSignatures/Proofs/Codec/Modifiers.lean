/-
**The written form of modifiers is read back.**

The written form has a part for each named bit, and one more for the bits without a name if there are
any.  No part has a blank or a bar in it, so splitting at the bars and trimming gives the parts back.
Each part is read as the bits that it was written for, and these together are all bits.

Main definitions:

* `ActionSignatures.Text.IsToken` — the parts of a written form;
* `ActionSignatures.OperationFlags.entries` — **the parts of the written form with their bits**.

Main results:

* `ActionSignatures.Text.map_trim_pieces_intercalate` — splitting and trimming gives tokens back;
* `ActionSignatures.OperationFlags.hexValueFrom_toDigits` — hexadecimal digits are read back;
* `ActionSignatures.OperationFlags.ofPart_entries` — parts are read back;
* `ActionSignatures.OperationFlags.union_entries` — the bits of all parts are all bits;
* `ActionSignatures.OperationFlags.parse_display` — **modifiers are read back**.
-/

import ActionSignatures.Declaration.Flags
import ActionSignatures.Proofs.Text.Trimming

set_option relaxedAutoImplicit false
set_option autoImplicit false

namespace ActionSignatures

/-! ### Tokens between bars -/

namespace Text

/-- **A token**: some characters, none of them a blank or a bar. -/
def IsToken (part : List Char) : Prop := part ≠ [] ∧ ∀ c ∈ part, isBlank c = false ∧ c ≠ '|'

instance (part : List Char) : Decidable (IsToken part) :=
  decidable_of_iff (part ≠ [] ∧ part.all (fun c => !isBlank c && c != '|') = true)
    (by simp [IsToken])

theorem IsToken.noBar {part : List Char} (h : IsToken part) : '|' ∉ part :=
  fun hmem => (h.2 '|' hmem).2 rfl

theorem IsToken.trim_eq {part : List Char} (h : IsToken part) : trim part = part :=
  trim_of_not_blank (fun c hc => (h.2 c (List.mem_of_head? hc)).1)
    fun c hc => (h.2 c (List.mem_of_getLast? hc)).1

/-- **Trimming leaves a token** between blanks. -/
theorem trim_of_isToken {lead part tail : List Char} (hlead : ∀ c ∈ lead, isBlank c = true)
    (htail : ∀ c ∈ tail, isBlank c = true) (hpart : IsToken part) :
    trim (lead ++ (part ++ tail)) = part := by
  rw [trim_append_left hlead, trim_append_right htail, hpart.trim_eq]

/-- **Splitting and trimming gives tokens back** that were joined by bars between blanks. -/
theorem map_trim_pieces_intercalate {lead : List Char} (hlead : ∀ c ∈ lead, isBlank c = true)
    {parts : List (List Char)} (hne : parts ≠ []) (h : ∀ part ∈ parts, IsToken part) :
    (pieces '|' (lead ++ " | ".toList.intercalate parts)).map trim = parts := by
  have hbar : '|' ∉ lead := fun hmem => absurd (hlead '|' hmem) (by decide)
  induction parts generalizing lead with
  | nil => exact absurd rfl hne
  | cons part parts ih =>
      obtain ⟨hpart, hparts⟩ := List.forall_mem_cons.1 h
      cases parts with
      | nil =>
          have hnone : '|' ∉ lead ++ part :=
            fun hmem => (List.mem_append.1 hmem).elim hbar hpart.noBar
          have htrim := trim_of_isToken hlead (List.forall_mem_nil _) hpart
          rw [List.append_nil] at htrim
          rw [List.intercalate_singleton, pieces_of_notMem hnone, List.map_singleton, htrim]
      | cons next parts =>
          have hblank : ∀ c ∈ [' '], isBlank c = true := List.forall_mem_singleton.2 rfl
          have hnone : '|' ∉ lead ++ (part ++ [' ']) := by
            simp [hbar, hpart.noBar]
          have hsplit : lead ++ " | ".toList.intercalate (part :: next :: parts) =
              (lead ++ (part ++ [' '])) ++
                '|' :: ([' '] ++ " | ".toList.intercalate (next :: parts)) := by
            rw [List.intercalate_cons_cons]
            simp
          rw [hsplit, pieces_append_cons hnone, List.map_cons, trim_of_isToken hlead hblank hpart,
            ih hblank (List.cons_ne_nil next parts) hparts (by decide)]

end Text

namespace OperationFlags

open Text

/-! ### Hexadecimal digits -/

theorem digitValue_digitChar : ∀ d < 16, digitValue (Nat.digitChar d) = some d := by decide

theorem hexValueFrom_append (n : Nat) (cs ds : List Char) :
    hexValueFrom n (cs ++ ds) = (hexValueFrom n cs).bind (hexValueFrom · ds) := by
  induction cs generalizing n with
  | nil => rfl
  | cons c cs ih =>
      rw [List.cons_append, hexValueFrom, hexValueFrom]
      cases digitValue c with
      | none => rfl
      | some d => exact ih _

/-- **Hexadecimal digits are read back.** -/
theorem hexValueFrom_toDigits (n : Nat) : hexValueFrom 0 (Nat.toDigits 16 n) = some n := by
  induction n using Nat.strongRecOn with
  | ind n ih =>
      rcases Nat.lt_or_ge n 16 with h | h
      · rw [Nat.toDigits_of_lt_base h, hexValueFrom, digitValue_digitChar n h]
        exact congrArg some (Nat.zero_add n)
      · have hdigit := digitValue_digitChar (n % 16) (Nat.mod_lt n (by decide))
        rw [Nat.toDigits_of_base_le (by decide) h, hexValueFrom_append, ih (n / 16) (by omega),
          Option.bind_some, hexValueFrom, hdigit]
        exact congrArg some (Nat.div_add_mod n 16)

/-- A hexadecimal digit stands for one of sixteen numbers. -/
theorem exists_digitChar_of_mem_toDigits {n : Nat} {c : Char} (h : c ∈ Nat.toDigits 16 n) :
    ∃ d < 16, Nat.digitChar d = c := by
  induction n using Nat.strongRecOn with
  | ind n ih =>
      rcases Nat.lt_or_ge n 16 with hn | hn
      · rw [Nat.toDigits_of_lt_base hn, List.mem_singleton] at h
        exact ⟨n, hn, h.symm⟩
      · rw [Nat.toDigits_of_base_le (by decide) hn, List.mem_append, List.mem_singleton] at h
        rcases h with h | h
        · exact ih (n / 16) (by omega) h
        · exact ⟨n % 16, Nat.mod_lt n (by decide), h.symm⟩

theorem plain_of_mem_toDigits {n : Nat} {c : Char} (h : c ∈ Nat.toDigits 16 n) :
    isBlank c = false ∧ c ≠ '|' ∧ c ≠ '+' := by
  have hplain : ∀ d < 16, isBlank (Nat.digitChar d) = false ∧ Nat.digitChar d ≠ '|' ∧
      Nat.digitChar d ≠ '+' := by decide
  obtain ⟨d, hd, rfl⟩ := exists_digitChar_of_mem_toDigits h
  exact hplain d hd

/-- The digits of a byte write the byte. -/
theorem byteOf_toDigits (b : UInt8) : byteOf (Nat.toDigits 16 b.toNat) = some b := by
  have hsign : (Nat.toDigits 16 b.toNat).head? ≠ some '+' := fun hhead =>
    (plain_of_mem_toDigits (List.mem_of_head? hhead)).2.2 rfl
  simp only [byteOf, if_neg hsign, if_neg Nat.toDigits_ne_nil, hexValueFrom_toDigits]
  rw [if_pos b.toNat_lt, UInt8.ofNat_toNat]

/-! ### The parts of the written form -/

/-- **The parts of the written form**, each with the bits that it stands for. -/
def entries (f : OperationFlags) : List (String × OperationFlags) :=
  (named.filter fun flag => f.contains flag.2) ++
    if f.nameless = 0 then [] else [("0x" ++ hexadecimal f.nameless.toNat, ⟨f.nameless⟩)]

theorem display_eq (f : OperationFlags) :
    f.display = " | ".intercalate (f.entries.map (·.1)) := by
  rw [display, entries, List.map_append]
  split <;> rfl

/-- **Parts are read back**, and each of them is a token. -/
theorem ofPart_entries {f : OperationFlags} :
    ∀ e ∈ f.entries, IsToken e.1.toList ∧ ofPart e.1.toList = some e.2 := by
  intro e he
  rw [entries, List.mem_append] at he
  rcases he with hnamed | hrest
  · have hall : ∀ flag ∈ named, IsToken flag.1.toList ∧ ofPart flag.1.toList = some flag.2 := by
      decide
    exact hall e (List.mem_of_mem_filter hnamed)
  · split at hrest
    · cases hrest
    · rw [List.mem_singleton] at hrest
      have htext : e.1.toList = '0' :: 'x' :: Nat.toDigits 16 f.nameless.toNat := by
        rw [hrest, hexadecimal, String.toList_append]
        exact congrArg ("0x".toList ++ ·) String.toList_ofList
      rw [htext]
      refine ⟨⟨List.cons_ne_nil _ _, ?_⟩, ?_⟩
      · simp only [List.forall_mem_cons]
        exact ⟨by decide, by decide, fun c hc => (plain_of_mem_toDigits hc).imp_right And.left⟩
      · change (byteOf (Nat.toDigits 16 f.nameless.toNat)).map OperationFlags.mk = _
        rw [byteOf_toDigits, hrest]
        rfl

/-- Parts that are read stand for their bits together. -/
theorem ofParts_map {entries : List (String × OperationFlags)}
    (h : ∀ e ∈ entries, ofPart e.1.toList = some e.2) :
    ofParts (entries.map (·.1.toList)) = some ((entries.map (·.2)).foldr union none) := by
  induction entries with
  | nil => rfl
  | cons e entries ih =>
      obtain ⟨he, hentries⟩ := List.forall_mem_cons.1 h
      rw [List.map_cons, ofParts, he, ih hentries]
      rfl

/-- **The bits of all parts are all bits.** -/
theorem union_entries (f : OperationFlags) : (f.entries.map (·.2)).foldr union none = f := by
  -- a byte has 256 values, and no text is looked at
  have hall : ∀ n : Fin 256, ((entries ⟨.ofNat n⟩).map (·.2)).foldr union none = ⟨.ofNat n⟩ := by
    decide +kernel
  have hf := hall ⟨f.bits.toNat, f.bits.toNat_lt⟩
  rwa [UInt8.ofNat_toNat] at hf

/-- **Modifiers are read back** from their written form. -/
theorem parse_display (f : OperationFlags) : parse f.display = some f := by
  have htext : f.display.toList = " | ".toList.intercalate (f.entries.map (·.1.toList)) := by
    rw [display_eq, String.toList_intercalate, List.map_map]
    rfl
  have hread : ofParts (f.entries.map (·.1.toList)) = some f := by
    rw [ofParts_map fun e he => (ofPart_entries e he).2, union_entries]
  have htokens : ∀ part ∈ f.entries.map (·.1.toList), IsToken part :=
    List.forall_mem_map.2 fun e he => (ofPart_entries e he).1
  rw [parse, htext, trim_intercalate (fun part hpart => (htokens part hpart).1)
    fun part hpart => (htokens part hpart).trim_eq]
  generalize f.entries.map (·.1.toList) = parts at hread htokens
  cases parts with
  | nil => exact hread
  | cons first later =>
      have hfirst := htokens first List.mem_cons_self
      have hpieces := map_trim_pieces_intercalate (List.forall_mem_nil _)
        (List.cons_ne_nil first later) htokens
      rw [List.nil_append] at hpieces
      simp only [if_neg (intercalate_cons_ne_nil hfirst.1 later), hpieces, hread]

end OperationFlags

end ActionSignatures
