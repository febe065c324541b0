/-
**The command that reports overloads accounts for every declaration.**

A type may declare an action several times, and generated operations may have the name of the action
as well.  The command passes over what has another name or was generated.  Each of the others gives
either a report or, where its overloads cannot be made, a diagnostic; a declaration that is refused
takes nothing away from the others.  The command itself fails only where it finds nothing to report
on.

Main definitions:

* `ActionSignatures.Operation.Declares` — an operation that the command reports on;
* `ActionSignatures.Accounts` — **what becomes of each operation** of a type, in order;
* `ActionSignatures.Outcome.Accounted` — an outcome that accounts for every declaration.

Main results:

* `ActionSignatures.Accounts.unique` — there is one account of a list of operations;
* `ActionSignatures.Accounts.of_append`, `ActionSignatures.Accounts.append` — accounts of parts;
* `ActionSignatures.Accounts.without_refused` — **a refused declaration** takes its diagnostic with it
  and nothing else;
* `ActionSignatures.OverloadsArguments.answer_accounts_for_declarations` — when the command fails,
  and what it answers otherwise.
-/

import ActionSignatures.CommandLine.Run
import ActionSignatures.Proofs.Overload.Collisions

set_option relaxedAutoImplicit false
set_option autoImplicit false

namespace ActionSignatures

/-! ### Accounts of operations -/

/-- Whether an operation declares an action: it has its name and was not generated. -/
def Operation.Declares (op : Operation) (action : String) : Prop :=
  op.name = action ∧ op.isSynthetic = false

instance (op : Operation) (action : String) : Decidable (op.Declares action) :=
  inferInstanceAs (Decidable (_ ∧ _))

/-- **What becomes of each operation** of an owner, in order: it is passed over, or it gives a report
with its overloads, or a diagnostic that says why it has none. -/
inductive Accounts (options : SynthesisOptions) (owner action file : String) :
    List Operation → List ActionReport → List Diagnostic → Prop
  | none : Accounts options owner action file [] [] []
  | passed {op : Operation} {ops : List Operation} {reports : List ActionReport}
      {diagnostics : List Diagnostic} (declares : ¬op.Declares action)
      (rest : Accounts options owner action file ops reports diagnostics) :
      Accounts options owner action file (op :: ops) reports diagnostics
  | reported {op : Operation} {ops : List Operation} {reports : List ActionReport}
      {diagnostics : List Diagnostic} {set : OverloadSet Unit} (declares : op.Declares action)
      (made : synthesizeAction options owner op.name op.signature () = .ok set)
      (rest : Accounts options owner action file ops reports diagnostics) :
      Accounts options owner action file (op :: ops)
        (⟨.ofSignature op.name op.signature, set⟩ :: reports) diagnostics
  | refused {op : Operation} {ops : List Operation} {reports : List ActionReport}
      {diagnostics : List Diagnostic} {e : SynthesisError} (declares : op.Declares action)
      (refusal : synthesizeAction options owner op.name op.signature () = .error e)
      (rest : Accounts options owner action file ops reports diagnostics) :
      Accounts options owner action file (op :: ops) reports
        (e.toDiagnostic op.name ⟨file, 0, 0⟩ :: diagnostics)

namespace Accounts

variable {options : SynthesisOptions} {owner action file : String} {ops : List Operation}
  {reports : List ActionReport} {diagnostics : List Diagnostic}

/-- There is one account of a list of operations. -/
theorem unique {reports' : List ActionReport} {diagnostics' : List Diagnostic}
    (h : Accounts options owner action file ops reports diagnostics)
    (h' : Accounts options owner action file ops reports' diagnostics') :
    reports' = reports ∧ diagnostics' = diagnostics := by
  induction h generalizing reports' diagnostics' with
  | none =>
      cases h'
      exact ⟨rfl, rfl⟩
  | passed declares rest ih =>
      cases h' with
      | passed _ rest' => exact ih rest'
      | reported declares' _ _ => exact absurd declares' declares
      | refused declares' _ _ => exact absurd declares' declares
  | reported declares made rest ih =>
      cases h' with
      | passed declares' _ => exact absurd declares declares'
      | reported _ made' rest' =>
          obtain ⟨rfl, rfl⟩ := ih rest'
          cases made.symm.trans made'
          exact ⟨rfl, rfl⟩
      | refused _ refusal _ => cases made.symm.trans refusal
  | refused declares refusal rest ih =>
      cases h' with
      | passed declares' _ => exact absurd declares declares'
      | reported _ made _ => cases refusal.symm.trans made
      | refused _ refusal' rest' =>
          obtain ⟨rfl, rfl⟩ := ih rest'
          cases refusal.symm.trans refusal'
          exact ⟨rfl, rfl⟩

/-- Reports and diagnostics together are as many as the declarations of the action. -/
theorem length_add (h : Accounts options owner action file ops reports diagnostics) :
    reports.length + diagnostics.length = ops.countP fun op => op.Declares action := by
  induction h with
  | none => rfl
  | passed declares _ ih => rw [List.countP_cons_of_neg (by simpa using declares), ih]
  | reported declares _ _ ih =>
      rw [List.countP_cons_of_pos (by simpa using declares), List.length_cons]
      omega
  | refused declares _ _ ih =>
      rw [List.countP_cons_of_pos (by simpa using declares), List.length_cons]
      omega

/-- A refusal is an error. -/
theorem isError_toDiagnostic (e : SynthesisError) (place : Place) :
    (e.toDiagnostic action place).isError = true := by
  cases e <;> rfl

/-- All diagnostics are errors. -/
theorem isError_of_mem (h : Accounts options owner action file ops reports diagnostics) :
    ∀ d ∈ diagnostics, d.isError = true := by
  induction h with
  | none => exact fun d hd => absurd hd List.not_mem_nil
  | passed _ _ ih => exact ih
  | reported _ _ _ ih => exact ih
  | refused _ _ _ ih =>
      rintro d hd
      obtain rfl | hd := List.mem_cons.1 hd
      · exact isError_toDiagnostic ..
      · exact ih d hd

/-- There are diagnostics exactly where a declaration is refused. -/
theorem ne_nil_iff (h : Accounts options owner action file ops reports diagnostics) :
    diagnostics ≠ [] ↔ ∃ op ∈ ops, op.Declares action ∧
      ∃ e, synthesizeAction options owner op.name op.signature () = .error e := by
  induction h with
  | none => simp
  | passed declares _ ih =>
      simp only [List.mem_cons, exists_eq_or_imp]
      rw [ih, or_iff_right fun h => declares h.1]
  | reported _ made _ ih =>
      simp only [List.mem_cons, exists_eq_or_imp]
      rw [ih, or_iff_right]
      rintro ⟨-, e, he⟩
      cases made.symm.trans he
  | refused declares refusal _ _ =>
      exact iff_of_true (List.cons_ne_nil _ _) ⟨_, List.mem_cons_self, declares, _, refusal⟩

/-! ### Accounts of parts -/

theorem append {ops' : List Operation} {reports' : List ActionReport}
    {diagnostics' : List Diagnostic}
    (h : Accounts options owner action file ops reports diagnostics)
    (h' : Accounts options owner action file ops' reports' diagnostics') :
    Accounts options owner action file (ops ++ ops') (reports ++ reports')
      (diagnostics ++ diagnostics') := by
  induction h with
  | none => exact h'
  | passed declares _ ih => exact .passed declares ih
  | reported declares made _ ih => exact .reported declares made ih
  | refused declares refusal _ ih => exact .refused declares refusal ih

/-- **The account of a list consists of those of its parts.** -/
theorem of_append {ops' : List Operation}
    (h : Accounts options owner action file (ops ++ ops') reports diagnostics) :
    ∃ front back first last, reports = front ++ back ∧ diagnostics = first ++ last ∧
      Accounts options owner action file ops front first ∧
      Accounts options owner action file ops' back last := by
  induction ops generalizing reports diagnostics with
  | nil => exact ⟨[], reports, [], diagnostics, rfl, rfl, .none, h⟩
  | cons op ops ih =>
      cases h with
      | passed declares rest =>
          obtain ⟨front, back, first, last, rfl, rfl, hfront, hback⟩ := ih rest
          exact ⟨_, _, _, _, rfl, rfl, .passed declares hfront, hback⟩
      | reported declares made rest =>
          obtain ⟨front, back, first, last, rfl, rfl, hfront, hback⟩ := ih rest
          exact ⟨_ :: front, back, first, last, rfl, rfl, .reported declares made hfront, hback⟩
      | refused declares refusal rest =>
          obtain ⟨front, back, first, last, rfl, rfl, hfront, hback⟩ := ih rest
          exact ⟨front, back, _ :: first, last, rfl, rfl, .refused declares refusal hfront, hback⟩

/-- **A refused declaration** has its diagnostic at its place, and without it everything else is the
same. -/
theorem without_refused {before after : List Operation} {op : Operation} {e : SynthesisError}
    (h : Accounts options owner action file (before ++ op :: after) reports diagnostics)
    (declares : op.Declares action)
    (refusal : synthesizeAction options owner op.name op.signature () = .error e) :
    ∃ first last, diagnostics = first ++ e.toDiagnostic op.name ⟨file, 0, 0⟩ :: last ∧
      Accounts options owner action file (before ++ after) reports (first ++ last) := by
  obtain ⟨front, back, first, last, rfl, rfl, hfront, hback⟩ := h.of_append
  cases hback with
  | passed declares' _ => exact absurd declares declares'
  | reported _ made _ => cases refusal.symm.trans made
  | refused _ refusal' rest =>
      cases refusal.symm.trans refusal'
      exact ⟨first, _, rfl, hfront.append rest⟩

end Accounts

/-! ### The account that the command gives -/

/-- The diagnostic where there is no report. -/
def ActionReport.refusal? : Except Diagnostic ActionReport → Option Diagnostic
  | .error d => some d
  | .ok _ => none

/-- **What the command goes through** gives the account of all operations. -/
theorem accounts_report (options : SynthesisOptions) (owner action file : String)
    (ops : List Operation) :
    Accounts options owner action file ops
      ((((ops.filter (·.name == action)).filter (!·.isSynthetic)).map
        (·.report options owner file)).filterMap Except.toOption)
      ((((ops.filter (·.name == action)).filter (!·.isSynthetic)).map
        (·.report options owner file)).filterMap ActionReport.refusal?) := by
  induction ops with
  | nil => exact .none
  | cons op ops ih =>
      by_cases hname : op.name = action
      · rw [List.filter_cons_of_pos (by simpa using hname)]
        cases hsynthetic : op.isSynthetic with
        | true =>
            rw [List.filter_cons_of_neg (by simp [hsynthetic])]
            exact .passed (fun h => absurd h.2 (by simp [hsynthetic])) ih
        | false =>
            rw [List.filter_cons_of_pos (by simp [hsynthetic]), List.map_cons]
            cases hmade : synthesizeAction options owner op.name op.signature () with
            | ok set =>
                have hreport : op.report options owner file =
                    .ok ⟨.ofSignature op.name op.signature, set⟩ := by
                  rw [Operation.report, hmade]
                rw [hreport]
                exact .reported ⟨hname, hsynthetic⟩ hmade ih
            | error e =>
                have hreport : op.report options owner file =
                    .error (e.toDiagnostic op.name ⟨file, 0, 0⟩) := by
                  rw [Operation.report, hmade]
                rw [hreport]
                exact .refused ⟨hname, hsynthetic⟩ hmade ih
      · rw [List.filter_cons_of_neg (by simpa using hname)]
        exact .passed (fun h => hname h.1) ih

/-- What is printed for the reports on an action. -/
def ActionReport.print (format : OutputFormat) (styled : Bool) (owner action : String)
    (reports : List ActionReport) : String :=
  match format with
  | .json => Json.pretty (.arr (reports.map toJson))
  | .text => "\n".intercalate (reports.map (·.render owner action styled))

/-- **An outcome that accounts for every declaration** of an action by a type: it prints the reports
that the account has, and raises its diagnostics. -/
structure Outcome.Accounted (o : Outcome) (options : SynthesisOptions) (format : OutputFormat)
    (styled : Bool) (action file : String) (d : TypeDeclaration) (reports : List ActionReport) :
    Prop where
  output : o.output = ActionReport.print format styled d.name action reports
  accounts : Accounts options d.name action file d.operations reports o.diagnostics
  length_add : reports.length + o.diagnostics.length =
    d.operations.countP fun op => op.Declares action
  without_refused : ∀ before op after e, d.operations = before ++ op :: after →
    op.Declares action → synthesizeAction options d.name op.name op.signature () = .error e →
      ∃ first last, o.diagnostics = first ++ e.toDiagnostic op.name ⟨file, 0, 0⟩ :: last ∧
        Accounts options d.name action file (before ++ after) reports (first ++ last)
  isError : ∀ x ∈ o.diagnostics, x.isError = true
  hasErrors_iff : o.hasErrors = true ↔ ∃ op ∈ d.operations, op.Declares action ∧
    ∃ e, synthesizeAction options d.name op.name op.signature () = .error e

/-- An outcome with the reports and diagnostics of an account accounts for every declaration. -/
theorem Accounts.accounted {options : SynthesisOptions} {action file : String} {d : TypeDeclaration}
    {reports : List ActionReport} {diagnostics : List Diagnostic}
    (h : Accounts options d.name action file d.operations reports diagnostics)
    (format : OutputFormat) (styled : Bool) :
    Outcome.Accounted ⟨ActionReport.print format styled d.name action reports, diagnostics⟩ options
      format styled action file d reports where
  output := rfl
  accounts := h
  length_add := h.length_add
  without_refused _ _ _ _ hsplit declares refusal := by
    rw [hsplit] at h
    exact h.without_refused declares refusal
  isError := h.isError_of_mem
  hasErrors_iff := by
    rw [← h.ne_nil_iff, Outcome.hasErrors, List.any_eq_true]
    constructor
    · rintro ⟨x, hx, -⟩
      exact List.ne_nil_of_mem hx
    · intro hne
      obtain ⟨x, hx⟩ := List.exists_mem_of_ne_nil _ hne
      exact ⟨x, hx, h.isError_of_mem x hx⟩

namespace OverloadsArguments

variable (args : OverloadsArguments) (config : Config) (format : OutputFormat) (styled : Bool)
  (path : String) (store : DeclarationStore)

theorem declaredActions_eq_nil_iff {d : TypeDeclaration} {action : String} :
    d.declaredActions action = [] ↔ ∀ op ∈ d.operations, ¬op.Declares action := by
  rw [TypeDeclaration.declaredActions, TypeDeclaration.operationsNamed, List.filter_filter,
    List.filter_eq_nil_iff]
  refine forall₂_congr fun op _ => not_congr ?_
  simp [Operation.Declares, and_comm]

/-- Where there is something to report on, the answer is the outcome of the account. -/
theorem exists_answer_accounted {d : TypeDeclaration} (hd : store.lookup? args.typeName = some d)
    (hdeclared : ∃ op ∈ d.operations, op.Declares args.action) :
    ∃ o reports, args.answer config format styled path store = .ok o ∧
      o.Accounted (args.options config) format styled args.action path d reports := by
  have hne : (d.declaredActions args.action).isEmpty = false := by
    obtain ⟨op, hop, declares⟩ := hdeclared
    rw [List.isEmpty_eq_false_iff, ne_eq, declaredActions_eq_nil_iff]
    exact fun h => h op hop declares
  have haccounts := accounts_report (args.options config) d.name args.action path d.operations
  refine ⟨_, _, ?_, haccounts.accounted format styled⟩
  rw [answer, hd]
  simp only [hne, Bool.false_eq_true, if_false]
  rfl

/-- **Every declaration is accounted for.**  The command fails exactly where the type is unknown or
does not declare the action.  Otherwise it answers with one report or one diagnostic for each
declaration, in their order. -/
theorem answer_accounts_for_declarations :
    (∀ fault, args.answer config format styled path store = .error fault ↔
      (store.lookup? args.typeName = none ∧ fault = .unknownType args.typeName path) ∨
        ∃ d, store.lookup? args.typeName = some d ∧
          (∀ op ∈ d.operations, ¬op.Declares args.action) ∧
            fault = .unknownAction args.typeName args.action) ∧
    ∀ d, store.lookup? args.typeName = some d → (∃ op ∈ d.operations, op.Declares args.action) →
      ∃ o reports, args.answer config format styled path store = .ok o ∧
        o.Accounted (args.options config) format styled args.action path d reports := by
  refine ⟨fun fault => ?_, fun d hd hdeclared =>
    args.exists_answer_accounted config format styled path store hd hdeclared⟩
  cases hd : store.lookup? args.typeName with
  | none =>
      rw [answer, hd]
      simp [eq_comm]
  | some d =>
      simp only [reduceCtorEq, false_and, false_or, Option.some.injEq, exists_eq_left']
      constructor
      · intro hfault
        have hnone : ∀ op ∈ d.operations, ¬op.Declares args.action := fun op hop declares => by
          obtain ⟨o, reports, ho, -⟩ :=
            args.exists_answer_accounted config format styled path store hd ⟨op, hop, declares⟩
          cases hfault.symm.trans ho
        refine ⟨hnone, ?_⟩
        rw [answer, hd] at hfault
        simp only [declaredActions_eq_nil_iff.2 hnone] at hfault
        cases hfault
        rfl
      · rintro ⟨hnone, rfl⟩
        rw [answer, hd]
        simp only [declaredActions_eq_nil_iff.2 hnone]
        rfl

/-- A type that declares an action three times, the second time with overloads that collide, beside a
generated operation of that name and an operation of another name. -/
def sketchpad : TypeDeclaration where
  name := "Sketchpad"
  operations :=
    [{ name := "draw", flags := .synthetic }, { name := "draw" },
      { name := "draw", signature := twoNumbers }, { name := "erase" },
      { name := "draw"
        signature :=
          { params := [{ name := "size", type := .primitive .int, hasDefaultValue := true }]
            variadicLast := ⟨nofun, trivial⟩ } }]

/-- The declaration that is refused stands between two that are reported, and so the command prints two
reports and raises one diagnostic. -/
theorem answer_accounts_sketchpad :
    let store := DeclarationStore.ofList [sketchpad]
    (store.lookup? "Sketchpad" = some sketchpad ∧
        ∃ op ∈ sketchpad.operations, op.Declares "draw") ∧
      ∃ o reports, answer ⟨"model.json", "Sketchpad", "draw", none⟩ {} .text false "model.json" store =
          .ok o ∧
        o.Accounted {} .text false "draw" "model.json" sketchpad reports ∧
          reports.length = 2 ∧ o.diagnostics.length = 1 ∧ o.hasErrors = true ∧
          o.output =
            "Sketchpad.draw()  [source of defaults]\n" ++
            "  (no overloads)\n" ++
            "\n" ++
            "Sketchpad.draw(int)  [source of defaults]\n" ++
            "  draw()\n" ++
            "      delegates: draw(0)\n" ++
            "      uses defaults from: int\n" ∧
          o.diagnostics.map (·.text) =
            ["The default values of 'draw(int,int)' produce the overload 'draw(int)' more " ++
              "than once."] := by
  have hlookup : (DeclarationStore.ofList [sketchpad]).lookup? "Sketchpad" = some sketchpad := by
    cbv
  have hdeclared : ∃ op ∈ sketchpad.operations, op.Declares "draw" :=
    ⟨{ name := "draw" }, by decide, by decide⟩
  have hlimit : twoNumbers.defaultPositions.length ≤
      (SynthesisOptions.effectiveMax {}).toNat := by decide
  have hrepeat : twoNumbers.FirstRepeat 1 2 := ⟨by decide, by decide, by decide⟩
  have hrefused := synthesizeFor_of_firstRepeat (some ⟨"Sketchpad", "draw"⟩) () hlimit hrepeat
    (by decide)
  obtain ⟨o, reports, ho, haccounted⟩ := (answer_accounts_for_declarations
    ⟨"model.json", "Sketchpad", "draw", none⟩ {} .text false "model.json" (.ofList [sketchpad])).2
      sketchpad hlookup hdeclared
  -- the account of the operations one by one, which is the one that the command gives
  have haccount : Accounts {} "Sketchpad" "draw" "model.json" sketchpad.operations _ _ :=
    .passed (by decide)
      (.reported (by decide) (synthesizeFor_of_nodup _ () (by decide) (by decide))
        (.refused (by decide) hrefused
          (.passed (by decide)
            (.reported (by decide) (synthesizeFor_of_nodup _ () (by decide) (by decide)) .none))))
  obtain ⟨rfl, hdiagnostics⟩ := haccount.unique haccounted.accounts
  refine ⟨⟨hlookup, hdeclared⟩, o, _, ho, haccounted, rfl, ?_, ?_, ?_, ?_⟩
  · rw [hdiagnostics]
    rfl
  · rw [Outcome.hasErrors, hdiagnostics]
    rfl
  · rw [haccounted.output]
    decide +kernel
  · rw [hdiagnostics]
    decide +kernel

end OverloadsArguments

end ActionSignatures
