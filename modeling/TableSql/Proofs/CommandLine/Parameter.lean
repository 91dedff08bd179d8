import TableSql.CommandLine.Session
import TableSql.Proofs.Decimal.Range
import TableSql.Request

/-!
# What a parameter on the command line becomes

Every text is the value of the kind that it is read as: a truth value or null if it is one of their
names, an integer of 64 bits, a finite floating-point number, and otherwise itself. There is one
exception. A text that is read as a floating-point number that is not finite is none of these and
not itself either: it becomes null. So a comparison with it asks for rows in which the column is
null, as a comparison with `null` does.

## Main definitions

* `CommandLine.StandsFor` — the value of a text, said without a reader.

## Main results

* `CommandLine.standsFor_parameter`, `CommandLine.StandsFor.parameter_eq` — a parameter has this
  value and no other.
* `CommandLine.bound_value_iff` — the bound values of a statement, and which of them make a
  comparison ask for null.
-/

namespace TableSql.CommandLine

open Decimal

/-- The text stands for the value. It stands for null if it says so, and if it is read as a number
that is not finite. -/
def StandsFor (b : String) : Value → Prop
  | .null => b = "null" ∨ NotFinite b.toList
  | .bool t => b = toString t
  | .int i => signed? b.toList = some i
  | .float x => signed? b.toList = none ∧ float? b.toList = some x ∧ x.isFinite = true
  | .text t => t = b ∧ b ∉ ["null", "true", "false"] ∧ signed? b.toList = none ∧
      float? b.toList = none
  | .array _ => False
  | .object _ => False

/-- The names of truth values and of null are no numbers. -/
theorem not_number_of_mem {b : String} (h : b ∈ ["null", "true", "false"]) :
    signed? b.toList = none ∧ (float? b.toList).isNone = true := by
  have hnames : ∀ b ∈ ["null", "true", "false"],
      (signed? b.toList).isNone = true ∧ (float? b.toList).isNone = true := by
    decide
  exact ⟨Option.isNone_iff_eq_none.1 (hnames b h).1, (hnames b h).2⟩

theorem namedValue_of_notMem {b : String} (h : b ∉ ["null", "true", "false"]) :
    namedValue b = .text b := by
  simp only [List.mem_cons, List.not_mem_nil, or_false, not_or] at h
  unfold namedValue
  split
  · exact absurd rfl h.2.1
  · exact absurd rfl h.2.2
  · exact absurd rfl h.1
  · rfl

/-- A parameter is a value that its text stands for. -/
theorem standsFor_parameter (b : String) : StandsFor b (parameter b) := by
  unfold parameter
  split
  · assumption
  · rename_i hsigned
    split
    · rename_i x hfloat
      unfold Value.ofFloat
      split
      · rename_i hfinite
        exact ⟨hsigned, hfloat, hfinite⟩
      · rename_i hfinite
        exact Or.inr ((isFinite_eq_false_iff_of_float? hfloat).1 (Bool.not_eq_true _ ▸ hfinite))
    · rename_i hfloat
      unfold namedValue
      split
      · rfl
      · rfl
      · exact Or.inl rfl
      · rename_i htrue hfalse hnull
        refine ⟨rfl, ?_, hsigned, hfloat⟩
        simp only [List.mem_cons, List.not_mem_nil, or_false, not_or]
        exact ⟨hnull, htrue, hfalse⟩

/-- A text stands for no other value than the parameter. -/
theorem StandsFor.parameter_eq {b : String} {v : Value} (h : StandsFor b v) : parameter b = v := by
  have hname (hb : b ∈ ["null", "true", "false"]) : parameter b = namedValue b := by
    obtain ⟨hsigned, hfloat⟩ := not_number_of_mem hb
    unfold parameter
    rw [hsigned, Option.isNone_iff_eq_none.1 hfloat]
  cases v with
  | null =>
    rcases h with rfl | hnotFinite
    · exact hname (by decide)
    · have hsigned : signed? b.toList = none :=
        Option.eq_none_iff_forall_ne_some.2 fun i hi => not_notFinite_of_signed? hi hnotFinite
      obtain ⟨x, hfloat, hfinite⟩ := hnotFinite.exists_float?
      unfold parameter
      rw [hsigned, hfloat]
      exact if_neg (Bool.eq_false_iff.1 hfinite)
  | bool t =>
    obtain rfl : b = toString t := h
    cases t <;> exact hname (by decide)
  | int i =>
    have hsigned : signed? b.toList = some i := h
    unfold parameter
    rw [hsigned]
  | float x =>
    obtain ⟨hsigned, hfloat, hfinite⟩ := h
    unfold parameter
    rw [hsigned, hfloat]
    exact if_pos hfinite
  | text t =>
    obtain ⟨rfl, hnotMem, hsigned, hfloat⟩ := h
    unfold parameter
    rw [hsigned, hfloat]
    exact namedValue_of_notMem hnotMem
  | array items => exact h.elim
  | object entries => exact h.elim

theorem parameter_eq_iff {b : String} {v : Value} : parameter b = v ↔ StandsFor b v :=
  ⟨fun h => h ▸ standsFor_parameter b, StandsFor.parameter_eq⟩

/-- Only null is compared with as null is. -/
theorem filterOperand_eq_isNull_iff {v : Value} : filterOperand v = "is.null" ↔ v = .null := by
  have hequals (s : String) : "eq." ++ s ≠ "is.null" := by
    intro h
    have hhead := congrArg (fun t => t.toList.head?) h
    rw [String.toList_append] at hhead
    cases hhead
  cases v with
  | null => exact iff_of_true rfl rfl
  | _ => exact iff_of_false (hequals _) Value.noConfusion

/-- The value that a statement is given for one of its parameters, and when a comparison with it
asks for null. -/
theorem bound_value_iff (a : StatementArguments) (now : String) (k : Fin a.parameters.length) :
    (∀ v, (a.bindings now).value (.parameter k) = v ↔ StandsFor a.parameters[k] v) ∧
      (filterOperand ((a.bindings now).value (.parameter k)) = "is.null" ↔
        a.parameters[k] = "null" ∨ NotFinite a.parameters[k].toList) := by
  have hvalue : (a.bindings now).value (.parameter k) = parameter a.parameters[k] := by
    simp [StatementArguments.bindings, Bindings.value]
  rw [hvalue, filterOperand_eq_isNull_iff]
  exact ⟨fun _ => parameter_eq_iff, parameter_eq_iff⟩

/-- The name of no number asks for null, though it is not the name of null. -/
theorem bound_nan_asks_for_null :
    let a : StatementArguments := ⟨"DELETE FROM t WHERE a = ?", ["nan"]⟩
    a.parameters[0] ≠ "null" ∧ (a.bindings "").value (.parameter 0) = .null ∧
      filterOperand ((a.bindings "").value (.parameter 0)) = "is.null" := by
  have hnull : parameter "nan" = .null := parameter_eq_iff.2 (Or.inr (by decide))
  exact ⟨by decide, hnull, filterOperand_eq_isNull_iff.2 hnull⟩

end TableSql.CommandLine
