import TableSql.Proofs.Statement.Reading
import TableSql.Proofs.Token.Trimming
import TableSql.Recipe.Registry

/-!
# The layout of a statement does not matter

The grammar sees tokens only. Two texts with the same tokens are read to the same statement, however
they are laid out: with other blanks and comments, or with other spellings of a name or a marker.
The text itself is used at two places. A fault is located in it, and the argument of an aggregate is
kept as it is written. The recipes that are always there look at this argument only to see whether
it is `*` or `1`, and that is told by the tokens.

## Main definitions

* `AggregateShape.SameButArgument` — two shapes with the same fields but their arguments.
* `Statement.SameButLayout` — two statements that were laid out differently.

## Main results

* `Registry.find?_standard_congr` — which arguments make no difference to the recipe.
* `Scan.prepareTokens_of_tokens_eq` — statements that are prepared from the same tokens.
* `parse_of_tokens_eq` — texts with the same tokens.
-/

namespace TableSql

/-! ### Statements that were laid out differently -/

/-- The two shapes have the same fields, except that the argument may be written differently. -/
def AggregateShape.SameButArgument {α : Type} (s s' : AggregateShape α) : Prop :=
  { s with argument := s'.argument } = s'

/-- The two statements are equal. Two aggregates have both a shape or none, their shapes have the
same fields but the argument, and the recipes that are always there compute both in the same way. -/
def Statement.SameButLayout : Statement Value → Statement Value → Prop
  | aggregate plan, aggregate plan' =>
    (plan.shape = none ∧ plan'.shape = none ∨
        ∃ shape ∈ plan.shape, ∃ shape' ∈ plan'.shape, shape.SameButArgument shape') ∧
      plan.shape.bind Registry.standard.find? = plan'.shape.bind Registry.standard.find?
  | s, s' => s = s'

theorem Statement.SameButLayout.refl (s : Statement Value) : s.SameButLayout s := by
  cases s with
  | aggregate plan =>
    refine ⟨?_, rfl⟩
    cases h : plan.shape with
    | none => exact .inl ⟨rfl, rfl⟩
    | some shape => exact .inr ⟨shape, rfl, shape, rfl, rfl⟩
  | _ => rfl

theorem Statement.SameButLayout.kind_eq {s s' : Statement Value} (h : s.SameButLayout s') :
    s.kind = s'.kind := by
  cases s <;> cases s' <;> first | rfl | cases h

/-! ### Recipes -/

namespace Registry

/-- Two arguments of which both or neither are `*` or `1` make no difference to the recipe. -/
theorem find?_standard_congr {shape : AggregateShape Value} {argument : String}
    (h : ["*", "1"].contains (Text.trimmed argument) =
      ["*", "1"].contains (Text.trimmed shape.argument)) :
    standard.find? { shape with argument := argument } = standard.find? shape := by
  have hspend : (Recipe.monthlySpend .subscriptions).applies { shape with argument := argument } =
      (Recipe.monthlySpend .subscriptions).applies shape := rfl
  have hcount : Recipe.rowCount.applies { shape with argument := argument } =
      Recipe.rowCount.applies shape := by
    simp only [Recipe.applies, Recipe.rowCount, h]
    rfl
  simp only [find?, recipes_standard, List.find?, hspend, hcount]

end Registry

/-! ### Statements with the same tokens -/

section TokensEq

variable {s s' : Scan}

/-- Outside aggregates nothing but the tokens is looked at. -/
theorem Scan.prepareTokens_eq_of_tokens_eq (ht : s.tokens = s'.tokens)
    (hkind : kindOfTokens s.tokens ≠ .aggregate) (read : Grammar.CountReader) :
    s.prepareTokens read = s'.prepareTokens read := by
  unfold prepareTokens
  rw [← ht]
  cases hk : kindOfTokens s.tokens with
  | aggregate => exact absurd hk hkind
  | _ => simp only [hk]

/-- Two shapes that are made of the same pieces have the same fields but the argument, and the
recipes that are always there do not tell them apart. -/
theorem Grammar.AggregatePieces.sameButArgument (hs : Spelled s.lexemes) (hs' : Spelled s'.lexemes)
    (ht : s.tokens = s'.tokens) (p : AggregatePieces) (f : Operand → Value) :
    ((p.shape s.excerpt).map f).SameButArgument ((p.shape s'.excerpt).map f) ∧
      Registry.standard.find? ((p.shape s.excerpt).map f) =
        Registry.standard.find? ((p.shape s'.excerpt).map f) := by
  let first := p.call.before + 3
  have hargument : ["*", "1"].contains (Text.trimmed (s.excerpt first p.length)) =
      ["*", "1"].contains (Text.trimmed (s'.excerpt first p.length)) := by
    rw [Scan.contains_trimmed_excerpt hs, Scan.contains_trimmed_excerpt hs', ht]
  exact ⟨rfl, @Registry.find?_standard_congr ((p.shape s'.excerpt).map f) _ hargument⟩

/-- From the same tokens the same fault is found, or statements that differ in their layout. -/
theorem Scan.prepareTokens_of_tokens_eq (hs : Spelled s.lexemes) (hs' : Spelled s'.lexemes)
    (ht : s.tokens = s'.tokens) (b : Bindings) :
    (∃ fault, s.prepareTokens b.count? = .error fault ∧ s'.prepareTokens b.count? = .error fault) ∨
      ∃ p p', s.prepareTokens b.count? = .ok p ∧ s'.prepareTokens b.count? = .ok p' ∧
        (p.map b.value).SameButLayout (p'.map b.value) := by
  by_cases hkind : kindOfTokens s.tokens = .aggregate
  · right
    refine ⟨_, _, prepareTokens_aggregate hkind _, prepareTokens_aggregate (ht ▸ hkind) _, ?_⟩
    rw [← ht]
    cases Grammar.aggregatePieces? b.count? (.start (.detect s.tokens)) s.tokens with
    | none => exact ⟨.inl ⟨rfl, rfl⟩, rfl⟩
    | some p =>
      obtain ⟨hfields, hfind⟩ := p.sameButArgument hs hs' ht b.value
      exact ⟨.inr ⟨_, rfl, _, rfl, hfields⟩, hfind⟩
  · rw [← prepareTokens_eq_of_tokens_eq ht hkind]
    cases s.prepareTokens b.count? with
    | error fault => exact .inl ⟨fault, rfl, rfl⟩
    | ok p => exact .inr ⟨p, p, rfl, rfl, .refl _⟩

end TokensEq

/-- Two texts with the same tokens are refused for the same fault, each at its own place, or they
are the same statement: of the same kind, and equal but for the text of an aggregate and for the
argument in its shape, which makes no difference to the recipes that are always there. -/
theorem parse_of_tokens_eq {sql sql' : String} {s s' : Scan} (h : scanTrimmed sql = .ok s)
    (h' : scanTrimmed sql' = .ok s') (ht : s.tokens = s'.tokens) (b : Bindings) :
    (∃ fault : Fault, parse b sql = .error (fault.locate s) ∧
        parse b sql' = .error (fault.locate s')) ∨
      ∃ statement statement', parse b sql = .ok statement ∧ parse b sql' = .ok statement' ∧
        statement.kind = statement'.kind ∧ statement.SameButLayout statement' := by
  have hs := (of_scanFrom h).1
  have hs' := (of_scanFrom h').1
  rw [parse_of_scan h, parse_of_scan h']
  rcases Scan.prepareTokens_of_tokens_eq hs hs' ht b with
    ⟨fault, hp, hp'⟩ | ⟨p, p', hp, hp', hsame⟩
  · rw [hp, hp']
    exact .inl ⟨fault, rfl, rfl⟩
  · rw [hp, hp']
    exact .inr ⟨_, _, rfl, rfl, hsame.kind_eq, hsame⟩

/-- Blanks around the argument of a count and a comment in front of its conditions make no
difference. -/
theorem parse_of_tokens_eq_count :
    ∃ s ∈ (scanTrimmed "SELECT COUNT(*) FROM t WHERE a = ?").toOption,
      ∃ s' ∈ (scanTrimmed " SELECT COUNT( * )FROM t/* all */WHERE a=?").toOption,
        s.tokens = s'.tokens ∧
          ∃ statement statement',
            parse ⟨[.int 1], ""⟩ "SELECT COUNT(*) FROM t WHERE a = ?" = .ok statement ∧
              parse ⟨[.int 1], ""⟩ " SELECT COUNT( * )FROM t/* all */WHERE a=?" = .ok statement' ∧
              statement.kind = statement'.kind ∧ statement.SameButLayout statement' := by
  have hscan : ∃ s ∈ (scanTrimmed "SELECT COUNT(*) FROM t WHERE a = ?").toOption,
      ∃ s' ∈ (scanTrimmed " SELECT COUNT( * )FROM t/* all */WHERE a=?").toOption,
        s.tokens = s'.tokens := by decide +kernel
  have haccepted : ∃ statement ∈
      (parse ⟨[.int 1], ""⟩ "SELECT COUNT(*) FROM t WHERE a = ?").toOption,
      statement.kind = .aggregate := by decide +kernel
  obtain ⟨s, hs, s', hs', ht⟩ := hscan
  refine ⟨s, hs, s', hs', ht, ?_⟩
  rcases parse_of_tokens_eq (eq_ok_of_mem_toOption hs) (eq_ok_of_mem_toOption hs') ht
    ⟨[.int 1], ""⟩ with ⟨fault, hfault, -⟩ | h
  · obtain ⟨statement, hstatement, -⟩ := haccepted
    rw [hfault] at hstatement
    cases hstatement
  · exact h

end TableSql
