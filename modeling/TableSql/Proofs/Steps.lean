import TableSql.Statement.Parse

/-!
# Steps that may fail

A reader is put together from steps, each of which fails or hands its result to the next one. These
lemmas take a reader that succeeded apart again, up to the statement of a text: its scan, the
structure that is prepared from the tokens, and the values that are put in place.

## Main results

* `exists_of_bind_eq_ok` — a reader that succeeds is a step that succeeds, and the rest.
* `Scan.kindOfTokens_of_prepareTokens` — the tokens tell the kind of the statement.
* `parse_of_scan`, `exists_of_parse_eq_ok` — parsing is scanning, preparing and putting values in
  place.
* `exists_select_of_parse` — the prepared reading of an accepted one.
-/

namespace TableSql

variable {ε δ α β γ : Type}

theorem bind_ok (a : α) (f : α → Except ε β) : (Except.ok a >>= f) = f a := rfl

theorem map_ok (a : α) (f : α → β) : (Except.ok a : Except ε α).map f = .ok (f a) := rfl

/-- A reader that succeeds is a step that succeeds, and the rest on its result. -/
theorem exists_of_bind_eq_ok {x : Except ε α} {f : α → Except ε β} {r : β}
    (h : x >>= f = .ok r) : ∃ a, x = .ok a ∧ f a = .ok r := by
  cases x with
  | error e => cases h
  | ok a => exact ⟨a, rfl, h⟩

theorem exists_of_map_eq_ok {x : Except ε α} {f : α → β} {r : β} (h : x.map f = .ok r) :
    ∃ a, x = .ok a ∧ f a = r := by
  cases x with
  | error e => cases h
  | ok a => exact ⟨a, rfl, Except.ok.inj h⟩

theorem eq_ok_of_mapError_eq_ok {x : Except ε α} {f : ε → δ} {r : α}
    (h : x.mapError f = .ok r) : x = .ok r := by
  cases x with
  | error e => cases h
  | ok a => exact congrArg _ (Except.ok.inj h)

/-- A result that is there is the result of a success. -/
theorem eq_ok_of_mem_toOption {x : Except ε α} {a : α} (h : a ∈ x.toOption) : x = .ok a := by
  cases x with
  | error e => cases h
  | ok b => exact congrArg _ (Option.some.inj h)

theorem toOption_bind (x : Except ε α) (f : α → Except ε β) :
    (x >>= f).toOption = x.toOption.bind fun a => (f a).toOption := by
  cases x <;> rfl

theorem toOption_map (x : Except ε α) (f : α → β) : (x.map f).toOption = x.toOption.map f := by
  cases x <;> rfl

theorem toOption_mapError (x : Except ε α) (f : ε → δ) : (x.mapError f).toOption = x.toOption := by
  cases x <;> rfl

/-- A step that two readers share may be left out when their results are compared. -/
theorem bind_eq_map {x : Except ε α} {f : α → Except ε δ} {g : α → Except ε γ} {h : γ → δ}
    (hrest : ∀ a, f a = (g a).map h) : x >>= f = (x >>= g).map h := by
  cases x with
  | error e => rfl
  | ok a => exact hrest a

/-- So may a step whose results correspond. -/
theorem map_bind_eq_map {x : Except ε β} {k : β → α} {f : α → Except ε δ}
    {g : β → Except ε γ} {h : γ → δ} (hrest : ∀ a, f (k a) = (g a).map h) :
    x.map k >>= f = (x >>= g).map h := by
  cases x with
  | error e => rfl
  | ok a => exact hrest a

/-- A function on the results that are there. -/
theorem filterMap_id_map (f : α → β) (xs : List (Option α)) :
    (xs.map (Option.map f)).filterMap id = (xs.filterMap id).map f := by
  rw [List.filterMap_map, List.map_filterMap]
  rfl

/-- Parsing a text that was scanned is preparing it and putting its parameters in place. -/
theorem parse_of_scan {sql : String} {s : Scan} (h : scanTrimmed sql = .ok s) (b : Bindings) :
    parse b sql =
      ((s.prepareTokens b.count?).mapError (Fault.locate s)).map (Statement.map b.value) := by
  rw [parse, h]
  show s.prepare b.count? >>= _ = _
  rw [Scan.prepare]
  cases s.prepareTokens b.count? <;> rfl

theorem parse_of_scan_error {sql : String} {e : SyntaxError} (h : scanTrimmed sql = .error e)
    (b : Bindings) : parse b sql = .error e := by
  rw [parse, h]
  rfl

/-- The tokens tell the kind of their statement. -/
theorem Scan.kindOfTokens_of_prepareTokens {s : Scan} {read : Grammar.CountReader}
    {p : Statement Operand} (h : s.prepareTokens read = .ok p) :
    kindOfTokens s.tokens = p.kind := by
  unfold prepareTokens at h
  cases hk : kindOfTokens s.tokens with
  | aggregate | schema =>
    simp only [hk] at h
    cases h
    rfl
  | unsupported =>
    simp only [hk] at h
    cases h
  | select | insert | update | delete =>
    simp only [hk] at h
    obtain ⟨_, -, rfl⟩ := exists_of_map_eq_ok h
    rfl

/-- The statement of a text is the prepared one of its scan, with the parameters in place. -/
theorem exists_of_parse_eq_ok {b : Bindings} {sql : String} {statement : Statement Value}
    (h : parse b sql = .ok statement) :
    ∃ s p, scanTrimmed sql = .ok s ∧ s.prepareTokens b.count? = .ok p ∧
      p.map b.value = statement := by
  obtain ⟨s, hs, -⟩ := exists_of_bind_eq_ok h
  rw [parse_of_scan hs] at h
  obtain ⟨p, hp, hmap⟩ := exists_of_map_eq_ok h
  exact ⟨s, p, hs, eq_ok_of_mapError_eq_ok hp, hmap⟩

/-- An accepted reading is the prepared one of its scan, with the parameters in place. -/
theorem exists_select_of_parse {b : Bindings} {sql : String} {q : Select Value}
    (h : parse b sql = .ok (.select q)) :
    ∃ s prepared, scanTrimmed sql = .ok s ∧
      Grammar.select b.count? (.start (.detect s.tokens)) s.tokens = .ok prepared ∧
      prepared.map b.value = q := by
  obtain ⟨s, p, hs, hp, hmap⟩ := exists_of_parse_eq_ok h
  have hkind : kindOfTokens s.tokens = .select := by
    rw [Scan.kindOfTokens_of_prepareTokens hp, ← Statement.kind_map b.value, hmap]
    rfl
  unfold Scan.prepareTokens at hp
  simp only [hkind] at hp
  obtain ⟨prepared, hselect, rfl⟩ := exists_of_map_eq_ok hp
  exact ⟨s, prepared, hs, hselect, Statement.select.inj hmap⟩

end TableSql
