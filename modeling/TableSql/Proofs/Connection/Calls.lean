import TableSql.Proofs.Service.Calls
import TableSql.Proofs.Statement.Write

/-!
# Which calls a statement makes

A connection has three entries, `get`, `all` and `run`. Each of them parses the text and makes the
calls of the statement: none for a text that is refused and for a schema statement, one for a
reading or a write, and one with the text of an aggregate, behind which a second one reads the rows
only if the service has refused the first. Which calls these are is said by the statement alone,
and it does not matter why the service refuses.

## Main definitions

* `Entry`, `Connection.attempt` — the three entries as one family.
* `Entry.query` — the reading that an entry makes of a `SELECT`.
* `Connection.respond` — a statement, carried out by an entry.
* `Call.Writes` — the calls that change or remove rows.
* `Connection.fallback`, `Connection.sourceCall?` — what follows an aggregate that is refused.

## Main results

* `Connection.attempt_eq_bind` — an entry parses the text and carries out the statement.
* `Connection.calls_aggregate`, `Connection.runOn_aggregate` — an aggregate first asks for
  its text.
* `Connection.exists_call_of_writes` — a write makes one call, with its filters.
* `Connection.calls_attempt` — the calls and the results of the three entries.
-/

namespace TableSql

/-! ### Entries -/

/-- The ways to have a statement carried out. -/
inductive Entry where
  | get
  | all
  | run

namespace Entry

/-- What an entry gives: the first row, every row, or the report of a statement. -/
def Result : Entry → Type
  | get => Option Row
  | all => List Row
  | run => RunContext

/-- What an entry gives for rows that were read. -/
def ofRows : (entry : Entry) → List Row → entry.Result
  | get, rows => rows.head?
  | all, rows => rows
  | run, _ => .unchanged

/-- What an entry gives for a statement that has no rows. -/
def ofReport : (entry : Entry) → RunContext → entry.Result
  | get, _ => none
  | all, _ => []
  | run, report => report

/-- How many rows an entry reads. -/
def cardinality : Entry → Cardinality
  | get => .one
  | all => .many
  | run => .many

/-- The reading that an entry makes of a `SELECT`: `get` asks for a single row, and for one row at
most. -/
def query : Entry → Select Value → TableQuery
  | get, q => ⟨{ q with limit := some (min (q.limit.getD 1) 1) }, true⟩
  | all, q => ⟨q, false⟩
  | run, q => ⟨q, false⟩

end Entry

/-- The call changes or removes the rows of a table that pass the filters. -/
inductive Call.Writes : Call → String → List (Filter Value) → Prop
  | update {table : String} {filters : List (Filter Value)} {values : Row} :
      Writes (.update table filters values) table filters
  | delete {table : String} {filters : List (Filter Value)} :
      Writes (.delete table filters) table filters

namespace Connection

/-- A text with its parameters, carried out by one of the entries. -/
def attempt (c : Connection) (b : Bindings) (sql : String) :
    (entry : Entry) → Attempt entry.Result
  | .get => c.get b sql
  | .all => c.all b sql
  | .run => c.run b sql

/-- A statement, carried out by one of the entries. -/
def respond (c : Connection) (b : Bindings) (sql : String) (entry : Entry) :
    Statement Value → Attempt entry.Result
  | .select q => do return entry.ofRows (← query q entry.cardinality).rows
  | .aggregate plan => do return entry.ofRows (← c.aggregate plan sql b.params)
  | statement => do return entry.ofReport (← c.execute sql b.params statement)

/-- Every entry parses the text and carries out its statement. -/
theorem attempt_eq_bind (c : Connection) (b : Bindings) (sql : String) (entry : Entry) :
    c.attempt b sql entry = prepare b sql >>= c.respond b sql entry := by
  cases entry with
  | get =>
    refine congrArg (prepare b sql >>= ·) (funext fun statement => ?_)
    cases statement with
    | select q =>
      refine congrArg (query q .one >>= ·) (funext fun fetched => ?_)
      cases fetched with
      | one row => cases row <;> rfl
      | many rows => rfl
    | _ => rfl
  | all =>
    refine congrArg (prepare b sql >>= ·) (funext fun statement => ?_)
    cases statement with
    | aggregate plan => exact (bind_pure _).symm
    | _ => rfl
  | run =>
    refine congrArg (prepare b sql >>= ·) (funext fun statement => ?_)
    cases statement with
    | select q => rfl
    | aggregate plan => rfl
    | _ => exact (bind_pure _).symm

/-- What follows if a service refuses the text of an aggregate. -/
def fallback (c : Connection) (plan : AggregatePlan Value) (sql : String) (params : List Value) :
    Attempt (List Row) :=
  match c.recipe? plan with
  | some (shape, recipe) => recompute shape recipe
  | none => throw (.unsupportedAggregate sql params)

/-- The call that reads the rows behind an aggregate, if there is a recipe for it. -/
def sourceCall? (c : Connection) (plan : AggregatePlan Value) : Option Call :=
  (c.recipe? plan).map fun (shape, recipe) => .select ⟨sourceOf shape recipe, false⟩

/-! ### Calls of statements -/

section Statements

variable {σ : Type} (service : Service σ) (c : Connection) (s : σ)

theorem calls_query (q : Select Value) (entry : Entry) :
    (query q entry.cardinality).calls service s = [.select (entry.query q)] := by
  cases entry with
  | get =>
    rw [Entry.query, ← TableQuery.first_eq]
    exact Attempt.calls_callOr service _ _ _ s
  | _ =>
    rw [Entry.query, ← TableQuery.ofSelect_eq]
    exact (Attempt.calls_bind_pure service _ _ s).trans (Attempt.calls_call service _ s)

/-- An aggregate is first given to the service as text, and what follows a refusal does not depend
on its reason. -/
theorem calls_aggregate (plan : AggregatePlan Value) (sql : String) (params : List Value) :
    (c.aggregate plan sql params).calls service s = .rawSql plan.remoteSql ::
      match service (.rawSql plan.remoteSql) s with
      | (.ok _, _) => []
      | (.error _, s') => (c.fallback plan sql params).calls service s' := by
  refine (Dialogue.calls_ask service (.rawSql plan.remoteSql) _ s).trans (congrArg _ ?_)
  rcases service (.rawSql plan.remoteSql) s with ⟨e | rows, s'⟩
  · unfold fallback
    dsimp only
    cases c.recipe? plan <;> rfl
  · rfl

theorem runOn_aggregate (plan : AggregatePlan Value) (sql : String) (params : List Value) :
    (c.aggregate plan sql params).runOn service s =
      match service (.rawSql plan.remoteSql) s with
      | (.ok rows, s') => (.ok rows, s')
      | (.error _, s') => (c.fallback plan sql params).runOn service s' := by
  refine (Dialogue.run_bind service (Dialogue.call (.rawSql plan.remoteSql)) _ s).trans ?_
  have hcall : (Dialogue.call (.rawSql plan.remoteSql)).run service s =
      service (.rawSql plan.remoteSql) s := rfl
  rw [hcall]
  rcases service (.rawSql plan.remoteSql) s with ⟨e | rows, s'⟩
  · unfold fallback
    dsimp only
    cases c.recipe? plan <;> rfl
  · rfl

theorem calls_fallback (plan : AggregatePlan Value) (sql : String) (params : List Value) :
    (c.fallback plan sql params).calls service s = (c.sourceCall? plan).toList := by
  unfold fallback sourceCall?
  rcases c.recipe? plan with _ | ⟨shape, recipe⟩
  · rfl
  · exact (Attempt.calls_bind_pure service _ _ s).trans (calls_query service s _ .all)

/-- An aggregate is recomputed from the rows of one reading, or fails as this reading does. -/
theorem runOn_recompute (shape : AggregateShape Value) (recipe : Recipe) :
    (recompute shape recipe).runOn service s =
      match service (.select ⟨sourceOf shape recipe, false⟩) s with
      | (.ok rows, s') =>
        (.ok [.single (shape.resultName.getD recipe.defaultAlias) (recipe.fold rows)], s')
      | (.error e, s') => (.error (.service e), s') := by
  unfold recompute
  rw [Attempt.runOn_bind_pure]
  have hquery : (query (sourceOf shape recipe) .many).runOn service s =
      ((Attempt.call (.select ⟨sourceOf shape recipe, false⟩)).runOn service s).map
        (Except.map Fetched.many) id := by
    rw [← TableQuery.ofSelect_eq]
    exact Attempt.runOn_bind_pure service _ _ s
  rw [hquery, Attempt.runOn_call]
  rcases service (.select ⟨sourceOf shape recipe, false⟩) s with ⟨e | rows, s'⟩ <;> rfl

end Statements

/-! ### Calls of texts -/

section Texts

variable {σ : Type} (service : Service σ) (c : Connection) {b : Bindings} {sql : String}
  (entry : Entry) (s : σ)

/-- A text that is refused makes no call, and the failure tells the text and the parameters. -/
theorem attempt_of_parse_error {fault : SyntaxError} (h : parse b sql = .error fault) :
    (c.attempt b sql entry).calls service s = [] ∧
      (c.attempt b sql entry).runOn service s = (.error (.unsupported sql b.params fault), s) := by
  have hprepare : prepare b sql = throw (.unsupported sql b.params fault) := by
    rw [prepare, h]
    rfl
  rw [attempt_eq_bind, hprepare]
  exact ⟨rfl, rfl⟩

/-- A text with a statement is carried out as the statement is. -/
theorem attempt_of_parse {statement : Statement Value} (h : parse b sql = .ok statement) :
    c.attempt b sql entry = c.respond b sql entry statement := by
  have hprepare : prepare b sql = pure statement := by
    rw [prepare, h]
    rfl
  rw [attempt_eq_bind, hprepare, pure_bind]

/-- The text of an aggregate for the service is its own, with the parameters written in. -/
theorem exists_inline_of_parse {plan : AggregatePlan Value}
    (h : parse b sql = .ok (.aggregate plan)) :
    ∃ scan, scanTrimmed sql = .ok scan ∧
      plan.remoteSql = inline b scan (.detect scan.tokens) := by
  obtain ⟨scan, p, hscan, hp, hstatement⟩ := exists_of_parse_eq_ok h
  have hkind : kindOfTokens scan.tokens = .aggregate := by
    rw [Scan.kindOfTokens_of_prepareTokens hp, ← Statement.kind_map b.value, hstatement]
    rfl
  unfold Scan.prepareTokens at hp
  simp only [hkind] at hp
  cases hp
  cases hstatement
  exact ⟨scan, hscan, rfl⟩

theorem calls_respond_select (q : Select Value) :
    (c.respond b sql entry (.select q)).calls service s = [.select (entry.query q)] :=
  (Attempt.calls_bind_pure service _ _ s).trans (calls_query service s q entry)

theorem calls_respond_insert (table : String) (values : Row) :
    (c.respond b sql entry (.insert table values)).calls service s = [.insert table values] :=
  (Attempt.calls_bind_pure service _ _ s).trans
    ((Attempt.calls_bind_pure service _ _ s).trans (Attempt.calls_call service _ s))

theorem calls_respond_update (table : String) (values : Row) (filters : List (Filter Value)) :
    (c.respond b sql entry (.update table values filters)).calls service s =
      [.update table filters values] :=
  (Attempt.calls_bind_pure service _ _ s).trans (Attempt.calls_callOr service _ _ _ s)

theorem calls_respond_delete (table : String) (filters : List (Filter Value)) :
    (c.respond b sql entry (.delete table filters)).calls service s = [.delete table filters] :=
  (Attempt.calls_bind_pure service _ _ s).trans (Attempt.calls_callOr service _ _ _ s)

/-- A write makes one call, with the filters of the statement, and leaves the service as this call
has left it. -/
theorem exists_call_of_writes (b : Bindings) (sql : String) {statement : Statement Value}
    {table : String} {filters : List (Filter Value)} (hw : statement.Writes table filters) :
    ∃ call : Call, call.Writes table filters ∧
      (c.respond b sql entry statement).calls service s = [call] ∧
      ((c.respond b sql entry statement).runOn service s).2 = (service call s).2 := by
  cases hw with
  | @update _ values _ =>
    refine ⟨.update table filters values, .update,
      calls_respond_update service c entry s table values filters, ?_⟩
    exact (Attempt.snd_runOn_bind_pure service _ _ s).trans
      (Attempt.snd_runOn_callOr service (.update table filters values) _ _ s)
  | delete =>
    refine ⟨.delete table filters, .delete,
      calls_respond_delete service c entry s table filters, ?_⟩
    exact (Attempt.snd_runOn_bind_pure service _ _ s).trans
      (Attempt.snd_runOn_callOr service (.delete table filters) _ _ s)

/-- An aggregate that the service computes makes no further call, and one that it refuses goes on
in one way. -/
theorem attempt_aggregate (plan : AggregatePlan Value) :
    match service (.rawSql plan.remoteSql) s with
    | (.ok rows, s') =>
      (c.respond b sql entry (.aggregate plan)).calls service s = [.rawSql plan.remoteSql] ∧
      (c.respond b sql entry (.aggregate plan)).runOn service s = (.ok (entry.ofRows rows), s')
    | (.error _, s') =>
      (c.respond b sql entry (.aggregate plan)).calls service s =
        .rawSql plan.remoteSql :: (c.sourceCall? plan).toList ∧
      (c.respond b sql entry (.aggregate plan)).runOn service s =
        ((c.fallback plan sql b.params).runOn service s').map (Except.map entry.ofRows) id := by
  have hcalls : (c.respond b sql entry (.aggregate plan)).calls service s = _ :=
    (Attempt.calls_bind_pure service _ _ s).trans (calls_aggregate service c s plan sql b.params)
  have hrun : (c.respond b sql entry (.aggregate plan)).runOn service s = _ :=
    Attempt.runOn_bind_pure service (c.aggregate plan sql b.params) entry.ofRows s
  rw [runOn_aggregate] at hrun
  rw [hcalls, hrun]
  rcases service (.rawSql plan.remoteSql) s with ⟨e | rows, s'⟩
  · exact ⟨congrArg _ (calls_fallback service c s' plan sql b.params), rfl⟩
  · exact ⟨rfl, rfl⟩

/-- The statement of a text says which calls are made, whatever the service answers. A text that is
refused and a schema statement make none. A reading makes one, and so does a write, which has a
filter unless it inserts. An aggregate asks for its text with the parameters written in; if the
service gives rows, these are the result, and if it refuses, what follows is the same for every
error and makes one reading at most. -/
theorem calls_attempt :
    match parse b sql with
    | .error fault =>
      (c.attempt b sql entry).calls service s = [] ∧
      (c.attempt b sql entry).runOn service s = (.error (.unsupported sql b.params fault), s)
    | .ok (.schema _) =>
      (c.attempt b sql entry).calls service s = [] ∧
      (c.attempt b sql entry).runOn service s = (.ok (entry.ofReport .unchanged), s)
    | .ok (.select q) =>
      (c.attempt b sql entry).calls service s = [.select (entry.query q)]
    | .ok (.insert table values) =>
      (c.attempt b sql entry).calls service s = [.insert table values]
    | .ok (.update table values filters) =>
      (c.attempt b sql entry).calls service s = [.update table filters values] ∧ filters ≠ []
    | .ok (.delete table filters) =>
      (c.attempt b sql entry).calls service s = [.delete table filters] ∧ filters ≠ []
    | .ok (.aggregate plan) =>
      (∃ scan, scanTrimmed sql = .ok scan ∧
        plan.remoteSql = inline b scan (.detect scan.tokens)) ∧
      match service (.rawSql plan.remoteSql) s with
      | (.ok rows, s') =>
        (c.attempt b sql entry).calls service s = [.rawSql plan.remoteSql] ∧
        (c.attempt b sql entry).runOn service s = (.ok (entry.ofRows rows), s')
      | (.error _, s') =>
        (c.attempt b sql entry).calls service s =
          .rawSql plan.remoteSql :: (c.sourceCall? plan).toList ∧
        (c.attempt b sql entry).runOn service s =
          ((c.fallback plan sql b.params).runOn service s').map (Except.map entry.ofRows) id := by
  cases h : parse b sql with
  | error fault => exact attempt_of_parse_error service c entry s h
  | ok statement =>
    rw [attempt_of_parse c entry h]
    cases statement with
    | schema keyword => exact ⟨rfl, rfl⟩
    | select q => exact calls_respond_select service c entry s q
    | insert table values => exact calls_respond_insert service c entry s table values
    | update table values filters =>
      exact ⟨calls_respond_update service c entry s table values filters,
        filters_ne_nil_of_parse h .update⟩
    | delete table filters =>
      exact ⟨calls_respond_delete service c entry s table filters,
        filters_ne_nil_of_parse h .delete⟩
    | aggregate plan =>
      exact ⟨exists_inline_of_parse h, attempt_aggregate service c entry s plan⟩

end Texts

end Connection

end TableSql
