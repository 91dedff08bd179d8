import TableSql.Proofs.Concurrency.Interleaving
import TableSql.Proofs.Connection.Calls
import TableSql.Store

/-!
# Statements of several clients over one store

A statement makes one call to a store that depends on its rows or changes them, and this is its last
one. The only call in front of another one is that of an aggregate for its text, which a store
refuses whatever its rows are. So statements of clients that share a store, with their calls
interleaved in any way, have the results and the effects of an order in which every statement runs
as a whole.

## Main definitions

* `Attempt.Atomic` — an attempt whose dialogue is atomic.
* `Submission`, `Submission.dialogue` — a statement as a client gives it to a connection.

## Main results

* `Connection.atomic_attempt` — every text is carried out by an atomic dialogue over a store.
* `Store.exists_linearization` — every interleaving of statements has an order that stands for it.
-/

namespace TableSql

/-! ### Atomic attempts -/

namespace Attempt

variable {σ α β : Type} {service : Service σ} {x : Attempt α}

/-- At most the last call of the attempt depends on the state of the service or changes it. -/
def Atomic (service : Service σ) (x : Attempt α) : Prop :=
  Dialogue.Atomic service x.run

theorem atomic_pure (a : α) : (pure a : Attempt α).Atomic service :=
  Dialogue.Atomic.done (Except.ok a)

theorem atomic_throw (e : Failure) : (throw e : Attempt α).Atomic service :=
  Dialogue.Atomic.done (Except.error e)

theorem Atomic.bind_pure (h : x.Atomic service) (f : α → β) :
    (x >>= fun a => pure (f a)).Atomic service := by
  refine Dialogue.Atomic.bind h fun result => ?_
  cases result with
  | error e => exact ⟨.error e, rfl⟩
  | ok a => exact ⟨.ok (f a), rfl⟩

theorem atomic_call (c : Call) : (call c).Atomic service :=
  .last fun outcome => ⟨outcome.mapError .service, rfl⟩

theorem atomic_callOr (c : Call) (nothing : α) (found : c.Answer → α) :
    (callOr c nothing found).Atomic service := by
  refine .last fun outcome => ?_
  cases outcome with
  | ok answer => exact ⟨.ok (found answer), rfl⟩
  | error e => cases e <;> exact ⟨_, rfl⟩

end Attempt

/-! ### Statements -/

namespace Connection

variable (c : Connection)

theorem atomic_query {σ : Type} {service : Service σ} (q : Select Value)
    (cardinality : Cardinality) : (query q cardinality).Atomic service := by
  cases cardinality with
  | one => exact Attempt.atomic_callOr _ _ _
  | many => exact (Attempt.atomic_call _).bind_pure _

theorem atomic_fallback {σ : Type} {service : Service σ} (plan : AggregatePlan Value)
    (sql : String) (params : List Value) : (c.fallback plan sql params).Atomic service := by
  unfold fallback
  cases c.recipe? plan with
  | none => exact Attempt.atomic_throw _
  | some found => exact (atomic_query _ .many).bind_pure _

/-- A store refuses the text of an aggregate and stays as it is, so only the reading behind it
depends on the rows. -/
theorem atomic_aggregate (plan : AggregatePlan Value) (sql : String) (params : List Value) :
    (c.aggregate plan sql params).Atomic Store.service := by
  have hfallback : (c.fallback plan sql params).Atomic Store.service :=
    c.atomic_fallback plan sql params
  refine Dialogue.Atomic.inert (fun s => rfl) ?_
  convert hfallback using 1
  unfold fallback
  cases c.recipe? plan <;> rfl

/-- Every statement is carried out by an atomic dialogue over a store. -/
theorem atomic_respond (b : Bindings) (sql : String) (entry : Entry)
    (statement : Statement Value) : (c.respond b sql entry statement).Atomic Store.service := by
  cases statement with
  | select q => exact (atomic_query q entry.cardinality).bind_pure _
  | aggregate plan => exact (c.atomic_aggregate plan sql b.params).bind_pure _
  | schema keyword => exact (Attempt.atomic_pure _).bind_pure _
  | insert table values => exact ((Attempt.atomic_call _).bind_pure _).bind_pure _
  | update table values filters => exact (Attempt.atomic_callOr _ _ _).bind_pure _
  | delete table filters => exact (Attempt.atomic_callOr _ _ _).bind_pure _

/-- Every text is carried out by an atomic dialogue over a store. -/
theorem atomic_attempt (b : Bindings) (sql : String) (entry : Entry) :
    (c.attempt b sql entry).Atomic Store.service := by
  cases h : parse b sql with
  | error fault =>
    have hprepare : prepare b sql = throw (.unsupported sql b.params fault) := by
      rw [prepare, h]
      rfl
    rw [attempt_eq_bind, hprepare]
    exact Attempt.atomic_throw _
  | ok statement =>
    rw [attempt_of_parse c entry h]
    exact c.atomic_respond b sql entry statement

end Connection

/-! ### Clients of a store -/

/-- A text with its parameters, as a client gives it to an entry of a connection. -/
structure Submission where
  connection : Connection
  bindings : Bindings
  sql : String
  entry : Entry

namespace Submission

/-- The dialogue that carries out the text. Its result says at which entry it was given. -/
def dialogue (v : Submission) : Dialogue ((entry : Entry) × Except Failure entry.Result) :=
  (v.connection.attempt v.bindings v.sql v.entry).run.bind fun result => .done ⟨v.entry, result⟩

theorem atomic_dialogue (v : Submission) : v.dialogue.Atomic Store.service :=
  (v.connection.atomic_attempt v.bindings v.sql v.entry).bind fun _ => ⟨_, rfl⟩

end Submission

namespace Store

/-- However the calls of any number of clients over one store are interleaved, there is an order of
the statements as wholes that stands for it: every statement is carried out exactly once, every
client gets the same results, and the store is the same in the end. -/
theorem exists_linearization {ι : Type} [DecidableEq ι] (submissions : ι → List Submission)
    (s : Store) (schedule : List ι)
    (hfinished : ((System.start s fun i => (submissions i).map Submission.dialogue).interleaved
      service schedule).Finished) :
    ∃ order, (System.start s fun i => (submissions i).map Submission.dialogue).Linearizes
      service schedule order := by
  refine ⟨_, System.linearizes_order s (fun i d hd => ?_) hfinished⟩
  obtain ⟨v, -, rfl⟩ := List.mem_map.1 hd
  exact v.atomic_dialogue

/-- One client counts the rows while another one inserts a row. The row comes in between the refusal
of the text and the reading of the rows. -/
theorem exists_linearization_count :
    let counting : Submission := ⟨.standard, ⟨[], ""⟩, "SELECT COUNT(*) FROM t", .all⟩
    let inserting : Submission := ⟨.standard, ⟨[], ""⟩, "INSERT INTO t (a) VALUES (1)", .run⟩
    let sys : System Bool Store ((entry : Entry) × Except Failure entry.Result) :=
      System.start ((empty "id").withTable "t" []) fun i =>
        ([bif i then counting else inserting]).map Submission.dialogue
    let schedule := [true, false, true, false, true, false, true]
    (sys.interleaved service schedule).Finished ∧
      ∃ order, sys.Linearizes service schedule order := by
  intro counting inserting sys schedule
  have hfinished : (sys.interleaved service schedule).Finished := by
    unfold System.Finished
    decide +kernel
  exact ⟨hfinished, exists_linearization _ _ schedule hfinished⟩

end Store

end TableSql
