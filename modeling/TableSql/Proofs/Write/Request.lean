import TableSql.Proofs.Connection.Calls
import TableSql.Rest

/-!
# What a write asks of a server

Over HTTP a write is one request, whose query string has a pair for every filter: the column is the
key. A query string has other pairs too, for the columns, the order, the limit and the offset of a
reading, and their keys are taken from the same names. So a filter is one for the server unless its
column has the name of such a key.

## Main definitions

* `Http.Network.recorded`, `Rest.requests` — the requests of an attempt.
* `controlKeys` — the keys of the pairs that are no filters.

## Main results

* `Rest.requests_eq_filterMap` — the requests are those of the calls.
* `Connection.write_request_filtered_iff` — when the request of a write has a filter for the server.
* `Connection.delete_request_unfiltered` — a removal whose request has none.
-/

namespace TableSql

/-! ### Requests of an attempt -/

/-- The network with a list of the requests it was given, the last request first. -/
def Http.Network.recorded {σ : Type} (network : Http.Network σ) :
    Http.Network (σ × List Http.Request) :=
  fun request (s, sent) =>
    let (response, s) := network request s
    (response, s, request :: sent)

namespace Rest

variable {σ α : Type} (r : Rest) (network : Http.Network σ)

/-- The requests that an attempt makes over a network, in order. -/
def requests (x : Attempt α) (s : σ) : List Http.Request :=
  (x.runOn (r.service network.recorded) (s, [])).2.2.reverse

/-- A call makes its request if it has one. -/
theorem service_recorded (call : Call) (s : σ) (sent : List Http.Request) :
    r.service network.recorded call (s, sent) =
      ((r.service network call s).1, (r.service network call s).2,
        (r.request? call).toList ++ sent) := by
  unfold service
  cases r.request? call <;> rfl

/-- The requests of a run are those of its calls, and they come behind the ones before. -/
theorem run_recorded_network (d : Dialogue α) (s : σ) (sent : List Http.Request) :
    d.run (r.service network.recorded) (s, sent) =
      ((d.run (r.service network) s).1, (d.run (r.service network) s).2,
        ((d.calls (r.service network) s).filterMap r.request?).reverse ++ sent) := by
  induction d generalizing s sent with
  | done a => rfl
  | ask call next ih =>
    simp only [Dialogue.run, service_recorded, ih, Dialogue.calls_ask]
    cases hrequest : r.request? call <;> simp [hrequest]

/-- The requests of an attempt are those of its calls. -/
theorem requests_eq_filterMap (x : Attempt α) (s : σ) :
    r.requests network x s = (x.calls (r.service network) s).filterMap r.request? := by
  have hrun : (x.runOn (r.service network.recorded) (s, [])).2.2 =
      ((x.calls (r.service network) s).filterMap r.request?).reverse ++ [] :=
    congrArg (fun behind => behind.2.2) (r.run_recorded_network network x.run s [])
  rw [requests, hrun, List.append_nil, List.reverse_reverse]

end Rest

/-! ### Keys of a query string -/

/-- The keys of the pairs of a query string that are no filters. -/
def controlKeys : List String :=
  ["select", "order", "limit", "offset"]

/-- The keys of the pairs of filters are their columns. -/
theorem exists_filterPairs_iff {keys : List String} {filters : List (Filter Value)} :
    (∃ p ∈ filterPairs filters, p.1 ∉ keys) ↔
      ∃ column ∈ filters.map Filter.column, column ∉ keys := by
  simp [filterPairs]

/-! ### Requests of writes -/

/-- The call of a write is a request whose pairs are those of the filters. -/
theorem Rest.exists_request_of_writes {call : Call} {table : String}
    {filters : List (Filter Value)} (h : call.Writes table filters) (r : Rest) :
    ∃ request, r.request? call = some request ∧
      (request.method = .patch ∨ request.method = .delete) ∧
      request.url = r.tableUrl table ∧ request.query = filterPairs filters := by
  cases h with
  | update => exact ⟨_, rfl, .inl rfl, rfl, rfl⟩
  | delete => exact ⟨_, rfl, .inr rfl, rfl, rfl⟩

namespace Connection

/-- Every accepted write makes one request, and it has a filter for the server exactly if one of the
conjuncts compares a column that is not named like a key of another meaning. -/
theorem write_request_filtered_iff {b : Bindings} {sql : String} {statement : Statement Value}
    {table : String} {filters : List (Filter Value)} (h : parse b sql = .ok statement)
    (hw : statement.Writes table filters) :
    ∃ scan spans, scanTrimmed sql = .ok scan ∧ HasConjuncts scan.byNumber.tokens spans ∧
      ∀ (c : Connection) (entry : Entry) (r : Rest) {σ : Type} (network : Http.Network σ) (s : σ),
        ∃ request, r.requests network (c.attempt b sql entry) s = [request] ∧
          (request.method = .patch ∨ request.method = .delete) ∧
          request.url = r.tableUrl table ∧ request.query = filterPairs filters ∧
          ((∃ p ∈ request.query, p.1 ∉ controlKeys) ↔
            ∃ span ∈ spans, ∃ f, Compares span f ∧ f.column ∉ controlKeys) := by
  obtain ⟨scan, spans, fs, hscan, hspans, hkeeps, -, hcolumns, -⟩ := exists_conjuncts_of_parse h hw
  refine ⟨scan, spans, hscan, hspans, fun c entry r σ network s => ?_⟩
  obtain ⟨call, hcall, hcalls, -⟩ := exists_call_of_writes (r.service network) c entry s b sql hw
  obtain ⟨request, hrequest, hmethod, hurl, hquery⟩ := Rest.exists_request_of_writes hcall r
  refine ⟨request, ?_, hmethod, hurl, hquery, ?_⟩
  · rw [attempt_of_parse c entry h, Rest.requests_eq_filterMap, hcalls]
    simp [hrequest]
  · rw [hquery, exists_filterPairs_iff, hcolumns]
    simpa using hkeeps.exists_column_iff (p := fun column => column ∉ controlKeys)

/-- A removal by its key is filtered for the server. -/
theorem write_request_filtered_key :
    let b : Bindings := ⟨[.int 5], ""⟩
    let sql := "DELETE FROM t WHERE id = ? AND \"limit\" = 1"
    let r : Rest := ⟨"http://localhost", [], none, "query"⟩
    (∃ table filters, parse b sql = .ok (.delete table filters)) ∧
    ∃ request, r.requests .unreachable (standard.attempt b sql .run) () = [request] ∧
      ∃ p ∈ request.query, p.1 ∉ controlKeys := by
  intro b sql r
  have hparse : ∃ statement ∈ (parse b sql).toOption, statement.kind = .delete ∧
      statement.filters.map Filter.column = ["id", "limit"] := by decide +kernel
  obtain ⟨statement, hstatement, hkind, hcolumns⟩ := hparse
  cases statement <;> cases hkind
  case delete table filters =>
    have h := eq_ok_of_mem_toOption hstatement
    obtain ⟨_, _, -, -, hrequests⟩ := write_request_filtered_iff h .delete
    obtain ⟨request, hrequest, -, -, hquery, -⟩ := hrequests standard .run r .unreachable ()
    refine ⟨⟨table, filters, h⟩, request, hrequest, ?_⟩
    have hkeys : filters.map Filter.column = ["id", "limit"] := hcolumns
    rw [hquery, exists_filterPairs_iff, hkeys]
    exact ⟨"id", by simp, by decide⟩

/-- A removal is accepted whose only filter is a limit for the server. -/
theorem delete_request_unfiltered :
    let b : Bindings := ⟨[], ""⟩
    let sql := "DELETE FROM t WHERE \"limit\" = 5"
    let r : Rest := ⟨"http://localhost", [], none, "query"⟩
    (∃ statement ∈ (parse b sql).toOption, statement.kind = .delete) ∧
    (r.requests .unreachable (standard.attempt b sql .run) ()).map (fun q => (q.method, q.query)) =
      [(.delete, [("limit", "eq.5")])] ∧
    "limit" ∈ controlKeys := by
  decide +kernel

end Connection

end TableSql
