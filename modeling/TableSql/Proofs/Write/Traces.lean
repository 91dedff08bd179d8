import TableSql.Proofs.Concurrency.Linearization

/-!
# Only writes leave traces

A store answers readings and refuses raw SQL without a change, and a call that it refuses changes
nothing either. A text that inserts, changes or removes rows makes one call, and it fails only if
this call does. So the store behind a run of texts is made by those of them that are writes and
succeed: all others can be left out, wherever they stand.

## Main definitions

* `Call.isWrite`, `Statement.isWrite`, `Submission.isWrite` — what inserts, changes or removes
  rows.
* `Submission.takesEffect` — a text that is a write and succeeds.
* `Store.behind` — the store behind a run of texts.
* `Store.effective` — the texts of a run that take effect.

## Main results

* `Store.snd_service_of_not_isOk` — a call that is refused changes nothing.
* `Connection.calls_attempt_of_not_isWrite`, `Connection.exists_call_of_isWrite` — the calls of
  texts that are no writes, and the call of a write.
* `Submission.store_of_not_takesEffect` — one text.
* `Store.only_writes_leave_traces` — a run of texts.
-/

namespace TableSql

/-! ### Calls of a store -/

/-- The call inserts, changes or removes rows. -/
def Call.isWrite : Call → Bool
  | .insert _ _ => true
  | .update _ _ _ => true
  | .delete _ _ => true
  | .select _ => false
  | .rawSql _ => false

namespace Store

variable {s : Store} {call : Call}

theorem snd_service_of_not_isWrite (h : call.isWrite = false) : (service call s).2 = s := by
  cases call <;> first | rfl | cases h

theorem after_of_not_isWrite {calls : List Call} (h : ∀ call ∈ calls, call.isWrite = false) :
    service.after s calls = s := by
  induction calls with
  | nil => rfl
  | cons call calls ih =>
    obtain ⟨hcall, hcalls⟩ := List.forall_mem_cons.1 h
    rw [Service.after, List.foldl_cons, snd_service_of_not_isWrite hcall]
    exact ih hcalls

/-- What is done to a table is done if the store has it. -/
theorem snd_onTable_of_not_isOk {α : Type} {name : String}
    {act : Table → Except ServiceError α × Table} (hact : ∀ t, (act t).1.isOk = true)
    (h : (s.onTable name act).1.isOk = false) : (s.onTable name act).2 = s := by
  unfold onTable at h ⊢
  cases ht : s.table? name with
  | none => rfl
  | some t =>
    rw [ht] at h
    exact absurd (hact t) (Bool.eq_false_iff.1 h)

/-- A call that the store refuses changes nothing. -/
theorem snd_service_of_not_isOk (h : (service call s).1.isOk = false) :
    (service call s).2 = s := by
  cases call with
  | select q => rfl
  | rawSql sql => rfl
  | insert name row => exact snd_onTable_of_not_isOk (fun t => rfl) h
  | update name filters values => exact snd_onTable_of_not_isOk (fun t => rfl) h
  | delete name filters => exact snd_onTable_of_not_isOk (fun t => rfl) h

end Store

/-! ### Attempts at one call -/

namespace Attempt

variable {σ α β : Type} (service : Service σ) (s : σ)

theorem isOk_runOn_bind_pure (x : Attempt α) (f : α → β) :
    ((x >>= fun a => pure (f a)).runOn service s).1.isOk = (x.runOn service s).1.isOk := by
  rw [runOn_bind_pure]
  rcases x.runOn service s with ⟨e | a, s'⟩ <;> rfl

theorem isOk_runOn_call (c : Call) :
    ((call c).runOn service s).1.isOk = (service c s).1.isOk := by
  rw [runOn_call]
  rcases service c s with ⟨e | answer, s'⟩ <;> rfl

/-- An attempt at a call that may find nothing succeeds if the call does. -/
theorem isOk_runOn_callOr {c : Call} (nothing : α) (found : c.Answer → α)
    (h : (service c s).1.isOk = true) :
    ((callOr c nothing found).runOn service s).1.isOk = true := by
  rw [runOn_callOr]
  rcases hservice : service c s with ⟨e | answer, s'⟩
  · rw [hservice] at h
    cases h
  · rfl

end Attempt

/-! ### Texts -/

/-- The statement inserts, changes or removes rows. -/
def Statement.isWrite {α : Type} : Statement α → Bool
  | .insert _ _ => true
  | .update _ _ _ => true
  | .delete _ _ => true
  | .select _ => false
  | .aggregate _ => false
  | .schema _ => false

namespace Connection

variable {σ : Type} (service : Service σ) (c : Connection) {b : Bindings} {sql : String}
  (entry : Entry) (s : σ)

/-- A text that is refused and the text of a statement that is no write make only calls that are no
writes. -/
theorem calls_attempt_of_not_isWrite
    (h : ∀ statement, parse b sql = .ok statement → statement.isWrite = false) :
    ∀ call ∈ (c.attempt b sql entry).calls service s, call.isWrite = false := by
  have hcalls := @calls_attempt σ service c b sql entry s
  cases hparse : parse b sql with
  | error fault =>
    rw [hparse] at hcalls
    simp [hcalls.1]
  | ok statement =>
    rw [hparse] at hcalls
    have hstatement := h statement hparse
    cases statement with
    | schema keyword => simp [hcalls.1]
    | select q => simp [hcalls, Call.isWrite]
    | aggregate plan =>
      obtain ⟨-, hcalls⟩ := hcalls
      rcases hservice : service (.rawSql plan.remoteSql) s with ⟨e | rows, s'⟩
      · rw [hservice] at hcalls
        rw [hcalls.1, sourceCall?]
        rcases c.recipe? plan with _ | ⟨shape, recipe⟩ <;> simp [Call.isWrite]
      · rw [hservice] at hcalls
        simp [hcalls.1, Call.isWrite]
    | _ => cases hstatement

/-- A write makes one call, and it succeeds if this call does. -/
theorem exists_call_of_isWrite {statement : Statement Value} (hparse : parse b sql = .ok statement)
    (h : statement.isWrite = true) :
    ∃ call, (c.attempt b sql entry).calls service s = [call] ∧ ((service call s).1.isOk = true →
      ((c.attempt b sql entry).runOn service s).1.isOk = true) := by
  rw [attempt_of_parse c entry hparse]
  cases statement with
  | insert table values =>
    refine ⟨_, calls_respond_insert service c entry s table values, fun hok => ?_⟩
    refine (Attempt.isOk_runOn_bind_pure service s (c.insert table values) _).trans ?_
    refine (Attempt.isOk_runOn_bind_pure service s (Attempt.call (.insert table values)) _).trans ?_
    exact (Attempt.isOk_runOn_call service s _).trans hok
  | update table values filters =>
    refine ⟨_, calls_respond_update service c entry s table values filters, fun hok => ?_⟩
    refine (Attempt.isOk_runOn_bind_pure service s (update table values filters) _).trans ?_
    exact Attempt.isOk_runOn_callOr service s _ _ hok
  | delete table filters =>
    refine ⟨_, calls_respond_delete service c entry s table filters, fun hok => ?_⟩
    refine (Attempt.isOk_runOn_bind_pure service s (delete table filters) _).trans ?_
    exact Attempt.isOk_runOn_callOr service s _ _ hok
  | _ => cases h

end Connection

namespace Submission

/-- What the text gives at a store, and the store behind it. -/
def outcome (v : Submission) (s : Store) : Except Failure v.entry.Result × Store :=
  (v.connection.attempt v.bindings v.sql v.entry).runOn Store.service s

/-- The text is that of a write. -/
def isWrite (v : Submission) : Bool :=
  match parse v.bindings v.sql with
  | .ok statement => statement.isWrite
  | .error _ => false

/-- The text is that of a write, and it succeeds at the store. -/
def takesEffect (v : Submission) (s : Store) : Bool :=
  v.isWrite && (v.outcome s).1.isOk

/-- A text that does not take effect leaves the store as it was. -/
theorem store_of_not_takesEffect {v : Submission} {s : Store} (h : v.takesEffect s = false) :
    (v.outcome s).2 = s := by
  rw [outcome, Attempt.snd_runOn]
  cases hwrite : v.isWrite with
  | false =>
    refine Store.after_of_not_isWrite
      (Connection.calls_attempt_of_not_isWrite _ _ _ _ fun statement hparse => ?_)
    simpa only [isWrite, hparse] using hwrite
  | true =>
    have hfailed : (v.outcome s).1.isOk = false := by simpa [takesEffect, hwrite] using h
    unfold isWrite at hwrite
    split at hwrite
    · rename_i statement hparse
      obtain ⟨call, hcalls, hok⟩ :=
        Connection.exists_call_of_isWrite Store.service v.connection v.entry s hparse hwrite
      rw [hcalls]
      refine Store.snd_service_of_not_isOk (Bool.eq_false_iff.2 fun hcall => ?_)
      exact Bool.eq_false_iff.1 hfailed (hok hcall)
    · cases hwrite

end Submission

/-! ### Runs of texts -/

namespace Store

/-- The store behind texts that are carried out one after the other. -/
def behind (s : Store) (vs : List Submission) : Store :=
  vs.foldl (fun s v => (v.outcome s).2) s

/-- Those of the texts that take effect, each at the store that it finds. -/
def effective (s : Store) : List Submission → List Submission
  | [] => []
  | v :: vs =>
    if v.takesEffect s then v :: effective (v.outcome s).2 vs else effective (v.outcome s).2 vs

theorem behind_cons (s : Store) (v : Submission) (vs : List Submission) :
    s.behind (v :: vs) = (v.outcome s).2.behind vs := rfl

/-- The texts that take effect make the store behind a run. -/
theorem behind_effective (s : Store) (vs : List Submission) :
    s.behind (s.effective vs) = s.behind vs := by
  induction vs generalizing s with
  | nil => rfl
  | cons v vs ih =>
    rw [effective]
    split
    · rw [behind_cons, behind_cons, ih]
    · rename_i h
      rw [behind_cons, Submission.store_of_not_takesEffect (Bool.eq_false_iff.2 h), ih]

/-- The store behind a run of texts is the one behind those of them that are writes and succeed, in
their order, and every other text leaves the store that it finds exactly as it was. -/
theorem only_writes_leave_traces (s : Store) (vs : List Submission) :
    s.behind (s.effective vs) = s.behind vs ∧
      ∀ before v after, vs = before ++ v :: after → v.takesEffect (s.behind before) = false →
        s.behind (before ++ [v]) = s.behind before := by
  refine ⟨s.behind_effective vs, fun before v after _ h => ?_⟩
  have hstep : s.behind (before ++ [v]) = (v.outcome (s.behind before)).2 := by
    rw [behind, List.foldl_append]
    rfl
  rw [hstep, Submission.store_of_not_takesEffect h]

/-- Of these texts the second one fails and the last one is refused. -/
example :
    let texts := ["SELECT * FROM t", "INSERT INTO u (a) VALUES (1)", "INSERT INTO t (a) VALUES (1)",
      "SELECT COUNT(*) FROM t", "DELETE FROM t"]
    let vs : List Submission := texts.map fun sql => ⟨.standard, ⟨[], ""⟩, sql, .run⟩
    (((empty "id").withTable "t" []).effective vs).map Submission.sql =
      ["INSERT INTO t (a) VALUES (1)"] := by decide +kernel

end Store

end TableSql
