import TableSql.Proofs.Connection.Calls
import TableSql.Service.Scripted

/-!
# When no row matched

A service may answer any call by saying that no row matched. For a reading of one row, a change and
a removal this is an outcome like any other: there is no row, or nothing was changed. A reading of
all rows and an insertion pass it on like every other error, so these are the calls by which a
caller can get to see it. An aggregate whose text is refused in this way goes on as after any
refusal.

## Main definitions

* `Call.mayFindNothing`, `Call.passesOn` — the calls that may find no row, and those that must not.
* `Attempt.EndsInNothing` — the last call of a run was answered with no row.
* `Entry.nothing` — what an entry gives where there is no row.

## Main results

* `Connection.noRowsMatched_delivered_iff` — when a caller gets to see that no row matched.
* `Connection.noRowsMatched_reaches_callers` — an insertion and a reading that pass it on.
-/

namespace TableSql

/-- The call reads one row, or changes or removes rows, and may find none. -/
def Call.mayFindNothing : Call → Bool
  | .select q => q.single
  | .update _ _ _ => true
  | .delete _ _ => true
  | .insert _ _ => false
  | .rawSql _ => false

/-- The call reads all rows or inserts one. Its errors are those of the statement, all of them. -/
def Call.passesOn : Call → Bool
  | .select q => !q.single
  | .insert _ _ => true
  | .update _ _ _ => false
  | .delete _ _ => false
  | .rawSql _ => false

/-- What an entry gives where there is no row: none, an empty list, or the report of no change. -/
def Entry.nothing : (entry : Entry) → entry.Result
  | get => none
  | all => []
  | run => .unchanged

theorem Entry.ofRows_nil (entry : Entry) : entry.ofRows [] = entry.nothing := by
  cases entry <;> rfl

theorem Entry.ofReport_unchanged (entry : Entry) : entry.ofReport .unchanged = entry.nothing := by
  cases entry <;> rfl

namespace Attempt

section

variable {σ α : Type} (service : Service σ) (x : Attempt α) (s : σ)

/-- The last call of an attempt is the given one, and the service answers that no row matched. -/
def EndsInNothing (call : Call) : Prop :=
  ∃ before, x.calls service s = before ++ [call] ∧
    (service call (service.after s before)).1 = .error .noRowsMatched

/-- The attempt fails because no row matched exactly if its last call passes this on, and if that
call may find nothing the attempt has the result for it. -/
structure Normalises (nothing : α) : Prop where
  delivers_iff : (x.runOn service s).1 = .error (.service .noRowsMatched) ↔
    ∃ call, x.EndsInNothing service s call ∧ call.passesOn = true
  eq_nothing : ∀ call, x.EndsInNothing service s call → call.mayFindNothing = true →
    (x.runOn service s).1 = .ok nothing

variable {service x s} {nothing : α} {before : List Call} {call call' : Call}

theorem endsInNothing_iff (h : x.calls service s = before ++ [call]) :
    x.EndsInNothing service s call' ↔
      call' = call ∧ (service call (service.after s before)).1 = .error .noRowsMatched := by
  constructor
  · rintro ⟨before', hcalls, hanswer⟩
    rw [h] at hcalls
    obtain ⟨rfl, hlast⟩ := List.append_inj' hcalls rfl
    obtain rfl : call = call' := List.singleton_inj.1 hlast
    exact ⟨rfl, hanswer⟩
  · rintro ⟨rfl, hanswer⟩
    exact ⟨before, h, hanswer⟩

/-- It is enough to look at the last call. -/
theorem normalises_of_last (h : x.calls service s = before ++ [call])
    (hpass : (x.runOn service s).1 = .error (.service .noRowsMatched) ↔ call.passesOn = true ∧
      (service call (service.after s before)).1 = .error .noRowsMatched)
    (hnothing : call.mayFindNothing = true →
      (service call (service.after s before)).1 = .error .noRowsMatched →
        (x.runOn service s).1 = .ok nothing) : x.Normalises service s nothing where
  delivers_iff := by
    simp only [endsInNothing_iff h, hpass, and_assoc, exists_eq_left]
    exact and_comm
  eq_nothing call' hlast hmay := by
    obtain ⟨rfl, hanswer⟩ := (endsInNothing_iff h).1 hlast
    exact hnothing hmay hanswer

/-- An attempt without calls fails for other reasons, if at all. -/
theorem normalises_of_calls_nil (h : x.calls service s = [])
    (hne : (x.runOn service s).1 ≠ .error (.service .noRowsMatched)) :
    x.Normalises service s nothing := by
  have hlast (call : Call) : ¬x.EndsInNothing service s call := by
    rintro ⟨before, hcalls, -⟩
    rw [h] at hcalls
    exact List.append_ne_nil_of_right_ne_nil before (List.cons_ne_nil call []) hcalls.symm
  refine ⟨iff_of_false hne ?_, fun call h => absurd h (hlast call)⟩
  rintro ⟨call, h, -⟩
  exact hlast call h

end

section OneCall

variable {σ α β : Type} (service : Service σ) (s : σ) {nothing : β}

/-- A call that passes its errors on, with what is made of its answer. -/
theorem normalises_call (call : Call) (hpass : call.passesOn = true) (f : call.Answer → β) :
    (Attempt.call call >>= fun a => pure (f a)).Normalises service s nothing := by
  have hcalls : (Attempt.call call >>= fun a => pure (f a)).calls service s = [] ++ [call] :=
    (calls_bind_pure service _ f s).trans (calls_call service call s)
  refine normalises_of_last hcalls ?_ fun hmay => ?_
  · rw [runOn_bind_pure, runOn_call]
    simp only [hpass, true_and]
    show _ ↔ (service call s).1 = _
    rcases service call s with ⟨e | a, s'⟩
    · simp [Except.mapError, Except.map]
    · simp [Except.mapError, Except.map]
  · cases call <;> simp_all [Call.mayFindNothing, Call.passesOn]

/-- A call that may find nothing, with what is made of its result. -/
theorem normalises_callOr (call : Call) (hmay : call.mayFindNothing = true) (missing : α)
    (found : call.Answer → α) (f : α → β) :
    (callOr call missing found >>= fun a => pure (f a)).Normalises service s (f missing) := by
  have hcalls :
      (callOr call missing found >>= fun a => pure (f a)).calls service s = [] ++ [call] :=
    (calls_bind_pure service _ f s).trans (calls_callOr service call missing found s)
  have hpass : call.passesOn = false := by
    cases call <;> simp_all [Call.mayFindNothing, Call.passesOn]
  refine normalises_of_last hcalls ?_ fun _ hanswer => ?_
  · rw [runOn_bind_pure, runOn_callOr]
    simp only [hpass, Bool.false_eq_true, false_and, iff_false]
    rcases service call s with ⟨e | a, s'⟩
    · cases e <;> simp [Except.map]
    · simp [Except.map]
  · have hservice : service call s = (.error .noRowsMatched, (service call s).2) :=
      Prod.ext hanswer rfl
    rw [runOn_bind_pure, runOn_callOr, hservice]
    rfl

end OneCall

end Attempt

namespace Connection

variable {σ : Type} (service : Service σ) (c : Connection) (b : Bindings) (sql : String)
  (entry : Entry) (s : σ)

/-- An aggregate is given to the service as text first. A refusal of the text is never passed on,
and a reading of the rows behind the aggregate is like any other. -/
theorem normalises_aggregate (plan : AggregatePlan Value) :
    (c.respond b sql entry (.aggregate plan)).Normalises service s entry.nothing := by
  have hattempt := @attempt_aggregate σ service c b sql entry s plan
  obtain ⟨answer, s', hservice⟩ : ∃ answer s', service (.rawSql plan.remoteSql) s = (answer, s') :=
    ⟨_, _, rfl⟩
  rw [hservice] at hattempt
  cases answer with
  | ok rows =>
    obtain ⟨hcalls, hrun⟩ := hattempt
    have hcalls : _ = [] ++ [Call.rawSql plan.remoteSql] := hcalls
    refine Attempt.normalises_of_last hcalls ?_ fun hmay => by cases hmay
    simp [hrun, Call.passesOn]
  | error e =>
    obtain ⟨hcalls, hrun⟩ := hattempt
    cases hrecipe : c.recipe? plan with
    | none =>
      rw [sourceCall?, hrecipe] at hcalls
      have hthrow : (throw (.unsupportedAggregate sql b.params) : Attempt (List Row)).runOn service
          s' = (.error (.unsupportedAggregate sql b.params), s') := rfl
      have hcalls : _ = [] ++ [Call.rawSql plan.remoteSql] := hcalls
      refine Attempt.normalises_of_last hcalls ?_ fun hmay => by cases hmay
      simp [hrun, fallback, hrecipe, Call.passesOn, hthrow, Except.map]
    | some r =>
      obtain ⟨shape, recipe⟩ := r
      rw [sourceCall?, hrecipe] at hcalls
      have hcalls : _ = [Call.rawSql plan.remoteSql] ++ [_] := hcalls
      refine Attempt.normalises_of_last hcalls ?_ fun hmay => by cases hmay
      have hafter : service.after s [.rawSql plan.remoteSql] = s' := by
        rw [Service.after, List.foldl_cons, hservice]
        rfl
      rw [hafter]
      simp only [hrun, fallback, hrecipe, runOn_recompute, Call.passesOn, Bool.not_false, true_and]
      rcases service (.select ⟨sourceOf shape recipe, false⟩) s' with ⟨e | rows, s''⟩ <;>
        simp [Except.map]

/-- A statement delivers that no row matched only if its last call passes this on. -/
theorem normalises_respond (statement : Statement Value) :
    (c.respond b sql entry statement).Normalises service s entry.nothing := by
  cases statement with
  | select q =>
    rw [← entry.ofRows_nil]
    cases entry with
    | get =>
      exact Attempt.normalises_callOr service s (.select (.first q)) rfl (Fetched.one none)
        (fun rows => .one (List.head? rows)) fun fetched => fetched.rows.head?
    | _ =>
      have hpass : (Call.select (.ofSelect q)).passesOn = true := by
        rw [TableQuery.ofSelect_eq]
        rfl
      refine (congrArg (Attempt.Normalises service · s _) (bind_assoc _ _ _)).mpr ?_
      exact Attempt.normalises_call service s (.select (.ofSelect q)) hpass (Entry.ofRows _)
  | insert table values =>
    refine (congrArg (Attempt.Normalises service · s _) (bind_assoc _ _ _)).mpr ?_
    exact Attempt.normalises_call service s (.insert table values) rfl
      fun row => entry.ofReport ⟨c.keyOf row, 1⟩
  | update table values filters =>
    rw [← entry.ofReport_unchanged]
    exact Attempt.normalises_callOr service s (.update table filters values) rfl _ _ entry.ofReport
  | delete table filters =>
    rw [← entry.ofReport_unchanged]
    exact Attempt.normalises_callOr service s (.delete table filters) rfl _ _ entry.ofReport
  | aggregate plan => exact normalises_aggregate service c b sql entry s plan
  | schema keyword =>
    refine Attempt.normalises_of_calls_nil rfl ?_
    simp [respond, execute]

/-- A caller gets to see that no row matched exactly if the last call that was made says so and
passes its errors on: a reading of all rows, or an insertion. If the last call may find nothing, and
it does, there is no row, an empty list, or the report of no change. -/
theorem noRowsMatched_delivered_iff :
    let x : Attempt entry.Result := c.attempt b sql entry
    ((x.runOn service s).1 = .error (.service .noRowsMatched) ↔
      ∃ call, x.EndsInNothing service s call ∧ call.passesOn = true) ∧
    ∀ call, x.EndsInNothing service s call → call.mayFindNothing = true →
      (x.runOn service s).1 = .ok entry.nothing := by
  intro x
  have hx : x.Normalises service s entry.nothing := by
    cases h : parse b sql with
    | error fault =>
      obtain ⟨hcalls, hrun⟩ := attempt_of_parse_error service c entry s h
      refine Attempt.normalises_of_calls_nil hcalls ?_
      simp [x, hrun]
    | ok statement =>
      have hrespond : x = c.respond b sql entry statement := attempt_of_parse c entry h
      rw [hrespond]
      exact normalises_respond service c b sql entry s statement
  exact ⟨hx.delivers_iff, hx.eq_nothing⟩

/-- A removal that finds nothing reports no change. -/
theorem noRowsMatched_delivered_iff_removal :
    let x := standard.attempt ⟨[], ""⟩ "DELETE FROM t WHERE a = 1" .run
    (∃ call, x.EndsInNothing Service.scripted [.failure .noRowsMatched] call ∧
      call.mayFindNothing = true) ∧
    (x.runOn Service.scripted [.failure .noRowsMatched]).1 = .ok .unchanged := by
  intro x
  have hparse : ∃ statement ∈ (parse ⟨[], ""⟩ "DELETE FROM t WHERE a = 1").toOption,
      statement.kind = .delete := by decide +kernel
  obtain ⟨statement, hstatement, hkind⟩ := hparse
  cases statement <;> cases hkind
  case delete table filters =>
    have hrespond := attempt_of_parse standard .run (eq_ok_of_mem_toOption hstatement)
    have hcalls : x.calls Service.scripted [.failure .noRowsMatched] = [.delete table filters] := by
      rw [show x = _ from hrespond]
      exact calls_respond_delete Service.scripted standard .run _ table filters
    have hlast : x.EndsInNothing Service.scripted [.failure .noRowsMatched] _ :=
      ⟨[], hcalls, rfl⟩
    exact ⟨⟨_, hlast, rfl⟩, (noRowsMatched_delivered_iff Service.scripted standard _ _ .run _).2
      _ hlast rfl⟩

/-- An insertion and a reading of all rows pass it on. -/
theorem noRowsMatched_reaches_callers :
    let service := Service.scripted
    let refusal : List Reply := [.failure .noRowsMatched]
    let insertion := standard.attempt ⟨[], ""⟩ "INSERT INTO t (a) VALUES (1)" .run
    let reading := standard.attempt ⟨[], ""⟩ "SELECT * FROM t" .all
    (insertion.runOn service refusal).1 = .error (.service .noRowsMatched) ∧
      (reading.runOn service refusal).1 = .error (.service .noRowsMatched) := by
  intro service refusal insertion reading
  have hinsertion : ∃ statement ∈ (parse ⟨[], ""⟩ "INSERT INTO t (a) VALUES (1)").toOption,
      statement.kind = .insert := by decide +kernel
  have hreading : ∃ statement ∈ (parse ⟨[], ""⟩ "SELECT * FROM t").toOption,
      statement.kind = .select := by decide +kernel
  constructor
  · obtain ⟨statement, hstatement, hkind⟩ := hinsertion
    cases statement <;> cases hkind
    rw [show insertion = _ from attempt_of_parse standard .run (eq_ok_of_mem_toOption hstatement)]
    rfl
  · obtain ⟨statement, hstatement, hkind⟩ := hreading
    cases statement <;> cases hkind
    rw [show reading = _ from attempt_of_parse standard .all (eq_ok_of_mem_toOption hstatement)]
    rfl

end Connection

end TableSql
