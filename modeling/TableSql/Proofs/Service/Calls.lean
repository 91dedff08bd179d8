import TableSql.Connection

/-!
# Runs and their calls

What runs against a service has a result and leaves the service in a state, and it makes calls on
the way. The service that keeps a list of its calls answers like the service that it watches, so the
list tells which calls are made without changing them. Runs of several parts are taken apart here:
the later part starts where the earlier one has left the service, and its calls come behind.

## Main definitions

* `Service.after` — the state of a service behind a list of calls.
* `Dialogue.calls`, `Attempt.calls` — the calls of a run, in order.
* `Attempt.runOn` — the result of an attempt, and the state behind it.

## Main results

* `LawfulMonad Dialogue` — how the parts of a sequence are put together does not matter.
* `Dialogue.run_recorded` — keeping a list of the calls changes nothing else.
* `Dialogue.snd_run` — the state behind a run is the one behind its calls.
* `Dialogue.calls_bind`, `Attempt.runOn_bind`, `Attempt.calls_bind` — one part after another.
* `Attempt.calls_call`, `Attempt.calls_callOr` — an attempt at one call makes this call.
-/

namespace TableSql

variable {σ α β : Type} (service : Service σ)

/-- The state of a service behind calls that are made one after the other. -/
def Service.after (s : σ) (calls : List Call) : σ :=
  calls.foldl (fun s call => (service call s).2) s

namespace Dialogue

/-- The calls that a dialogue makes to a service, in order. -/
def calls (d : Dialogue α) (s : σ) : List Call :=
  (d.run service.recorded (s, [])).2.2.reverse

/-- Keeping a list of the calls changes neither the result nor the state, and the calls of a run
come in front of those that were there before. -/
theorem run_recorded (d : Dialogue α) (s : σ) (before : List Call) :
    d.run service.recorded (s, before) =
      ((d.run service s).1, (d.run service s).2, (d.calls service s).reverse ++ before) := by
  induction d generalizing s before with
  | done a => rfl
  | ask c next ih =>
    have hstep (before : List Call) : (ask c next).run service.recorded (s, before) =
        (next (service c s).1).run service.recorded ((service c s).2, c :: before) := rfl
    rw [calls, hstep, hstep, ih, ih]
    simp [run]

@[simp]
theorem calls_done (a : α) (s : σ) : (done a).calls service s = [] := rfl

/-- A call comes before those of the continuation for its outcome. -/
theorem calls_ask (c : Call) (next : c.Outcome → Dialogue α) (s : σ) :
    (ask c next).calls service s =
      c :: (next (service c s).1).calls service (service c s).2 := by
  have hstep : (ask c next).run service.recorded (s, []) =
      (next (service c s).1).run service.recorded ((service c s).2, [c]) := rfl
  rw [calls, hstep, run_recorded]
  simp

/-- The calls of a sequence are those of its parts. -/
theorem calls_bind (d : Dialogue α) (f : α → Dialogue β) (s : σ) :
    (d.bind f).calls service s =
      d.calls service s ++ (f (d.run service s).1).calls service (d.run service s).2 := by
  induction d generalizing s with
  | done a => rfl
  | ask c next ih =>
    rw [bind, calls_ask, calls_ask, ih]
    rfl

/-- A run leaves the service as its calls do. -/
theorem snd_run (d : Dialogue α) (s : σ) :
    (d.run service s).2 = service.after s (d.calls service s) := by
  induction d generalizing s with
  | done a => rfl
  | ask c next ih =>
    rw [calls_ask, Service.after, List.foldl_cons]
    exact ih _ _

/-- A sequence of dialogues is one tree, however its parts are put together. -/
instance : LawfulMonad Dialogue :=
  LawfulMonad.mk' Dialogue
    (fun d => by
      induction d with
      | done a => rfl
      | ask c next ih => exact congrArg (ask c) (funext ih))
    (fun _ _ => rfl)
    (fun d f g => by
      induction d with
      | done a => rfl
      | ask c next ih => exact congrArg (ask c) (funext ih))

end Dialogue

namespace Attempt

/-- The result of an attempt at a service, and the state of the service behind it. -/
def runOn (x : Attempt α) (s : σ) : Except Failure α × σ :=
  Dialogue.run service x.run s

/-- The calls that an attempt makes to a service, in order. -/
def calls (x : Attempt α) (s : σ) : List Call :=
  Dialogue.calls service x.run s

/-- An attempt leaves the service as its calls do. -/
theorem snd_runOn (x : Attempt α) (s : σ) :
    (x.runOn service s).2 = service.after s (x.calls service s) :=
  Dialogue.snd_run service x.run s

/-- An attempt that makes no call and succeeds. -/
@[simp]
theorem runOn_pure (a : α) (s : σ) : (pure a : Attempt α).runOn service s = (.ok a, s) := rfl

@[simp]
theorem calls_pure (a : α) (s : σ) : (pure a : Attempt α).calls service s = [] := rfl

/-- The later part of a sequence runs if the earlier one has succeeded. -/
theorem runOn_bind (x : Attempt α) (f : α → Attempt β) (s : σ) :
    (x >>= f).runOn service s =
      match x.runOn service s with
      | (.ok a, s') => (f a).runOn service s'
      | (.error e, s') => (.error e, s') := by
  have hrun : (x >>= f).runOn service s =
      (ExceptT.bindCont f (x.runOn service s).1).run service (x.runOn service s).2 :=
    Dialogue.run_bind service x.run (ExceptT.bindCont f) s
  rw [hrun]
  rcases x.runOn service s with ⟨e | a, s'⟩ <;> rfl

/-- The calls of the later part come behind those of the earlier one. -/
theorem calls_bind (x : Attempt α) (f : α → Attempt β) (s : σ) :
    (x >>= f).calls service s = x.calls service s ++
      match x.runOn service s with
      | (.ok a, s') => (f a).calls service s'
      | (.error _, _) => [] := by
  have hcalls : (x >>= f).calls service s = x.calls service s ++
      (ExceptT.bindCont f (x.runOn service s).1).calls service (x.runOn service s).2 :=
    Dialogue.calls_bind service x.run (ExceptT.bindCont f) s
  rw [hcalls]
  rcases x.runOn service s with ⟨e | a, s'⟩ <;> rfl

/-- What is made of the result of an attempt leaves the state as the attempt has left it. -/
theorem runOn_bind_pure (x : Attempt α) (f : α → β) (s : σ) :
    (x >>= fun a => pure (f a)).runOn service s = (x.runOn service s).map (Except.map f) id := by
  rw [runOn_bind]
  rcases x.runOn service s with ⟨e | a, s'⟩ <;> rfl

theorem snd_runOn_bind_pure (x : Attempt α) (f : α → β) (s : σ) :
    ((x >>= fun a => pure (f a)).runOn service s).2 = (x.runOn service s).2 := by
  rw [runOn_bind_pure]
  rfl

theorem calls_bind_pure (x : Attempt α) (f : α → β) (s : σ) :
    (x >>= fun a => pure (f a)).calls service s = x.calls service s := by
  rw [calls_bind]
  rcases x.runOn service s with ⟨e | a, s'⟩ <;> simp

/-! ### Attempts at one call -/

/-- An attempt at one call fails if the call does. -/
theorem runOn_call (c : Call) (s : σ) :
    (call c).runOn service s = (service c s).map (Except.mapError .service) id := rfl

/-- An attempt at one call makes this call. -/
theorem calls_call (c : Call) (s : σ) : (call c).calls service s = [c] :=
  Dialogue.calls_ask service c _ s

/-- An attempt at a call that may find nothing. -/
theorem runOn_callOr (c : Call) (nothing : α) (found : c.Answer → α) (s : σ) :
    (callOr c nothing found).runOn service s =
      match service c s with
      | (.ok answer, s') => (.ok (found answer), s')
      | (.error .noRowsMatched, s') => (.ok nothing, s')
      | (.error e, s') => (.error (.service e), s') := by
  refine (Dialogue.run_bind service (Dialogue.call c) _ s).trans ?_
  have hcall : (Dialogue.call c).run service s = service c s := rfl
  rw [hcall]
  rcases service c s with ⟨e | answer, s'⟩
  · cases e <;> rfl
  · rfl

/-- The state behind an attempt at one call is the one that the call leaves. -/
theorem snd_runOn_callOr (c : Call) (nothing : α) (found : c.Answer → α) (s : σ) :
    ((callOr c nothing found).runOn service s).2 = (service c s).2 := by
  rw [runOn_callOr]
  rcases service c s with ⟨e | answer, s'⟩
  · cases e <;> rfl
  · rfl

theorem calls_callOr (c : Call) (nothing : α) (found : c.Answer → α) (s : σ) :
    (callOr c nothing found).calls service s = [c] := by
  refine (Dialogue.calls_ask service c _ s).trans (congrArg (c :: ·) ?_)
  rcases (service c s).1 with e | answer
  · cases e <;> rfl
  · rfl

end Attempt

end TableSql
