import Mathlib.Logic.Function.Basic
import TableSql.Service

/-!
# Clients that share a service

Every client has dialogues to carry out, one after the other. While it is in the middle of one,
other clients make their calls, so between two calls of a dialogue the state may change. If at most
the last call of every dialogue depends on the state or changes it, this makes no difference: the
results and the states are those of an order in which every dialogue runs as a whole. In this order
each dialogue stands where its last call was made, so it keeps to the order in time of dialogues of
which one has ended before the other begins.

## Main definitions

* `Dialogue.Atomic` — at most the last call depends on the state or changes it.
* `Client`, `Client.step`, `Client.turn` — a client, which goes on by one step or by one dialogue.
* `System`, `System.interleaved`, `System.sequential` — several clients over one state.
* `System.order` — the dialogues of a run, in the order of their last calls.
* `System.Linearizes` — an order of whole dialogues that stands for an interleaving of their calls.
* `Client.Follows`, `System.Follows` — an interleaved run keeps up with a sequential one.

## Main results

* `Dialogue.Atomic.bind` — what is made of the result keeps a dialogue atomic.
* `Client.Follows.step` — one step of a client.
* `System.Follows.run` — a whole run.
* `System.linearizes_order` — every interleaving of atomic dialogues has an order that stands for
  it.
-/

namespace TableSql

variable {ι σ α β : Type}

/-! ### Atomic dialogues -/

namespace Dialogue

/-- At most the last call of the dialogue depends on the state of the service or changes it. -/
inductive Atomic (service : Service σ) : Dialogue α → Prop
  | done (a : α) : Atomic service (.done a)
  | last {call : Call} {next : call.Outcome → Dialogue α}
      (h : ∀ outcome, ∃ a, next outcome = .done a) : Atomic service (.ask call next)
  | inert {call : Call} {next : call.Outcome → Dialogue α} {outcome : call.Outcome}
      (h : ∀ s, service call s = (outcome, s)) (hnext : Atomic service (next outcome)) :
      Atomic service (.ask call next)

/-- What is made of the result, without a call, keeps a dialogue atomic. -/
theorem Atomic.bind {service : Service σ} {d : Dialogue α} (h : d.Atomic service)
    {f : α → Dialogue β} (hf : ∀ a, ∃ b, f a = .done b) : (d.bind f).Atomic service := by
  induction h with
  | done a =>
    obtain ⟨b, hb⟩ := hf a
    rw [Dialogue.bind, hb]
    exact .done b
  | last h =>
    refine .last fun outcome => ?_
    obtain ⟨a, ha⟩ := h outcome
    rw [ha]
    exact hf a
  | inert h _ ih => exact .inert h ih

end Dialogue

/-! ### Clients -/

/-- A client: the dialogues that it has still to begin, what is left of the one it is in the middle
of, and the results of those that have ended. -/
structure Client (α : Type) where
  waiting : List (Dialogue α)
  current : Option (Dialogue α)
  results : List α

namespace Client

/-- One step of a client: it begins a dialogue, makes the next call of the one it is in the middle
of, or takes its result. -/
def step (service : Service σ) (c : Client α) (s : σ) : Client α × σ :=
  match c.current with
  | some (.ask call next) =>
    (⟨c.waiting, some (next (service call s).1), c.results⟩, (service call s).2)
  | some (.done a) => (⟨c.waiting, none, c.results ++ [a]⟩, s)
  | none =>
    match c.waiting with
    | d :: waiting => (⟨waiting, some d, c.results⟩, s)
    | [] => (c, s)

/-- A turn of a client: it carries out a whole dialogue. -/
def turn (service : Service σ) (c : Client α) (s : σ) : Client α × σ :=
  match c.waiting with
  | d :: waiting =>
    (⟨waiting, c.current, c.results ++ [(d.run service s).1]⟩, (d.run service s).2)
  | [] => (c, s)

@[simp]
theorem step_ask (service : Service σ) (waiting : List (Dialogue α)) (results : List α)
    (call : Call) (next : call.Outcome → Dialogue α) (s : σ) :
    step service ⟨waiting, some (.ask call next), results⟩ s =
      (⟨waiting, some (next (service call s).1), results⟩, (service call s).2) := rfl

@[simp]
theorem turn_cons (service : Service σ) (d : Dialogue α) (waiting : List (Dialogue α))
    (current : Option (Dialogue α)) (results : List α) (s : σ) :
    turn service ⟨d :: waiting, current, results⟩ s =
      (⟨waiting, current, results ++ [(d.run service s).1]⟩, (d.run service s).2) := rfl

/-- Whether the step is the one that settles the result of a dialogue. -/
def settles (service : Service σ) (c : Client α) (s : σ) : Bool :=
  match (c.step service s).1.current with
  | some (.done _) => true
  | _ => false

/-- Whether the client has nothing more to do. -/
def finished (c : Client α) : Bool :=
  c.waiting.isEmpty && c.current.isNone

/-- The number of dialogues that have ended. -/
def ended (c : Client α) : Nat :=
  c.results.length

/-- The number of dialogues that have begun. -/
def begun (c : Client α) : Nat :=
  c.results.length + c.current.toList.length

/-- A turn takes a dialogue from those that wait, and adds its result. -/
theorem length_turn (service : Service σ) (c : Client α) (s : σ) :
    (c.turn service s).1.waiting.length + (c.turn service s).1.results.length =
      c.waiting.length + c.results.length := by
  rcases c with ⟨_ | ⟨d, waiting⟩, current, results⟩
  · rfl
  · simp only [turn_cons, List.length_append, List.length_cons, List.length_nil]
    omega

/-- A client that goes on step by step keeps up with one that takes turns: this one has carried out
exactly the dialogues whose results are settled. What is left of a dialogue whose result is not
settled yet does the same as the whole dialogue. -/
inductive Follows (service : Service σ) : Client α → Client α → Prop
  | idle {waiting : List (Dialogue α)} {results : List α}
      (hwaiting : ∀ d ∈ waiting, d.Atomic service) :
      Follows service ⟨waiting, none, results⟩ ⟨waiting, none, results⟩
  | unsettled {waiting : List (Dialogue α)} {results : List α} {d : Dialogue α} {call : Call}
      {next : call.Outcome → Dialogue α} (hwaiting : ∀ d ∈ waiting, d.Atomic service)
      (hrest : (Dialogue.ask call next).Atomic service)
      (hrun : ∀ s, d.run service s = (Dialogue.ask call next).run service s) :
      Follows service ⟨waiting, some (.ask call next), results⟩ ⟨d :: waiting, none, results⟩
  | settled {waiting : List (Dialogue α)} {results : List α} {a : α}
      (hwaiting : ∀ d ∈ waiting, d.Atomic service) :
      Follows service ⟨waiting, some (.done a), results⟩ ⟨waiting, none, results ++ [a]⟩

namespace Follows

variable {service : Service σ} {c c' : Client α}

/-- The step of a client, for one that takes turns: it takes its turn if the step settles the result
of a dialogue, and else nothing happens to the state. -/
def Keeps (service : Service σ) (c c' : Client α) (s : σ) : Prop :=
  (c.settles service s = true ∧ (c.step service s).2 = (c'.turn service s).2 ∧
    (c.step service s).1.Follows service (c'.turn service s).1 ∧
    (c'.turn service s).1.ended = c'.ended + 1) ∨
  (c.settles service s = false ∧ (c.step service s).2 = s ∧
    (c.step service s).1.Follows service c')

/-- A step that leaves the state, behind which the rest of the dialogue does the same as all of
it. -/
theorem keeps_of_rest {waiting : List (Dialogue α)} {results : List α} {d rest : Dialogue α} {s : σ}
    (hwaiting : ∀ d ∈ waiting, d.Atomic service) (hrest : rest.Atomic service)
    (hrun : ∀ s, d.run service s = rest.run service s)
    (hstep : c.step service s = (⟨waiting, some rest, results⟩, s)) :
    Keeps service c ⟨d :: waiting, none, results⟩ s := by
  cases rest with
  | done a =>
    have hd : d.run service s = (a, s) := hrun s
    refine .inl ⟨by simp [settles, hstep], by simp [hstep, hd], ?_, by simp [ended]⟩
    simp only [turn_cons, hstep, hd]
    exact .settled hwaiting
  | ask call next =>
    refine .inr ⟨by simp [settles, hstep], by simp [hstep], ?_⟩
    rw [hstep]
    exact .unsettled hwaiting hrest hrun

/-- A client keeps up in every state. -/
theorem step (h : c.Follows service c') (s : σ) : Keeps service c c' s := by
  cases h with
  | @idle waiting results hwaiting =>
    cases waiting with
    | nil => exact .inr ⟨rfl, rfl, .idle hwaiting⟩
    | cons d waiting =>
      obtain ⟨hd, hwaiting⟩ := List.forall_mem_cons.1 hwaiting
      exact keeps_of_rest hwaiting hd (fun _ => rfl) rfl
  | @unsettled waiting results d call next hwaiting hrest hrun =>
    cases hrest with
    | last hlast =>
      -- the call that may depend on the state: the turn is taken here
      obtain ⟨a, ha⟩ := hlast (service call s).1
      have hd : d.run service s = (a, (service call s).2) := by
        rw [hrun, Dialogue.run, ha]
        rfl
      have hstep : Client.step service ⟨waiting, some (.ask call next), results⟩ s =
          (⟨waiting, some (.done a), results⟩, (service call s).2) := by rw [step_ask, ha]
      refine .inl ⟨by simp [settles, hstep], by simp [hd], ?_, by simp [ended]⟩
      simp only [turn_cons, hstep, hd]
      exact .settled hwaiting
    | @inert _ _ outcome hinert hnext =>
      have hstep : Client.step service ⟨waiting, some (.ask call next), results⟩ s =
          (⟨waiting, some (next outcome), results⟩, s) := by rw [step_ask, hinert]
      refine keeps_of_rest hwaiting hnext (fun t => ?_) hstep
      rw [hrun, Dialogue.run, hinert]
  | settled hwaiting => exact .inr ⟨rfl, rfl, .idle hwaiting⟩

/-- The turns that are taken are at least the dialogues that have ended, and at most those that have
begun. -/
theorem ended_le (h : c.Follows service c') : c.ended ≤ c'.ended ∧ c'.ended ≤ c.begun := by
  cases h <;> simp [ended, begun]

/-- A client that has nothing more to do has kept up. -/
theorem eq_of_finished (h : c.Follows service c') (hfinished : c.finished = true) : c' = c := by
  cases h with
  | idle => rfl
  | _ => simp [finished] at hfinished

end Follows

end Client

/-! ### Systems -/

/-- Several clients, and the state of the service that they share. -/
structure System (ι σ α : Type) where
  state : σ
  client : ι → Client α

namespace System

/-- The clients with their dialogues, before any of them has begun. -/
def start (s : σ) (dialogues : ι → List (Dialogue α)) : System ι σ α :=
  ⟨s, fun i => ⟨dialogues i, none, []⟩⟩

/-- All clients have nothing more to do. -/
def Finished (sys : System ι σ α) : Prop :=
  ∀ i, (sys.client i).finished = true

/-- An interleaved run keeps up with a sequential one. -/
structure Follows (service : Service σ) (sys sys' : System ι σ α) : Prop where
  state : sys.state = sys'.state
  client : ∀ i, (sys.client i).Follows service (sys'.client i)

theorem Follows.eq_of_finished {service : Service σ} {sys sys' : System ι σ α}
    (h : sys.Follows service sys') (hfinished : sys.Finished) : sys' = sys := by
  have hclient : sys'.client = sys.client :=
    funext fun i => (h.client i).eq_of_finished (hfinished i)
  cases sys
  cases sys'
  simp only [mk.injEq]
  exact ⟨h.state.symm, hclient⟩

variable [DecidableEq ι] (service : Service σ)

/-- One client goes on, and the others stay as they are. -/
def act (move : Client α → σ → Client α × σ) (sys : System ι σ α) (i : ι) : System ι σ α :=
  ⟨(move (sys.client i) sys.state).2,
    Function.update sys.client i (move (sys.client i) sys.state).1⟩

/-- The clients go on by one step each time they come up in the schedule. -/
def interleaved (sys : System ι σ α) (schedule : List ι) : System ι σ α :=
  schedule.foldl (act (Client.step service)) sys

/-- The clients carry out a whole dialogue each time they come up in the order. -/
def sequential (sys : System ι σ α) (order : List ι) : System ι σ α :=
  order.foldl (act (Client.turn service)) sys

/-- The clients of a schedule at the steps that settle the result of a dialogue. -/
def order (sys : System ι σ α) : List ι → List ι
  | [] => []
  | i :: schedule =>
    if (sys.client i).settles service sys.state then
      i :: order (act (Client.step service) sys i) schedule
    else order (act (Client.step service) sys i) schedule

theorem order_append (sys : System ι σ α) (first later : List ι) :
    sys.order service (first ++ later) =
      sys.order service first ++ (sys.interleaved service first).order service later := by
  induction first generalizing sys with
  | nil => rfl
  | cons i first ih =>
    have hrun : sys.interleaved service (i :: first) =
        (act (Client.step service) sys i).interleaved service first := rfl
    rw [hrun, List.cons_append, order, order, ih]
    split <;> rfl

/-- A client never has more or fewer dialogues, those that have ended included. -/
theorem length_sequential (sys : System ι σ α) (order : List ι) (i : ι) :
    ((sys.sequential service order).client i).waiting.length +
        ((sys.sequential service order).client i).results.length =
      (sys.client i).waiting.length + (sys.client i).results.length := by
  induction order generalizing sys with
  | nil => rfl
  | cons j order ih =>
    refine (ih _).trans ?_
    by_cases h : i = j
    · subst h
      simpa [act] using (sys.client i).length_turn service sys.state
    · simp [act, h]

variable {service}

namespace Follows

variable {sys sys' : System ι σ α} (h : sys.Follows service sys') (i : ι)

include h

/-- A step that settles the result of a dialogue, and the turn for it. -/
theorem act_of_settles (hi : (sys.client i).settles service sys.state = true) :
    (act (Client.step service) sys i).Follows service (act (Client.turn service) sys' i) ∧
      ∀ j, ((act (Client.turn service) sys' i).client j).ended =
        (sys'.client j).ended + [i].count j := by
  rcases (h.client i).step sys.state with ⟨-, hstate, hclient, hended⟩ | ⟨hopen, -, -⟩
  · rw [h.state] at hstate hclient hended
    constructor
    · refine ⟨by simpa [act, h.state] using hstate, fun j => ?_⟩
      by_cases hj : j = i
      · subst hj
        simpa [act, h.state] using hclient
      · simpa [act, hj] using h.client j
    · intro j
      by_cases hj : j = i
      · subst hj
        simpa [act] using hended
      · simp [act, hj, Ne.symm hj]
  · exact absurd (hi.symm.trans hopen) (by simp)

/-- Any other step. -/
theorem act_of_not_settles (hi : (sys.client i).settles service sys.state = false) :
    (act (Client.step service) sys i).Follows service sys' := by
  rcases (h.client i).step sys.state with ⟨hsettles, -, -, -⟩ | ⟨-, hstate, hclient⟩
  · exact absurd (hsettles.symm.trans hi) (by simp)
  · refine ⟨hstate.trans h.state, fun j => ?_⟩
    by_cases hj : j = i
    · subst hj
      simpa [act] using hclient
    · simpa [act, hj] using h.client j

/-- A whole run keeps up with the sequential run in the order of the steps that settle results, and
every one of them is a turn that is taken. -/
theorem run (schedule : List ι) :
    (sys.interleaved service schedule).Follows service
        (sys'.sequential service (sys.order service schedule)) ∧
      ∀ j, ((sys'.sequential service (sys.order service schedule)).client j).ended =
        (sys'.client j).ended + (sys.order service schedule).count j := by
  induction schedule generalizing sys sys' with
  | nil => exact ⟨h, fun j => rfl⟩
  | cons i schedule ih =>
    cases hi : (sys.client i).settles service sys.state with
    | true =>
      obtain ⟨hact, hended⟩ := h.act_of_settles i hi
      obtain ⟨hrun, hcount⟩ := ih hact
      have horder : sys.order service (i :: schedule) =
          i :: (act (Client.step service) sys i).order service schedule := by
        rw [order, if_pos hi]
      have hcons (j : ι) : (sys.order service (i :: schedule)).count j = [i].count j +
          ((act (Client.step service) sys i).order service schedule).count j := by
        rw [horder, ← List.count_append, List.singleton_append]
      refine ⟨by rwa [horder], fun j => ?_⟩
      rw [hcons, horder, ← Nat.add_assoc, ← hended j]
      exact hcount j
    | false =>
      have horder : sys.order service (i :: schedule) =
          (act (Client.step service) sys i).order service schedule := by
        rw [order, if_neg (by simp [hi])]
      rw [horder]
      exact ih (h.act_of_not_settles i hi)

end Follows

/-- The order stands for the schedule: every dialogue is carried out once, and the results of all
clients and the last state are the same. And it keeps to the order in time. Wherever the schedule is
cut, the order can be cut as well, with the same state there, so that the dialogues in front of its
cut are all that have ended by then, and none that has not begun. -/
structure Linearizes (service : Service σ) (sys : System ι σ α) (schedule order : List ι) :
    Prop where
  count : ∀ i, order.count i = (sys.client i).waiting.length
  same : sys.sequential service order = sys.interleaved service schedule
  time : ∀ before, before <+: schedule → ∃ first, first <+: order ∧
    (sys.sequential service first).state = (sys.interleaved service before).state ∧
    ∀ i, ((sys.interleaved service before).client i).ended ≤ first.count i ∧
      first.count i ≤ ((sys.interleaved service before).client i).begun

/-- If all dialogues are atomic and all of them have ended, the order of the steps that settle their
results stands for the schedule. -/
theorem linearizes_order (s : σ) {dialogues : ι → List (Dialogue α)}
    (hatomic : ∀ i, ∀ d ∈ dialogues i, d.Atomic service) {schedule : List ι}
    (hfinished : ((start s dialogues).interleaved service schedule).Finished) :
    (start s dialogues).Linearizes service schedule
      ((start s dialogues).order service schedule) := by
  have hstart : (start s dialogues).Follows service (start s dialogues) :=
    ⟨rfl, fun i => .idle (hatomic i)⟩
  -- nothing has ended at the start, so the turns are counted by what has ended
  have hturns (schedule : List ι) (i : ι) : (((start s dialogues).sequential service
      ((start s dialogues).order service schedule)).client i).ended =
        ((start s dialogues).order service schedule).count i :=
    ((hstart.run schedule).2 i).trans (Nat.zero_add _)
  have hsame := (hstart.run schedule).1.eq_of_finished hfinished
  refine ⟨fun i => ?_, hsame, ?_⟩
  · have hlength := length_sequential service (start s dialogues)
      ((start s dialogues).order service schedule) i
    have hnone : (((start s dialogues).interleaved service schedule).client i).waiting = [] := by
      have hi := hfinished i
      rw [Client.finished, Bool.and_eq_true, List.isEmpty_iff] at hi
      exact hi.1
    rw [← hturns, Client.ended]
    rw [hsame, hnone] at hlength
    rw [hsame]
    exact (Nat.zero_add _).symm.trans hlength
  · rintro before ⟨behind, rfl⟩
    have hbefore := (hstart.run before).1
    refine ⟨(start s dialogues).order service before, ?_, hbefore.state.symm, fun i => ?_⟩
    · rw [order_append]
      exact List.prefix_append _ _
    · rw [← hturns]
      exact (hbefore.client i).ended_le

end System

end TableSql
