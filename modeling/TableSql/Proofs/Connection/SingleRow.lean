import TableSql.Proofs.Json.ReadBack
import TableSql.Proofs.Write.Request

/-!
# Not one row

A server that is asked for one row and has found none or several refuses, always with the same code,
and tells the number of rows in the details of its error. Only zero rows are an outcome of a
reading; that there were several is an error like any other. The number is looked for in the text
of the details, between two blanks, so that a number which merely ends in a zero is not taken for
zero.

## Main definitions

* `Rest.rowsContained` — the details that tell a number of rows.
* `Rest.IsErrorObject` — a body that is an error with a code, details and a message.

## Main results

* `Rest.tellsOfNoRows_rowsContained_iff` — the details tell of no rows exactly if there are none.
* `Rest.isErrorObject_json` — the bodies that are written for errors.
* `Rest.refusal_of_isErrorObject` — what such a body is taken for.
* `Connection.get_of_not_one_row` — what a reading of one row makes of the number of rows.
-/

namespace TableSql

namespace Rest

/-! ### Details -/

/-- The details of an error that tell how many rows there were. -/
def rowsContained (n : Nat) : String :=
  "The result contains " ++ Decimal.text n ++ " rows"

theorem toList_rowsContained (n : Nat) : (rowsContained n).toList =
    "The result contains ".toList ++ (Decimal.digits n ++ " rows".toList) := by
  have hbetween (a b : String) :
      (a ++ Decimal.text n ++ b).toList = a.toList ++ (Decimal.digits n ++ b.toList) := by
    rw [String.toList_append, String.toList_append, Decimal.text, String.toList_ofList,
      List.append_assoc]
  exact hbetween _ _

/-- A text is not found where its first character is not. -/
theorem occursIn_append_of_notMem {c : Char} {part ds : List Char} (h : c ∉ ds) (cs : List Char) :
    occursIn (c :: part) (ds ++ cs) = occursIn (c :: part) cs := by
  induction ds with
  | nil => rfl
  | cons d ds ih =>
    obtain ⟨hd, hds⟩ := not_or.1 (mt List.mem_cons.2 h)
    have hprefix : (c :: part).isPrefixOf (d :: (ds ++ cs)) = false := by
      simp [List.isPrefixOf, hd]
    rw [List.cons_append, occursIn, hprefix, Bool.false_or, ih hds]

theorem blank_notMem_digits (n : Nat) : ' ' ∉ Decimal.digits n := by
  intro h
  cases Decimal.isDigit_of_mem_digits h

/-- Only zero has a zero for its first digit and no digit behind it. -/
theorem isPrefixOf_digits_iff (n : Nat) :
    "0 rows".toList.isPrefixOf (Decimal.digits n ++ " rows".toList) = true ↔ n = 0 := by
  constructor
  · intro h
    obtain ⟨behind, hbehind⟩ := List.isPrefixOf_iff_prefix.1 h
    have hblank := blank_notMem_digits n
    have hvalue := Decimal.value_digits n
    rcases hdigits : Decimal.digits n with _ | ⟨d, ds⟩
    · exact absurd hdigits (Decimal.digits_ne_nil n)
    · rw [hdigits] at hbehind hblank hvalue
      obtain ⟨hd, hds⟩ := List.cons.inj hbehind
      cases ds with
      | nil =>
        rw [← hvalue, ← hd]
        rfl
      | cons e es =>
        -- the blank of the part would be the second digit
        obtain ⟨he, -⟩ := List.cons.inj hds
        exact absurd (he ▸ List.mem_cons_of_mem d List.mem_cons_self) hblank
  · rintro rfl
    rw [Decimal.digits]
    decide

/-- The details tell of no rows exactly if the number of rows is zero. -/
theorem tellsOfNoRows_rowsContained_iff (n : Nat) :
    tellsOfNoRows (rowsContained n).toList = true ↔ n = 0 := by
  -- the blanks in front of the number are the only ones that the part could begin with
  have hfront (cs : List Char) : occursIn " 0 rows".toList ("The result contains ".toList ++ cs) =
      (" 0 rows".toList.isPrefixOf (' ' :: cs) || occursIn " 0 rows".toList cs) := rfl
  have hblank (cs : List Char) :
      " 0 rows".toList.isPrefixOf (' ' :: cs) = "0 rows".toList.isPrefixOf cs := rfl
  have hbehind (cs : List Char) : occursIn " 0 rows".toList (Decimal.digits n ++ cs) =
      occursIn " 0 rows".toList cs :=
    occursIn_append_of_notMem (c := ' ') (blank_notMem_digits n) cs
  have hend : occursIn " 0 rows".toList " rows".toList = false := by decide
  rw [tellsOfNoRows, toList_rowsContained, hfront, hblank, hbehind, hend, Bool.or_false,
    isPrefixOf_digits_iff]

/-! ### Errors -/

/-- The body is an object in JSON, whose entries for the code, the details and the message of an
error are these texts. Other entries are passed over. -/
def IsErrorObject (body code details message : String) : Prop :=
  ∃ entries, Json.skim? body = some (.object entries) ∧
    ∀ part ∈ [("code", code), ("details", details), ("message", message)],
      (entries.filter fun e => e.1 = part.1) = [(part.1, .text part.2)]

/-- An error is read from the object that is written for it, with or without a hint. -/
theorem isErrorObject_json (code details : String) (hint : Option String) (message : String) :
    IsErrorObject (Json.objectOf [("code", some code), ("details", some details), ("hint", hint),
      ("message", some message)]).json code details message :=
  ⟨_, Json.readAsWritten?_json_objectOf .skimmed _, by simp [Json.ofOptional]⟩

theorem errorBody_of_isErrorObject {body code details message : String}
    (h : IsErrorObject body code details message) :
    errorBody body = ⟨some code, some message, some details⟩ := by
  obtain ⟨entries, hbody, hparts⟩ := h
  have hpart : ∀ part ∈ [("code", code), ("details", details), ("message", message)],
      part? entries part.1 = some (some part.2) := by
    intro part hmem
    rw [part?, hparts part hmem]
    rfl
  have hcode : part? entries "code" = some (some code) := hpart ("code", code) (by simp)
  have hdetails : part? entries "details" = some (some details) :=
    hpart ("details", details) (by simp)
  have hmessage : part? entries "message" = some (some message) :=
    hpart ("message", message) (by simp)
  rw [errorBody, hbody]
  simp only [hcode, hdetails, hmessage]

/-- That there was not one row is taken for no row exactly if the details tell of none. Every other
error keeps its code and its message. -/
theorem refusal_of_isErrorObject {response : Http.Response} {code details message : String}
    (h : IsErrorObject response.body code details message) :
    refusal response =
      if code = notOneRow ∧ tellsOfNoRows details.toList = true then .noRowsMatched
      else .remote code message := by
  rw [refusal, errorBody_of_isErrorObject h]
  rfl

/-- Any number of rows but zero is an error. -/
theorem refusal_of_rowsContained {response : Http.Response} {n : Nat} {message : String}
    (h : IsErrorObject response.body "PGRST116" (rowsContained n) message) :
    refusal response = if n = 0 then .noRowsMatched else .remote "PGRST116" message := by
  rw [refusal_of_isErrorObject h]
  exact if_congr (by rw [tellsOfNoRows_rowsContained_iff]; exact and_iff_right rfl) rfl rfl

/-- A reading whose request is refused fails as the response says. -/
theorem service_select_of_refused {σ : Type} {r : Rest} {network : Http.Network σ} {q : TableQuery}
    {request : Http.Request} {response : Http.Response} {before after : σ}
    (hrequest : r.request? (.select q) = some request)
    (hanswer : network request before = (some response, after))
    (hrefused : response.isSuccess = false) :
    r.service network (.select q) before = (.error (refusal response), after) := by
  have haccepted : accepted (some response) = .error (refusal response) := by
    simp [accepted, hrefused]
  simp only [service, hrequest, hanswer, outcome, haccepted]
  rfl

end Rest

/-! ### Readings of one row -/

namespace Connection

/-- A reading of one row makes one request, which asks for an object of its own. If the server
refuses because it has found `n` rows, there is no row exactly if `n` is zero, and any other number
is an error with the code and the message of the server. -/
theorem get_of_not_one_row {b : Bindings} {sql : String} {q : Select Value}
    (hparse : parse b sql = .ok (.select q)) (c : Connection) (r : Rest) {σ : Type}
    (network : Http.Network σ) (before : σ) :
    ∃ request, r.requests network (c.attempt b sql .get) before = [request] ∧
      Rest.acceptObject ∈ request.headers ∧
      ∀ response after n message, network request before = (some response, after) →
        400 ≤ response.status → response.status < 600 →
        Rest.IsErrorObject response.body "PGRST116" (Rest.rowsContained n) message →
          (c.attempt b sql .get).runOn (r.service network) before =
            (if n = 0 then .ok none else .error (.service (.remote "PGRST116" message)),
              after) := by
  have hcalls : (c.attempt b sql .get).calls (r.service network) before =
      [.select (Entry.get.query q)] := by
    rw [attempt_of_parse c .get hparse]
    exact calls_respond_select _ c .get before q
  obtain ⟨request, hrequest, hheaders⟩ : ∃ request,
      r.request? (.select (Entry.get.query q)) = some request ∧
        Rest.acceptObject ∈ request.headers :=
    ⟨_, rfl, List.mem_append_right _ List.mem_cons_self⟩
  refine ⟨request, ?_, hheaders, fun response after n message hanswer hleast hmost hbody => ?_⟩
  · rw [Rest.requests_eq_filterMap, hcalls]
    simp [hrequest]
  · have hrefused : response.isSuccess = false := by
      simp only [Http.Response.isSuccess, Bool.and_eq_false_iff, decide_eq_false_iff_not]
      omega
    rw [Entry.query, ← TableQuery.first_eq] at hrequest
    have hservice : r.service network (.select (.first q)) before = _ :=
      Rest.service_select_of_refused hrequest hanswer hrefused
    rw [attempt_of_parse c .get hparse]
    refine (Attempt.runOn_bind_pure _ (query q .one) _ before).trans ?_
    rw [show (query q .one).runOn _ before = _ from Attempt.runOn_callOr _ _ _ _ before, hservice,
      Rest.refusal_of_rowsContained hbody]
    by_cases hn : n = 0
    · rw [if_pos hn, if_pos hn]
      rfl
    · rw [if_neg hn, if_neg hn]
      rfl

/-- Ten rows are too many for one row to be read, and zero rows are no row. -/
theorem get_of_not_one_row_ten :
    let b : Bindings := ⟨[], ""⟩
    let sql := "SELECT * FROM t WHERE a = 1"
    let r : Rest := ⟨"http://localhost", [], none, "query"⟩
    let answer (n : Nat) : Http.Response := ⟨406, [], (Json.objectOf [("code", some "PGRST116"),
      ("details", some (Rest.rowsContained n)), ("hint", none), ("message", some "Not one")]).json⟩
    let outcome (n : Nat) :=
      ((standard.attempt b sql .get).runOn (r.service .given) (some (answer n))).1
    (∃ q, parse b sql = .ok (.select q)) ∧
    (∀ n, 400 ≤ (answer n).status ∧ (answer n).status < 600 ∧
      Rest.IsErrorObject (answer n).body "PGRST116" (Rest.rowsContained n) "Not one") ∧
    outcome 10 = .error (.service (.remote "PGRST116" "Not one")) ∧ outcome 0 = .ok none := by
  intro b sql r answer outcome
  have hparse : ∃ statement ∈ (parse b sql).toOption, statement.kind = .select := by decide +kernel
  obtain ⟨statement, hstatement, hkind⟩ := hparse
  cases statement <;> cases hkind
  case select q =>
    have h := eq_ok_of_mem_toOption hstatement
    have hanswer (n : Nat) : 400 ≤ (answer n).status ∧ (answer n).status < 600 ∧
        Rest.IsErrorObject (answer n).body "PGRST116" (Rest.rowsContained n) "Not one" :=
      ⟨(by decide : 400 ≤ 406), (by decide : 406 < 600), Rest.isErrorObject_json _ _ _ _⟩
    have houtcome (n : Nat) : outcome n =
        if n = 0 then .ok none else .error (.service (.remote "PGRST116" "Not one")) := by
      obtain ⟨hleast, hmost, hbody⟩ := hanswer n
      obtain ⟨request, -, -, hrun⟩ := get_of_not_one_row h standard r .given (some (answer n))
      exact congrArg Prod.fst (hrun _ _ n "Not one" rfl hleast hmost hbody)
    exact ⟨⟨q, h⟩, hanswer, houtcome 10, houtcome 0⟩

end Connection

end TableSql
