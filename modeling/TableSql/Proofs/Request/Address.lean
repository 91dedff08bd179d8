import Mathlib.Data.List.DropRight
import TableSql.Proofs.Steps
import TableSql.Rest

/-!
# The addresses of requests

Every request goes to the endpoint of its service with a slash and what its call addresses behind
it: a table, or a function in `rpc`. The endpoint is put together from a URL and a path, and it does
not matter how many slashes the URL has at its end and the path at its ends. A slash is written
between the two in any case. So if the path has nothing but slashes in it, the endpoint ends in a
slash, and every address has an empty segment where the segments of the path would be.

## Main definitions

* `segments` — the segments of an address.
* `TrimsEnd`, `Trims` — a text without the slashes at its end, and at its ends.
* `Rest.addressed` — the segments that a call addresses below the endpoint.
* `WellJoined` — an address that is put together without an empty segment.

## Main results

* `RestSettings.trims_endpoint` — the parts of an endpoint.
* `Rest.segments_url` — the segments of an address are those of its parts.
* `Rest.well_joined_iff` — when addresses are put together without an empty segment.
* `Rest.endpoint_ends_in_slash` — a path without segments.
-/

namespace TableSql

/-! ### Segments -/

/-- The segments of an address: what stands between its slashes. -/
def segments (cs : List Char) : List (List Char) :=
  cs.splitOn '/'

theorem segments_append (cs ds : List Char) :
    segments (cs ++ '/' :: ds) = segments cs ++ segments ds :=
  List.splitOnP_append_cons cs ds (beq_self_eq_true '/')

theorem segments_of_notMem {cs : List Char} (h : '/' ∉ cs) : segments cs = [cs] := by
  have hsplit := List.splitOn_intercalate '/' (List.forall_mem_singleton.2 h) (List.cons_ne_nil _ _)
  rwa [List.intercalate_singleton] at hsplit

/-- An address that is put together from a base, a path and the segments of what it addresses,
without an empty segment between them. A path with nothing in it has no segments. -/
def WellJoined (address base path : List Char) (addressed : List (List Char)) : Prop :=
  segments address = segments base ++ ((if path = [] then [] else segments path) ++ addressed)

/-! ### Slashes at the ends -/

/-- The text is the base with slashes behind it, and the base does not end in one. -/
structure TrimsEnd (cs base : List Char) : Prop where
  exists_eq : ∃ n, cs = base ++ List.replicate n '/'
  getLast?_ne : base.getLast? ≠ some '/'

/-- The text is the path with slashes in front of it and behind it, and the path neither begins nor
ends with one. -/
structure Trims (cs path : List Char) : Prop where
  exists_eq : ∃ m n, cs = List.replicate m '/' ++ (path ++ List.replicate n '/')
  head?_ne : path.head? ≠ some '/'
  getLast?_ne : path.getLast? ≠ some '/'

/-- Nothing is left exactly if there are only slashes. -/
theorem Trims.eq_nil_iff {cs path : List Char} (h : Trims cs path) :
    path = [] ↔ ∀ c ∈ cs, c = '/' := by
  obtain ⟨m, n, rfl⟩ := h.exists_eq
  constructor
  · rintro rfl c hc
    rcases List.mem_append.1 hc with hc | hc <;> exact List.eq_of_mem_replicate hc
  · intro hall
    cases path with
    | nil => rfl
    | cons c path => exact absurd (congrArg some (hall c (by simp))) h.head?_ne

namespace RestSettings

theorem trimsEnd_dropEndSlashes (cs : List Char) : TrimsEnd cs (dropEndSlashes cs) := by
  constructor
  · have hslashes : ∀ c ∈ cs.rtakeWhile (· = '/'), c = '/' := fun c hc =>
      of_decide_eq_true (List.mem_rtakeWhile_imp (p := (· = '/')) hc)
    refine ⟨(cs.rtakeWhile (· = '/')).length, ?_⟩
    rw [← List.eq_replicate_of_mem hslashes]
    exact List.rdropWhile_append_rtakeWhile.symm
  · intro hlast
    have hne : cs.rdropWhile (· = '/') ≠ [] := by
      rintro heq
      rw [show dropEndSlashes cs = [] from heq] at hlast
      cases hlast
    have hlast : (cs.rdropWhile (· = '/')).getLast hne = '/' :=
      Option.some.inj ((List.getLast?_eq_some_getLast hne).symm.trans hlast)
    exact List.rdropWhile_last_not _ cs hne (decide_eq_true hlast)

theorem trims_dropSlashes (cs : List Char) : Trims cs (dropEndSlashes (dropSlashes cs)) := by
  obtain ⟨⟨n, hn⟩, hlast⟩ := trimsEnd_dropEndSlashes (dropSlashes cs)
  refine ⟨⟨(cs.takeWhile (· = '/')).length, n, ?_⟩, fun hhead => ?_, hlast⟩
  · have hslashes : ∀ c ∈ cs.takeWhile (· = '/'), c = '/' := fun c hc =>
      of_decide_eq_true (List.mem_takeWhile_imp (p := (· = '/')) hc)
    rw [← hn, ← List.eq_replicate_of_mem hslashes]
    exact List.takeWhile_append_dropWhile.symm
  · -- what is left in front is what `dropSlashes` has stopped at
    have hfirst : (dropSlashes cs).head? = some '/' := by
      rw [hn, List.head?_append, hhead]
      rfl
    have hnot := List.head?_dropWhile_not (· = '/') cs
    rw [show (cs.dropWhile (· = '/')).head? = some '/' from hfirst] at hnot
    exact absurd rfl (of_decide_eq_false hnot)

/-- An endpoint is the URL and the path without their outer slashes, with a slash between them. -/
theorem trims_endpoint (s : RestSettings) : ∃ base path,
    TrimsEnd s.url.toList base ∧ Trims s.restPath.toList path ∧
      s.endpoint.toList = base ++ '/' :: path :=
  ⟨_, _, trimsEnd_dropEndSlashes _, trims_dropSlashes _, by simp [endpoint, endpointPath]⟩

end RestSettings

/-- A slash is the last character exactly if nothing stands behind it. -/
theorem Trims.getLast?_endpoint_iff {cs path : List Char} (h : Trims cs path) (base : List Char) :
    (base ++ '/' :: path).getLast? = some '/' ↔ ∀ c ∈ cs, c = '/' := by
  rw [← h.eq_nil_iff]
  cases path with
  | nil => simp
  | cons c path =>
    rw [List.append_cons, List.getLast?_append_of_ne_nil _ (List.cons_ne_nil c path)]
    exact iff_of_false h.getLast?_ne (List.cons_ne_nil c path)

/-! ### Addresses -/

/-- The table that a call names. -/
def Call.table? : Call → Option String
  | .select q => some q.select.table
  | .insert table _ => some table
  | .update table _ _ => some table
  | .delete table _ => some table
  | .rawSql _ => none

namespace Rest

/-- The segments that a call addresses below the endpoint: its table, or `rpc` and the segments of
the function for raw SQL. -/
def addressed (r : Rest) (call : Call) : List (List Char) :=
  match call.table? with
  | some table => [table.toList]
  | none => "rpc".toList :: segments (r.rpcFunction.getD "").toList

theorem intercalate_function (function : List Char) :
    ['/'].intercalate ("rpc".toList :: segments function) = "rpc".toList ++ '/' :: function := by
  have hne : segments function ≠ [] := List.splitOnP_ne_nil _ function
  rw [List.intercalate_cons_of_ne_nil hne, segments, List.intercalate_splitOn]
  simp

/-- The endpoint of a service is the one of its settings. -/
theorem endpoint_of_connect {s : RestSettings} {r : Rest} (h : connect s = .ok r) :
    r.endpoint = s.endpoint := by
  obtain ⟨key, -, h⟩ := exists_of_bind_eq_ok h
  obtain ⟨bearer, -, h⟩ := exists_of_bind_eq_ok h
  dsimp only at h
  split at h
  · cases h
    rfl
  · obtain ⟨accept, -, h⟩ := exists_of_bind_eq_ok h
    obtain ⟨content, -, h⟩ := exists_of_bind_eq_ok h
    cases h
    rfl

/-- A request goes to the endpoint with a slash and what the call addresses behind it. -/
theorem url_of_request? {r : Rest} {call : Call} {request : Http.Request}
    (h : r.request? call = some request) :
    request.url.toList = r.endpoint.toList ++ '/' :: ['/'].intercalate (r.addressed call) := by
  cases call with
  | rawSql sql =>
    obtain ⟨function, hfunction, rfl⟩ := Option.map_eq_some_iff.1 h
    rw [addressed, Call.table?, hfunction]
    dsimp only
    rw [intercalate_function]
    simp [functionUrl]
  | _ =>
    cases h
    simp [tableUrl, addressed, Call.table?]

theorem segments_addressed {r : Rest} {call : Call}
    (htable : ∀ table ∈ call.table?, '/' ∉ table.toList) :
    segments (['/'].intercalate (r.addressed call)) = r.addressed call := by
  unfold addressed
  cases h : call.table? with
  | some table =>
    dsimp only
    rw [List.intercalate_singleton, segments_of_notMem (htable table h)]
  | none =>
    dsimp only
    rw [intercalate_function, segments_append, segments_of_notMem (by decide)]
    rfl

variable {s : RestSettings} {r : Rest}

/-- The segments of an address are those of its parts. The empty path is one empty segment. -/
theorem segments_url {base path : List Char} {call : Call} {request : Http.Request}
    (hendpoint : r.endpoint.toList = base ++ '/' :: path)
    (hrequest : r.request? call = some request)
    (htable : ∀ table ∈ call.table?, '/' ∉ table.toList) :
    segments request.url.toList = segments base ++ (segments path ++ r.addressed call) := by
  rw [url_of_request? hrequest, segments_append, hendpoint, segments_append,
    segments_addressed htable, List.append_assoc]

/-- An address has no empty segment between its parts exactly if the path is not empty. -/
theorem wellJoined_iff_ne_nil {address base path : List Char} {addressed : List (List Char)}
    (h : segments address = segments base ++ (segments path ++ addressed)) :
    WellJoined address base path addressed ↔ path ≠ [] := by
  rw [WellJoined, h]
  split
  · rename_i hpath
    subst hpath
    have hempty : segments [] = [[]] := rfl
    simp [hempty]
  · simp [*]

/-- Slashes at the end of the URL and at the ends of the path do not get into an endpoint or an
address. An endpoint ends in a slash exactly if its path has nothing but slashes in it, and then and
only then addresses below it have an empty segment that comes from putting them together. -/
theorem well_joined_iff (h : connect s = .ok r) :
    ∃ base path, TrimsEnd s.url.toList base ∧ Trims s.restPath.toList path ∧
      s.endpoint.toList = base ++ '/' :: path ∧
      (s.endpoint.toList.getLast? = some '/' ↔ ∀ c ∈ s.restPath.toList, c = '/') ∧
      ∀ call request, r.request? call = some request →
        (∀ table ∈ call.table?, '/' ∉ table.toList) →
          request.url.toList = s.endpoint.toList ++ '/' :: ['/'].intercalate (r.addressed call) ∧
          segments request.url.toList = segments base ++ (segments path ++ r.addressed call) ∧
          (WellJoined request.url.toList base path (r.addressed call) ↔
            ∃ c ∈ s.restPath.toList, c ≠ '/') := by
  obtain ⟨base, path, hbase, hpath, hendpoint⟩ := s.trims_endpoint
  refine ⟨base, path, hbase, hpath, hendpoint, ?_, fun call request hrequest htable => ?_⟩
  · rw [hendpoint]
    exact hpath.getLast?_endpoint_iff base
  · have hurl := url_of_request? hrequest
    rw [endpoint_of_connect h] at hurl
    have hsegments := segments_url ((endpoint_of_connect h).symm ▸ hendpoint) hrequest htable
    refine ⟨hurl, hsegments, ?_⟩
    rw [wellJoined_iff_ne_nil hsegments, Ne, hpath.eq_nil_iff]
    simp

/-- Slashes at all ends. -/
theorem well_joined_iff_slashes :
    let s : RestSettings := { url := "https://x//", apiKey := "k", restPath := "//rest/v1/" }
    ∃ r request base path, connect s = .ok r ∧ r.request? (.delete "t" []) = some request ∧
      (∀ table ∈ (Call.delete "t" []).table?, '/' ∉ table.toList) ∧
      s.endpoint = "https://x/rest/v1" ∧ request.url = "https://x/rest/v1/t" ∧
      WellJoined request.url.toList base path ["t".toList] := by
  intro s
  have hconnect : ∃ r ∈ (connect s).toOption, ∃ request ∈ r.request? (.delete "t" []),
      s.endpoint = "https://x/rest/v1" ∧ request.url = "https://x/rest/v1/t" := by decide +kernel
  obtain ⟨r, hr, request, hrequest, hendpoint, hurl⟩ := hconnect
  have htable : ∀ table ∈ (Call.delete "t" []).table?, '/' ∉ table.toList := by
    rintro table ⟨⟩
    decide
  obtain ⟨base, path, -, -, -, -, haddress⟩ := well_joined_iff (eq_ok_of_mem_toOption hr)
  obtain ⟨-, -, hjoined⟩ := haddress _ request hrequest htable
  exact ⟨r, request, base, path, eq_ok_of_mem_toOption hr, hrequest, htable, hendpoint, hurl,
    hjoined.2 ⟨'r', by decide, by decide⟩⟩

/-- With an empty path the endpoint ends in a slash, and the address of a table has an empty segment
in front of the table. -/
theorem endpoint_ends_in_slash :
    let s : RestSettings := { url := "https://x", apiKey := "k", restPath := "" }
    s.endpoint.toList.getLast? = some '/' ∧
    ∃ r ∈ (connect s).toOption, ∃ request ∈ r.request? (.delete "t" []),
      request.url = "https://x//t" ∧
      segments request.url.toList =
        ["https:".toList, "".toList, "x".toList, "".toList, "t".toList] := by
  decide +kernel

end Rest

end TableSql
