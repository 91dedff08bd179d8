import TableSql.Proofs.Statement.Balance
import TableSql.Proofs.Statement.Reading

/-!
# Which parenthesis closes which

Scans of tokens keep a counter of the parentheses that are open. What the counter stands for is said
here by places: a parenthesis opened at one place is closed at the place where what stands between
them is balanced, and a place lies outside if every parenthesis opened up to it is closed before it.
The counter is zero exactly at such places, and it does not go below zero as long as every closing
parenthesis closes one. A counter that starts at an opening parenthesis, in the middle of a list,
comes down to zero at the parenthesis that closes it and nowhere before.

## Main definitions

* `counter?` — the counter behind a list of tokens, which cannot go below zero.
* `Matched` — the places of a parenthesis and of the one that closes it.
* `Outside` — the places outside all parentheses.
* `FirstBalance` — the first place at which all parentheses opened since another one are closed.
* `closingFrom?` — the search for the end of a call, as one loop with a counter.

## Main results

* `counter?_eq_some_iff` — when the counter stays above zero, and what it is then.
* `closing?_eq_some_iff`, `matched_iff_closing?` — the place that closes a parenthesis is the one
  that is found.
* `outside_iff` — the counter is zero at the places outside.
* `Matched.firstBalance` — a parenthesis is closed where the counts are equal for the first time.
* `closingFrom?_openParen` — the counter of the search never goes below zero.
-/

namespace TableSql

/-! ### The counter -/

/-- The counter of open parentheses behind a token. It cannot go below zero. -/
def Token.counted? (depth : Nat) : Token → Option Nat
  | openParen => some (depth + 1)
  | closeParen => if depth = 0 then none else some (depth - 1)
  | _ => some depth

/-- The counter behind a list of tokens. -/
def counter? (depth : Nat) (ts : List Token) : Option Nat :=
  ts.foldlM Token.counted? depth

section Counter

variable {depth : Nat} {t : Token} {ts us : List Token}

theorem Token.counted?_eq (depth : Nat) (t : Token) :
    t.counted? depth =
      if depth = 0 ∧ endsSpan (fun _ => false) t = true then none
      else some (t.openBehind depth) := by
  cases t <;> simp [counted?, openBehind, endsSpan]

/-- The counter goes on as long as every closing parenthesis closes one, and counts the open
ones. -/
theorem counter?_eq_some_iff {d : Nat} :
    counter? depth ts = some d ↔ Uncut (fun _ => false) depth ts ∧ openParens depth ts = d := by
  induction ts generalizing depth with
  | nil => simp [counter?, openParens, uncut_nil]
  | cons t ts ih =>
    rw [counter?, List.foldlM_cons, Token.counted?_eq, uncut_cons, openParens_cons]
    split
    · rename_i h
      simp [h]
    · rename_i h
      refine (@ih (t.openBehind depth)).trans (and_congr_left fun _ => ?_)
      refine (and_iff_right fun hdepth => ?_).symm
      exact Bool.eq_false_iff.2 fun hends => h ⟨hdepth, hends⟩

/-- The counter stays above zero over tokens that never close more than they have opened. -/
theorem isSome_counter?_iff : (counter? 0 ts).isSome = true ↔ Opened ts := by
  rw [opened_iff, Option.isSome_iff_exists]
  simp [counter?_eq_some_iff]

end Counter

/-! ### Closing parentheses -/

section Closing

variable {depth n : Nat} {ts us : List Token}

/-- The search for a closing parenthesis ends at it, or goes on behind the token. -/
theorem closing?_cons (depth : Nat) (t : Token) (ts : List Token) :
    closing? depth (t :: ts) =
      if depth = 0 ∧ t = .closeParen then some 0
      else (closing? (t.openBehind depth) ts).map (· + 1) := by
  by_cases ho : t = .openParen
  · subst ho
    rw [if_neg (by simp)]
    rfl
  by_cases hc : t = .closeParen
  · subst hc
    cases depth with
    | zero => rw [if_pos ⟨rfl, rfl⟩, closing?]
    | succ depth =>
      rw [if_neg (by simp)]
      rfl
  have hdepth : t.openBehind depth = depth := by
    cases t <;> first | rfl | contradiction
  rw [if_neg fun h => hc h.2, closing?_cons_of_ne ho hc, hdepth]

/-- The parenthesis behind closed tokens closes the one in front of them. -/
theorem closing?_of_uncut (huncut : Uncut (fun _ => false) depth ts)
    (hopen : openParens depth ts = 0) (us : List Token) :
    closing? depth (ts ++ .closeParen :: us) = some ts.length := by
  induction ts generalizing depth with
  | nil =>
    have hdepth : depth = 0 := hopen
    rw [List.nil_append, closing?_cons, if_pos ⟨hdepth, rfl⟩, List.length_nil]
  | cons t ts ih =>
    obtain ⟨ht, hts⟩ := uncut_cons.1 huncut
    have hgo : ¬(depth = 0 ∧ t = .closeParen) := by
      rintro ⟨hdepth, rfl⟩
      cases ht hdepth
    rw [List.cons_append, closing?_cons, if_neg hgo, ih hts hopen]
    rfl

theorem getElem?_of_closing? (h : closing? depth ts = some n) : ts[n]? = some .closeParen := by
  induction ts generalizing depth n with
  | nil => cases h
  | cons t ts ih =>
    rw [closing?_cons] at h
    split at h
    · rename_i hclose
      cases h
      exact congrArg some hclose.2
    · obtain ⟨m, hm, rfl⟩ := Option.map_eq_some_iff.1 h
      exact ih hm

/-- The closing parenthesis that is found is the one behind balanced tokens. -/
theorem closing?_eq_some_iff :
    closing? 0 ts = some n ↔ ts[n]? = some .closeParen ∧ Balanced (ts.take n) := by
  constructor
  · intro h
    obtain ⟨huncut, hopen⟩ := closed_of_closing? h
    exact ⟨getElem?_of_closing? h, balanced_iff.2 ⟨huncut, hopen⟩⟩
  · rintro ⟨hclose, hbalanced⟩
    obtain ⟨huncut, hopen⟩ := balanced_iff.1 hbalanced
    obtain ⟨hn, hget⟩ := List.getElem?_eq_some_iff.1 hclose
    have hsplit : ts = ts.take n ++ .closeParen :: ts.drop (n + 1) := by
      rw [← hget, List.getElem_cons_drop, List.take_append_drop]
    have hfound := closing?_of_uncut huncut hopen (ts.drop (n + 1))
    rwa [← hsplit, List.length_take_of_le hn.le] at hfound

/-- Tokens behind which nothing is open close every parenthesis in front of them. -/
theorem isSome_closing?_of_openParens {d : Nat} (hle : depth ≤ d)
    (h : openParens (d + 1) ts = 0) : (closing? depth ts).isSome = true := by
  induction ts generalizing depth d with
  | nil => cases h
  | cons t ts ih =>
    rw [closing?_cons]
    split
    · rfl
    · rename_i hgo
      rw [Option.isSome_map]
      rw [openParens_cons] at h
      cases t with
      | openParen => exact ih (d := d + 1) (Nat.succ_le_succ hle) h
      | closeParen =>
        have hdepth : depth ≠ 0 := fun hdepth => hgo ⟨hdepth, rfl⟩
        obtain ⟨e, rfl⟩ : ∃ e, d = e + 1 := ⟨d - 1, by omega⟩
        exact ih (d := e) (by simp only [Token.openBehind]; omega) h
      | _ => exact ih hle h

end Closing

/-! ### Places -/

/-- The parenthesis opened at one place is closed at another one: what stands between them is
balanced. -/
@[mk_iff]
structure Matched (ts : List Token) (j k : Nat) : Prop where
  opens : ts[j]? = some .openParen
  closes : ts[k]? = some .closeParen
  lt : j < k
  balanced : Balanced ((ts.take k).drop (j + 1))

/-- The place is outside all parentheses: every parenthesis opened up to it is closed before it. A
place at which one is opened is not outside. -/
def Outside (ts : List Token) (i : Nat) : Prop :=
  ∀ j ≤ i, ts[j]? = some .openParen → ∃ k < i, Matched ts j k

section Places

variable {ts us : List Token} {i j k : Nat}

/-- A parenthesis is closed where the search finds the end. -/
theorem matched_iff_closing? : Matched ts j k ↔
    ts[j]? = some .openParen ∧ ∃ n, closing? 0 (ts.drop (j + 1)) = some n ∧ k = j + 1 + n := by
  have hslice (n : Nat) : (ts.take (j + 1 + n)).drop (j + 1) = (ts.drop (j + 1)).take n := by
    rw [List.drop_take, Nat.add_sub_cancel_left]
  constructor
  · rintro ⟨hopens, hcloses, hlt, hbalanced⟩
    obtain ⟨n, rfl⟩ := Nat.exists_eq_add_of_le hlt
    refine ⟨hopens, n, closing?_eq_some_iff.2 ⟨?_, hslice n ▸ hbalanced⟩, rfl⟩
    rwa [List.getElem?_drop]
  · rintro ⟨hopens, n, hn, rfl⟩
    obtain ⟨hclose, hbalanced⟩ := closing?_eq_some_iff.1 hn
    rw [List.getElem?_drop] at hclose
    exact ⟨hopens, hclose, by omega, (hslice n).symm ▸ hbalanced⟩

/-- Parentheses are matched in the front of a list as they are in the whole list. -/
theorem matched_take : Matched (ts.take i) j k ↔ Matched ts j k ∧ k < i := by
  have hslice (hk : k < i) : (ts.take i).take k = ts.take k := by
    rw [List.take_take, Nat.min_eq_left hk.le]
  constructor
  · rintro ⟨hopens, hcloses, hlt, hbalanced⟩
    have hk : k < i := by
      by_contra hk
      rw [List.getElem?_take, if_neg hk] at hcloses
      cases hcloses
    rw [List.getElem?_take_of_lt (hlt.trans hk)] at hopens
    rw [List.getElem?_take_of_lt hk] at hcloses
    exact ⟨⟨hopens, hcloses, hlt, hslice hk ▸ hbalanced⟩, hk⟩
  · rintro ⟨⟨hopens, hcloses, hlt, hbalanced⟩, hk⟩
    refine ⟨?_, ?_, hlt, (hslice hk).symm ▸ hbalanced⟩
    · rwa [List.getElem?_take_of_lt (hlt.trans hk)]
    · rwa [List.getElem?_take_of_lt hk]

theorem getElem?_append_add (us ts : List Token) (i : Nat) :
    (us ++ ts)[us.length + i]? = ts[i]? := by
  rw [List.getElem?_append_right (Nat.le_add_right _ _), Nat.add_sub_cancel_left]

/-- Parentheses are matched in the back of a list as they are in the whole list. -/
theorem matched_append (us : List Token) :
    Matched (us ++ ts) (us.length + j) (us.length + k) ↔ Matched ts j k := by
  have hslice : ((us ++ ts).take (us.length + k)).drop (us.length + j + 1) =
      (ts.take k).drop (j + 1) := by
    rw [List.take_length_add_append, Nat.add_assoc, List.drop_length_add_append]
  rw [matched_iff, matched_iff, getElem?_append_add, getElem?_append_add, hslice,
    Nat.add_lt_add_iff_left]

/-- If all parentheses of a list are closed in it, so are those behind a front of it. -/
theorem exists_matched_of_append (us : List Token)
    (h : ∀ j, (us ++ ts)[j]? = some .openParen → ∃ k, Matched (us ++ ts) j k) (j : Nat)
    (hj : ts[j]? = some .openParen) : ∃ k, Matched ts j k := by
  obtain ⟨k, hk⟩ := h (us.length + j) (by rwa [getElem?_append_add])
  obtain ⟨m, rfl⟩ := Nat.exists_eq_add_of_le (Nat.le_of_add_right_le hk.lt.le)
  exact ⟨m, (matched_append us).1 hk⟩

/-- Nothing is open behind tokens whose parentheses are all closed in them. -/
theorem openParens_eq_zero_of_matched : (ts : List Token) →
    (∀ j, ts[j]? = some .openParen → ∃ k, Matched ts j k) → openParens 0 ts = 0
  | [], _ => rfl
  | t :: ts, h => by
    by_cases ho : t = .openParen
    · -- the parenthesis in front is closed, and the tokens behind that are fewer
      subst ho
      obtain ⟨k, hk⟩ := h 0 rfl
      obtain ⟨-, n, hn, -⟩ := matched_iff_closing?.1 hk
      obtain ⟨huncut, hopen⟩ := closed_of_closing? hn
      have hsplit := eq_append_of_closing? hn
      rw [List.drop_succ_cons, List.drop_zero] at huncut hopen hsplit
      have hrest := openParens_eq_zero_of_matched (ts.drop (n + 1))
        (exists_matched_of_append (.openParen :: (ts.take n ++ [.closeParen]))
          (by simpa [← hsplit] using h))
      have hclosed := (openParens_succ (fun _ => false) huncut).1
      rw [hsplit, openParens_cons, openParens_append, openParens_cons,
        show Token.openBehind 0 .openParen = 0 + 1 from rfl, hclosed, hopen]
      exact hrest
    · have hrest := openParens_eq_zero_of_matched ts (exists_matched_of_append [t] h)
      have hdepth : t.openBehind 0 = 0 := by
        cases t <;> first | rfl | contradiction
      rwa [openParens_cons, hdepth]
termination_by ts => ts.length
decreasing_by all_goals simp only [List.length_cons, List.length_drop]; omega

/-- Nothing is open behind the tokens exactly if every parenthesis is closed in them. -/
theorem openParens_eq_zero_iff :
    openParens 0 ts = 0 ↔ ∀ j, ts[j]? = some .openParen → ∃ k, Matched ts j k := by
  refine ⟨fun h j hj => ?_, openParens_eq_zero_of_matched ts⟩
  obtain ⟨hlt, hget⟩ := List.getElem?_eq_some_iff.1 hj
  have hsplit : ts = ts.take j ++ .openParen :: ts.drop (j + 1) := by
    rw [← hget, List.getElem_cons_drop, List.take_append_drop]
  rw [hsplit, openParens_append, openParens_cons] at h
  obtain ⟨n, hn⟩ := Option.isSome_iff_exists.1 (isSome_closing?_of_openParens (Nat.zero_le _) h)
  exact ⟨j + 1 + n, matched_iff_closing?.2 ⟨hj, n, hn, rfl⟩⟩

/-- The counter is zero at the places outside, unless a parenthesis is opened there. -/
theorem outside_iff : Outside ts i ↔
    openParens 0 (ts.take i) = 0 ∧ ts[i]? ≠ some .openParen := by
  rw [openParens_eq_zero_iff]
  constructor
  · intro h
    refine ⟨fun j hj => ?_, fun hi => ?_⟩
    · have hlt : j < i := by
        by_contra hge
        rw [List.getElem?_take, if_neg hge] at hj
        cases hj
      rw [List.getElem?_take_of_lt hlt] at hj
      obtain ⟨k, hk, hmatched⟩ := h j hlt.le hj
      exact ⟨k, matched_take.2 ⟨hmatched, hk⟩⟩
    · obtain ⟨k, hk, hmatched⟩ := h i le_rfl hi
      exact absurd hmatched.lt (by omega)
  · rintro ⟨h, hi⟩ j hj hopens
    have hlt : j < i := lt_of_le_of_ne hj fun heq => hi (heq ▸ hopens)
    obtain ⟨k, hmatched⟩ := h j (by rwa [List.getElem?_take_of_lt hlt])
    obtain ⟨hmatched, hk⟩ := matched_take.1 hmatched
    exact ⟨k, hk, hmatched⟩

/-- Behind closed tokens the places outside are those of what follows. -/
theorem outside_append (h : Closed (fun _ => false) us) :
    Outside (us ++ ts) (us.length + i) ↔ Outside ts i := by
  rw [outside_iff, outside_iff, List.take_length_add_append, openParens_append, h.openParens_eq,
    getElem?_append_add]

end Places

/-! ### Equal counts -/

/-- How often a token stands between two places, both of them included. -/
def countBetween (t : Token) (ts : List Token) (j k : Nat) : Nat :=
  ((ts.take (k + 1)).drop j).count t

/-- From the first place on, as many parentheses are closed as opened for the first time at the
second one. -/
structure FirstBalance (ts : List Token) (j k : Nat) : Prop where
  lt : j < k
  lt_length : k < ts.length
  count_eq : countBetween .closeParen ts j k = countBetween .openParen ts j k
  count_lt : ∀ m, j ≤ m → m < k → countBetween .closeParen ts j m < countBetween .openParen ts j m

/-- A parenthesis is closed where the counts are equal for the first time. -/
theorem Matched.firstBalance {ts : List Token} {j k : Nat} (h : Matched ts j k) :
    FirstBalance ts j k := by
  obtain ⟨hk, hclose⟩ := List.getElem?_eq_some_iff.1 h.closes
  obtain ⟨hj, hopen⟩ := List.getElem?_eq_some_iff.1 h.opens
  have hcons {m : Nat} (hm : j ≤ m) :
      (ts.take (m + 1)).drop j = .openParen :: (ts.take (m + 1)).drop (j + 1) := by
    have hlt : j < (ts.take (m + 1)).length := by
      rw [List.length_take]
      omega
    rw [List.drop_eq_getElem_cons hlt, List.getElem_take, hopen]
  refine ⟨h.lt, hk, ?_, fun m hj hm => ?_⟩
  · -- the parenthesis that closes stands behind what is balanced
    have hlast : (ts.take (k + 1)).drop (j + 1) = (ts.take k).drop (j + 1) ++ [.closeParen] := by
      rw [List.take_add_one, h.closes, List.drop_append_of_le_length]
      · rfl
      · rw [List.length_take]
        have := h.lt
        omega
    have hbalanced := h.balanced.count_eq
    simp [countBetween, hcons h.lt.le, hlast, List.count_append, hbalanced]
  · have hprefix : (ts.take (m + 1)).drop (j + 1) <+: (ts.take k).drop (j + 1) :=
      List.IsPrefix.drop (List.take_prefix_take_left hm) (j + 1)
    have hcount := h.balanced.opened _ hprefix
    simp only [countBetween, hcons hj, List.count_cons]
    simp
    omega

/-- The counts are equal for the first time at one place only. -/
theorem FirstBalance.unique {ts : List Token} {j k k' : Nat} (h : FirstBalance ts j k)
    (h' : FirstBalance ts j k') : k = k' := by
  rcases Nat.lt_trichotomy k k' with hlt | heq | hgt
  · exact absurd h.count_eq (h'.count_lt k h.lt.le hlt).ne
  · exact heq
  · exact absurd h'.count_eq (h.count_lt k' h'.lt.le hgt).ne

/-! ### The search as a loop -/

/-- The search for the end of a call as one loop: each token changes the counter, and the search
ends at a closing parenthesis behind which it is zero. There is no result if the counter would go
below zero. -/
def closingFrom? : Nat → List Token → Option (Option Nat)
  | _, [] => some none
  | depth, t :: ts => do
    let depth ← t.counted? depth
    if t = .closeParen ∧ depth = 0 then return some 0
    else return (← closingFrom? depth ts).map (· + 1)

/-- Behind an opening parenthesis the counter is ahead of the number of those still open by one. -/
theorem closingFrom?_succ (depth : Nat) (ts : List Token) :
    closingFrom? (depth + 1) ts = some (closing? depth ts) := by
  induction ts generalizing depth with
  | nil => rfl
  | cons t ts ih =>
    have hcount : t.counted? (depth + 1) = some (t.openBehind (depth + 1)) := by
      rw [Token.counted?_eq, if_neg fun h => absurd h.1 depth.succ_ne_zero]
    rw [closing?_cons, closingFrom?, hcount]
    cases t with
    | closeParen =>
      cases depth with
      | zero => rfl
      | succ depth => simp [Token.openBehind, ih]
    | _ => simp [Token.openBehind, ih]

/-- From its opening parenthesis on, the end of a call is found by a counter that never goes below
zero. -/
theorem closingFrom?_openParen (ts : List Token) :
    closingFrom? 0 (.openParen :: ts) = some ((closing? 0 ts).map (· + 1)) := by
  have hopen : Token.counted? 0 .openParen = some (0 + 1) := rfl
  rw [closingFrom?, hopen]
  simp [closingFrom?_succ]

/-- Whether a span is a call is told by the same counter. -/
theorem isSome_ofSpan?_iff (w : String) (us : List Token) :
    (FunctionCall.ofSpan? (.word w :: .openParen :: us)).isSome = true ↔
      closingFrom? 0 (.openParen :: us) = some (some us.length) := by
  rw [closingFrom?_openParen]
  cases us with
  | nil => simp [FunctionCall.ofSpan?, closing?]
  | cons t us =>
    unfold FunctionCall.ofSpan?
    dsimp only
    split <;> simp_all

end TableSql
