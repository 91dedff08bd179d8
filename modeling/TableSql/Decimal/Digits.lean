/-!
# Decimal digits

Natural numbers and integers in decimal digits, written without leading zeros and read back, and
the two ranges of machine integers that the texts are read into.

## Main definitions

* `Decimal.digits`, `Decimal.value` — the digits of a natural number and the number of a list of
  digits.
* `Decimal.ofInt` — an integer with its sign.
* `Decimal.natural?`, `Decimal.unsigned?`, `Decimal.signed?` — reading digits, digits in the range
  of 64 bits, and signed digits in the range of 64 bits.

## Main results

* `Decimal.value_digits` — the digits of a number read back as the number.
* `Decimal.isDigit_of_mem_digits` — they are digits.
* `Decimal.natural?_digits`, `Decimal.unsigned?_digits`, `Decimal.signed?_ofInt` — written numbers
  are read back.
-/

namespace TableSql.Decimal

/-- The character of a digit. -/
def digit (d : Nat) : Char :=
  Char.ofNat (48 + d)

/-- The number that a digit stands for. -/
def ofDigit (c : Char) : Nat :=
  c.toNat - 48

/-- The decimal digits of a natural number, without leading zeros; zero has one digit. -/
def digits (n : Nat) : List Char :=
  if n < 10 then [digit n] else digits (n / 10) ++ [digit (n % 10)]
termination_by n

/-- The number that a list of digits stands for. -/
def value (ds : List Char) : Nat :=
  ds.foldl (fun n c => 10 * n + ofDigit c) 0

theorem ofDigit_digit {d : Nat} (h : d < 10) : ofDigit (digit d) = d := by
  have : ∀ d : Fin 10, ofDigit (digit d) = d := by decide
  exact this ⟨d, h⟩

theorem isDigit_digit {d : Nat} (h : d < 10) : (digit d).isDigit = true := by
  have : ∀ d : Fin 10, (digit d).isDigit = true := by decide
  exact this ⟨d, h⟩

theorem value_append_singleton (ds : List Char) (c : Char) :
    value (ds ++ [c]) = 10 * value ds + ofDigit c := by
  simp [value, List.foldl_append]

/-- The digits of a number read back as the number. -/
theorem value_digits (n : Nat) : value (digits n) = n := by
  induction n using digits.induct with
  | case1 n h => rw [digits, if_pos h]; simp [value, ofDigit_digit h]
  | case2 n h ih =>
    rw [digits, if_neg h, value_append_singleton, ih, ofDigit_digit (Nat.mod_lt _ (by decide))]
    omega

/-- The digits of a number are digits. -/
theorem isDigit_of_mem_digits {n : Nat} {c : Char} (h : c ∈ digits n) : c.isDigit = true := by
  induction n using digits.induct with
  | case1 n hn =>
    rw [digits, if_pos hn, List.mem_singleton] at h
    exact h ▸ isDigit_digit hn
  | case2 n hn ih =>
    rw [digits, if_neg hn, List.mem_append, List.mem_singleton] at h
    rcases h with h | rfl
    · exact ih h
    · exact isDigit_digit (Nat.mod_lt _ (by decide))

/-- A number has at least one digit. -/
theorem digits_ne_nil (n : Nat) : digits n ≠ [] := by
  rw [digits]
  split <;> simp

/-- An integer: its digits, behind `-` when it is negative. -/
def ofInt : Int → List Char
  | .ofNat n => digits n
  | .negSucc n => '-' :: digits (n + 1)

/-- The decimal text of a natural number. -/
def text (n : Nat) : String :=
  String.ofList (digits n)

/-- The number of a text of digits, at least one. -/
def natural? (cs : List Char) : Option Nat :=
  if cs ≠ [] ∧ cs.all Char.isDigit then some (value cs) else none

/-- The natural numbers below `2 ^ 64`. -/
def isUnsigned (i : Int) : Bool :=
  0 ≤ i && i < 0x10000000000000000

/-- The integers from `- 2 ^ 63` to `2 ^ 63 - 1`. -/
def isSigned (i : Int) : Bool :=
  -0x8000000000000000 ≤ i && i < 0x8000000000000000

/-- A natural number below `2 ^ 64` in digits, after an optional `+`. -/
def unsigned? (cs : List Char) : Option Nat :=
  let body := match cs with
    | '+' :: cs => cs
    | _ => cs
  (natural? body).filter fun n => isUnsigned n

/-- An integer of 64 bits in digits, after an optional sign. -/
def signed? (cs : List Char) : Option Int :=
  let read : Option Int := match cs with
    | '+' :: cs => (natural? cs).map Int.ofNat
    | '-' :: cs => (natural? cs).map fun n => -Int.ofNat n
    | _ => (natural? cs).map Int.ofNat
  read.filter isSigned

/-! ### Written numbers -/

/-- The digits of a number are read back. -/
theorem natural?_digits (n : Nat) : natural? (digits n) = some n := by
  have hdigits : (digits n).all Char.isDigit = true :=
    List.all_eq_true.2 fun _ => isDigit_of_mem_digits
  rw [natural?, if_pos ⟨digits_ne_nil n, hdigits⟩, value_digits]

/-- Digits begin with no sign. -/
theorem digits_ne_cons {c : Char} (hc : c.isDigit = false) (n : Nat) (cs : List Char) :
    digits n ≠ c :: cs := by
  intro h
  have hdigit : c.isDigit = true := isDigit_of_mem_digits (h ▸ List.mem_cons_self)
  rw [hc] at hdigit
  cases hdigit

/-- The digits of a natural number are read back, if it is below `2 ^ 64`. -/
theorem unsigned?_digits {n : Nat} (h : n < UInt64.size) : unsigned? (digits n) = some n := by
  have hunsigned : isUnsigned n = true := by
    simp [isUnsigned, UInt64.size] at h ⊢
    omega
  unfold unsigned?
  dsimp only
  split
  · rename_i cs hplus
    exact absurd hplus (digits_ne_cons (by decide) n cs)
  · rw [natural?_digits, Option.filter_some, hunsigned]
    rfl

/-- An integer of 64 bits is read back from its sign and its digits. -/
theorem signed?_ofInt {i : Int} (h : isSigned i = true) : signed? (ofInt i) = some i := by
  unfold signed?
  dsimp only
  split
  · rename_i cs hplus
    cases i with
    | ofNat n => exact absurd hplus (digits_ne_cons (by decide) n cs)
    | negSucc n => cases hplus
  · rename_i cs hminus
    cases i with
    | ofNat n => exact absurd hminus (digits_ne_cons (by decide) n cs)
    | negSucc n =>
      obtain rfl : digits (n + 1) = cs := (List.cons.inj hminus).2
      rw [natural?_digits, Option.map_some, Option.filter_some]
      exact if_pos h
  · rename_i hplus hminus
    cases i with
    | ofNat n =>
      rw [ofInt, natural?_digits, Option.map_some, Option.filter_some]
      exact if_pos h
    | negSucc n => exact absurd rfl (hminus _)

end TableSql.Decimal
