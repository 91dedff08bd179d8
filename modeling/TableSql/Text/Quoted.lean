/-!
# Texts between quotes

A text stands between two quotes; a quote inside it is written twice. The same rule serves the
string literals of SQL, whose quote is the apostrophe, when they are written and when they are
read.

## Main definitions

* `Text.doubled` — a text with every quote written twice.
* `Text.quoted` — a text between quotes.
* `Text.readQuoted?` — the text up to the closing quote.

## Main results

* `Text.readQuoted?_doubled` — reading takes back what writing produced, up to the closing quote,
  whenever no further quote follows it.
-/

namespace TableSql.Text

/-- The text with every `q` written twice. -/
def doubled (q : Char) : List Char → List Char
  | [] => []
  | c :: cs => if c = q then q :: q :: doubled q cs else c :: doubled q cs

/-- The text between two `q`, every `q` inside it written twice. -/
def quoted (q : Char) (cs : List Char) : List Char :=
  q :: (doubled q cs ++ [q])

/-- Reads on behind an opening `q`. The result is the text with its doubled quotes made single,
and the number of characters read, the closing `q` included. A text that never closes is
refused. -/
def readQuoted? (q : Char) : List Char → Option (List Char × Nat)
  | [] => none
  | [c] => if c = q then some ([], 1) else none
  | c :: d :: cs =>
    if c = q then
      if d = q then (readQuoted? q cs).map fun (text, n) => (q :: text, n + 2)
      else some ([], 1)
    else (readQuoted? q (d :: cs)).map fun (text, n) => (c :: text, n + 1)

/-- Reading a written text gives the text back and takes all of it, if what follows the closing
quote does not start with a quote. -/
theorem readQuoted?_doubled (q : Char) (text rest : List Char) (h : rest.head? ≠ some q) :
    readQuoted? q (doubled q text ++ q :: rest) = some (text, (doubled q text).length + 1) := by
  induction text with
  | nil =>
    cases rest with
    | nil => simp [doubled, readQuoted?]
    | cons d rest =>
      have hd : d ≠ q := by simpa using h
      simp [doubled, readQuoted?, hd]
  | cons c text ih =>
    by_cases hc : c = q
    · subst hc
      simp [doubled, readQuoted?, ih]
    · have hne : ∃ d ds, doubled q text ++ q :: rest = d :: ds := by
        cases hl : doubled q text ++ q :: rest with
        | nil => simp at hl
        | cons d ds => exact ⟨d, ds, rfl⟩
      obtain ⟨d, ds, hd⟩ := hne
      rw [hd] at ih
      simp [doubled, hc, hd, readQuoted?, ih]

end TableSql.Text
