/-!
# Blank characters

The characters of the Unicode property `White_Space`, and the removal of blanks at the two ends
of a text. Statements, numbers in text cells and cycle names are trimmed with this rule. The
scanner of statements skips fewer characters between tokens: only the ASCII blanks
`Text.isLineBlank`.

## Main definitions

* `Text.isBlank` — the property `White_Space`.
* `Text.trim`, `Text.trimmed` — a text without the blanks at its ends.
* `Text.isLineBlank` — space, tab, carriage return and line feed.

## Main results

* `Text.exists_trimEnd_append` — what trimming at the end removes are blanks.
-/

namespace TableSql.Text

/-- The characters of the Unicode property `White_Space`. -/
def isBlank (c : Char) : Bool :=
  let n := c.toNat
  (0x09 ≤ n && n ≤ 0x0D) || n == 0x20 || n == 0x85 || n == 0xA0 || n == 0x1680 ||
    (0x2000 ≤ n && n ≤ 0x200A) || n == 0x2028 || n == 0x2029 || n == 0x202F || n == 0x205F ||
    n == 0x3000

/-- Space, tab, carriage return and line feed: the blanks that separate tokens. -/
def isLineBlank (c : Char) : Bool :=
  c == ' ' || c == '\t' || c == '\r' || c == '\n'

/-- A text without the blanks at its end. -/
def trimEnd (cs : List Char) : List Char :=
  (cs.reverse.dropWhile isBlank).reverse

/-- A text without the blanks at either end. -/
def trim (cs : List Char) : List Char :=
  trimEnd (cs.dropWhile isBlank)

/-- Trimming at the end removes blanks and nothing else. -/
theorem exists_trimEnd_append (cs : List Char) :
    ∃ blanks : List Char, blanks.all isBlank = true ∧ trimEnd cs ++ blanks = cs := by
  refine ⟨(cs.reverse.takeWhile isBlank).reverse, ?_, ?_⟩
  · rw [List.all_reverse]
    exact List.all_takeWhile
  · rw [trimEnd, ← List.reverse_append, List.takeWhile_append_dropWhile, List.reverse_reverse]

/-- The string form of `trim`. -/
def trimmed (s : String) : String :=
  String.ofList (trim s.toList)

end TableSql.Text
