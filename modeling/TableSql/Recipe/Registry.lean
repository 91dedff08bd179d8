import TableSql.Recipe
import TableSql.Value.Inspect

/-!
# The registry of recipes

Recipes are registered one after the other and kept in the order of their priorities, those of
equal priority in the order in which they came. The first one that computes an aggregate is taken.
An aggregate with a condition that became no filter is computed by none: the filters would let
more rows pass than the statement names.

## Main definitions

* `Registry`, `Registry.register`, `Registry.find?`.
* `Registry.standard` — the recipes that are always there.
-/

namespace TableSql

/-- Recipes in the order in which they are tried. -/
structure Registry where
  recipes : List Recipe

namespace Registry

/-- The registry without recipes. -/
def empty : Registry :=
  ⟨[]⟩

/-- The recipes with one more, behind all recipes whose priority is not lower. -/
def place (r : Recipe) : List Recipe → List Recipe
  | [] => [r]
  | s :: rs => if s.priority < r.priority then r :: s :: rs else s :: place r rs

/-- The registry with one more recipe. -/
def register (g : Registry) (r : Recipe) : Registry :=
  ⟨place r g.recipes⟩

/-- The registry with a list of further recipes. -/
def registerAll (g : Registry) (rs : List Recipe) : Registry :=
  rs.foldl register g

/-- The recipes that are always there. -/
def standard : Registry :=
  empty.registerAll [.monthlySpend .subscriptions, .rowCount]

theorem recipes_standard :
    standard.recipes = [.monthlySpend .subscriptions, .rowCount] := rfl

/-- The first recipe that computes an aggregate. -/
def find? (g : Registry) (shape : AggregateShape Value) : Option Recipe :=
  if shape.exact then g.recipes.find? fun r => r.applies shape else none

/-- The names of the recipes. -/
def ids (g : Registry) : List String :=
  g.recipes.map Recipe.id

/-- The names of the recipes as a list of quoted texts. -/
def inspect (g : Registry) : String :=
  "[" ++ ", ".intercalate (g.ids.map Text.inspect) ++ "]"

theorem mem_place {r s : Recipe} {rs : List Recipe} : s ∈ place r rs ↔ s = r ∨ s ∈ rs := by
  induction rs with
  | nil => simp [place]
  | cons t rs ih =>
    rw [place]
    split
    · simp
    · simp only [List.mem_cons, ih]
      exact or_left_comm

end Registry

end TableSql
