import Mathlib.Data.List.Perm.Basic
import TableSql.Recipe.Registry

/-!
# The order of recipes

A registry is built by registering one recipe after the other, with any priorities. It then holds
what was registered: no recipe is lost or comes twice, those of higher priority stand in front, and
those of one priority stand in the order in which they came. These three facts determine the
registry. So the first recipe that computes an aggregate is the one that should be taken, and if no
two priorities are equal it does not matter in which order the recipes are registered.

## Main definitions

* `Registry.Holds` — what a registry keeps of the recipes that were registered.
* `Registry.byPriority` — recipes sorted by descending priority.
* `Recipe.FirstFor` — the recipe that should be taken for an aggregate.

## Main results

* `Registry.Holds.register`, `Registry.Holds.registerAll` — registering one recipe, and many.
* `Registry.Holds.unique` — the recipes that were registered determine the registry.
* `Registry.Holds.recipes_eq` — they are kept sorted.
* `Registry.Descending.place_eq` — placing a recipe is putting it behind the others and sorting.
* `Registry.Holds.find?_eq_some_iff` — which recipe is taken.
* `Registry.registered_in_order` — all this of registries that start without recipes or with those
  that are always there.
-/

namespace TableSql

/-- Among recipes in the order in which they were registered, this is the one for an aggregate: it
computes it, no other one that does has a higher priority, and of those with the same priority it is
the earliest. -/
inductive Recipe.FirstFor (shape : AggregateShape Value) (r : Recipe) : List Recipe → Prop
  | mk {earlier later : List Recipe} (happlies : r.applies shape = true)
      (hearlier : ∀ s ∈ earlier, s.applies shape = true → s.priority < r.priority)
      (hlater : ∀ s ∈ later, s.applies shape = true → s.priority ≤ r.priority) :
      FirstFor shape r (earlier ++ r :: later)

namespace Registry

/-- The recipes of a priority, in their order. -/
def ofPriority (p : Nat) (rs : List Recipe) : List Recipe :=
  rs.filter fun r => r.priority = p

@[simp]
theorem ofPriority_nil (p : Nat) : ofPriority p [] = [] := rfl

@[simp]
theorem ofPriority_cons (p : Nat) (r : Recipe) (rs : List Recipe) :
    ofPriority p (r :: rs) = if r.priority = p then r :: ofPriority p rs else ofPriority p rs := by
  simp [ofPriority, List.filter_cons]

@[simp]
theorem ofPriority_append (p : Nat) (rs rs' : List Recipe) :
    ofPriority p (rs ++ rs') = ofPriority p rs ++ ofPriority p rs' :=
  List.filter_append ..

theorem mem_ofPriority {p : Nat} {r : Recipe} {rs : List Recipe} :
    r ∈ ofPriority p rs ↔ r ∈ rs ∧ r.priority = p := by
  simp [ofPriority]

/-- Higher priorities stand in front. -/
def Descending (rs : List Recipe) : Prop :=
  rs.Pairwise fun r s => s.priority ≤ r.priority

theorem Descending.le_head {r s : Recipe} {rs : List Recipe} (h : Descending (r :: rs))
    (hs : s ∈ r :: rs) : s.priority ≤ r.priority := by
  rcases List.mem_cons.1 hs with rfl | hs
  · exact Nat.le_refl _
  · exact (List.pairwise_cons.1 h).1 s hs

theorem Descending.tail {r : Recipe} {rs : List Recipe} (h : Descending (r :: rs)) :
    Descending rs :=
  (List.pairwise_cons.1 h).2

/-- The registry holds the recipes that were registered one after the other: exactly these, the ones
of higher priority in front, and those of one priority in the order in which they came. -/
structure Holds (g : Registry) (registered : List Recipe) : Prop where
  perm : g.recipes.Perm registered
  descending : Descending g.recipes
  stable (p : Nat) : ofPriority p g.recipes = ofPriority p registered

/-! ### Placing one recipe -/

section Place

variable (r : Recipe) {rs : List Recipe}

theorem perm_place (rs : List Recipe) : (place r rs).Perm (r :: rs) := by
  induction rs with
  | nil => exact .refl _
  | cons s rs ih =>
    rw [place]
    split
    · exact .refl _
    · exact (ih.cons s).trans (.swap r s rs)

theorem Descending.place (h : Descending rs) : Descending (place r rs) := by
  induction rs with
  | nil => exact List.pairwise_singleton _ _
  | cons s rs ih =>
    rw [Registry.place]
    split
    · rename_i hlt
      exact List.pairwise_cons.2
        ⟨fun t ht => Nat.le_trans (h.le_head ht) (Nat.le_of_lt hlt), h⟩
    · rename_i hle
      refine List.pairwise_cons.2 ⟨fun t ht => ?_, ih h.tail⟩
      rcases mem_place.1 ht with rfl | ht
      · exact Nat.not_lt.1 hle
      · exact h.le_head (List.mem_cons_of_mem s ht)

/-- Among the recipes of its own priority the new one is the last. -/
theorem ofPriority_place (p : Nat) (h : Descending rs) :
    ofPriority p (place r rs) = ofPriority p (rs ++ [r]) := by
  induction rs with
  | nil => rfl
  | cons s rs ih =>
    rw [place]
    split
    · rename_i hlt
      -- All recipes behind the new one have lower priorities.
      have hnone : ofPriority r.priority (s :: rs) = [] := by
        refine List.eq_nil_iff_forall_not_mem.2 fun t ht => ?_
        obtain ⟨ht, hpriority⟩ := mem_ofPriority.1 ht
        have hle := h.le_head ht
        omega
      rw [ofPriority_append, ofPriority_cons p r]
      by_cases hp : r.priority = p
      · subst hp
        simp [hnone]
      · simp [hp]
    · rw [List.cons_append, ofPriority_cons, ofPriority_cons, ih h.tail]

end Place

/-- Lists with the same recipes of every priority, in the same order, are equal if higher priorities
stand in front. -/
theorem Descending.eq_of_ofPriority_eq {rs rs' : List Recipe} (h : Descending rs)
    (h' : Descending rs') (hsame : ∀ p, ofPriority p rs = ofPriority p rs') : rs = rs' := by
  induction rs generalizing rs' with
  | nil =>
    cases rs' with
    | nil => rfl
    | cons r' rs' =>
      have hnone := hsame r'.priority
      simp at hnone
  | cons r rs ih =>
    cases rs' with
    | nil =>
      have hnone := hsame r.priority
      simp at hnone
    | cons r' rs' =>
      have hr : r ∈ ofPriority r.priority (r' :: rs') := by
        rw [← hsame]
        exact mem_ofPriority.2 ⟨List.mem_cons_self, rfl⟩
      have hr' : r' ∈ ofPriority r'.priority (r :: rs) := by
        rw [hsame]
        exact mem_ofPriority.2 ⟨List.mem_cons_self, rfl⟩
      have hpriority : r.priority = r'.priority :=
        Nat.le_antisymm (h'.le_head (mem_ofPriority.1 hr).1) (h.le_head (mem_ofPriority.1 hr').1)
      obtain rfl : r = r' := by
        have hhead := hsame r.priority
        rw [ofPriority_cons, ofPriority_cons, if_pos rfl, if_pos hpriority.symm] at hhead
        exact (List.cons.inj hhead).1
      refine congrArg (r :: ·) (ih h.tail h'.tail fun p => ?_)
      have htail := hsame p
      rw [ofPriority_cons, ofPriority_cons] at htail
      split at htail
      · exact (List.cons.inj htail).2
      · exact htail

/-! ### Registering recipes -/

namespace Holds

variable {g g' : Registry} {registered registered' : List Recipe}

theorem empty : Registry.empty.Holds [] :=
  ⟨.refl _, .nil, fun _ => rfl⟩

/-- One more recipe is registered. -/
theorem register (h : g.Holds registered) (r : Recipe) :
    (g.register r).Holds (registered ++ [r]) where
  perm := by
    have hpush : (r :: registered).Perm (registered ++ [r]) :=
      (List.perm_append_singleton r registered).symm
    exact (perm_place r g.recipes).trans ((h.perm.cons r).trans hpush)
  descending := h.descending.place r
  stable p := by
    have hplace := ofPriority_place r p h.descending
    rw [ofPriority_append, h.stable p] at hplace
    rw [ofPriority_append]
    exact hplace

/-- A list of recipes is registered, from the first one to the last. -/
theorem registerAll (h : g.Holds registered) (rs : List Recipe) :
    (g.registerAll rs).Holds (registered ++ rs) := by
  induction rs generalizing g registered with
  | nil =>
    rw [List.append_nil]
    exact h
  | cons r rs ih =>
    have hrest := ih (h.register r)
    rwa [List.append_assoc] at hrest

theorem standard : Registry.standard.Holds Registry.standard.recipes :=
  empty.registerAll [.monthlySpend .subscriptions, .rowCount]

/-- The recipes that were registered determine the registry, up to the order of those with different
priorities. -/
theorem unique (h : g.Holds registered) (h' : g'.Holds registered')
    (hsame : ∀ p, ofPriority p registered = ofPriority p registered') : g = g' := by
  have hrecipes := h.descending.eq_of_ofPriority_eq h'.descending fun p =>
    (h.stable p).trans ((hsame p).trans (h'.stable p).symm)
  cases g
  cases g'
  exact congrArg Registry.mk hrecipes

/-- If no two of them have the same priority, recipes may be registered in any order. -/
theorem registerAll_eq_of_perm (h : g.Holds registered) {rs rs' : List Recipe} (hperm : rs.Perm rs')
    (hne : rs.Pairwise fun r s => r.priority ≠ s.priority) :
    g.registerAll rs = g.registerAll rs' := by
  refine (h.registerAll rs).unique (h.registerAll rs') fun p => ?_
  rw [ofPriority_append, ofPriority_append]
  refine congrArg (ofPriority p registered ++ ·) ?_
  -- Two recipes of the priority would be a pair with different priorities.
  have hsame {r s : Recipe} (hr : r ∈ ofPriority p rs) (hs : s ∈ ofPriority p rs')
      (hdiffer : r.priority ≠ s.priority) : r = s :=
    absurd ((mem_ofPriority.1 hr).2.trans (mem_ofPriority.1 hs).2.symm) hdiffer
  exact (hperm.filter _).eq_of_pairwise (fun r s hr hs hdiffer _ => hsame hr hs hdiffer)
    (hne.filter _) ((hperm.pairwise hne Ne.symm).filter _)

end Holds

/-! ### Sorting recipes -/

/-- The first recipe may stand in front of the second one. -/
def mayPrecede (r s : Recipe) : Bool :=
  s.priority ≤ r.priority

theorem mayPrecede_iff {r s : Recipe} : mayPrecede r s = true ↔ s.priority ≤ r.priority :=
  decide_eq_true_iff

theorem mayPrecede_trans (r s t : Recipe) (hrs : mayPrecede r s = true)
    (hst : mayPrecede s t = true) : mayPrecede r t = true :=
  mayPrecede_iff.2 (Nat.le_trans (mayPrecede_iff.1 hst) (mayPrecede_iff.1 hrs))

theorem mayPrecede_total (r s : Recipe) : (mayPrecede r s || mayPrecede s r) = true := by
  rw [Bool.or_eq_true, mayPrecede_iff, mayPrecede_iff]
  exact Nat.le_total _ _

/-- The recipes by descending priority, those of one priority in their order. -/
def byPriority (rs : List Recipe) : List Recipe :=
  rs.mergeSort mayPrecede

theorem descending_byPriority (rs : List Recipe) : Descending (byPriority rs) :=
  (List.pairwise_mergeSort mayPrecede_trans mayPrecede_total rs).imp mayPrecede_iff.1

/-- The recipes of one priority are among the sorted ones in their order, and there are no more of
them. -/
theorem ofPriority_byPriority (p : Nat) (rs : List Recipe) :
    ofPriority p (byPriority rs) = ofPriority p rs := by
  have hordered : (ofPriority p rs).Pairwise fun r s => mayPrecede r s = true := by
    refine List.pairwise_of_forall_mem_list fun r hr s hs => mayPrecede_iff.2 ?_
    exact Nat.le_of_eq ((mem_ofPriority.1 hs).2.trans (mem_ofPriority.1 hr).2.symm)
  have hkept : (ofPriority p rs).Sublist (byPriority rs) :=
    List.sublist_mergeSort mayPrecede_trans mayPrecede_total hordered List.filter_sublist
  have hsublist := hkept.filter fun r => r.priority = p
  rw [ofPriority, List.filter_filter] at hsublist
  simp only [Bool.and_self] at hsublist
  refine (hsublist.eq_of_length ?_).symm
  exact ((List.mergeSort_perm rs mayPrecede).filter _).length_eq.symm

namespace Holds

variable {g : Registry} {registered : List Recipe}

/-- A registry holds the recipes as one stable sort of all of them leaves them. -/
theorem recipes_eq (h : g.Holds registered) : g.recipes = byPriority registered :=
  h.descending.eq_of_ofPriority_eq (descending_byPriority registered) fun p =>
    (h.stable p).trans (ofPriority_byPriority p registered).symm

end Holds

/-- To place a recipe among others in order is to put it behind them and to sort them again. -/
theorem Descending.place_eq {rs : List Recipe} (h : Descending rs) (r : Recipe) :
    Registry.place r rs = byPriority (rs ++ [r]) :=
  have hrs : (Registry.mk rs).Holds rs := ⟨.refl rs, h, fun _ => rfl⟩
  (hrs.register r).recipes_eq

/-! ### The recipe that is taken -/

section Find

variable {rs : List Recipe} {r : Recipe}

theorem Descending.le_of_find? {p : Recipe → Bool} (h : Descending rs) (hr : rs.find? p = some r)
    {s : Recipe} (hs : s ∈ rs) (hp : p s = true) : s.priority ≤ r.priority := by
  obtain ⟨-, front, back, rfl, hfront⟩ := List.find?_eq_some_iff_append.1 hr
  rcases List.mem_append.1 hs with hs | hs
  · have hnot := hfront s hs
    rw [hp] at hnot
    cases hnot
  · exact Descending.le_head (List.pairwise_append.1 h).2.1 hs

/-- The first recipe of a class is also the first one among those of its priority. -/
theorem find?_ofPriority_of_find? {p : Recipe → Bool} (h : rs.find? p = some r) :
    (ofPriority r.priority rs).find? p = some r := by
  obtain ⟨hr, front, back, rfl, hfront⟩ := List.find?_eq_some_iff_append.1 h
  have hnone : (ofPriority r.priority front).find? p = none :=
    List.find?_eq_none.2 fun s hs => by simpa using hfront s (mem_ofPriority.1 hs).1
  rw [ofPriority_append, List.find?_append, hnone, ofPriority_cons, if_pos rfl]
  simp [hr]

/-- Where higher priorities stand in front, the first recipe of a class is the one that has the
highest priority in it, and is the first of those. -/
theorem Descending.find?_eq_some_iff {p : Recipe → Bool} (h : Descending rs) :
    rs.find? p = some r ↔ (ofPriority r.priority rs).find? p = some r ∧
      ∀ s ∈ rs, p s = true → s.priority ≤ r.priority := by
  refine ⟨fun hr => ⟨find?_ofPriority_of_find? hr, fun s hs => h.le_of_find? hr hs⟩, ?_⟩
  rintro ⟨hr, hmax⟩
  have hp : p r = true := List.find?_some hr
  have hmem := (mem_ofPriority.1 (List.mem_of_find?_eq_some hr)).1
  obtain ⟨r', hr'⟩ := Option.isSome_iff_exists.1 (List.find?_isSome.2 ⟨r, hmem, hp⟩)
  have hpriority : r'.priority = r.priority :=
    Nat.le_antisymm (hmax r' (List.mem_of_find?_eq_some hr') (List.find?_some hr'))
      (h.le_of_find? hr' hmem hp)
  have hfirst := find?_ofPriority_of_find? hr'
  rw [hpriority, hr] at hfirst
  rw [hr', hfirst]

theorem firstFor_iff {shape : AggregateShape Value} :
    r.FirstFor shape rs ↔ (ofPriority r.priority rs).find? (·.applies shape) = some r ∧
      ∀ s ∈ rs, s.applies shape = true → s.priority ≤ r.priority := by
  constructor
  · rintro ⟨happlies, hearlier, hlater⟩
    rename_i earlier later
    have hnone : (ofPriority r.priority earlier).find? (·.applies shape) = none := by
      refine List.find?_eq_none.2 fun s hs happlies => ?_
      obtain ⟨hs, hpriority⟩ := mem_ofPriority.1 hs
      exact Nat.ne_of_lt (hearlier s hs happlies) hpriority
    constructor
    · rw [ofPriority_append, List.find?_append, hnone, ofPriority_cons, if_pos rfl]
      simp [happlies]
    · intro s hs hs'
      rcases List.mem_append.1 hs with hs | hs
      · exact Nat.le_of_lt (hearlier s hs hs')
      · rcases List.mem_cons.1 hs with rfl | hs
        · exact Nat.le_refl _
        · exact hlater s hs hs'
  · rintro ⟨hr, hmax⟩
    rw [ofPriority, List.find?_filter] at hr
    obtain ⟨happlies, earlier, later, rfl, hearlier⟩ := List.find?_eq_some_iff_append.1 hr
    refine .mk (by simpa using happlies) (fun s hs hs' => ?_) fun s hs =>
      hmax s (List.mem_append_right earlier (List.mem_cons_of_mem r hs))
    have hnot := hearlier s hs
    simp only [hs', and_true, decide_eq_true_eq, Bool.not_eq_true', decide_eq_false_iff_not] at hnot
    exact Nat.lt_of_le_of_ne (hmax s (List.mem_append_left _ hs) hs') hnot

end Find

namespace Holds

variable {g : Registry} {registered : List Recipe} {shape : AggregateShape Value} {r : Recipe}

/-- The recipe that is taken for an exact shape is the earliest one of the highest priority among
those that compute it. -/
theorem find?_eq_some_iff (h : g.Holds registered) :
    g.find? shape = some r ↔ shape.exact = true ∧ r.FirstFor shape registered := by
  rw [firstFor_iff, ← h.stable, find?]
  have hmem (s : Recipe) : s ∈ registered ↔ s ∈ g.recipes := h.perm.mem_iff.symm
  simp only [hmem]
  rw [← h.descending.find?_eq_some_iff]
  cases shape.exact <;> simp

/-- No recipe is taken for a shape that is not exact, or that no recipe computes. -/
theorem find?_eq_none_iff (h : g.Holds registered) :
    g.find? shape = none ↔ shape.exact = false ∨ ∀ r ∈ registered, r.applies shape = false := by
  have hmem (s : Recipe) : s ∈ registered ↔ s ∈ g.recipes := h.perm.mem_iff.symm
  rw [find?]
  cases shape.exact <;> simp [hmem]

end Holds

/-- Recipes that are registered one after the other, from no recipes on or from those that are
always there, are all held and no others, by descending priority and, where priorities are equal, in
the order in which they were registered. For an exact shape the earliest one of the highest priority
is taken among those that compute it, and for any other shape none. A recipe computes an aggregate
whose shape it recognises if there is a filter on every column that it demands one on. If no two of
the priorities are equal, the recipes may be registered in any order. -/
theorem registered_in_order {start : Registry} (hstart : start ∈ [empty, standard])
    (rs : List Recipe) :
    (start.registerAll rs).Holds (start.recipes ++ rs) ∧
      (∀ shape r, (start.registerAll rs).find? shape = some r ↔
        shape.exact = true ∧ r.FirstFor shape (start.recipes ++ rs)) ∧
      (∀ shape, (start.registerAll rs).find? shape = none ↔
        shape.exact = false ∨ ∀ r ∈ start.recipes ++ rs, r.applies shape = false) ∧
      (∀ (shape : AggregateShape Value) (r : Recipe), r.applies shape = true ↔
        r.recognises shape = true ∧ ∀ column ∈ r.required, ∃ f ∈ shape.filters, f.column = column) ∧
      ∀ rs', rs.Perm rs' → (rs.Pairwise fun r s => r.priority ≠ s.priority) →
        start.registerAll rs = start.registerAll rs' := by
  have hholds : start.Holds start.recipes := by
    rcases List.mem_pair.1 hstart with rfl | rfl
    · exact .empty
    · exact .standard
  have hall := hholds.registerAll rs
  exact ⟨hall, fun shape r => hall.find?_eq_some_iff, fun shape => hall.find?_eq_none_iff,
    fun shape r => Recipe.applies_iff, fun rs' => hholds.registerAll_eq_of_perm⟩

/-- Two recipes for a maximum, registered in both orders. The one of higher priority demands a
filter on `user_id`, and where there is none the other one is taken. -/
theorem registered_in_order_maxima :
    let low := Recipe.cellSum "low" "max" "MAX" "a" 50 []
    let high := Recipe.cellSum "high" "max" "MAX" "a" 500 ["user_id"]
    let shape (columns : List String) : AggregateShape Value :=
      ⟨"t", "MAX", "a", true, ["max", "a"], false, none, columns.map fun w => ⟨w, .int 1⟩, true⟩
    standard ∈ [empty, standard] ∧
      (standard.registerAll [low, high]).ids = ["high", "monthly_spend", "row_count", "low"] ∧
      (standard.registerAll [low, high]).Holds (standard.recipes ++ [low, high]) ∧
      (standard.registerAll [low, high]).find? (shape ["name", "user_id"]) = some high ∧
      high.FirstFor (shape ["name", "user_id"]) (standard.recipes ++ [low, high]) ∧
      (standard.registerAll [low, high]).find? (shape ["name"]) = some low ∧
      low.FirstFor (shape ["name"]) (standard.recipes ++ [low, high]) ∧
      [low, high].Perm [high, low] ∧
      ([low, high].Pairwise fun r s => r.priority ≠ s.priority) ∧
      standard.registerAll [low, high] = standard.registerAll [high, low] := by
  intro low high shape
  have hstart : standard ∈ [empty, standard] := List.mem_pair.2 (.inr rfl)
  have hperm : [low, high].Perm [high, low] := .swap high low []
  have hne : [low, high].Pairwise fun r s => r.priority ≠ s.priority :=
    List.pairwise_pair.2 (by decide)
  obtain ⟨hholds, hfind, -, -, hany⟩ := registered_in_order hstart [low, high]
  have hscoped : (standard.registerAll [low, high]).find? (shape ["name", "user_id"]) = some high :=
    rfl
  have hunscoped : (standard.registerAll [low, high]).find? (shape ["name"]) = some low := rfl
  exact ⟨hstart, rfl, hholds, hscoped, ((hfind _ _).1 hscoped).2, hunscoped,
    ((hfind _ _).1 hunscoped).2, hperm, hne, hany _ hperm hne⟩

end Registry

end TableSql
