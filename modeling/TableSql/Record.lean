/-!
# Records

A record assigns a value to each of finitely many names. Its entries are kept in the order of the
names, so that two records with the same assignments are equal, and the order in which the
assignments were made never shows. Rows of tables are records, and so are the assigned values of
an insert or an update before and after their parameters are known.

## Main definitions

* `Record` — the entries, in strictly increasing order of their names.
* `Record.get?`, `Record.insert`, `Record.ofList`, `Record.map`, `Record.override`.

## Main results

* `Record.ext` — a record is determined by its entries.
* `Record.eq_or_mem_of_mem_assign` — the entries after an assignment.
* `Record.get?_insert`, `Record.get?_override` — the value of a name after assignments.
-/

namespace TableSql

/-- Assignments of values to names, in strictly increasing order of the names. -/
structure Record (α : Type) where
  entries : List (String × α)
  sorted : entries.Pairwise fun a b => a.1 < b.1

namespace Record

variable {α β : Type}

@[ext]
theorem ext {r s : Record α} (h : r.entries = s.entries) : r = s := by
  cases r
  cases s
  simp only at h
  subst h
  rfl

/-- The record without entries. -/
def empty : Record α :=
  ⟨[], .nil⟩

instance : Inhabited (Record α) := ⟨empty⟩

/-- The value of a name. -/
def get? (r : Record α) (name : String) : Option α :=
  (r.entries.find? fun e => e.1 = name).map Prod.snd

/-- Whether the name has a value. -/
def contains (r : Record α) (name : String) : Bool :=
  r.entries.any fun e => e.1 = name

/-- The names, in increasing order. -/
def names (r : Record α) : List String :=
  r.entries.map Prod.fst

/-- The entries with `name` assigned anew: at its place in the order, in place of its former
value. -/
def assign (name : String) (value : α) : List (String × α) → List (String × α)
  | [] => [(name, value)]
  | e :: es =>
    if name < e.1 then (name, value) :: e :: es
    else if name = e.1 then (name, value) :: es
    else e :: assign name value es

/-- An entry after an assignment is the assigned one, or a former one of another name. -/
theorem eq_or_mem_of_mem_assign {name : String} {value : α} {es : List (String × α)}
    {e : String × α} (h : e ∈ assign name value es) : e = (name, value) ∨ e ∈ es := by
  induction es with
  | nil => simpa [assign] using h
  | cons d ds ih =>
    rw [assign] at h
    split at h
    · simpa using h
    · split at h
      · simp only [List.mem_cons] at h ⊢
        rcases h with h | h
        · exact .inl h
        · exact .inr (.inr h)
      · simp only [List.mem_cons] at h ⊢
        rcases h with h | h
        · exact .inr (.inl h)
        · exact (ih h).imp_right .inr

theorem pairwise_assign (name : String) (value : α) {es : List (String × α)}
    (h : es.Pairwise fun a b => a.1 < b.1) :
    (assign name value es).Pairwise fun a b => a.1 < b.1 := by
  induction es with
  | nil => simp [assign]
  | cons e es ih =>
    rw [List.pairwise_cons] at h
    rw [assign]
    split
    · rename_i hlt
      refine List.pairwise_cons.2 ⟨fun d hd => ?_, List.pairwise_cons.2 h⟩
      rcases List.mem_cons.1 hd with rfl | hd
      · exact hlt
      · exact String.lt_trans hlt (h.1 d hd)
    · split
      · rename_i heq
        refine List.pairwise_cons.2 ⟨fun d hd => ?_, h.2⟩
        simpa only [heq] using h.1 d hd
      · rename_i hlt hne
        refine List.pairwise_cons.2 ⟨fun d hd => ?_, ih h.2⟩
        rcases eq_or_mem_of_mem_assign hd with rfl | hd
        · exact Decidable.byContradiction fun h' =>
            hne (String.le_antisymm (String.not_lt.1 h') (String.not_lt.1 hlt))
        · exact h.1 d hd

/-- The record with `name` assigned anew. -/
def insert (r : Record α) (name : String) (value : α) : Record α :=
  ⟨assign name value r.entries, pairwise_assign name value r.sorted⟩

/-- The record of a list of assignments; of two assignments to one name the later one holds. -/
def ofList (assignments : List (String × α)) : Record α :=
  assignments.foldl (fun r e => r.insert e.1 e.2) empty

/-- The record with one name. -/
def single (name : String) (value : α) : Record α :=
  ⟨[(name, value)], by simp⟩

/-- The record whose values are taken from `s` where `s` has the name, else from `r`. -/
def override (r s : Record α) : Record α :=
  s.entries.foldl (fun r e => r.insert e.1 e.2) r

theorem contains_eq_isSome (r : Record α) (name : String) :
    r.contains name = (r.get? name).isSome := by
  rw [Bool.eq_iff_iff, contains, get?, Option.isSome_map, List.find?_isSome, List.any_eq_true]

/-- An assignment gives its name the value, and leaves the other names as they are. -/
theorem get?_insert (r : Record α) (name other : String) (value : α) :
    (r.insert name value).get? other = if other = name then some value else r.get? other := by
  suffices h : ∀ es : List (String × α),
      ((assign name value es).find? fun e => e.1 = other).map Prod.snd =
        if other = name then some value else (es.find? fun e => e.1 = other).map Prod.snd from
    h r.entries
  intro es
  induction es with
  | nil => by_cases h : other = name <;> simp [assign, h, eq_comm]
  | cons e es ih =>
    rw [assign]
    split
    · by_cases h : other = name <;> simp [h, eq_comm]
    · split
      · rename_i heq
        by_cases h : other = name
        · simp [h]
        · have he : e.1 ≠ other := fun he => h (he.symm.trans heq.symm)
          simp [h, he, Ne.symm h]
      · rename_i hne
        by_cases he : e.1 = other
        · have h : other ≠ name := fun h => hne (h.symm.trans he.symm)
          simp [h, he]
        · simp [he, ih]

/-- The assignments of the second record are made after those of the first one. -/
theorem get?_override (r s : Record α) (name : String) :
    (r.override s).get? name = (s.get? name).or (r.get? name) := by
  suffices h : ∀ (es : List (String × α)) (r : Record α), es.Pairwise (fun a b => a.1 < b.1) →
      (es.foldl (fun r e => r.insert e.1 e.2) r).get? name =
        ((es.find? fun e => e.1 = name).map Prod.snd).or (r.get? name) from
    h s.entries r s.sorted
  intro es
  induction es with
  | nil => intro r _; rfl
  | cons e es ih =>
    intro r hes
    obtain ⟨hfirst, hrest⟩ := List.pairwise_cons.1 hes
    rw [List.foldl_cons, ih _ hrest, get?_insert]
    by_cases he : e.1 = name
    · -- the names increase, so there is no second assignment to this one
      have hnone : es.find? (fun d => d.1 = name) = none := by
        refine List.find?_eq_none.2 fun d hd hname => ?_
        have hlt := hfirst d hd
        rw [he, of_decide_eq_true hname] at hlt
        exact String.lt_irrefl name hlt
      simp [he, hnone]
    · simp [he, Ne.symm he]

/-- The record with a function applied to every value. -/
def map (f : α → β) (r : Record α) : Record β :=
  ⟨r.entries.map fun e => (e.1, f e.2), List.pairwise_map.2 r.sorted⟩

@[simp]
theorem entries_map (f : α → β) (r : Record α) :
    (r.map f).entries = r.entries.map fun e => (e.1, f e.2) := rfl

@[simp]
theorem names_map (f : α → β) (r : Record α) : (r.map f).names = r.names := by
  simp [names]

end Record

end TableSql
