import ClusterScheduler.Resource.Order

/-!
# Laws of the resource order

Rows are compared key by key, the first key on which they differ deciding, and equal rows by
their external ids. Whatever the values, the comparison is antisymmetric, and it calls two rows
equal only when their ids are. It is transitive on rows whose values, in every key's column, are
all 64-bit integers or all text: a key then compares a value of a linear order (an optional
integer, or an optional text, a missing value first), and the whole comparison is lexicographic.
A column that mixes both is compared as integers between two integers and as text otherwise, and
that is not transitive: `2 < 10` as integers, `10 < 1a` and `1a < 2` as text.
-/

namespace ClusterScheduler

namespace SortKey

def compareRows (k : SortKey) (a b : ResourceRow) : Ordering :=
  let c := ResourceOrder.compareValues (a.value k.column) (b.value k.column)
  if k.descending then c.swap else c

/-- In the column of `k` the rows' values all read as 64-bit integers, or none does; a row may
also have no value there. -/
def Uniform (k : SortKey) (rows : List ResourceRow) : Prop :=
  (∀ r ∈ rows, ∀ v, r.value k.column = some v → (Word.i64.parse v.toList).isSome) ∨
  (∀ r ∈ rows, ∀ v, r.value k.column = some v → Word.i64.parse v.toList = none)

end SortKey

namespace ResourceOrder

theorem compare_eq_foldr (o : ResourceOrder) (a b : ResourceRow) :
    o.compare a b = o.keys.foldr (fun k acc => (k.compareRows a b).then acc) (Ord.compare a.id b.id) := by
  obtain ⟨keys⟩ := o
  simp only [compare]
  induction keys with
  | nil => rfl
  | cons k ks ih =>
    rw [List.findSome?_cons, List.foldr_cons, ← ih]
    have hk : (if (if k.descending = true then
        (compareValues (a.value k.column) (b.value k.column)).swap
        else compareValues (a.value k.column) (b.value k.column)) = .eq then none
        else some (if k.descending = true then
          (compareValues (a.value k.column) (b.value k.column)).swap
          else compareValues (a.value k.column) (b.value k.column))) =
        if k.compareRows a b = .eq then none else some (k.compareRows a b) := rfl
    rw [hk]
    cases k.compareRows a b <;> rfl

/-! ## Antisymmetry and equality -/

theorem compareValues_swap (x y : Option String) : compareValues y x = (compareValues x y).swap := by
  cases x with
  | none => cases y <;> rfl
  | some a =>
    cases y with
    | none => rfl
    | some b =>
      simp only [compareValues]
      cases Word.i64.parse a.toList <;> cases Word.i64.parse b.toList <;>
        exact Std.OrientedOrd.eq_swap

theorem compareRows_swap (k : SortKey) (a b : ResourceRow) :
    k.compareRows b a = (k.compareRows a b).swap := by
  simp only [SortKey.compareRows]
  rw [compareValues_swap (a.value k.column)]
  split <;> simp

theorem compare_swap (o : ResourceOrder) (a b : ResourceRow) : o.compare b a = (o.compare a b).swap := by
  rw [compare_eq_foldr, compare_eq_foldr]
  induction o.keys with
  | nil => exact Std.OrientedOrd.eq_swap
  | cons k ks ih => rw [List.foldr_cons, List.foldr_cons, ih, compareRows_swap, Ordering.swap_then]

theorem compareValues_self (x : Option String) : compareValues x x = .eq := by
  cases x with
  | none => rfl
  | some a =>
    simp only [compareValues]
    cases Word.i64.parse a.toList <;> exact Std.ReflOrd.compare_self

theorem compare_self (o : ResourceOrder) (a : ResourceRow) : o.compare a a = .eq := by
  rw [compare_eq_foldr]
  induction o.keys with
  | nil => exact Std.ReflOrd.compare_self
  | cons k ks ih =>
    have hk : k.compareRows a a = .eq := by simp [SortKey.compareRows, compareValues_self]
    rw [List.foldr_cons, hk, ih]
    rfl

theorem id_eq_of_compare_eq {o : ResourceOrder} {a b : ResourceRow} (h : o.compare a b = .eq) :
    a.id = b.id := by
  obtain ⟨keys⟩ := o
  rw [compare_eq_foldr] at h
  simp only at h
  induction keys with
  | nil => exact Std.LawfulEqOrd.eq_of_compare h
  | cons k ks ih =>
    rw [List.foldr_cons, Ordering.then_eq_eq] at h
    exact ih h.2

/-! ## Transitivity on columns of one kind -/

def Uniform (o : ResourceOrder) (rows : List ResourceRow) : Prop := ∀ k ∈ o.keys, k.Uniform rows

def numberIn (col : String) (r : ResourceRow) : Option Int :=
  (r.value col).bind fun v => Word.i64.parse v.toList

theorem compareValues_of_numbers {x y : Option String}
    (hx : ∀ v, x = some v → (Word.i64.parse v.toList).isSome)
    (hy : ∀ v, y = some v → (Word.i64.parse v.toList).isSome) :
    compareValues x y =
      Ord.compare (x.bind fun v => Word.i64.parse v.toList) (y.bind fun v => Word.i64.parse v.toList) := by
  cases x with
  | none =>
    cases y with
    | none => rfl
    | some b =>
      obtain ⟨j, hj⟩ := Option.isSome_iff_exists.1 (hy b rfl)
      simp only [Option.bind_none, Option.bind_some, hj]
      rfl
  | some a =>
    obtain ⟨i, hi⟩ := Option.isSome_iff_exists.1 (hx a rfl)
    cases y with
    | none =>
      simp only [Option.bind_none, Option.bind_some, hi]
      rfl
    | some b =>
      obtain ⟨j, hj⟩ := Option.isSome_iff_exists.1 (hy b rfl)
      simp only [compareValues, Option.bind_some, hi, hj]
      rfl

theorem compareValues_of_texts {x y : Option String}
    (hx : ∀ v, x = some v → Word.i64.parse v.toList = none)
    (hy : ∀ v, y = some v → Word.i64.parse v.toList = none) :
    compareValues x y = Ord.compare x y := by
  cases x with
  | none => cases y <;> rfl
  | some a =>
    cases y with
    | none => rfl
    | some b =>
      simp only [compareValues, hx a rfl, hy b rfl]
      rfl

theorem compareRows_uniform {k : SortKey} {rows : List ResourceRow} (hk : k.Uniform rows) :
    ∃ cmp : ResourceRow → ResourceRow → Ordering, Std.TransCmp cmp ∧
      ∀ a ∈ rows, ∀ b ∈ rows, k.compareRows a b = cmp a b := by
  -- the lawful comparison reads the column as integers or as text, reversed for a descending key
  have hdir : ∀ (cmp : ResourceRow → ResourceRow → Ordering), Std.TransCmp cmp →
      (∀ a ∈ rows, ∀ b ∈ rows, compareValues (a.value k.column) (b.value k.column) = cmp a b) →
      ∃ cmp' : ResourceRow → ResourceRow → Ordering, Std.TransCmp cmp' ∧
        ∀ a ∈ rows, ∀ b ∈ rows, k.compareRows a b = cmp' a b := by
    intro cmp hcmp hval
    cases hd : k.descending with
    | false => exact ⟨cmp, hcmp, fun a ha b hb => by simp [SortKey.compareRows, hd, hval a ha b hb]⟩
    | true =>
      refine ⟨fun a b => cmp b a, inferInstance, fun a ha b hb => ?_⟩
      simp only [SortKey.compareRows, hd, if_true, hval a ha b hb]
      exact (Std.OrientedCmp.eq_swap).symm
  rcases hk with hnum | htext
  · refine hdir (compareOn (numberIn k.column)) inferInstance fun a ha b hb => ?_
    exact compareValues_of_numbers (hnum a ha) (hnum b hb)
  · refine hdir (compareOn fun r => r.value k.column) inferInstance fun a ha b hb => ?_
    exact compareValues_of_texts (htext a ha) (htext b hb)

/-- On rows where no key's column mixes integers and text, the order is a lexicographic
comparison of lawful ones. -/
theorem compare_uniform {o : ResourceOrder} {rows : List ResourceRow} (hu : o.Uniform rows) :
    ∃ cmp : ResourceRow → ResourceRow → Ordering, Std.TransCmp cmp ∧
      ∀ a ∈ rows, ∀ b ∈ rows, o.compare a b = cmp a b := by
  obtain ⟨keys⟩ := o
  simp only [Uniform] at hu
  have hchain : ∃ cmp : ResourceRow → ResourceRow → Ordering, Std.TransCmp cmp ∧
      ∀ a ∈ rows, ∀ b ∈ rows,
        keys.foldr (fun k acc => (k.compareRows a b).then acc) (Ord.compare a.id b.id) = cmp a b := by
    induction keys with
    | nil => exact ⟨compareOn ResourceRow.id, inferInstance, fun a _ b _ => rfl⟩
    | cons k ks ih =>
      obtain ⟨cmpk, hk, hkeq⟩ := compareRows_uniform (hu k List.mem_cons_self)
      obtain ⟨cmps, hs, hseq⟩ := ih fun k' hk' => hu k' (List.mem_cons_of_mem _ hk')
      refine ⟨compareLex cmpk cmps, inferInstance, fun a ha b hb => ?_⟩
      rw [List.foldr_cons, hkeq a ha b hb, hseq a ha b hb]
      rfl
  obtain ⟨cmp, hcmp, heq⟩ := hchain
  exact ⟨cmp, hcmp, fun a ha b hb => by rw [compare_eq_foldr]; exact heq a ha b hb⟩

theorem compare_trans {o : ResourceOrder} {rows : List ResourceRow} (hu : o.Uniform rows)
    {a b c : ResourceRow} (ha : a ∈ rows) (hb : b ∈ rows) (hc : c ∈ rows)
    (hab : o.compare a b = .lt) (hbc : o.compare b c = .lt) : o.compare a c = .lt := by
  obtain ⟨cmp, hcmp, heq⟩ := compare_uniform hu
  rw [heq a ha b hb] at hab
  rw [heq b hb c hc] at hbc
  rw [heq a ha c hc]
  exact Std.TransCmp.lt_trans hab hbc

end ResourceOrder

end ClusterScheduler
