import Mathlib.Data.List.Perm.Basic
import ClusterScheduler.Proofs.MatchGrowth

/-!
# The shape of what a request takes

In a hierarchy whose groups of each level are pairwise disjoint, a request takes one part per
group, each among the available resources of its group's filter that the parts before it left, so
the parts are disjoint. A part holds as many ids as the product of its group's counts when the
innermost level is a unit level, and is otherwise made of that many whole groups of the innermost
level, so that no such group is taken in part; a contiguous matcher takes one run of consecutive
ids.

The scattered matcher is followed down its levels. A walk over the groups of a level takes its
pieces from distinct groups, and a unit level over nested levels takes its pieces from distinct
ids: either way the pieces lie in pairwise disjoint sets, and their number is the level's count
(`sized_unionAll`).
-/

namespace ClusterScheduler

namespace IdSet

theorem disjoint_iff_inter_isEmpty {a b : IdSet} : a.Disjoint b ↔ (a ∩ b).isEmpty = true := by
  rw [isEmpty_iff]
  constructor
  · intro h x hx
    exact h (mem_inter.1 hx).1 (mem_inter.1 hx).2
  · intro h x ha hb
    exact h x (mem_inter.2 ⟨ha, hb⟩)

instance (a b : IdSet) : Decidable (a.Disjoint b) :=
  decidable_of_iff _ disjoint_iff_inter_isEmpty.symm

theorem disjoint_ofIds_single {i j : Nat} (h : i ≠ j) : (ofIds [i]).Disjoint (ofIds [j]) := by
  intro x hi hj
  rw [mem_ofIds, List.mem_singleton] at hi hj
  exact h (hi.symm.trans hj)

/-! ## Unions of lists of sets -/

theorem mem_foldl_union {x : Nat} : ∀ (sets : List IdSet) (acc : IdSet),
    x ∈ sets.foldl (· ∪ ·) acc ↔ x ∈ acc ∨ ∃ s ∈ sets, x ∈ s
  | [], acc => by simp
  | s :: rest, acc => by
    rw [List.foldl_cons, mem_foldl_union rest, mem_union]
    simp only [List.mem_cons, exists_eq_or_imp]
    tauto

@[simp] theorem mem_unionAll {x : Nat} {sets : List IdSet} :
    x ∈ Hierarchy.unionAll sets ↔ ∃ s ∈ sets, x ∈ s := by
  rw [Hierarchy.unionAll, mem_foldl_union]
  simp

theorem unionAll_cons (s : IdSet) (rest : List IdSet) :
    Hierarchy.unionAll (s :: rest) = s ∪ Hierarchy.unionAll rest :=
  ext fun x => by simp

theorem disjoint_unionAll {a : IdSet} {sets : List IdSet} (h : ∀ s ∈ sets, a.Disjoint s) :
    a.Disjoint (Hierarchy.unionAll sets) := by
  intro x ha hx
  obtain ⟨s, hs, hxs⟩ := mem_unionAll.1 hx
  exact h s hs ha hxs

theorem mem_unionAll_snd {κ : Type} {pieces : List (κ × IdSet)} {x : Nat} :
    x ∈ Hierarchy.unionAll (pieces.map Prod.snd) ↔ ∃ q ∈ pieces, x ∈ q.2 := by
  rw [mem_unionAll]
  constructor
  · rintro ⟨s, hs, hx⟩
    obtain ⟨q, hq, rfl⟩ := List.mem_map.1 hs
    exact ⟨q, hq, hx⟩
  · rintro ⟨q, hq, hx⟩
    exact ⟨q.2, List.mem_map_of_mem hq, hx⟩

theorem card_unionAll {n : Nat} : ∀ {sets : List IdSet}, sets.Pairwise Disjoint →
    (∀ s ∈ sets, s.card = n) → (Hierarchy.unionAll sets).card = sets.length * n
  | [], _, _ => by
    rw [List.length_nil, Nat.zero_mul]
    rfl
  | s :: rest, hd, hn => by
    obtain ⟨hs, hrest⟩ := List.pairwise_cons.1 hd
    rw [unionAll_cons, card_union (disjoint_unionAll hs), hn s List.mem_cons_self,
      card_unionAll hrest fun t ht => hn t (List.mem_cons_of_mem _ ht), List.length_cons,
      Nat.succ_mul, Nat.add_comm]

theorem pieces_disjoint {κ : Type} (key : κ → IdSet) {pieces : List (κ × IdSet)}
    (hkeys : (pieces.map Prod.fst).Pairwise fun a b => (key a).Disjoint (key b))
    (hsub : ∀ q ∈ pieces, q.2 ⊆ key q.1) : (pieces.map Prod.snd).Pairwise Disjoint := by
  rw [List.pairwise_map] at hkeys ⊢
  exact hkeys.imp_of_mem fun ha hb hd => hd.mono (hsub _ ha) (hsub _ hb)

end IdSet

namespace Hierarchy

open IdSet

/-! ## Partitioned hierarchies and shapes -/

def Partitioned (h : Hierarchy) : Prop :=
  ∀ e ∈ h.levels, (e.2.groups.getD []).Pairwise fun a b => a.resources.Disjoint b.resources

instance (h : Hierarchy) : Decidable h.Partitioned :=
  inferInstanceAs (Decidable (∀ e ∈ h.levels,
    (e.2.groups.getD []).Pairwise fun a b => a.resources.Disjoint b.resources))

theorem Partitioned.groups {h : Hierarchy} (hp : h.Partitioned) {name : String}
    {gs : List Group} (hgs : h.groups? name = some gs) :
    gs.Pairwise fun a b => a.resources.Disjoint b.resources := by
  simp only [groups?, level?, Option.bind_eq_some_iff] at hgs
  obtain ⟨l, hl, hgs⟩ := hgs
  obtain ⟨l₁, l₂, hsplit, -⟩ := List.lookup_eq_some_iff.1 hl
  have := hp (name, l) (by rw [hsplit]; simp)
  rwa [hgs] at this

def countProduct (levels : List LevelCount) : Nat := levels.foldr (fun l n => l.count * n) 1

@[simp] theorem countProduct_nil : countProduct [] = 1 := rfl

@[simp] theorem countProduct_cons (l : LevelCount) (inner : List LevelCount) :
    countProduct (l :: inner) = l.count * countProduct inner := rfl

def WholeGroups (h : Hierarchy) (name : String) (A : IdSet) (n : Nat) (R : IdSet) : Prop :=
  ∃ chosen : List Group, chosen.length = n ∧
    (∀ c ∈ chosen, c ∈ (h.groups? name).getD [] ∧ c.resources ⊆ A) ∧
    (chosen.Pairwise fun a b => a.resources.Disjoint b.resources) ∧
    ∀ x, x ∈ R ↔ ∃ c ∈ chosen, x ∈ c.resources

/-- What nested level counts take among free resources: as many ids as the product of the
counts when the innermost level is a unit level, else that many whole innermost groups. -/
def Sized (h : Hierarchy) (free : IdSet) (levels : List LevelCount) (R : IdSet) : Prop :=
  (∀ l, levels.getLast? = some l → h.isUnit l.level = true → R.card = countProduct levels) ∧
    ∀ l, levels.getLast? = some l → h.isUnit l.level = false →
      WholeGroups h l.level free (countProduct levels) R

namespace WholeGroups

variable {h : Hierarchy} {name : String}

theorem mono {A A' : IdSet} {n : Nat} {R : IdSet} (hw : WholeGroups h name A n R) (hA : A ⊆ A') :
    WholeGroups h name A' n R := by
  obtain ⟨chosen, hlen, hin, hd, hmem⟩ := hw
  exact ⟨chosen, hlen, fun c hc => ⟨(hin c hc).1, Subset.trans (hin c hc).2 hA⟩, hd, hmem⟩

theorem union {A B : IdSet} {n m : Nat} {R R' : IdSet} (hw : WholeGroups h name A n R)
    (hw' : WholeGroups h name B m R') (hAB : A.Disjoint B) :
    WholeGroups h name (A ∪ B) (n + m) (R ∪ R') := by
  obtain ⟨chosen, hlen, hin, hd, hmem⟩ := hw
  obtain ⟨chosen', hlen', hin', hd', hmem'⟩ := hw'
  refine ⟨chosen ++ chosen', by rw [List.length_append, hlen, hlen'], ?_, ?_, ?_⟩
  · intro c hc
    rcases List.mem_append.1 hc with hc | hc
    · exact ⟨(hin c hc).1, Subset.trans (hin c hc).2 (subset_union_left A B)⟩
    · exact ⟨(hin' c hc).1, Subset.trans (hin' c hc).2 (subset_union_right A B)⟩
  · -- groups of the two sides lie in the disjoint sets `A` and `B`
    refine List.pairwise_append.2 ⟨hd, hd', fun c hc c' hc' => ?_⟩
    exact hAB.mono (hin c hc).2 (hin' c' hc').2
  · intro x
    rw [mem_union, hmem, hmem']
    simp only [List.mem_append]
    constructor
    · rintro (⟨c, hc, hx⟩ | ⟨c, hc, hx⟩)
      · exact ⟨c, .inl hc, hx⟩
      · exact ⟨c, .inr hc, hx⟩
    · rintro ⟨c, hc | hc, hx⟩
      · exact .inl ⟨c, hc, hx⟩
      · exact .inr ⟨c, hc, hx⟩

theorem unionAll {κ : Type} (key : κ → IdSet) {n : Nat} : ∀ {pieces : List (κ × IdSet)},
    ((pieces.map Prod.fst).Pairwise fun a b => (key a).Disjoint (key b)) →
    (∀ q ∈ pieces, WholeGroups h name (key q.1) n q.2) →
    WholeGroups h name (Hierarchy.unionAll (pieces.map fun q => key q.1)) (pieces.length * n)
      (Hierarchy.unionAll (pieces.map Prod.snd))
  | [], _, _ => ⟨[], by simp, by simp, .nil, by simp⟩
  | q :: rest, hkeys, hw => by
    rw [List.map_cons, List.pairwise_cons] at hkeys
    have hrest := unionAll key hkeys.2 fun q' hq' => hw q' (List.mem_cons_of_mem _ hq')
    have hq := hw q List.mem_cons_self
    have hdisj : (key q.1).Disjoint (Hierarchy.unionAll (rest.map fun q => key q.1)) := by
      apply disjoint_unionAll
      intro s hs
      obtain ⟨q', hq', rfl⟩ := List.mem_map.1 hs
      exact hkeys.1 q'.1 (List.mem_map_of_mem hq')
    simp only [List.map_cons, unionAll_cons, List.length_cons, Nat.succ_mul, Nat.add_comm _ n]
    exact hq.union hrest hdisj

theorem no_half {A : IdSet} {n : Nat} {R : IdSet} (hp : h.Partitioned)
    (hw : WholeGroups h name A n R) :
    ∀ g ∈ (h.groups? name).getD [], g.resources ⊆ R ∨ g.resources.Disjoint R := by
  obtain ⟨chosen, -, hin, -, hmem⟩ := hw
  intro g hg
  by_cases hc : g ∈ chosen
  · exact .inl fun x hx => (hmem x).2 ⟨g, hc, hx⟩
  · -- a chosen group other than `g` is another group of the level, so disjoint from it
    refine .inr fun x hx hxR => ?_
    obtain ⟨c, hc', hxc⟩ := (hmem x).1 hxR
    have hne : g ≠ c := fun e => hc (e ▸ hc')
    cases hgs : h.groups? name with
    | none =>
      rw [hgs] at hg
      cases hg
    | some gs =>
      rw [hgs] at hg
      have hcg := (hin c hc').1
      rw [hgs] at hcg
      have : Std.Symm fun a b : Group => a.resources.Disjoint b.resources :=
        ⟨fun _ _ hd => hd.symm⟩
      exact (hp.groups hgs).forall hg hcg hne hx hxc

end WholeGroups

/-! ## Pieces of the scattered matcher -/

section Collect

variable {f : Nat → Logged (Option IdSet)} {need : Nat}

theorem collectSpan_pieces : ∀ (left start : Nat) (found : List IdSet) {out : List IdSet},
    (collectSpan f need found start left).result = .ok out →
    ∃ pieces : List (Nat × IdSet), (pieces.map Prod.fst).Sublist (List.range' start left) ∧
      (∀ q ∈ pieces, (f q.1).result = .ok (some q.2)) ∧ out = found ++ pieces.map Prod.snd
  | 0, _, found, out, h => by
    simp only [collectSpan, Logged.result_pure, Except.ok.injEq] at h
    exact ⟨[], by simp, by simp, by simp [h]⟩
  | left + 1, start, found, out, h => by
    simp only [collectSpan] at h
    split at h
    · simp only [Logged.result_pure, Except.ok.injEq] at h
      exact ⟨[], by simp, by simp, by simp [h]⟩
    · obtain ⟨v, hv, h⟩ := Logged.result_bind_ok h
      rw [List.range'_succ]
      cases v with
      | none =>
        obtain ⟨pieces, hsub, hf, rfl⟩ := collectSpan_pieces left (start + 1) found h
        exact ⟨pieces, hsub.cons _, hf, rfl⟩
      | some s =>
        obtain ⟨pieces, hsub, hf, rfl⟩ := collectSpan_pieces left (start + 1) (found ++ [s]) h
        refine ⟨(start, s) :: pieces, ?_, ?_, by simp⟩
        · rw [List.map_cons]
          exact hsub.cons_cons _
        · intro q hq
          rcases List.mem_cons.1 hq with rfl | hq
          · exact hv
          · exact hf q hq

theorem collectIds_pieces : ∀ (spans : List Span) (found : List IdSet) {out : List IdSet},
    (collectIds f need spans found).result = .ok out →
    ∃ pieces : List (Nat × IdSet), (pieces.map Prod.fst).Sublist (spans.flatMap Span.ids) ∧
      (∀ q ∈ pieces, (f q.1).result = .ok (some q.2)) ∧ out = found ++ pieces.map Prod.snd
  | [], found, out, h => by
    simp only [collectIds, Logged.result_pure, Except.ok.injEq] at h
    exact ⟨[], by simp, by simp, by simp [h]⟩
  | sp :: rest, found, out, h => by
    simp only [collectIds] at h
    obtain ⟨found', hfound', h⟩ := Logged.result_bind_ok h
    obtain ⟨p₁, hsub₁, hf₁, rfl⟩ := collectSpan_pieces sp.size sp.lo found hfound'
    obtain ⟨p₂, hsub₂, hf₂, rfl⟩ := collectIds_pieces rest _ h
    refine ⟨p₁ ++ p₂, ?_, ?_, by simp⟩
    · rw [List.map_append, List.flatMap_cons]
      exact hsub₁.append hsub₂
    · intro q hq
      rcases List.mem_append.1 hq with hq | hq
      · exact hf₁ q hq
      · exact hf₂ q hq

end Collect

theorem walk_pieces {need : Nat} {innermost : Bool} {sub : IdSet → Logged (Option IdSet)}
    {free : IdSet} : ∀ (gs : List Group) (t : Taken) {c : Taken},
    (gs.foldlM (takeGroup need innermost sub free) t).result = .ok c →
    ∃ pieces : List (Group × IdSet), (pieces.map Prod.fst).Sublist gs ∧
      c.groups = t.groups + pieces.length ∧
      (∀ x, x ∈ c.resources ↔ x ∈ t.resources ∨ ∃ q ∈ pieces, x ∈ q.2) ∧
      ∀ q ∈ pieces, (groupFinds innermost sub (q.1.resources ∩ free) q.1).result = .ok (some q.2)
  | [], t, c, h => by
    simp only [List.foldlM_nil, Logged.result_pure, Except.ok.injEq] at h
    subst h
    exact ⟨[], by simp, by simp, by simp, by simp⟩
  | g :: rest, t, c, h => by
    rw [List.foldlM_cons] at h
    obtain ⟨t', ht', h⟩ := Logged.result_bind_ok h
    obtain ⟨pieces, hsub, hgroups, hmem, hfinds⟩ := walk_pieces rest t' h
    rcases takeGroup_ok ht' with ⟨rfl, -⟩ | ⟨s, -, -, hs, rfl⟩
    · exact ⟨pieces, hsub.cons g, hgroups, hmem, hfinds⟩
    · refine ⟨(g, s) :: pieces, ?_, ?_, ?_, ?_⟩
      · rw [List.map_cons]
        exact hsub.cons_cons g
      · rw [hgroups, List.length_cons]
        dsimp only
        omega
      · intro x
        rw [hmem, mem_union]
        simp only [List.mem_cons, exists_eq_or_imp]
        tauto
      · intro q hq
        rcases List.mem_cons.1 hq with rfl | hq
        · exact hs
        · exact hfinds q hq

theorem getLast?_cons_of_ne_nil {l : LevelCount} {inner : List LevelCount} (hinner : inner ≠ []) :
    (l :: inner).getLast? = inner.getLast? := by
  cases inner with
  | nil => exact absurd rfl hinner
  | cons b rest => exact List.getLast?_cons_cons

theorem sized_unionAll {h : Hierarchy} {κ : Type} (key : κ → IdSet) {free : IdSet}
    {l : LevelCount} {inner : List LevelCount} (hinner : inner ≠ [])
    {pieces : List (κ × IdSet)} (hlen : pieces.length = l.count)
    (hkeys : (pieces.map Prod.fst).Pairwise fun a b => (key a).Disjoint (key b))
    (hfree : ∀ q ∈ pieces, key q.1 ⊆ free)
    (hsized : ∀ q ∈ pieces, Sized h (key q.1) inner q.2 ∧ q.2 ⊆ key q.1) :
    Sized h free (l :: inner) (unionAll (pieces.map Prod.snd)) := by
  rw [Sized, getLast?_cons_of_ne_nil hinner, countProduct_cons, ← hlen]
  refine ⟨fun l' hl' hunit => ?_, fun l' hl' hunit => ?_⟩
  · -- each piece holds the inner product of ids, and the pieces are disjoint
    rw [card_unionAll (pieces_disjoint key hkeys fun q hq => (hsized q hq).2), List.length_map]
    intro s hs
    obtain ⟨q, hq, rfl⟩ := List.mem_map.1 hs
    exact (hsized q hq).1.1 l' hl' hunit
  · have hbound : unionAll (pieces.map fun q => key q.1) ⊆ free := by
      intro x hx
      obtain ⟨s, hs, hxs⟩ := mem_unionAll.1 hx
      obtain ⟨q, hq, rfl⟩ := List.mem_map.1 hs
      exact hfree q hq hxs
    exact (WholeGroups.unionAll key hkeys fun q hq => (hsized q hq).1.2 l' hl' hunit).mono hbound

theorem scattered_sized (h : Hierarchy) (hp : h.Partitioned) :
    ∀ (levels : List LevelCount) {free R : IdSet},
      (h.scattered free levels).result = .ok (some R) → Sized h free levels R
  | [], _, _, hR => by
    simp only [scattered, Logged.result_pure, Except.ok.injEq, reduceCtorEq] at hR
  | l :: inner, free, R, hR => by
    unfold scattered at hR
    split at hR
    · rename_i hunit
      split at hR
      · -- one unit level: the lowest free ids
        refine ⟨fun l' hl' _ => ?_, fun l' hl' hunit' => ?_⟩
        · rw [card_firstN hR]
          simp
        · simp only [List.getLast?_singleton, Option.some.injEq] at hl'
          subst hl'
          rw [hunit] at hunit'
          cases hunit'
      · -- a unit level over nested levels: each id alone holds the nested request
        rename_i hinner
        obtain ⟨found, hfound, hR⟩ := Logged.result_bind_ok hR
        simp only [Logged.result_pure, Except.ok.injEq, Option.ite_none_right_eq_some,
          Option.some.injEq] at hR
        obtain ⟨hlen, rfl⟩ := hR
        obtain ⟨pieces, hsub, hf, rfl⟩ := collectIds_pieces free.spans [] hfound
        rw [List.nil_append] at hlen ⊢
        rw [List.length_map] at hlen
        have hids : (pieces.map Prod.fst).Sublist free.toList := by
          rw [toList_eq]
          exact hsub
        refine sized_unionAll (fun i => ofIds [i]) (fun e => hinner e) hlen ?_ ?_ ?_
        · exact ((nodup_toList free).sublist hids).imp disjoint_ofIds_single
        · intro q hq x hx
          rw [mem_ofIds, List.mem_singleton] at hx
          subst hx
          exact mem_toList.1 (hids.subset (List.mem_map_of_mem hq))
        · intro q hq
          exact ⟨scattered_sized h hp inner (hf q hq), scattered_within h inner _ q.2 (hf q hq)⟩
    · rename_i hunit
      have hunit : h.isUnit l.level = false := Bool.eq_false_iff.2 hunit
      split at hR
      · obtain ⟨u, -, hR⟩ := Logged.result_bind_ok hR
        cases hR
      · rename_i gs hgs
        obtain ⟨taken, htaken, hR⟩ := Logged.result_bind_ok hR
        simp only [Logged.result_pure, Except.ok.injEq, Option.ite_none_right_eq_some,
          Option.some.injEq] at hR
        obtain ⟨hcount, rfl⟩ := hR
        obtain ⟨pieces, hsub, hgroups, hmem, hfinds⟩ := walk_pieces gs ⟨∅, 0⟩ htaken
        have hlen : pieces.length = l.count := by
          rw [← hcount, hgroups]
          simp
        have hR : taken.resources = unionAll (pieces.map Prod.snd) := ext fun x => by
          rw [hmem x, mem_unionAll_snd]
          exact or_iff_right not_mem_empty
        have hkeys := (hp.groups hgs).sublist hsub
        rw [hR]
        cases inner with
        | nil =>
          -- the innermost level: groups wholly free are taken whole
          have hwhole : ∀ q ∈ pieces, q.2 = q.1.resources ∧ q.1.resources ⊆ free := by
            intro q hq
            obtain ⟨h₁, h₂⟩ := groupFinds_whole (hfinds q hq)
            refine ⟨h₁.trans h₂, fun x hx => ?_⟩
            rw [← h₂] at hx
            exact (mem_inter.1 hx).2
          refine ⟨fun l' hl' hunit' => ?_, fun l' hl' _ => ?_⟩
          · simp only [List.getLast?_singleton, Option.some.injEq] at hl'
            subst hl'
            rw [hunit] at hunit'
            cases hunit'
          · simp only [List.getLast?_singleton, Option.some.injEq] at hl'
            subst hl'
            refine ⟨pieces.map Prod.fst, by simp [hlen], ?_, ?_, ?_⟩
            · intro c hc
              obtain ⟨q, hq, rfl⟩ := List.mem_map.1 hc
              rw [hgs]
              exact ⟨hsub.subset (List.mem_map_of_mem hq), (hwhole q hq).2⟩
            · exact hkeys
            · intro x
              rw [mem_unionAll_snd]
              constructor
              · rintro ⟨q, hq, hx⟩
                exact ⟨q.1, List.mem_map_of_mem hq, (hwhole q hq).1 ▸ hx⟩
              · rintro ⟨c, hc, hx⟩
                obtain ⟨q, hq, rfl⟩ := List.mem_map.1 hc
                exact ⟨q, hq, (hwhole q hq).1 ▸ hx⟩
        | cons b rest =>
          -- an outer level: each group taken gives what the nested request finds in it
          refine sized_unionAll (fun g => g.resources ∩ free) (List.cons_ne_nil b rest) hlen
            (hkeys.imp fun hd => hd.mono (inter_subset_left _ _) (inter_subset_left _ _))
            (fun q _ => inter_subset_right _ _) fun q hq => ?_
          have hq' := hfinds q hq
          exact ⟨scattered_sized h hp (b :: rest) hq',
            scattered_within h (b :: rest) _ q.2 hq'⟩

/-! ## Local and contiguous matching -/

theorem mapM_firstN_pieces {n : Nat} : ∀ (cs : List IdSet) {parts : List (Option IdSet)},
    cs.mapM (fun s => s.firstN n) = .ok parts → (∀ c ∈ cs, n ≤ c.card) →
    ∃ pieces : List (IdSet × IdSet), pieces.map Prod.fst = cs ∧
      parts = pieces.map (fun q => some q.2) ∧ ∀ q ∈ pieces, q.2.card = n ∧ q.2 ⊆ q.1
  | [], parts, h, _ => by
    simp only [List.mapM_nil, pure, Except.pure, Except.ok.injEq] at h
    exact ⟨[], rfl, h.symm, by simp⟩
  | c :: rest, parts, h, hcs => by
    rw [List.mapM_cons] at h
    obtain ⟨p, hp, h⟩ := except_bind_eq_ok h
    obtain ⟨ps, hps, h⟩ := except_bind_eq_ok h
    simp only [pure, Except.pure, Except.ok.injEq] at h
    subst h
    obtain ⟨r, rfl⟩ := Option.isSome_iff_exists.1 (firstN_isSome (hcs c List.mem_cons_self) hp)
    obtain ⟨pieces, hfst, rfl, hpieces⟩ :=
      mapM_firstN_pieces rest hps fun c' hc' => hcs c' (List.mem_cons_of_mem _ hc')
    refine ⟨(c, r) :: pieces, by rw [List.map_cons, hfst], rfl, fun q hq => ?_⟩
    rcases List.mem_cons.1 hq with rfl | hq
    · exact ⟨card_firstN hp, firstN_subset hp⟩
    · exact hpieces q hq

theorem foldlM_union_pieces {κ : Type} : ∀ (pieces : List (κ × IdSet)) (acc : IdSet) {R : IdSet},
    (pieces.map fun q => some q.2).foldlM
        (fun (acc : IdSet) (p : Option IdSet) => p.map (· ∪ acc)) acc = some R →
      ∀ x, x ∈ R ↔ x ∈ acc ∨ ∃ q ∈ pieces, x ∈ q.2
  | [], acc, R, h, x => by
    simp only [List.map_nil, List.foldlM_nil, pure, Option.some.injEq] at h
    subst h
    simp
  | q :: rest, acc, R, h, x => by
    rw [List.map_cons, List.foldlM_cons] at h
    rw [foldlM_union_pieces rest (q.2 ∪ acc) h x, mem_union]
    simp only [List.mem_cons, exists_eq_or_imp]
    tauto

theorem packed_sized (h : Hierarchy) (hp : h.Partitioned) (levels : List LevelCount)
    {free R : IdSet} (hR : (h.packed free levels).result = .ok (some R)) : Sized h free levels R := by
  unfold packed at hR
  split at hR
  · exact scattered_sized h hp _ hR
  · rename_i outer inner
    split at hR
    · cases hR
    · rename_i hinner
      have hunit : h.isUnit inner.level = true := by simpa using hinner
      split at hR
      · exact scattered_sized h hp _ hR
      · rename_i gs hgs
        dsimp only at hR
        split at hR
        · cases hR
        · rename_i henough
          generalize hcands : (gs.map (·.resources ∩ free)).filter (inner.count ≤ ·.card) = cands
            at hR henough
          -- candidates come from distinct groups, so they are pairwise disjoint
          have hpw : cands.Pairwise IdSet.Disjoint := by
            rw [← hcands]
            refine List.Pairwise.filter _ (List.pairwise_map.2 ?_)
            exact (hp.groups hgs).imp fun hd => hd.mono (inter_subset_left _ _) (inter_subset_left _ _)
          have hbig : ∀ c ∈ cands, inner.count ≤ c.card := by
            intro c hc
            rw [← hcands] at hc
            exact of_decide_eq_true (List.mem_filter.1 hc).2
          generalize hchosen : (cands.mergeSort fun a b => decide (a.card ≤ b.card)).take
            outer.count = chosen at hR
          have hchosen_pw : chosen.Pairwise IdSet.Disjoint := by
            rw [← hchosen]
            exact ((hpw.perm (List.mergeSort_perm _ _).symm fun hd => hd.symm).sublist
              (List.take_sublist _ _))
          have hlen : chosen.length = outer.count := by
            rw [← hchosen, List.length_take, List.length_mergeSort]
            omega
          obtain ⟨parts, hparts, hR⟩ := Logged.result_bind_ok hR
          simp only [Logged.result_lift] at hparts
          simp only [Logged.result_pure, Except.ok.injEq] at hR
          obtain ⟨pieces, hfst, rfl, hpieces⟩ := mapM_firstN_pieces chosen hparts fun c hc => by
            rw [← hchosen] at hc
            exact hbig c (List.mem_mergeSort.1 (List.mem_of_mem_take hc))
          have hmem := foldlM_union_pieces pieces ∅ hR
          have hR' : R = unionAll (pieces.map Prod.snd) := ext fun x => by
            rw [hmem x, mem_unionAll_snd]
            exact or_iff_right not_mem_empty
          refine ⟨fun l' hl' _ => ?_, fun l' hl' hunit' => ?_⟩
          · -- each chosen candidate gives its lowest `inner.count` ids
            have hkeys : (pieces.map Prod.fst).Pairwise fun a b => (id a).Disjoint (id b) := by
              rw [hfst]
              exact hchosen_pw
            have hplen : pieces.length = outer.count := by
              rw [← hlen, ← hfst, List.length_map]
            rw [hR', card_unionAll (n := inner.count)
              (pieces_disjoint id hkeys fun q hq => (hpieces q hq).2), List.length_map, hplen]
            · simp
            · intro s hs
              obtain ⟨q, hq, rfl⟩ := List.mem_map.1 hs
              exact (hpieces q hq).1
          · simp only [List.getLast?_cons_cons, List.getLast?_singleton, Option.some.injEq] at hl'
            subst hl'
            rw [hunit] at hunit'
            cases hunit'
  · cases hR

theorem mem_runPrefix {start count : Nat} {r : IdSet} (h : runPrefix start count = .ok r)
    (x : Nat) : x ∈ r ↔ start ≤ x ∧ x < start + count := by
  simp only [runPrefix] at h
  obtain ⟨e, he, h⟩ := except_bind_eq_ok h
  obtain ⟨e', he', h⟩ := except_bind_eq_ok h
  obtain ⟨rfl, -, -⟩ := Word.eq_of_add_ok he
  obtain ⟨rfl, hlo, -⟩ := Word.eq_of_sub_ok he'
  simp only [pure, Except.pure, Except.ok.injEq] at h
  subst h
  simp only [Word.u32] at hlo
  split
  · -- an empty run: its end lies before its start
    simp only [not_mem_empty, false_iff]
    omega
  · rw [mem_range]
    omega

theorem contiguous_shape {h : Hierarchy} {free R : IdSet} {levels : List LevelCount}
    {bestFit : Bool} (hR : h.contiguous free levels bestFit = .ok (some R)) :
    Sized h free levels R ∧ ∃ lo, ∀ x, x ∈ R ↔ lo ≤ x ∧ x < lo + countProduct levels := by
  obtain ⟨l, rfl, hunit⟩ := contiguous_levels hR
  obtain ⟨sp, -, hp⟩ := contiguous_run hunit hR
  have hmem := mem_runPrefix hp
  have hcard : R.card = l.count := by
    rw [card_eq_of_mem_iff List.nodup_range' fun x => by rw [hmem, List.mem_range'_1],
      List.length_range']
  refine ⟨⟨fun l' _ _ => by simpa using hcard, fun l' hl' hunit' => ?_⟩, sp.lo, fun x => ?_⟩
  · simp only [List.getLast?_singleton, Option.some.injEq] at hl'
    subst hl'
    rw [hunit] at hunit'
    cases hunit'
  · rw [hmem x, countProduct_cons, countProduct_nil, Nat.mul_one]

/-! ## Requests -/

/-- What a matcher takes for nested level counts among free resources: it is sized by the
counts, takes no innermost group in part, and is one run of consecutive ids when the matcher is
contiguous. -/
structure Shaped (h : Hierarchy) (policy : FindPolicy) (free : IdSet) (levels : List LevelCount)
    (R : IdSet) : Prop where
  within : R ⊆ free
  sized : Sized h free levels R
  no_half : ∀ l, levels.getLast? = some l → h.isUnit l.level = false →
    ∀ g ∈ (h.groups? l.level).getD [], g.resources ⊆ R ∨ g.resources.Disjoint R
  run : policy = .contiguous ∨ policy = .contiguousBestFit →
    ∃ lo, ∀ x, x ∈ R ↔ lo ≤ x ∧ x < lo + countProduct levels

theorem matchWith_shaped (h : Hierarchy) (hp : h.Partitioned) (policy : FindPolicy)
    {free R : IdSet} {levels : List LevelCount}
    (hR : (h.matchWith policy free levels).result = .ok (some R)) :
    Shaped h policy free levels R := by
  have hshape : Sized h free levels R ∧ (policy = .contiguous ∨ policy = .contiguousBestFit →
      ∃ lo, ∀ x, x ∈ R ↔ lo ≤ x ∧ x < lo + countProduct levels) := by
    cases policy with
    | scattered => exact ⟨scattered_sized h hp levels hR, by rintro (h | h) <;> cases h⟩
    | contiguous =>
      obtain ⟨hs, hrun⟩ := contiguous_shape hR
      exact ⟨hs, fun _ => hrun⟩
    | contiguousBestFit =>
      obtain ⟨hs, hrun⟩ := contiguous_shape hR
      exact ⟨hs, fun _ => hrun⟩
    | «local» => exact ⟨packed_sized h hp levels hR, by rintro (h | h) <;> cases h⟩
  exact ⟨matchWith_within h policy free levels R hR, hshape.1,
    fun l hl hunit => (hshape.1.2 l hl hunit).no_half hp, hshape.2⟩

/-- The parts a request takes, group after group: each part has its matcher's shape among the
available resources of its group's filter that the parts before it left. -/
inductive Parts (h : Hierarchy) (policy : FindPolicy) (available : IdSet) :
    IdSet → List RequestGroup → List IdSet → Prop
  | nil (taken : IdSet) : Parts h policy available taken [] []
  | cons {taken p : IdSet} {g : RequestGroup} {gs : List RequestGroup} {ps : List IdSet} :
      Shaped h policy ((available ∩ g.filter) \ taken) g.levels p →
      Parts h policy available (p ∪ taken) gs ps → Parts h policy available taken (g :: gs) (p :: ps)

theorem Parts.disjoint {h : Hierarchy} {policy : FindPolicy} {available taken : IdSet}
    {groups : List RequestGroup} {parts : List IdSet}
    (hparts : Parts h policy available taken groups parts) :
    (∀ p ∈ parts, p.Disjoint taken) ∧ parts.Pairwise IdSet.Disjoint := by
  induction hparts with
  | nil => exact ⟨by simp, List.Pairwise.nil⟩
  | @cons taken p _ _ _ hshape _ ih =>
    have hp : p.Disjoint taken := fun x hx ht => (mem_diff.1 (hshape.within hx)).2 ht
    refine ⟨fun q hq x hx ht => ?_, List.pairwise_cons.2 ⟨fun q hq => ?_, ih.2⟩⟩
    · rcases List.mem_cons.1 hq with rfl | hq
      · exact hp hx ht
      · exact ih.1 q hq hx (mem_union.2 (.inr ht))
    · exact fun x hx hxq => ih.1 q hq hxq (mem_union.2 (.inl hx))

theorem foldlM_requestStep_none (h : Hierarchy) (policy : FindPolicy) (available : IdSet) :
    ∀ groups : List RequestGroup,
      (groups.foldlM (h.requestStep policy available) none).result = .ok none
  | [] => rfl
  | _ :: gs => by
    rw [List.foldlM_cons, Logged.result_bind_of_ok rfl]
    exact foldlM_requestStep_none h policy available gs

theorem foldlM_requestStep_parts (h : Hierarchy) (hp : h.Partitioned) (policy : FindPolicy)
    (available : IdSet) : ∀ (groups : List RequestGroup) (taken : IdSet) {R : IdSet},
      (groups.foldlM (h.requestStep policy available) (some taken)).result = .ok (some R) →
      ∃ parts, Parts h policy available taken groups parts ∧
        ∀ x, x ∈ R ↔ x ∈ taken ∨ ∃ p ∈ parts, x ∈ p
  | [], taken, R, hR => by
    simp only [List.foldlM_nil, Logged.result_pure, Except.ok.injEq, Option.some.injEq] at hR
    subst hR
    exact ⟨[], .nil taken, fun x => by simp⟩
  | g :: gs, taken, R, hR => by
    rw [List.foldlM_cons] at hR
    obtain ⟨acc, hacc, hR⟩ := Logged.result_bind_ok hR
    unfold requestStep at hacc
    dsimp only at hacc
    split at hacc
    · simp only [Logged.result_pure, Except.ok.injEq] at hacc
      subst hacc
      rw [foldlM_requestStep_none] at hR
      cases hR
    · obtain ⟨found, hfound, hacc⟩ := Logged.result_bind_ok hacc
      simp only [Logged.result_pure, Except.ok.injEq] at hacc
      subst hacc
      cases found with
      | none =>
        rw [Option.map_none, foldlM_requestStep_none] at hR
        cases hR
      | some p =>
        obtain ⟨parts, hparts, hmem⟩ :=
          foldlM_requestStep_parts h hp policy available gs (p ∪ taken) hR
        refine ⟨p :: parts, .cons (matchWith_shaped h hp policy hfound) hparts, fun x => ?_⟩
        rw [hmem, mem_union]
        simp only [List.mem_cons, exists_eq_or_imp]
        tauto

/-- In a partitioned hierarchy a request takes one part per group, each with its matcher's shape
among the available resources of the group's filter that the parts before it left; the parts are
pairwise disjoint and make up what the request takes. -/
theorem requestWith_disjoint_parts (h : Hierarchy) (hp : h.Partitioned) (policy : FindPolicy)
    (available : IdSet) (groups : List RequestGroup) {R : IdSet}
    (hR : (h.requestWith policy available groups).result = .ok (some R)) :
    ∃ parts, Parts h policy available ∅ groups parts ∧ parts.Pairwise IdSet.Disjoint ∧
      ∀ x, x ∈ R ↔ ∃ p ∈ parts, x ∈ p := by
  obtain ⟨parts, hparts, hmem⟩ := foldlM_requestStep_parts h hp policy available groups ∅ hR
  refine ⟨parts, hparts, hparts.disjoint.2, fun x => ?_⟩
  rw [hmem]
  exact or_iff_right not_mem_empty

/-- Two nodes of two cores: a node with two cores, then one more core, take cores 1 to 3. -/
theorem requestWith_disjoint_parts_two_nodes :
    let h : Hierarchy := ⟨[("node", ⟨some [⟨"0", IdSet.range 1 2⟩, ⟨"1", IdSet.range 3 4⟩], false⟩),
      ("core", ⟨none, true⟩)]⟩
    let groups : List RequestGroup :=
      [⟨IdSet.range 1 4, [⟨"node", 1⟩, ⟨"core", 2⟩]⟩, ⟨IdSet.range 1 4, [⟨"core", 1⟩]⟩]
    ∃ parts, Parts h .scattered (IdSet.range 1 4) ∅ groups parts ∧
      parts.Pairwise IdSet.Disjoint ∧ ∀ x, x ∈ IdSet.range 1 3 ↔ ∃ p ∈ parts, x ∈ p := by
  intro h groups
  exact requestWith_disjoint_parts h (by decide +kernel) .scattered _ groups (by decide +kernel)

end Hierarchy

end ClusterScheduler
