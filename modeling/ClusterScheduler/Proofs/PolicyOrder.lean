import Mathlib.Data.List.Nodup
import ClusterScheduler.JobOrder

/-!
# Ordering the waiting jobs

Waiting jobs are reordered by a policy's order of their ids, and nothing else decides where a job
goes. For any policy the jobs are only permuted. When the policy names distinct ids, the jobs it
names come first in its order and the others follow in their own order (`sortByPolicy_eq`). The
built-in policies name every job, in the order of a lawful comparison: by submission (time, then
id), by ascending karma under the total order of doubles (infinities and NaNs included), or
by descending priority, ties going to submission. As job ids are distinct, no two jobs compare equal, so each built-in order is
strict (`orders_by_policy`).
-/

namespace ClusterScheduler

open Std

theorem pairwise_mergeSort_decide {α : Type} {r : α → α → Prop} [DecidableRel r]
    (htrans : ∀ a b c, r a b → r b c → r a c) (htotal : ∀ a b, r a b ∨ r b a) (l : List α) :
    (l.mergeSort fun a b => decide (r a b)).Pairwise r := by
  have h : (l.mergeSort fun a b => decide (r a b)).Pairwise fun a b => decide (r a b) :=
    List.pairwise_mergeSort
      (fun a b c hab hbc => decide_eq_true (htrans a b c (of_decide_eq_true hab) (of_decide_eq_true hbc)))
      (fun a b => by simpa using htotal a b) l
  exact h.imp of_decide_eq_true

/-! ## Lawful comparisons -/

theorem transCmp_on {α β : Type} {cmp : β → β → Ordering} [TransCmp cmp] (f : α → β) :
    TransCmp (fun a b => cmp (f a) (f b)) where
  eq_swap := OrientedCmp.eq_swap
  isLE_trans := TransCmp.isLE_trans

namespace Binary64

theorem ratio_den_pos (x : Binary64) : 0 < x.ratio.2 := by
  unfold ratio scaled
  split
  · exact Nat.one_pos
  · exact Nat.two_pow_pos _

theorem cmpMagnitude_eq (x y : Binary64) :
    cmpMagnitude x y = compare (x.ratio.1 * y.ratio.2) (y.ratio.1 * x.ratio.2) := rfl

instance : TransCmp cmpMagnitude where
  eq_swap {x y} := by
    rw [cmpMagnitude_eq, cmpMagnitude_eq, Nat.compare_swap]
  isLE_trans {x y z} hxy hyz := by
    rw [cmpMagnitude_eq, Nat.isLE_compare] at *
    -- magnitudes are fractions with positive denominators: cross-multiply and cancel
    have hd := ratio_den_pos y
    refine Nat.le_of_mul_le_mul_right ?_ hd
    calc x.ratio.1 * z.ratio.2 * y.ratio.2
        = x.ratio.1 * y.ratio.2 * z.ratio.2 := Nat.mul_right_comm _ _ _
      _ ≤ y.ratio.1 * x.ratio.2 * z.ratio.2 := Nat.mul_le_mul_right _ hxy
      _ = y.ratio.1 * z.ratio.2 * x.ratio.2 := Nat.mul_right_comm _ _ _
      _ ≤ z.ratio.1 * y.ratio.2 * x.ratio.2 := Nat.mul_le_mul_right _ hyz
      _ = z.ratio.1 * x.ratio.2 * y.ratio.2 := Nat.mul_right_comm _ _ _

theorem totalCmp_eq (x y : Binary64) : totalCmp x y =
    if x.neg then (if y.neg then cmpMagnitude y x else .lt)
    else (if y.neg then .gt else cmpMagnitude x y) := by
  unfold totalCmp
  cases x.neg <;> cases y.neg <;> rfl

instance : TransCmp totalCmp where
  eq_swap {x y} := by
    rw [totalCmp_eq, totalCmp_eq]
    cases x.neg <;> cases y.neg <;> simp only [Bool.false_eq_true, ↓reduceIte]
    · exact OrientedCmp.eq_swap
    · rfl
    · rfl
    · exact OrientedCmp.eq_swap
  isLE_trans {x y z} := by
    simp only [totalCmp_eq]
    -- a negative value lies below every positive one; only equal signs compare magnitudes
    cases x.neg <;> cases y.neg <;> cases z.neg <;> simp only [Bool.false_eq_true, ↓reduceIte] <;>
      intro hxy hyz
    case false.false.false => exact TransCmp.isLE_trans hxy hyz
    case true.true.true => exact TransCmp.isLE_trans hyz hxy
    case true.false.false | true.true.false => rfl
    case false.false.true | true.false.true => exact absurd hyz (by decide)
    case false.true.false | false.true.true => exact absurd hxy (by decide)

end Binary64

namespace Double

instance : TransCmp totalCmp :=
  have := @transCmp_on Double Binary64 Binary64.totalCmp _ finitePart
  inferInstanceAs (TransCmp (compareLex (compareOn classRank)
    (compareLex (fun x y : Double => Binary64.totalCmp x.finitePart y.finitePart) (compareOn nanKey))))

example : [Double.nan true 1, .infinite true, .finite ⟨true, 0, Binary64.minExp⟩, .zero,
    .infinite false, .nan false 1].Pairwise (fun x y => totalCmp x y = .lt) := by decide

end Double

namespace JobPriority

instance : TransCmp bySubmission :=
  inferInstanceAs (TransCmp (compareLex (compareOn Job.submissionTime) (compareOn Job.id)))

instance (p : JobPriority) : TransCmp p.compare := by
  cases p with
  | fifo => exact inferInstanceAs (TransCmp bySubmission)
  | fairshare =>
    have := @transCmp_on Job Double Double.totalCmp _ Job.karma
    exact inferInstanceAs
      (TransCmp (compareLex (fun a b : Job => Double.totalCmp a.karma b.karma) bySubmission))
  | priority =>
    exact inferInstanceAs (TransCmp (compareLex (fun a b : Job => compareOn Job.priority b a) bySubmission))

theorem sortJobs_sorted (p : JobPriority) (jobs : List Job) :
    (p.sortJobs jobs).Pairwise fun a b => p.compare a b ≠ .gt := by
  refine pairwise_mergeSort_decide (fun a b c hab hbc => ?_) (fun a b => ?_) jobs
  · rw [ne_eq, Ordering.ne_gt_iff_isLE] at hab hbc ⊢
    exact TransCmp.isLE_trans hab hbc
  · -- if `a` comes after `b`, then `b` comes before `a`
    by_cases h : p.compare a b = .gt
    · exact Or.inr (by rw [OrientedCmp.lt_of_gt h]; decide)
    · exact Or.inl h

theorem compare_ne_eq (p : JobPriority) {a b : Job} (h : a.id ≠ b.id) : p.compare a b ≠ .eq := by
  cases p <;> simp [compare, bySubmission, h]

theorem sortJobs_strict (p : JobPriority) {jobs : List Job} (hids : (jobs.map (·.id)).Nodup) :
    (p.sortJobs jobs).Pairwise fun a b => p.compare a b = .lt := by
  have hperm : (p.sortJobs jobs).Perm jobs := List.mergeSort_perm _ _
  have hne : (p.sortJobs jobs).Pairwise fun a b => a.id ≠ b.id :=
    List.pairwise_map.1 ((hperm.map _).nodup_iff.2 hids)
  refine ((sortJobs_sorted p jobs).and hne).imp ?_
  rintro a b ⟨hgt, hid⟩
  cases h : p.compare a b
  · rfl
  · exact absurd h (compare_ne_eq p hid)
  · exact absurd h hgt

end JobPriority

/-! ## The orders spelled out -/

def SubmittedBefore (a b : Job) : Prop :=
  a.submissionTime < b.submissionTime ∨ (a.submissionTime = b.submissionTime ∧ a.id < b.id)

namespace JobPriority

theorem fifo_compare_eq_lt {a b : Job} : fifo.compare a b = .lt ↔ SubmittedBefore a b := by
  simp only [compare, bySubmission, Ordering.then_eq_lt, Int.compare_eq_lt, Int.compare_eq_eq,
    SubmittedBefore]

theorem fairshare_compare_eq_lt {a b : Job} :
    fairshare.compare a b = .lt ↔ Double.totalCmp a.karma b.karma = .lt ∨
      (Double.totalCmp a.karma b.karma = .eq ∧ SubmittedBefore a b) := by
  rw [← fifo_compare_eq_lt]
  simp only [compare, Ordering.then_eq_lt]

theorem priority_compare_eq_lt {a b : Job} :
    priority.compare a b = .lt ↔
      b.priority < a.priority ∨ (a.priority = b.priority ∧ SubmittedBefore a b) := by
  rw [← fifo_compare_eq_lt, @eq_comm Int a.priority]
  simp only [compare, Ordering.then_eq_lt, Int.compare_eq_lt, Int.compare_eq_eq]

end JobPriority

/-! ## Ranks in a policy's order -/

section Rank

variable {x : Int} {order : List Int}

theorem rankIn_foldl_of_not_mem {l : List Int} (h : x ∉ l) (k : Nat) (r : Option Nat) :
    (l.zipIdx k).foldl (fun r p => if p.1 = x then some p.2 else r) r = r := by
  induction l generalizing k r with
  | nil => rfl
  | cons a l ih =>
    have ha : a ≠ x := fun e => h (e ▸ List.mem_cons_self)
    rw [List.zipIdx_cons, List.foldl_cons, if_neg ha]
    exact ih (fun hl => h (List.mem_cons_of_mem a hl)) (k + 1) r

theorem rankIn_foldl_of_getElem {l : List Int} (hl : l.Nodup) {i : Nat} (hi : i < l.length)
    (hx : l[i] = x) (k : Nat) (r : Option Nat) :
    (l.zipIdx k).foldl (fun r p => if p.1 = x then some p.2 else r) r = some (k + i) := by
  induction l generalizing i k r with
  | nil => exact absurd hi (Nat.not_lt_zero _)
  | cons a l ih =>
    obtain ⟨ha, hl⟩ := List.nodup_cons.1 hl
    rw [List.zipIdx_cons, List.foldl_cons]
    cases i with
    | zero =>
      have hax : a = x := hx
      rw [if_pos hax, rankIn_foldl_of_not_mem (hax ▸ ha)]
      rfl
    | succ i =>
      have hax : a ≠ x := fun e => ha (e ▸ hx ▸ List.getElem_mem _)
      rw [if_neg hax, ih hl (Nat.lt_of_succ_lt_succ hi) hx, Nat.add_assoc, Nat.add_comm 1 i]

theorem rankIn_of_not_mem (h : x ∉ order) : rankIn order x = none :=
  rankIn_foldl_of_not_mem h 0 none

theorem rankIn_getElem (h : order.Nodup) {i : Nat} (hi : i < order.length) :
    rankIn order order[i] = some i := by
  rw [rankIn, rankIn_foldl_of_getElem h hi rfl, Nat.zero_add]

theorem rankKey_of_not_mem {j : Job} (h : j.id ∉ order) : rankKey order j = order.length := by
  rw [rankKey, rankIn_of_not_mem h]
  rfl

theorem rankKey_of_getElem (h : order.Nodup) {i : Nat} (hi : i < order.length) {j : Job}
    (hj : j.id = order[i]) : rankKey order j = i := by
  rw [rankKey, hj, rankIn_getElem h hi]
  rfl

theorem rankKey_lt_of_mem (h : order.Nodup) {j : Job} (hj : j.id ∈ order) :
    rankKey order j < order.length := by
  obtain ⟨i, hi, hji⟩ := List.getElem_of_mem hj
  rw [rankKey_of_getElem h hi hji.symm]
  exact hi

theorem id_eq_of_rankKey_eq (h : order.Nodup) {a b : Job} (ha : a.id ∈ order) (hb : b.id ∈ order)
    (hab : rankKey order a = rankKey order b) : a.id = b.id := by
  obtain ⟨i, hi, hai⟩ := List.getElem_of_mem ha
  obtain ⟨k, hk, hbk⟩ := List.getElem_of_mem hb
  rw [rankKey_of_getElem h hi hai.symm, rankKey_of_getElem h hk hbk.symm] at hab
  subst hab
  rw [← hai, ← hbk]

theorem rankKey_le_trans (a b c : Job) (hab : decide (rankKey order a ≤ rankKey order b) = true)
    (hbc : decide (rankKey order b ≤ rankKey order c) = true) :
    decide (rankKey order a ≤ rankKey order c) = true := by
  simp only [decide_eq_true_eq] at hab hbc ⊢
  exact Nat.le_trans hab hbc

theorem rankKey_le_total (a b : Job) :
    (decide (rankKey order a ≤ rankKey order b) || decide (rankKey order b ≤ rankKey order a)) =
      true := by
  simp only [Bool.or_eq_true, decide_eq_true_eq]
  exact Nat.le_total _ _

end Rank

/-! ## Reordering by a policy -/

theorem filter_append_filter_not_of_pairwise {α : Type} {p : α → Bool} :
    ∀ {l : List α}, l.Pairwise (fun a b => p a ∨ ¬p b) → l.filter p ++ l.filter (!p ·) = l
  | [], _ => rfl
  | a :: l, h => by
    obtain ⟨ha, hl⟩ := List.pairwise_cons.1 h
    by_cases hp : p a
    · simp only [List.filter_cons, hp, Bool.not_true, Bool.false_eq_true, ↓reduceIte,
        List.cons_append, filter_append_filter_not_of_pairwise hl]
    · -- once an element fails `p`, every later one does
      have hrest : ∀ b ∈ l, p b = false := fun b hb =>
        Bool.eq_false_iff.2 ((ha b hb).resolve_left hp)
      have h₁ : l.filter p = [] := List.filter_eq_nil_iff.2 fun b hb => by simp [hrest b hb]
      have h₂ : l.filter (!p ·) = l := List.filter_eq_self.2 fun b hb => by simp [hrest b hb]
      simp [hp, h₁, h₂]

section Policy

variable {policy : List Job → List Int} {jobs : List Job}

theorem find?_id_eq (hids : (jobs.map (·.id)).Nodup) {b : Job} (hb : b ∈ jobs) :
    jobs.find? (·.id = b.id) = some b := by
  have hsome : (jobs.find? (·.id = b.id)).isSome := List.find?_isSome.2 ⟨b, hb, by simp⟩
  obtain ⟨c, hc⟩ := Option.isSome_iff_exists.1 hsome
  have hcid : c.id = b.id := by simpa using List.find?_some hc
  rw [hc, List.inj_on_of_nodup_map hids (List.mem_of_find?_eq_some hc) hb hcid]

theorem mem_filterMap_find? (hids : (jobs.map (·.id)).Nodup) (order : List Int) {b : Job} :
    b ∈ order.filterMap (fun i => jobs.find? (·.id = i)) ↔ b ∈ jobs ∧ b.id ∈ order := by
  rw [List.mem_filterMap]
  constructor
  · rintro ⟨i, hi, hf⟩
    have hid : b.id = i := by simpa using List.find?_some hf
    exact ⟨List.mem_of_find?_eq_some hf, hid ▸ hi⟩
  · rintro ⟨hb, hi⟩
    exact ⟨b.id, hi, find?_id_eq hids hb⟩

theorem nodup_filterMap_find? {order : List Int} (hord : order.Nodup) :
    (order.filterMap fun i => jobs.find? (·.id = i)).Nodup := by
  refine hord.filterMap fun i i' b hb hb' => ?_
  have hi : b.id = i := by simpa using List.find?_some hb
  have hi' : b.id = i' := by simpa using List.find?_some hb'
  rw [← hi, ← hi']

theorem filterMap_find?_sorted {order : List Int} (hord : order.Nodup) :
    (order.filterMap fun i => jobs.find? (·.id = i)).Pairwise
      fun a b => rankKey order a ≤ rankKey order b := by
  rw [List.pairwise_filterMap]
  refine List.pairwise_iff_getElem.2 fun i k hi hk hik b hb b' hb' => ?_
  have hbi : b.id = order[i] := by simpa using List.find?_some hb
  have hbk : b'.id = order[k] := by simpa using List.find?_some hb'
  rw [rankKey_of_getElem hord hi hbi, rankKey_of_getElem hord hk hbk]
  exact Nat.le_of_lt hik

theorem sortByPolicy_perm (policy : List Job → List Int) (jobs : List Job) :
    (sortByPolicy policy jobs).Perm jobs :=
  List.mergeSort_perm _ _

theorem sortByPolicy_sorted (policy : List Job → List Int) (jobs : List Job) :
    (sortByPolicy policy jobs).Pairwise
      fun a b => rankKey (policy jobs) a ≤ rankKey (policy jobs) b := by
  unfold sortByPolicy
  apply pairwise_mergeSort_decide
  · exact fun _ _ _ => Nat.le_trans
  · exact fun _ _ => Nat.le_total _ _

theorem sortByPolicy_named_first (hord : (policy jobs).Nodup) :
    (sortByPolicy policy jobs).filter (·.id ∈ policy jobs) ++
      (sortByPolicy policy jobs).filter (·.id ∉ policy jobs) = sortByPolicy policy jobs := by
  simp only [decide_not]
  refine filter_append_filter_not_of_pairwise ((sortByPolicy_sorted policy jobs).imp ?_)
  intro a b hab
  by_cases ha : a.id ∈ policy jobs
  · exact Or.inl (decide_eq_true ha)
  · -- a job left out has the last rank, so only left-out jobs follow it
    refine Or.inr fun hb => ?_
    have hlt := rankKey_lt_of_mem hord (of_decide_eq_true hb)
    rw [rankKey_of_not_mem ha] at hab
    exact absurd hab (Nat.not_le_of_lt hlt)

theorem sortByPolicy_named (hids : (jobs.map (·.id)).Nodup) (hord : (policy jobs).Nodup) :
    (sortByPolicy policy jobs).filter (·.id ∈ policy jobs) =
      (policy jobs).filterMap fun i => jobs.find? (·.id = i) := by
  have hperm := sortByPolicy_perm policy jobs
  have hnodup : (sortByPolicy policy jobs).Nodup := hperm.nodup_iff.2 (hids.of_map _)
  -- both lists hold the same jobs, sorted by rank, and no two named jobs share a rank
  refine List.Perm.eq_of_pairwise ?_ ((sortByPolicy_sorted policy jobs).filter _)
    (filterMap_find?_sorted hord) ?_
  · intro a b ha hb hab hba
    rw [List.mem_filter, hperm.mem_iff, decide_eq_true_eq] at ha
    rw [mem_filterMap_find? hids] at hb
    exact List.inj_on_of_nodup_map hids ha.1 hb.1
      (id_eq_of_rankKey_eq hord ha.2 hb.2 (Nat.le_antisymm hab hba))
  · refine (List.perm_ext_iff_of_nodup (hnodup.filter _) (nodup_filterMap_find? hord)).2 fun b => ?_
    rw [List.mem_filter, hperm.mem_iff, decide_eq_true_eq, mem_filterMap_find? hids]

theorem sortByPolicy_unnamed (policy : List Job → List Int) (jobs : List Job) :
    (sortByPolicy policy jobs).filter (·.id ∉ policy jobs) = jobs.filter (·.id ∉ policy jobs) := by
  -- they all share the last rank, so the stable sort keeps them as a sublist
  have hsorted : (jobs.filter (·.id ∉ policy jobs)).Pairwise
      fun a b => decide (rankKey (policy jobs) a ≤ rankKey (policy jobs) b) := by
    refine List.pairwise_of_forall_mem_list fun a ha b hb => ?_
    rw [List.mem_filter, decide_eq_true_eq] at ha hb
    rw [rankKey_of_not_mem ha.2, rankKey_of_not_mem hb.2]
    exact decide_eq_true (Nat.le_refl _)
  have hsub := (List.sublist_mergeSort rankKey_le_trans rankKey_le_total hsorted
    (List.filter_sublist (l := jobs))).filter (·.id ∉ policy jobs)
  rw [List.filter_filter] at hsub
  simp only [Bool.and_self] at hsub
  exact (hsub.eq_of_length ((sortByPolicy_perm policy jobs).filter _).length_eq.symm).symm

theorem sortByPolicy_eq (hids : (jobs.map (·.id)).Nodup) (hord : (policy jobs).Nodup) :
    sortByPolicy policy jobs =
      (policy jobs).filterMap (fun i => jobs.find? (·.id = i)) ++
        jobs.filter (·.id ∉ policy jobs) := by
  rw [← sortByPolicy_named hids hord, ← sortByPolicy_unnamed policy jobs,
    sortByPolicy_named_first hord]

end Policy

/-! ## The built-in orders as policies -/

namespace JobPriority

variable {jobs : List Job}

theorem order_nodup (p : JobPriority) (hids : (jobs.map (·.id)).Nodup) : (p.order jobs).Nodup :=
  ((List.mergeSort_perm _ _).map _).nodup_iff.2 hids

theorem sortByPolicy_order (p : JobPriority) (hids : (jobs.map (·.id)).Nodup) :
    sortByPolicy p.order jobs = p.sortJobs jobs := by
  have hperm : (p.sortJobs jobs).Perm jobs := List.mergeSort_perm _ _
  -- the order names every job, so none is left out
  have hnamed : jobs.filter (·.id ∉ p.order jobs) = [] := List.filter_eq_nil_iff.2 fun b hb => by
    simp only [decide_eq_true_eq, not_not]
    exact List.mem_map_of_mem (hperm.mem_iff.2 hb)
  rw [sortByPolicy_eq hids (order_nodup p hids), hnamed, List.append_nil, order,
    List.filterMap_map]
  conv_rhs => rw [← @List.filterMap_some _ (p.sortJobs jobs)]
  exact List.filterMap_congr fun b hb => find?_id_eq hids (hperm.mem_iff.1 hb)

theorem sortByPolicy_order_strict (p : JobPriority) (hids : (jobs.map (·.id)).Nodup) :
    (sortByPolicy p.order jobs).Pairwise fun a b => p.compare a b = .lt := by
  rw [sortByPolicy_order p hids]
  exact sortJobs_strict p hids

end JobPriority

/-- Waiting jobs of distinct ids are only permuted by any policy. Each built-in order sorts them
strictly: by submission; by ascending karma, then submission; by descending priority, then
submission. A policy naming distinct ids puts the jobs it names first, in its order, and the
others after them in their own order. -/
theorem orders_by_policy {jobs : List Job} (hids : (jobs.map (·.id)).Nodup) :
    (∀ policy, (sortByPolicy policy jobs).Perm jobs) ∧
    (sortByPolicy JobPriority.fifo.order jobs).Pairwise SubmittedBefore ∧
    (sortByPolicy JobPriority.fairshare.order jobs).Pairwise (fun a b =>
      Double.totalCmp a.karma b.karma = .lt ∨
        (Double.totalCmp a.karma b.karma = .eq ∧ SubmittedBefore a b)) ∧
    (sortByPolicy JobPriority.priority.order jobs).Pairwise (fun a b =>
      b.priority < a.priority ∨ (a.priority = b.priority ∧ SubmittedBefore a b)) ∧
    ∀ policy : List Job → List Int, (policy jobs).Nodup →
      sortByPolicy policy jobs =
        (policy jobs).filterMap (fun i => jobs.find? (·.id = i)) ++
          jobs.filter (·.id ∉ policy jobs) := by
  refine ⟨fun policy => sortByPolicy_perm policy jobs, ?fifo, ?fairshare, ?priority,
    fun policy hord => sortByPolicy_eq hids hord⟩
  case fifo =>
    exact (JobPriority.sortByPolicy_order_strict _ hids).imp JobPriority.fifo_compare_eq_lt.1
  case fairshare =>
    exact (JobPriority.sortByPolicy_order_strict _ hids).imp JobPriority.fairshare_compare_eq_lt.1
  case priority =>
    exact (JobPriority.sortByPolicy_order_strict _ hids).imp JobPriority.priority_compare_eq_lt.1

theorem orders_by_policy_three_jobs :
    let jobs : List Job := [{ id := 3, submissionTime := 5, karma := .nan false 1 },
      { id := 1, submissionTime := 5, priority := 2, karma := .infinite true },
      { id := 2, submissionTime := 4 }]
    (jobs.map (·.id)).Nodup ∧
    (∀ policy, (sortByPolicy policy jobs).Perm jobs) ∧
    (sortByPolicy JobPriority.fifo.order jobs).Pairwise SubmittedBefore ∧
    (sortByPolicy JobPriority.fairshare.order jobs).Pairwise (fun a b =>
      Double.totalCmp a.karma b.karma = .lt ∨
        (Double.totalCmp a.karma b.karma = .eq ∧ SubmittedBefore a b)) ∧
    (sortByPolicy JobPriority.priority.order jobs).Pairwise (fun a b =>
      b.priority < a.priority ∨ (a.priority = b.priority ∧ SubmittedBefore a b)) ∧
    ∀ policy : List Job → List Int, (policy jobs).Nodup →
      sortByPolicy policy jobs =
        (policy jobs).filterMap (fun i => jobs.find? (·.id = i)) ++
          jobs.filter (·.id ∉ policy jobs) := by
  intro jobs
  have hids : (jobs.map (·.id)).Nodup := by decide
  exact ⟨hids, orders_by_policy hids⟩

end ClusterScheduler
