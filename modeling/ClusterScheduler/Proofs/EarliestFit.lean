import ClusterScheduler.Proofs.WindowSearch
import ClusterScheduler.Proofs.MatchGrowth
import ClusterScheduler.Placement

/-!
# Earliest fit

The window search tries as starts only `startAfter` and the begins of the slots after it. A
start later in the same slot meets every slot the slot's candidate meets, and maybe more, so it
is offered no more resources (`offeredOver_later`). A matcher that cannot find resources in a
smaller set after refusing a larger one, as for a request of one group
(`requestWith_single_grows`), loses nothing by skipping such starts: a moldable's search finds
no window beginning later than a time whose window the request could fill
(`findForMoldable_earliest`).

Both provisos are needed. Requests of several groups are matched greedily: a later group may
find nothing left once an earlier one has taken the first fitting part of a larger set, and
succeed on a smaller set (`findForMoldable_greedy_skips_fit`). A cached start slot skips every
time before it.
-/

namespace ClusterScheduler

open IdSet

namespace SlotSet

section Passed

variable {ss : SlotSet} {available : Slot → IdSet} {startAfter duration : Int}
  {needed : IdSet → Logged (Option IdSet)}

def Refuses (needed : IdSet → Logged (Option IdSet)) (free : IdSet) : Prop :=
  free.isEmpty = true ∨ (needed free).result = .ok none

theorem scanStep_ok {b : Int} {k : Logged (Option Window)} {w : Option Window}
    (h : (ss.scanStep duration available needed b k).result = .ok w) :
    (ss.end < b + duration - 1 ∧ w = none) ∨
      (b + duration - 1 ≤ ss.end ∧
        ((∃ r, w = some (ss.windowOf b (b + duration - 1) r)) ∨
          (Refuses needed (ss.offeredOver available b (b + duration - 1)) ∧ k.result = .ok w))) := by
  unfold scanStep at h
  obtain ⟨e, he, h⟩ := Logged.result_bind_ok h
  obtain rfl := windowEnd_eq he
  dsimp only at h
  split at h
  · rename_i hend
    exact .inl ⟨hend, (Except.ok.inj h).symm⟩
  · rename_i hend
    refine .inr ⟨by omega, ?_⟩
    split at h
    · rename_i hempty
      exact .inr ⟨.inl hempty, h⟩
    · obtain ⟨found, hfound, h⟩ := Logged.result_bind_ok h
      cases found with
      | some r => exact .inl ⟨r, (Except.ok.inj h).symm⟩
      | none => exact .inr ⟨.inr hfound, h⟩

theorem scan_passes_over {w : Option Window} :
    ∀ starts : List Int, starts.Pairwise (· < ·) →
      (ss.scan duration available needed starts).result = .ok w →
      ∀ b ∈ starts, (w = none → b + duration - 1 ≤ ss.end) →
        (∀ win, w = some win → b < win.begin) →
        Refuses needed (ss.offeredOver available b (b + duration - 1))
  | [], _, _, b, hb, _, _ => by cases hb
  | b₀ :: rest, hsorted, h, b, hb, hnone, hsome => by
    rw [scan_cons] at h
    have hb₀ : b₀ ≤ b := by
      rcases List.mem_cons.1 hb with rfl | hb
      · exact Int.le_refl _
      · exact Int.le_of_lt (List.rel_of_pairwise_cons hsorted hb)
    rcases scanStep_ok h with ⟨hend, rfl⟩ | ⟨-, ⟨r, rfl⟩ | ⟨href, h⟩⟩
    · -- the first window ends past the set, and so does the window of `b`
      have := hnone rfl
      omega
    · -- the search stops at its first candidate, and no candidate comes before it
      have : b < b₀ := hsome _ rfl
      omega
    · rcases List.mem_cons.1 hb with rfl | hb
      · exact href
      · exact scan_passes_over rest hsorted.of_cons h b hb hnone hsome

theorem scan_found_end {win : Window} : ∀ starts : List Int,
    (ss.scan duration available needed starts).result = .ok (some win) →
      win.begin + duration - 1 ≤ ss.end
  | [], h => by cases h
  | b₀ :: rest, h => by
    rw [scan_cons] at h
    rcases scanStep_ok h with ⟨-, hw⟩ | ⟨hend, ⟨r, hw⟩ | ⟨-, h⟩⟩
    · cases hw
    · cases hw
      exact hend
    · exact scan_found_end rest h

theorem offeredOver_later (hw : ss.WellFormed) {L : Slot} (hL : L ∈ ss.slots) {b t d : Int}
    (hb : L.begin ≤ b) (hbt : b ≤ t) (ht : t ≤ L.end) (hd : 0 < d) :
    ss.offeredOver available t (t + d - 1) ⊆ ss.offeredOver available b (b + d - 1) := by
  intro x hx
  have hall := (mem_interAll.1 hx).2
  obtain ⟨pre, post, hsplit⟩ := List.append_of_mem hL
  have hsort := hw.sorted
  rw [hsplit, List.pairwise_append, List.pairwise_cons] at hsort
  refine mem_interAll.2 ⟨?_, ?_⟩
  · -- the earlier window meets its own slot
    have hmeets : L ∈ ss.slots.filter fun s => decide (s.begin ≤ b + d - 1 ∧ b ≤ s.end) :=
      List.mem_filter.2 ⟨hL, by simp only [decide_eq_true_eq]; omega⟩
    exact List.ne_nil_of_mem (List.mem_map_of_mem hmeets)
  · intro s hs
    obtain ⟨S, hS, rfl⟩ := List.mem_map.1 hs
    obtain ⟨hSmem, hmeet⟩ := List.mem_filter.1 hS
    simp only [decide_eq_true_eq] at hmeet
    apply hall
    apply List.mem_map_of_mem
    refine List.mem_filter.2 ⟨hSmem, ?_⟩
    simp only [decide_eq_true_eq]
    -- a slot meeting the earlier window is `L` or comes after it, so it ends no earlier than `L`
    have hSord := hw.ordered S hSmem
    have hSend : L.end ≤ S.end := by
      rw [hsplit] at hSmem
      rcases List.mem_append.1 hSmem with hpre | hpost
      · have := hsort.2.2 S hpre L List.mem_cons_self
        omega
      · rcases List.mem_cons.1 hpost with rfl | hpost
        · exact Int.le_refl _
        · have := hsort.2.1.1 S hpost
          omega
    omega

theorem searchStart_none_begin (hw : ss.WellFormed) {l : Slot}
    (h : ss.searchStart startAfter none = some l) : l.begin ≤ max startAfter ss.begin := by
  obtain ⟨x, -, hx, hxb⟩ := hw.first
  simp only [searchStart, Option.bind_none, Option.none_or, hx, Option.bind_some] at h
  have hmax := Int.le_max_left startAfter ss.begin
  split at h
  · cases h
    rw [hxb]
    exact Int.le_max_right _ _
  · have hcov := List.find?_some h
    rw [Slot.covers_iff] at hcov
    omega

theorem exists_candidate_le (hw : ss.WellFormed) {l : Slot}
    (hl : ss.searchStart startAfter none = some l) {t : Int} (ht : max startAfter ss.begin ≤ t)
    (hte : t ≤ ss.end) :
    ∃ L ∈ ss.slots, ∃ b ∈ ss.candidates startAfter l, L.begin ≤ b ∧ b ≤ t ∧ t ≤ L.end := by
  obtain ⟨hlmem, -⟩ := searchStart_mem hw hl
  have hlb := searchStart_none_begin hw hl
  have hmax := Int.le_max_left startAfter ss.begin
  obtain ⟨pre, post, hsplit⟩ := List.append_of_mem hlmem
  obtain ⟨L, hL, hcov⟩ := hw.exists_covers (t := t) (by have := Int.le_max_right startAfter ss.begin; omega) hte
  have hcov' := Slot.covers_iff.1 hcov
  refine ⟨L, hL, ?_⟩
  rw [candidates, hw.from?_eq hsplit, List.drop_one, List.tail_cons]
  have hsort := hw.sorted
  rw [hsplit] at hL hsort
  rcases List.mem_append.1 hL with hpre | hpost
  · -- a slot before the start slot ends before the time
    have := (List.pairwise_append.1 hsort).2.2 L hpre l List.mem_cons_self
    omega
  · rcases List.mem_cons.1 hpost with rfl | hpost
    · exact ⟨max startAfter L.begin, List.mem_cons_self, Int.le_max_right _ _,
        Int.max_le.2 ⟨by omega, hcov'.1⟩, hcov'.2⟩
    · exact ⟨L.begin, List.mem_cons_of_mem _ (List.mem_map_of_mem hpost), Int.le_refl _,
        hcov'.1, hcov'.2⟩

theorem searchStart_none_of_le (hw : ss.WellFormed) (h : startAfter ≤ ss.end) :
    ∃ l, ss.searchStart startAfter none = some l := by
  obtain ⟨x, rest, hl⟩ := List.exists_cons_of_ne_nil hw.nonempty
  have hx : ss.first? = some x := by simp [first?, hl]
  have hxb : x.begin = ss.begin := by simp [SlotSet.begin, hx]
  simp only [searchStart, Option.bind_none, Option.none_or, hx, Option.bind_some]
  split
  · exact ⟨x, rfl⟩
  · -- the chain from the first slot is the whole chain, where a slot holds `startAfter`
    rename_i hlt
    obtain ⟨L, hL, hcov⟩ := hw.exists_covers (t := startAfter) (by omega) h
    rw [hw.from?_eq (by simp [hl] : ss.slots = [] ++ x :: rest), ← hl]
    exact Option.isSome_iff_exists.1 (List.find?_isSome.2 ⟨L, hL, hcov⟩)

theorem findWindow_passes_over (hw : ss.WellFormed) (hdur : 0 < duration) {w : Option Window}
    (h : (ss.findWindow startAfter duration none available needed).result = .ok w) {t : Int}
    (ht : max startAfter ss.begin ≤ t) (hbefore : ∀ win, w = some win → t < win.begin)
    (hwithin : w = none → t + duration - 1 ≤ ss.end) :
    ∃ b, ss.offeredOver available t (t + duration - 1) ⊆
      ss.offeredOver available b (b + duration - 1) ∧
      Refuses needed (ss.offeredOver available b (b + duration - 1)) := by
  rw [findWindow_eq_scan hw, if_neg (by omega)] at h
  cases hstart : ss.searchStart startAfter none with
  | none =>
    -- the time lies in the set, so the search has a slot to start from
    rw [hstart] at h
    have hw' : none = w := Except.ok.inj h
    have := hwithin hw'.symm
    obtain ⟨l, hl⟩ : ∃ l, ss.searchStart startAfter none = some l :=
      searchStart_none_of_le hw (by have := Int.le_max_left startAfter ss.begin; omega)
    rw [hstart] at hl
    cases hl
  | some l =>
    rw [hstart, Option.elim_some] at h
    obtain ⟨hlmem, hafter⟩ := searchStart_mem hw hstart
    obtain ⟨pre, post, hsplit⟩ := List.append_of_mem hlmem
    -- the time's window ends within the set: before the window found, or by hypothesis
    have hte : t + duration - 1 ≤ ss.end := by
      cases w with
      | none => exact hwithin rfl
      | some win =>
        have := scan_found_end _ h
        have := hbefore win rfl
        omega
    obtain ⟨L, hL, b, hb, hLb, hbt, htL⟩ := exists_candidate_le hw hstart ht (by omega)
    refine ⟨b, offeredOver_later hw hL hLb hbt htL hdur, ?_⟩
    exact scan_passes_over _ (candidates_sorted hw hsplit hafter) h b hb (fun _ => by omega)
      fun win hwin => Int.lt_of_le_of_lt hbt (hbefore win hwin)

end Passed

end SlotSet

namespace Hierarchy

theorem requestWith_single_empty (h : Hierarchy) (policy : FindPolicy) (g : RequestGroup)
    {S : IdSet} (hS : S.isEmpty = true) : (h.requestWith policy S [g]).result = .ok none := by
  rw [requestWith_single, if_pos]
  rw [IdSet.isEmpty_iff] at hS ⊢
  intro x hx
  exact hS x (pool_subset_available S g hx)

end Hierarchy

namespace Job

/-- What a slot offers a job: its free resources, with those of the time-sharing and
placeholder sets the job may use. -/
def offered (j : Job) (s : Slot) : IdSet :=
  s.availableFor (j.timeSharing.map fun _ => (j.user.getD "", j.name.getD "")) j.placeholder

end Job

namespace Placement

open SlotSet

variable {cl : Cluster} {ss ss' : SlotSet} {j : Job} {m : Moldable} {minBegin : Option Int}
  {w : Option Window}

theorem findForMoldable_window
    (hhint : cl.config.cacheEnabled = false ∨ j.canUseCache = false ∨ ss.cached? m.cacheKey = none)
    (hres : (findForMoldable cl ss j m minBegin).result = .ok (ss', w)) :
    (ss.findWindow (minBegin.getD ss.begin) (m.walltime + cl.config.securityTime) none j.offered
      fun free => cl.inventory.hierarchy.requestWith j.find free m.requests).result = .ok w := by
  unfold findForMoldable at hres
  dsimp only at hres
  obtain ⟨duration, hd, hres⟩ := Logged.result_bind_ok hres
  obtain ⟨found, hfound, hr⟩ := Logged.result_bind_ok hres
  simp only [Logged.result_pure, Except.ok.injEq, Prod.mk.injEq] at hr
  rw [Logged.result_lift] at hd
  obtain ⟨rfl, -⟩ := Word.eq_of_add_ok hd
  have hnone : (if cl.config.cacheEnabled && j.canUseCache then ss.cached? m.cacheKey else none) =
      none := by
    rcases hhint with h | h | h <;> simp [h]
  rw [hr.2, hnone] at hfound
  exact hfound

/-- A moldable of one request group, searched for without a cached start slot, gets the earliest
window its request allows. Take any time from `startAfter` (or the set's begin) on: before the
window found, or, when none is found, with its window ending within the set. On what the slots
meeting that time's window offer the job, the request finds nothing. -/
theorem findForMoldable_earliest (hw : ss.WellFormed) {g : RequestGroup} (hgroup : m.requests = [g])
    (hhint : cl.config.cacheEnabled = false ∨ j.canUseCache = false ∨ ss.cached? m.cacheKey = none)
    (hdur : 0 < m.walltime + cl.config.securityTime)
    (hres : (findForMoldable cl ss j m minBegin).result = .ok (ss', w)) {t : Int}
    (ht : max (minBegin.getD ss.begin) ss.begin ≤ t) (hbefore : ∀ win, w = some win → t < win.begin)
    (hwithin : w = none → t + (m.walltime + cl.config.securityTime) - 1 ≤ ss.end) (R : IdSet) :
    (cl.inventory.hierarchy.requestWith j.find
      (ss.offeredOver j.offered t (t + (m.walltime + cl.config.securityTime) - 1))
        m.requests).result ≠ .ok (some R) := by
  obtain ⟨b, hsub, href⟩ :=
    findWindow_passes_over hw hdur (findForMoldable_window hhint hres) ht hbefore hwithin
  rw [hgroup] at href ⊢
  intro hR
  -- the candidate's larger set is refused, which a request of one group cannot do
  apply Hierarchy.requestWith_single_grows _ _ g hsub hR
  rcases href with hempty | hnone
  · exact Hierarchy.requestWith_single_empty _ _ g hempty
  · exact hnone

/-- Two cores on one node, the first free from time 10 on: a job asking for both for 5 seconds
gets them at time 10, and no time from 0 to 9 has both free for its window. -/
theorem findForMoldable_earliest_two_cores :
    let cl : Cluster := ⟨{ securityTime := 0, cacheEnabled := false },
      { defaultResources := IdSet.range 1 2, hierarchy := ⟨[("core", ⟨none, true⟩)]⟩ }⟩
    let g : RequestGroup := ⟨IdSet.range 1 2, [⟨"core", 2⟩]⟩
    let m : Moldable := ⟨1, 5, [g]⟩
    let j : Job := { id := 1, moldables := [m] }
    let ss : SlotSet := ⟨[⟨1, 0, 9, IdSet.range 2 2, [], []⟩, ⟨2, 10, maxTime, IdSet.range 1 2, [], []⟩],
      3, []⟩
    let win : Window := ⟨10, 14, 2, 2, IdSet.range 1 2⟩
    (findForMoldable cl ss j m none).result = .ok (ss, some win) ∧
      ∀ R, (cl.inventory.hierarchy.requestWith j.find (ss.offeredOver j.offered 7 (7 + (5 + 0) - 1))
        m.requests).result ≠ .ok (some R) := by
  intro cl g m j ss win
  have hw : ss.WellFormed := by
    refine ⟨by simp [ss], ?_, ?_, ?_, ?_, ?_, ?_⟩ <;>
      simp [ss, Abut, Word.i32, Word.i64, maxTime]
  have hres : (findForMoldable cl ss j m none).result = .ok (ss, some win) := by decide +kernel
  refine ⟨hres, findForMoldable_earliest hw (g := g) rfl (.inl rfl) (by decide) hres
    (by decide) (fun w' hw' => by cases hw'; decide) (fun h => by cases h)⟩

/-- A request of two groups, matched greedily, can be refused on a larger set and filled on a
smaller one, and then the search skips a time that fits. On four cores in two nodes of two, with
core 2 taken over `[10, 19]`, a job asks for a node with two cores and then one more core among
cores 1 and 2. The search gets a window at time 10, yet at time 1 the job's window meets the
slot where core 2 is taken, and the request takes cores 3 and 4 and core 1 there. -/
theorem findForMoldable_greedy_skips_fit :
    let h : Hierarchy := ⟨[("node", ⟨some [⟨"0", IdSet.range 1 2⟩, ⟨"1", IdSet.range 3 4⟩], false⟩),
      ("core", ⟨none, true⟩)]⟩
    let cl : Cluster := ⟨{ securityTime := 0, cacheEnabled := false },
      { defaultResources := IdSet.range 1 4, hierarchy := h }⟩
    let pair : List RequestGroup :=
      [⟨IdSet.range 1 4, [⟨"node", 1⟩, ⟨"core", 2⟩]⟩, ⟨IdSet.range 1 2, [⟨"core", 1⟩]⟩]
    let m : Moldable := ⟨1, 10, pair⟩
    let j : Job := { id := 1, moldables := [m] }
    let ss : SlotSet := ⟨[⟨1, 0, 9, IdSet.range 1 4, [], []⟩,
      ⟨2, 10, 19, IdSet.range 1 1 ∪ IdSet.range 3 4, [], []⟩,
      ⟨3, 20, maxTime, IdSet.range 1 4, [], []⟩], 4, []⟩
    (findForMoldable cl ss j m none).result.map (fun p => p.2.map (·.begin)) = .ok (some 10) ∧
      (h.requestWith j.find (ss.offeredOver j.offered 1 (1 + (10 + 0) - 1)) pair).result =
        .ok (some (IdSet.range 1 1 ∪ IdSet.range 3 4)) := by
  intro h cl pair m j ss
  constructor
  · decide +kernel
  · decide +kernel

end Placement

end ClusterScheduler
