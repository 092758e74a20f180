import ClusterScheduler.Proofs.PlaceOne
import ClusterScheduler.Proofs.DefaultPass
import Mathlib.Control.Monad.Basic

/-!
# What the placement cache does to a search

With the cache enabled, the search for a moldable whose key is cached starts at the slot where
the last moldable of that key was placed, and no window beginning before that slot is looked
at. The cache is meant to skip only windows that cannot fit: a window that did not fit the
earlier moldable, while fewer resources were taken, should not fit the later one either. That
holds when a request that fails keeps failing once the free resources shrink. A request of two
groups, matched greedily, is not like that: the first group may take, from more free resources,
what the second one needed. A cycle then leaves a job waiting with the cache that it places
without.
-/

namespace ClusterScheduler

namespace SlotSet

section Search

variable {ss : SlotSet} {startAfter duration : Int} {available : Slot → IdSet}
  {needed : IdSet → Logged (Option IdSet)}

theorem slide_begin :
    ∀ (fromLeft : List Slot) (right : Slot) (ahead : List Slot) (w : Sliding) {win : Window},
      (slide ss.end startAfter duration available needed fromLeft right ahead w).result =
        .ok (some win) → ∃ l ∈ fromLeft, win.begin = max l.begin startAfter
  | [], _, _, _, _, h => by
    simp only [slide, Logged.result_pure, Except.ok.injEq, reduceCtorEq] at h
  | left :: rest, right, ahead, w, win, h => by
    unfold slide at h
    obtain ⟨e, -, h⟩ := Logged.result_bind_ok h
    split at h
    · simp only [Logged.result_pure, Except.ok.injEq, reduceCtorEq] at h
    · split at h
      · simp only [Logged.result_pure, Except.ok.injEq, reduceCtorEq] at h
      · dsimp only at h
        rw [Logged.ite_bind] at h
        obtain ⟨found, -, h⟩ := Logged.result_bind_ok h
        cases found with
        | some r =>
          simp only [Logged.result_pure, Except.ok.injEq, Option.some.injEq] at h
          subst h
          exact ⟨left, List.mem_cons_self, rfl⟩
        | none =>
          -- no resources here: the window slides on over the rest of the chain
          cases rest with
          | nil => simp only [Logged.result_pure, Except.ok.injEq, reduceCtorEq] at h
          | cons next more =>
            simp only at h
            split at h
            · obtain ⟨l, hl, hb⟩ := slide_begin (next :: more) _ _ _ h
              exact ⟨l, List.mem_cons_of_mem _ hl, hb⟩
            · obtain ⟨l, hl, hb⟩ := slide_begin (next :: more) _ _ _ h
              exact ⟨l, List.mem_cons_of_mem _ hl, hb⟩

theorem WellFormed.begin_le_of_mem_from? (hw : ss.WellFormed) {x y : Slot} (hx : x ∈ ss.slots)
    (hy : y ∈ ss.from? x.id) : x.begin ≤ y.begin := by
  obtain ⟨pre, post, hsplit⟩ := List.append_of_mem hx
  rw [hw.from?_eq hsplit] at hy
  rcases List.mem_cons.1 hy with rfl | hy
  · exact Int.le_refl _
  · have hsort := hw.sorted
    rw [hsplit] at hsort
    have hxy := List.rel_of_pairwise_cons (List.pairwise_append.1 hsort).2.1 hy
    have := hw.ordered x hx
    omega

theorem findWindow_hint_begin (hw : ss.WellFormed) {h : Int} {s : Slot}
    (hs : ss.slot? h = some s) {win : Window}
    (hwin : (ss.findWindow startAfter duration (some h) available needed).result = .ok (some win)) :
    s.begin ≤ win.begin := by
  have hsmem := (mem_of_slot? hs).1
  unfold findWindow at hwin
  split at hwin
  · simp only [Logged.result_pure, Except.ok.injEq, reduceCtorEq] at hwin
  · simp only [Option.bind_some, hs] at hwin
    split at hwin
    · simp only [Logged.result_pure, Except.ok.injEq, reduceCtorEq] at hwin
    · rename_i l hleft
      -- the search starts at the hinted slot, or at a later slot holding the earliest start
      have hl : l ∈ ss.slots ∧ s.begin ≤ l.begin := by
        split at hleft
        · cases hleft
          exact ⟨hsmem, Int.le_refl _⟩
        · unfold slotAt at hleft
          have hmem := (List.takeWhile_sublist _).subset (List.mem_of_find?_eq_some hleft)
          rw [Option.getD_some] at hmem
          exact ⟨(List.dropWhile_suffix _).subset hmem, hw.begin_le_of_mem_from? hsmem hmem⟩
      obtain ⟨l', hl', hb⟩ := slide_begin _ _ _ _ hwin
      have := hw.begin_le_of_mem_from? hl.1 hl'
      omega

end Search

end SlotSet

namespace Placement

open SlotSet

/-- With the cache enabled, the search for a moldable whose key is cached, for a job that may use
the cache, finds no window beginning before the slot where the last moldable of that key was
placed, whether or not an earlier window would fit. -/
theorem cached_search_starts_at_cached_slot {cl : Cluster} {ss ss' : SlotSet} (hw : ss.WellFormed)
    {j : Job} {m : Moldable} {minBegin : Option Int} {h : Int} {s : Slot} {win : Window}
    (hcache : cl.config.cacheEnabled = true) (huse : j.canUseCache = true)
    (hkey : ss.cached? m.cacheKey = some h) (hs : ss.slot? h = some s)
    (hr : (findForMoldable cl ss j m minBegin).result = .ok (ss', some win)) :
    s.begin ≤ win.begin := by
  unfold findForMoldable at hr
  dsimp only at hr
  obtain ⟨duration, -, hr⟩ := Logged.result_bind_ok hr
  obtain ⟨found, hfound, hr⟩ := Logged.result_bind_ok hr
  simp only [Logged.result_pure, Except.ok.injEq, Prod.mk.injEq] at hr
  rw [hr.2, hcache, huse, Bool.and_self, if_pos rfl, hkey] at hfound
  exact findWindow_hint_begin hw hs hfound

/-- A set of two slots whose cache names the second: the search of a moldable of that key starts
there, at time 10, though the first slot has room from time 0. -/
theorem cached_search_skips_first_slot :
    let cl : Cluster := ⟨{ securityTime := 0 },
      { defaultResources := IdSet.range 1 1, hierarchy := ⟨[("resource_id", ⟨none, true⟩)]⟩ }⟩
    let m : Moldable := ⟨1, 10, [⟨IdSet.range 1 1, [⟨"resource_id", 1⟩]⟩]⟩
    let j : Job := { id := 1, moldables := [m] }
    let s₁ : Slot := ⟨1, 0, 9, IdSet.range 1 1, [], []⟩
    let s₂ : Slot := ⟨2, 10, maxTime, IdSet.range 1 1, [], []⟩
    let ss : SlotSet := ⟨[s₁, s₂], 3, [(m.cacheKey, 2)]⟩
    ∃ ss' win, ss.WellFormed ∧ cl.config.cacheEnabled = true ∧ j.canUseCache = true ∧
      ss.cached? m.cacheKey = some 2 ∧ ss.slot? 2 = some s₂ ∧
      (findForMoldable cl ss j m none).result = .ok (ss', some win) ∧ win.begin = 10 ∧
      s₂.begin ≤ win.begin := by
  intro cl m j s₁ s₂ ss
  have hw : ss.WellFormed := by
    refine ⟨by simp [ss], ?_, ?_, ?_, ?_, ?_, ?_⟩ <;> simp [ss, s₁, s₂, Abut, Word.i32, Word.i64, maxTime]
  obtain ⟨⟨ss', found⟩, hr, hfound⟩ := except_map_eq_ok
    (show ((findForMoldable cl ss j m none).result.map fun p => p.2.map (·.begin)) = .ok (some 10) by
      decide +kernel)
  cases found with
  | none => cases hfound
  | some win =>
    have hkey : ss.cached? m.cacheKey = some 2 := by decide +kernel
    have hs : ss.slot? 2 = some s₂ := by decide +kernel
    refine ⟨ss', win, hw, rfl, rfl, hkey, hs, hr, Option.some.inj hfound,
      cached_search_starts_at_cached_slot hw rfl rfl hkey hs hr⟩

end Placement

/-- The placement cache changes a cycle's placements. On four cores in two nodes of two, with
core 2 taken over `[10, 19]`, three jobs wait: the first and the third ask for a node with two
free cores and then for one more core among cores 1 and 2, the second for core 2. The first job
runs over `[10, 19]` on cores 1, 3 and 4, and the second over `[0, 9]` on core 2. Without the
cache the third job then runs over `[0, 9]` on cores 1, 3 and 4; with the cache its search starts
at the first job's slot, at time 10, and it is left waiting, since from `[10, 19]` on the greedy
match of its two groups takes core 1 for the node and finds no core left for the second group. -/
theorem cycle_cache_changes_placements :
    let h : Hierarchy := ⟨[("node", ⟨some [⟨"0", IdSet.range 1 2⟩, ⟨"1", IdSet.range 3 4⟩], false⟩),
      ("core", ⟨none, true⟩)]⟩
    let cl : Bool → Cluster := fun cache =>
      ⟨{ securityTime := 0, cacheEnabled := cache },
        { defaultResources := IdSet.range 1 4, hierarchy := h }⟩
    let pair : List RequestGroup :=
      [⟨IdSet.range 1 4, [⟨"node", 1⟩, ⟨"core", 2⟩]⟩, ⟨IdSet.range 1 2, [⟨"core", 1⟩]⟩]
    let waiting : List Job :=
      [{ id := 1, moldables := [⟨1, 10, pair⟩] },
        { id := 2, moldables := [⟨2, 10, [⟨IdSet.range 2 2, [⟨"core", 1⟩]⟩]⟩] },
        { id := 3, moldables := [⟨3, 10, pair⟩] }]
    let r : Bool → Round := fun cache =>
      { now := 0
        maxTime := 1000
        cluster := cl cache
        scheduled := [{ id := 9, assignment := some ⟨10, 19, IdSet.range 2 2, 0⟩ }]
        waiting := waiting
        renderTables := false }
    ((r true).cycle ["default"] .fifo).result.map (·.2.allocations) =
        .ok [⟨1, 1, 10, 19, IdSet.range 1 1 ∪ IdSet.range 3 4⟩, ⟨2, 2, 0, 9, IdSet.range 2 2⟩] ∧
      ((r false).cycle ["default"] .fifo).result.map (·.2.allocations) =
        .ok [⟨1, 1, 10, 19, IdSet.range 1 1 ∪ IdSet.range 3 4⟩, ⟨2, 2, 0, 9, IdSet.range 2 2⟩,
          ⟨3, 3, 0, 9, IdSet.range 1 1 ∪ IdSet.range 3 4⟩] := by
  dsimp only
  -- the sort of the waiting jobs is rewritten away: it does not reduce by evaluation
  constructor
  all_goals
    simp only [Round.cycle, Round.cycleOn]
    rw [JobPriority.sortJobs_of_pairwise]
    · decide +kernel
    · decide +kernel

end ClusterScheduler
