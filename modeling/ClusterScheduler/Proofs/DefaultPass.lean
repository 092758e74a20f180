import ClusterScheduler.Proofs.RoundStart

/-!
# A placement pass seen from the `default` set

With no job of a pass naming the `default` set as its inner set, no container adds resources to
it, and the pass invariant `Safe` says of the `default` set alone: the set narrows, no placed job
of the set holds a resource the set leaves free, and a plain job of the set is placed within the
set's bounds, on resources free at the start of the pass, apart from every other job of the set
(`scheduleJobs_default`). A cycle runs one pass on the waiting jobs of its queues and moves those
it places to the scheduled jobs (`cycleOn_spec`).
-/

namespace ClusterScheduler

open IdSet SlotSet Placement

namespace Placement

variable {cl : Cluster}

theorem scheduleJob_job {ss ss' : SlotSet} {j j' : Job} {minBegin : Option Int} {placed : Bool}
    (h : (scheduleJob cl ss j minBegin).result = .ok (ss', j', placed)) :
    j' = j ∨ ∃ a, j' = { j with assignment := some a } := by
  unfold scheduleJob at h
  obtain ⟨⟨ss₁, found⟩, -, h⟩ := Logged.result_bind_ok h
  cases found with
  | none =>
    simp only [Logged.result_pure, Except.ok.injEq, Prod.mk.injEq] at h
    exact .inl h.2.1.symm
  | some p =>
    obtain ⟨i, w⟩ := p
    dsimp only at h
    obtain ⟨_, -, h⟩ := Logged.result_bind_ok h
    simp only [Logged.result_pure, Except.ok.injEq, Prod.mk.injEq] at h
    exact .inr ⟨_, h.2.1.symm⟩

theorem scheduleJobs_jobs {sets sets' : SlotSets} {waiting jobs' : List Job}
    {diags : List Diagnostic} (hrun : (scheduleJobs cl sets waiting).result = .ok (sets', jobs', diags)) :
    jobs'.length = waiting.length ∧
      ∀ K ∈ jobs', ∃ w ∈ waiting, K = { w with assignment := K.assignment } := by
  unfold scheduleJobs at hrun
  obtain ⟨p, hp, hrun⟩ := Logged.result_bind_ok hrun
  simp only [Logged.result_pure, Except.ok.injEq, Prod.mk.injEq] at hrun
  obtain ⟨-, rfl, -⟩ := hrun
  refine Logged.foldlM_invariant (step cl) (fun _ p => p.jobs.length = waiting.length ∧
    ∀ K ∈ p.jobs, ∃ w ∈ waiting, K = { w with assignment := K.assignment }) ?_ _ _
    ⟨rfl, fun K hK => ⟨K, hK, rfl⟩⟩ hp
  rintro x xs p p' ⟨hlen, hI⟩ h
  rcases step_cases h with ⟨-, hjobs⟩ |
    ⟨j, name, ss, minBegin, ss₁, j₁, placed, sets₂, hj, -, -, hsched, -, -, hjobs⟩
  · rw [hjobs]
    exact ⟨hlen, hI⟩
  · rw [hjobs]
    refine ⟨by simp [replaceJob, hlen], fun K hK => ?_⟩
    rcases mem_replaceJob hK with rfl | ⟨hK, -⟩
    · obtain ⟨w, hw, hjw⟩ := hI j (List.mem_of_find?_eq_some hj)
      rcases scheduleJob_job hsched with rfl | ⟨a, rfl⟩
      · exact ⟨w, hw, hjw⟩
      · exact ⟨w, hw, by rw [hjw]⟩
    · exact hI K hK

/-- What a pass did to the `default` set, from `d` to `d'`, placing `placed`: the set narrowed,
no placed job of the set holds a resource it leaves free, and a plain job of the set was placed
within its bounds, on resources free at the start, apart from every other job of the set. -/
structure DefaultPass (d d' : SlotSet) (placed : List Job) : Prop where
  narrows : Narrows d d'
  taken : ∀ K ∈ placed, K.slotSetName.result = .ok "default" →
    ∀ t c, d'.contentsAt t = some c → ∀ x ∈ c.1, ¬Holds K t x
  within : ∀ J ∈ placed, J.Plain → J.slotSetName.result = .ok "default" →
    ∀ a, J.assignment = some a → d.begin ≤ a.begin ∧ a.end ≤ d.end
  fromFree : ∀ J ∈ placed, J.Plain → J.slotSetName.result = .ok "default" →
    ∀ t x, Holds J t x → ∃ c, d.contentsAt t = some c ∧ x ∈ c.1
  apart : ∀ J ∈ placed, J.Plain → J.slotSetName.result = .ok "default" → ∀ K ∈ placed,
    K.id ≠ J.id → K.slotSetName.result = .ok "default" → ∀ t x, Holds J t x → ¬Holds K t x

theorem DefaultPass.mono {d d' : SlotSet} {placed placed' : List Job} (h : DefaultPass d d' placed)
    (hsub : ∀ K ∈ placed', K ∈ placed) : DefaultPass d d' placed' where
  narrows := h.narrows
  taken K hK := h.taken K (hsub K hK)
  within J hJ := h.within J (hsub J hJ)
  fromFree J hJ := h.fromFree J (hsub J hJ)
  apart J hJ hp hJd K hK := h.apart J (hsub J hJ) hp hJd K (hsub K hK)

theorem DefaultPass.nil (d : SlotSet) : DefaultPass d d [] :=
  ⟨Narrows.refl d, by simp, by simp, by simp, by simp⟩

/-- A pass none of whose jobs names the `default` set as its inner set, seen from that set. -/
theorem scheduleJobs_default {sets sets' : SlotSets} {waiting jobs' : List Job}
    {diags : List Diagnostic} {d : SlotSet} (hd : sets.lookup "default" = some d)
    (hsane : ∀ S ss, sets.lookup S = some ss → ss.Sane) (hw : d.WellFormed) (hapart : d.Apart)
    (hids : (waiting.map (·.id)).Nodup) (hnone : ∀ j ∈ waiting, j.assignment = none)
    (hinner : ∀ j ∈ waiting, j.containerSlotSetName ≠ some "default")
    (hrun : (scheduleJobs cl sets waiting).result = .ok (sets', jobs', diags)) :
    (∀ S ss, sets'.lookup S = some ss → ss.Sane) ∧
    (∀ K ∈ jobs', ∀ a, K.assignment = some a → a.begin ≤ a.end) ∧
    ∃ d', sets'.lookup "default" = some d' ∧ DefaultPass d d' jobs' := by
  have hs : Safe cl sets (· = "default") sets' jobs' [] :=
    scheduleJobs_safe (fun S ss h => ⟨hsane S ss h, fun hS => by
      subst hS
      rw [hd, Option.some.injEq] at h
      exact h ▸ hapart⟩) hids hnone hrun
  have hnot : ∀ t x, ¬Added cl jobs' "default" t x := by
    rintro t x ⟨C, hC, -, hCd, -⟩
    obtain ⟨w, hw, hCw⟩ := (scheduleJobs_jobs hrun).2 C hC
    rw [hCw] at hCd
    exact hinner w hw hCd
  have hfree : ∀ t x, FreeIn sets "default" t x → ∃ c, d.contentsAt t = some c ∧ x ∈ c.1 := by
    rintro t x ⟨ss, hss, c, hc, hx⟩
    rw [hd, Option.some.injEq] at hss
    exact hss ▸ ⟨c, hc, hx⟩
  obtain ⟨d', hd', hb, he⟩ := hs.bounds "default" d hd
  refine ⟨hs.sane, fun K hK a ha => (hs.timely K hK a ha).2, d', hd',
    ⟨⟨hb, he, fun t c' hc' => ?_⟩, ?_, ?_, ?_, ?_⟩⟩
  · -- what is free at the end was free at the start
    have hcs := hs.contents "default" rfl d' hd' t c' hc'
    have ht := (hs.sane "default" d' hd').mem_bounds hc'
    rw [hb, he] at ht
    obtain ⟨c, hc⟩ := hw.exists_contentsAt ht.1 ht.2
    refine ⟨c, hc, fun x hx => ⟨?_, fun hex => absurd (hcs.freeEntries x hx hex) (hnot t x)⟩⟩
    obtain ⟨c₀, hc₀, hx₀⟩ := hfree t x ((hcs.fromStart x hx).resolve_right (hnot t x))
    rw [hc, Option.some.injEq] at hc₀
    exact hc₀ ▸ hx₀
  · intro K hK hKd t c hc x hx hKt
    exact hnot t x ((hs.contents "default" rfl d' hd' t c hc).heldFree K hK hKd x hx hKt)
  · intro J hJ _ hJd a ha
    exact hs.inside J hJ "default" hJd a ha d hd
  · intro J hJ hp hJd t x hJt
    exact hfree t x ((hs.within J hJ hp "default" rfl hJd t x hJt).resolve_right (hnot t x))
  · intro J hJ hp hJd K hK hne hKd t x hJt hKt
    exact hnot t x (hs.apart J hJ hp K hK hne "default" rfl hJd hKd t x hJt hKt)

end Placement

namespace JobPriority

theorem sortJobs_perm (p : JobPriority) (jobs : List Job) : (p.sortJobs jobs).Perm jobs :=
  List.mergeSort_perm _ _

theorem sortJobs_of_pairwise (p : JobPriority) (jobs : List Job)
    (h : jobs.Pairwise fun a b => p.compare a b ≠ .gt) : p.sortJobs jobs = jobs :=
  List.mergeSort_of_pairwise (by simpa using h)

end JobPriority

namespace Round

theorem save_nil (r : Round) : r.save [] = r := by
  cases r
  simp [save]

theorem cycleOn_ok {r r' : Round} {sets sets' : SlotSets} {queues : List String}
    {p : JobPriority} {report : CycleReport}
    (h : (r.cycleOn sets queues p).result = .ok (r', sets', report)) :
    ((r.waitingIn queues).isEmpty = true ∧ r' = r ∧ sets' = sets ∧ report = {}) ∨
    ∃ jobs, (Placement.scheduleJobs r.cluster sets (p.sortJobs (r.waitingIn queues))).result =
        .ok (sets', jobs, report.diagnostics) ∧
      r' = r.save (jobs.filter (·.assignment.isSome)) ∧
      report.allocations = (jobs.filter (·.assignment.isSome)).filterMap Allocation.ofJob? := by
  unfold cycleOn at h
  dsimp only at h
  split at h
  · rename_i hempty
    simp only [Logged.result_pure, Except.ok.injEq, Prod.mk.injEq] at h
    obtain ⟨rfl, rfl, rfl⟩ := h
    exact .inl ⟨hempty, rfl, rfl, rfl⟩
  obtain ⟨⟨sets₁, jobs, diags⟩, hrun, h⟩ := Logged.result_bind_ok h
  dsimp only at h
  -- rendering the table of the `default` set, when asked for, changes nothing
  obtain ⟨rfl, rfl, hall, hdiags⟩ : r' = r.save (jobs.filter (·.assignment.isSome)) ∧
      sets' = sets₁ ∧
      report.allocations = (jobs.filter (·.assignment.isSome)).filterMap Allocation.ofJob? ∧
      report.diagnostics = diags := by
    split at h
    · split at h
      · obtain ⟨_, -, h⟩ := Logged.result_bind_ok h
        simp only [Logged.result_pure, Except.ok.injEq, Prod.mk.injEq] at h
        exact ⟨h.1.symm, h.2.1.symm, by rw [← h.2.2], by rw [← h.2.2]⟩
      · simp only [Logged.result_pure, Except.ok.injEq, Prod.mk.injEq] at h
        exact ⟨h.1.symm, h.2.1.symm, by rw [← h.2.2], by rw [← h.2.2]⟩
    · simp only [Logged.result_pure, Except.ok.injEq, Prod.mk.injEq] at h
      exact ⟨h.1.symm, h.2.1.symm, by rw [← h.2.2], by rw [← h.2.2]⟩
  rw [← hdiags] at hrun
  exact .inr ⟨jobs, hrun, rfl, hall⟩

/-- A cycle on slot sets whose `default` set is `d`: it places some of the waiting jobs of its
queues, each a waiting job with an assignment over an interval, reports their allocations, and
moves them to the scheduled jobs; seen from the `default` set, its pass is a `DefaultPass`. -/
theorem cycleOn_spec {r r' : Round} {sets sets' : SlotSets} {queues : List String}
    {p : JobPriority} {report : CycleReport} {d : SlotSet}
    (hd : sets.lookup "default" = some d) (hsane : ∀ S ss, sets.lookup S = some ss → ss.Sane)
    (hw : d.WellFormed) (hapart : d.Apart)
    (hids : (r.waiting.map (·.id)).Nodup) (hnone : ∀ j ∈ r.waiting, j.assignment = none)
    (hinner : ∀ j ∈ r.waiting, j.containerSlotSetName ≠ some "default")
    (h : (r.cycleOn sets queues p).result = .ok (r', sets', report)) :
    ∃ placed, r' = r.save placed ∧ report.allocations = placed.filterMap Allocation.ofJob? ∧
      (∀ K ∈ placed, (∃ w ∈ r.waiting, K = { w with assignment := K.assignment }) ∧
        ∃ a, K.assignment = some a ∧ a.begin ≤ a.end) ∧
      (∀ S ss, sets'.lookup S = some ss → ss.Sane) ∧
      ∃ d', sets'.lookup "default" = some d' ∧ DefaultPass d d' placed := by
  rcases cycleOn_ok h with ⟨-, hr, rfl, rfl⟩ | ⟨jobs, hrun, rfl, hrep⟩
  · subst r'
    exact ⟨[], (save_nil r).symm, rfl, by simp, hsane, d, hd, DefaultPass.nil d⟩
  have hperm := p.sortJobs_perm (r.waitingIn queues)
  have hmem : ∀ j ∈ p.sortJobs (r.waitingIn queues), j ∈ r.waiting :=
    fun j hj => (List.mem_filter.1 (hperm.subset hj)).1
  have hids' : ((p.sortJobs (r.waitingIn queues)).map (·.id)).Nodup :=
    (hperm.map _).nodup_iff.2 (hids.sublist ((List.filter_sublist (l := r.waiting)).map _))
  obtain ⟨hsane', hint, d', hd', hpass⟩ := Placement.scheduleJobs_default hd hsane hw hapart hids'
    (fun j hj => hnone j (hmem j hj)) (fun j hj => hinner j (hmem j hj)) hrun
  obtain ⟨-, horigin⟩ := Placement.scheduleJobs_jobs hrun
  refine ⟨jobs.filter (·.assignment.isSome), rfl, hrep, fun K hK => ?_, hsane', d', hd',
    hpass.mono fun K hK => (List.mem_filter.1 hK).1⟩
  obtain ⟨hK, hsome⟩ := List.mem_filter.1 hK
  obtain ⟨w, hwait, hKw⟩ := horigin K hK
  obtain ⟨a, ha⟩ := Option.isSome_iff_exists.1 hsome
  exact ⟨⟨w, hmem w hwait, hKw⟩, a, ha, hint K hK a ha⟩

end Round

end ClusterScheduler
