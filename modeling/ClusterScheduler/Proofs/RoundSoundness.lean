import ClusterScheduler.Snapshot.Round
import ClusterScheduler.Proofs.DefaultPass

/-!
# Plain allocations of a round

A plain allocation is that of a job that neither shares nor reserves, opens no inner set and runs
in the `default` set. In a cycle, and in a round of queue groups on shared slot sets, such an
allocation lies within `[now, maxTime]`, on default resources before they leave, apart from every
other allocation of the `default` set made with it or before it, and apart from what the
scheduled jobs of the set that block it hold. Plain jobs of later groups keep apart from it too.

This needs the round to be `Admissible`: no job names the `default` set as its inner set (such a
container gives its resources back to the set it takes them from), scheduled jobs hold intervals,
and waiting jobs carry no assignment yet (one that is not placed would keep it). Jobs of other
sets are not kept apart from a plain allocation: a suspended container's inner set holds the
resources suspension frees in the `default` set, and a time-sharing besteffort job shares the
entries of scheduled besteffort jobs that earlier groups did not see.
-/

namespace ClusterScheduler

open IdSet SlotSet Placement

namespace Logged

variable {α β : Type}

theorem foldlM_prefix {γ : Type} (f : β → γ → Logged β) (P : List γ → β → Prop) (l₀ : List γ)
    (hstep : ∀ done x rest b c, done ++ x :: rest = l₀ → P done b → (f b x).result = .ok c →
      P (done ++ [x]) c) :
    ∀ (l done : List γ) (init : β) {out : β}, done ++ l = l₀ → P done init →
      (l.foldlM f init).result = .ok out → P l₀ out
  | [], done, init, out, hl, hI, h => by
    simp only [List.foldlM_nil, result_pure, Except.ok.injEq] at h
    simpa [← hl, ← h] using hI
  | x :: xs, done, init, out, hl, hI, h => by
    rw [List.foldlM_cons] at h
    obtain ⟨c, hc, h⟩ := result_bind_ok h
    exact foldlM_prefix f P l₀ hstep xs (done ++ [x]) c (by simpa using hl)
      (hstep done x xs init c hl hI hc) h

end Logged

theorem snoc_eq_append_cons {α : Type} {l pre post : List α} {x y : α}
    (h : l ++ [x] = pre ++ y :: post) :
    (post = [] ∧ pre = l ∧ y = x) ∨ ∃ post', post = post' ++ [x] ∧ l = pre ++ y :: post' := by
  rcases List.eq_nil_or_concat post with rfl | ⟨post', z, rfl⟩
  · obtain ⟨hl, hx⟩ := List.append_inj' h rfl
    exact .inl ⟨rfl, hl.symm, (List.singleton_inj.1 hx).symm⟩
  · have h' : l ++ [x] = (pre ++ y :: post') ++ [z] := by simpa using h
    obtain ⟨hl, hx⟩ := List.append_inj' h' rfl
    obtain rfl := List.singleton_inj.1 hx
    exact .inr ⟨post', by simp, hl⟩

namespace Job

/-- The job of a plain allocation: it neither shares nor reserves, opens no inner set, and runs in
the `default` set. -/
def PlainDefault (J : Job) : Prop :=
  J.Plain ∧ J.isContainer = false ∧ J.slotSetName.result = .ok "default"

end Job

namespace Round

/-! ## Rounds and what their allocations keep to -/

/-- What a round asks of its state: a clock within its horizon and the 64-bit range, no job
naming the `default` set as its inner set, scheduled jobs over intervals, and waiting jobs not
placed yet, with distinct ids. -/
structure Admissible (r : Round) : Prop where
  clock : Word.i64.lo ≤ r.now ∧ r.now ≤ r.maxTime ∧ r.maxTime ≤ ClusterScheduler.maxTime
  inner : ∀ j ∈ r.scheduled ++ r.waiting, j.containerSlotSetName ≠ some "default"
  intervals : ∀ j ∈ r.scheduled, ∀ a, j.assignment = some a → a.begin ≤ a.end
  unplaced : ∀ j ∈ r.waiting, j.assignment = none
  distinct : (r.waiting.map (·.id)).Nodup

theorem Admissible.scheduledInner {r : Round} (hr : r.Admissible) :
    ∀ j ∈ r.scheduled, j.containerSlotSetName ≠ some "default" :=
  fun j hj => hr.inner j (List.mem_append_left _ hj)

theorem Admissible.waitingInner {r : Round} (hr : r.Admissible) :
    ∀ j ∈ r.waiting, j.containerSlotSetName ≠ some "default" :=
  fun j hj => hr.inner j (List.mem_append_right _ hj)

theorem Admissible.save {r : Round} {placed : List Job} (hr : r.Admissible)
    (hplaced : ∀ K ∈ placed, (∃ w ∈ r.waiting, K = { w with assignment := K.assignment }) ∧
      ∃ a, K.assignment = some a ∧ a.begin ≤ a.end) : (r.save placed).Admissible where
  clock := hr.clock
  inner j hj := by
    rcases List.mem_append.1 hj with hj | hj
    · rcases List.mem_append.1 hj with hj | hj
      · exact hr.scheduledInner j hj
      · obtain ⟨⟨w, hw, hjw⟩, -⟩ := hplaced j hj
        rw [hjw]
        exact hr.waitingInner w hw
    · exact hr.waitingInner j (List.mem_filter.1 hj).1
  intervals j hj a ha := by
    rcases List.mem_append.1 hj with hj | hj
    · exact hr.intervals j hj a ha
    · obtain ⟨-, a', ha', hbe⟩ := hplaced j hj
      rw [ha, Option.some.injEq] at ha'
      exact ha' ▸ hbe
  unplaced j hj := hr.unplaced j (List.mem_filter.1 hj).1
  distinct := hr.distinct.sublist ((List.filter_sublist (l := r.waiting)).map _)

/-- A scheduled job blocks the jobs of `queues`: it is not besteffort, or the queues are the
besteffort queue alone. -/
def Blocks (queues : List String) (K : Job) : Prop :=
  K.queue ≠ "besteffort" ∨ queues = ["besteffort"]

/-- What a plain job `J` placed at `a` in round `r` keeps to: the round's window, default
resources of the cluster while they stay, no resource at a time another job of `others` in the
`default` set holds it, and none that a scheduled job of the set blocking it holds. -/
structure Respects (r : Round) (blocks : Job → Prop) (others : List Job) (J : Job)
    (a : Assignment) : Prop where
  window : r.now ≤ a.begin ∧ a.begin ≤ a.end ∧ a.end ≤ r.maxTime
  resources : a.resources ⊆ r.cluster.inventory.defaultResources
  leaving : ∀ u ids, (u, ids) ∈ r.cluster.inventory.availableUpto → ∀ x ∈ a.resources, x ∈ ids →
    a.end ≤ u
  apart : ∀ K ∈ others, K.id ≠ J.id → K.slotSetName.result = .ok "default" →
    ∀ t x, Holds J t x → ¬Holds K t x
  unblocked : ∀ K ∈ r.scheduled, blocks K → K.slotSetName.result = .ok "default" →
    ∀ t x, Holds J t x → ¬Holds (holding r.cluster K) t x

theorem respects_of_pass {r : Round} {held blocks : Job → Prop} {others placed : List Job}
    {d d' : SlotSet} {J : Job} {a : Assignment} (hk : Keeps r held d)
    (hpass : DefaultPass d d' placed) (hJ : J ∈ placed) (hplain : J.Plain)
    (hJd : J.slotSetName.result = .ok "default") (ha : J.assignment = some a) (hbe : a.begin ≤ a.end)
    (hothers : ∀ K ∈ others, K.slotSetName.result = .ok "default" → K ∈ placed ∨ held K)
    (hblocks : ∀ K ∈ r.scheduled, blocks K → K.slotSetName.result = .ok "default" →
      K.assignment.isSome → held (holding r.cluster K)) :
    Respects r blocks others J a := by
  have hfree : ∀ t x, Holds J t x → ∃ c, d.contentsAt t = some c ∧ x ∈ c.1 :=
    hpass.fromFree J hJ hplain hJd
  have hpresent : ∀ t x, Holds J t x → r.Present t x := by
    intro t x hJt
    obtain ⟨c, hc, hx⟩ := hfree t x hJt
    exact hk.present t c hc x hx
  have hwithin := hpass.within J hJ hplain hJd a ha
  refine ⟨⟨hk.begin_eq ▸ hwithin.1, hbe, hk.end_eq ▸ hwithin.2⟩,
    subset_iff.2 fun x hx => (hpresent a.begin x ⟨a, ha, Int.le_refl _, hbe, hx⟩).1,
    fun u ids hu x hx hxi => (hpresent a.end x ⟨a, ha, hbe, Int.le_refl _, hx⟩).2 u ids hu hxi,
    fun K hK hne hKd t x hJt hKt => ?_, fun K hK hb hKd t x hJt hKt => ?_⟩
  · rcases hothers K hK hKd with hK | hK
    · exact hpass.apart J hJ hplain hJd K hK hne hKd t x hJt hKt
    · obtain ⟨c, hc, hx⟩ := hfree t x hJt
      exact hk.taken K hK t c hc x hx hKt
  · cases hsome : K.assignment with
    | none => exact not_holds_of_none (holding_unassigned r.cluster hsome) t x hKt
    | some _ =>
      obtain ⟨c, hc, hx⟩ := hfree t x hJt
      exact hk.taken _ (hblocks K hK hb hKd (by simp [hsome])) t c hc x hx hKt

theorem selects_of_blocks {queues : List String} {K : Job} (hb : Blocks queues K)
    (hsome : K.assignment.isSome) : Selects (decide (queues = ["besteffort"])) true K := by
  unfold Selects
  rcases hb with hb | hb <;> simp [hsome, hb]

/-! ## One cycle -/

/-- A cycle of `r` on `queues`, ending in `r'` with `report`, keeps its plain allocations sound:
the jobs it placed move to the scheduled ones and make up its allocations, and each plain one
respects the round, the jobs placed with it, and the scheduled jobs that block its queues. -/
def CycleSound (r : Round) (queues : List String) (r' : Round) (report : CycleReport) : Prop :=
  ∃ placed, r'.scheduled = r.scheduled ++ placed ∧
    report.allocations = placed.filterMap Allocation.ofJob? ∧
    ∀ J ∈ placed, J.PlainDefault → ∀ a, J.assignment = some a →
      Respects r (Blocks queues) placed J a

theorem cycle_sound {r r' : Round} {queues : List String} {p : JobPriority} {report : CycleReport}
    (hr : r.Admissible) (h : (r.cycle queues p).result = .ok (r', report)) :
    r.CycleSound queues r' report := by
  unfold cycle at h
  obtain ⟨sets, hsets, h⟩ := Logged.result_bind_ok h
  obtain ⟨⟨r₁, sets₁, report₁⟩, hc, h⟩ := Logged.result_bind_ok h
  simp only [Logged.result_pure, Except.ok.injEq, Prod.mk.injEq] at h
  obtain ⟨rfl, rfl⟩ := h
  obtain ⟨hsane, d, hd, hk⟩ := initSlotSets_spec hr.clock hr.scheduledInner hr.intervals hsets
  obtain ⟨placed, rfl, hrep, hplaced, -, d', -, hpass⟩ := cycleOn_spec hd hsane
    (hk.wellFormed (hsane "default" d hd) hr.clock.2.1) hk.apart hr.distinct hr.unplaced
    hr.waitingInner hc
  refine ⟨placed, rfl, hrep, fun J hJ hpd a ha => ?_⟩
  obtain ⟨-, a', ha', hbe⟩ := hplaced J hJ
  rw [ha, Option.some.injEq] at ha'
  subst ha'
  exact respects_of_pass hk hpass hJ hpd.1 hpd.2.2 ha hbe (fun K hK _ => .inl hK)
    fun K hK hb hKd hsome => ⟨K, hK, selects_of_blocks hb hsome, hKd, rfl⟩

/-! ## Rounds of queue groups -/

/-- What the `default` set of a round of queue groups from `r₀` keeps out once the groups
`groups` are done, with the jobs each placed: what the scheduled jobs other than besteffort hold,
what the besteffort ones hold once the besteffort group has come, and the jobs of the set placed
so far. -/
def HeldAfter (r₀ : Round) (groups : List (List String × List Job)) (K : Job) : Prop :=
  TakenBy r₀ false true K ∨ (["besteffort"] ∈ groups.map (·.1) ∧ TakenBy r₀ true false K) ∨
    (K ∈ (groups.map (·.2)).flatten ∧ K.slotSetName.result = .ok "default")

/-- A round of queue groups from `r₀` once the groups `groups` are done, each with the jobs it
placed, in state `r` with slot sets `sets` and reports `reports`. -/
structure GroupsDone (r₀ : Round) (groups : List (List String × List Job)) (r : Round)
    (sets : SlotSets) (reports : List CycleReport) : Prop where
  now_eq : r.now = r₀.now
  maxTime_eq : r.maxTime = r₀.maxTime
  cluster_eq : r.cluster = r₀.cluster
  admissible : r.Admissible
  scheduled_eq : r.scheduled = r₀.scheduled ++ (groups.map (·.2)).flatten
  allocations_eq : (reports.map (·.allocations)).flatten =
    ((groups.map (·.2)).flatten).filterMap Allocation.ofJob?
  sane : ∀ S ss, sets.lookup S = some ss → ss.Sane
  default : ∃ d, sets.lookup "default" = some d ∧ Keeps r₀ (HeldAfter r₀ groups) d
  sound : ∀ pre q js post, groups = pre ++ (q, js) :: post → ∀ J ∈ js, J.PlainDefault →
    ∀ a, J.assignment = some a → Respects r₀ (Blocks q) ((pre.map (·.2)).flatten ++ js) J a ∧
      ∀ K ∈ (post.map (·.2)).flatten, K.Plain → K.slotSetName.result = .ok "default" →
        ∀ t x, Holds J t x → ¬Holds K t x

theorem TakenBy.of_scheduled {r₀ r : Round} {be o : Bool} {K : Job}
    (hs : ∀ K ∈ r₀.scheduled, K ∈ r.scheduled) (hc : r.cluster = r₀.cluster)
    (h : TakenBy r₀ be o K) : TakenBy r be o K := by
  obtain ⟨K₀, hK₀, hsel, hKd, rfl⟩ := h
  exact ⟨K₀, hs K₀ hK₀, hsel, hKd, by rw [hc]⟩

section Groups

variable {r₀ r : Round} {groups : List (List String × List Job)} {sets : SlotSets}
  {reports : List CycleReport} {q : List String}

theorem mem_jobs_snoc {placed : List Job} {K : Job} :
    K ∈ ((groups ++ [(q, placed)]).map (·.2)).flatten ↔
      K ∈ (groups.map (·.2)).flatten ∨ K ∈ placed := by
  simp

theorem mem_jobs_of_eq {pre post : List (List String × List Job)} {js : List Job} {J : Job}
    (hg : groups = pre ++ (q, js) :: post) (hJ : J ∈ js) : J ∈ (groups.map (·.2)).flatten :=
  List.mem_flatten.2 ⟨js, List.mem_map.2 ⟨(q, js), by simp [hg], rfl⟩, hJ⟩

theorem GroupsDone.before {sets₁ : SlotSets} (hI : GroupsDone r₀ groups r sets reports)
    (h : (if q = ["besteffort"] then r.addScheduled sets true false else pure sets).result =
      .ok sets₁) :
    (∀ S ss, sets₁.lookup S = some ss → ss.Sane) ∧
    ∃ d, sets₁.lookup "default" = some d ∧
      Keeps r₀ (fun K => HeldAfter r₀ groups K ∨ (q = ["besteffort"] ∧ TakenBy r₀ true false K)) d := by
  obtain ⟨d, hd, hk⟩ := hI.default
  split at h
  · -- the scheduled besteffort jobs leave the slot sets
    rename_i hq
    obtain ⟨hsane', d', hd', hN, htaken⟩ := addScheduled_spec hd hI.sane
      hI.admissible.scheduledInner hI.admissible.intervals h
    refine ⟨hsane', d', hd', { hk.narrow hN with taken := fun K hK => ?_ }⟩
    rcases hK with hK | ⟨-, hK⟩
    · exact (hk.narrow hN).taken K hK
    · exact htaken K (hK.of_scheduled (fun K hK => by rw [hI.scheduled_eq]; simp [hK])
        hI.cluster_eq)
  · rename_i hq
    simp only [Logged.result_pure, Except.ok.injEq] at h
    subst h
    refine ⟨hI.sane, d, hd, { hk with taken := fun K hK => ?_ }⟩
    rcases hK with hK | ⟨hq', -⟩
    · exact hk.taken K hK
    · exact absurd hq' hq

theorem GroupsDone.after {sets₁ sets' : SlotSets} {r' : Round} {policy : JobPriority}
    {report : CycleReport} (hI : GroupsDone r₀ groups r sets reports)
    (hbefore : (∀ S ss, sets₁.lookup S = some ss → ss.Sane) ∧
      ∃ d, sets₁.lookup "default" = some d ∧
        Keeps r₀ (fun K => HeldAfter r₀ groups K ∨ (q = ["besteffort"] ∧ TakenBy r₀ true false K)) d)
    (h : (r.cycleOn sets₁ q policy).result = .ok (r', sets', report)) :
    ∃ placed, GroupsDone r₀ (groups ++ [(q, placed)]) r' sets' (reports ++ [report]) := by
  obtain ⟨hsane₁, d₁, hd₁, hk₁⟩ := hbefore
  have hclock : r₀.now ≤ r₀.maxTime := by
    rw [← hI.now_eq, ← hI.maxTime_eq]
    exact hI.admissible.clock.2.1
  obtain ⟨placed, rfl, hrep, hplaced, hsane', d', hd', hpass⟩ := cycleOn_spec hd₁ hsane₁
    (hk₁.wellFormed (hsane₁ "default" d₁ hd₁) hclock) hk₁.apart hI.admissible.distinct
    hI.admissible.unplaced hI.admissible.waitingInner h
  refine ⟨placed, ⟨hI.now_eq, hI.maxTime_eq, hI.cluster_eq, hI.admissible.save hplaced, ?_, ?_,
    hsane', ⟨d', hd', { hk₁.narrow hpass.narrows with taken := fun K hK => ?_ }⟩, ?_⟩⟩
  · simp [save, hI.scheduled_eq]
  · simp [hI.allocations_eq, hrep, List.filterMap_append]
  · -- what is held out after this group
    rcases hK with hK | ⟨hbe, hK⟩ | ⟨hK, hKd⟩
    · exact (hk₁.narrow hpass.narrows).taken K (.inl (.inl hK))
    · simp only [List.map_append, List.map_cons, List.map_nil, List.mem_append,
        List.mem_singleton] at hbe
      rcases hbe with hbe | hbe
      · exact (hk₁.narrow hpass.narrows).taken K (.inl (.inr (.inl ⟨hbe, hK⟩)))
      · exact (hk₁.narrow hpass.narrows).taken K (.inr ⟨hbe.symm, hK⟩)
    · rcases mem_jobs_snoc.1 hK with hK | hK
      · exact (hk₁.narrow hpass.narrows).taken K (.inl (.inr (.inr ⟨hK, hKd⟩)))
      · exact hpass.taken K hK hKd
  · intro pre q' js post hg J hJ hpd a ha
    rcases snoc_eq_append_cons hg with ⟨rfl, rfl, he⟩ | ⟨post', rfl, hg'⟩
    · -- a job of this group
      obtain ⟨rfl, rfl⟩ := Prod.mk.inj he
      obtain ⟨-, a', ha', hbe⟩ := hplaced J hJ
      rw [ha, Option.some.injEq] at ha'
      subst ha'
      refine ⟨respects_of_pass hk₁ hpass hJ hpd.1 hpd.2.2 ha hbe (fun K hK hKd => ?_)
        (fun K hK hb hKd hsome => ?_), by simp⟩
      · rcases List.mem_append.1 hK with hK | hK
        · exact .inr (.inl (.inr (.inr ⟨hK, hKd⟩)))
        · exact .inl hK
      · by_cases hKbe : K.queue = "besteffort"
        · exact .inr ⟨hb.resolve_left (not_not.2 hKbe), K, hK, by simp [Selects, hsome, hKbe], hKd,
            rfl⟩
        · exact .inl (.inl ⟨K, hK, by simp [Selects, hsome, hKbe], hKd, rfl⟩)
    · -- a job of an earlier group: plain jobs of this group keep apart from it
      obtain ⟨hresp, hlater⟩ := hI.sound pre q' js post' hg' J hJ hpd a ha
      refine ⟨hresp, fun K hK hKp hKd t x hJt hKt => ?_⟩
      rcases mem_jobs_snoc.1 hK with hK | hK
      · exact hlater K hK hKp hKd t x hJt hKt
      · obtain ⟨c, hc, hx⟩ := hpass.fromFree K hK hKp hKd t x hKt
        exact hk₁.taken J (.inl (.inr (.inr ⟨mem_jobs_of_eq hg' hJ, hpd.2.2⟩))) t c hc x hx hJt

end Groups

theorem foldl_allocations {F : CycleReport → CycleReport → CycleReport}
    (hF : ∀ acc r, (F acc r).allocations = acc.allocations ++ r.allocations) :
    ∀ (reports : List CycleReport) (acc : CycleReport),
      (reports.foldl F acc).allocations = acc.allocations ++ (reports.map (·.allocations)).flatten
  | [], acc => by simp
  | r :: rest, acc => by
    rw [List.foldl_cons, foldl_allocations hF rest, hF]
    simp

end Round

namespace Platform

open Round

/-- A round of queue groups from platform `p`, ending in `p'` with the merged report `merged`,
keeps its plain allocations sound: the groups place jobs in turn, which move to the scheduled jobs
and make up the allocations in group order. A plain job placed by a group respects the round, the
jobs of the `default` set placed by that group and the groups before it, and the scheduled jobs
blocking that group; plain jobs of the set placed by later groups keep apart from it. -/
def RoundSound (p p' : Platform) (merged : CycleReport) : Prop :=
  ∃ groups : List (List String × List Job), groups.map (·.1) = p.queueGroups ∧
    p'.round.scheduled = p.round.scheduled ++ (groups.map (·.2)).flatten ∧
    merged.allocations = ((groups.map (·.2)).flatten).filterMap Allocation.ofJob? ∧
    ∀ pre q js post, groups = pre ++ (q, js) :: post → ∀ J ∈ js, J.PlainDefault →
      ∀ a, J.assignment = some a →
        Respects p.round (Blocks q) ((pre.map (·.2)).flatten ++ js) J a ∧
        ∀ K ∈ (post.map (·.2)).flatten, K.Plain → K.slotSetName.result = .ok "default" →
          ∀ t x, Holds J t x → ¬Holds K t x

theorem metaSchedule_sound {p p' : Platform} {merged : CycleReport} (hr : p.round.Admissible)
    (h : p.metaSchedule.result = .ok (p', merged)) : p.RoundSound p' merged := by
  unfold metaSchedule at h
  obtain ⟨⟨p₁, reports⟩, hq, h⟩ := Logged.result_bind_ok h
  dsimp only at h
  obtain ⟨_, -, h⟩ := Logged.result_bind_ok h
  simp only [Logged.result_pure, Except.ok.injEq, Prod.mk.injEq] at h
  obtain ⟨rfl, rfl⟩ := h
  unfold queuesSchedule at hq
  obtain ⟨sets, hsets, hq⟩ := Logged.result_bind_ok hq
  obtain ⟨⟨r, sets', reports'⟩, hfold, hq⟩ := Logged.result_bind_ok hq
  simp only [Logged.result_pure, Except.ok.injEq, Prod.mk.injEq] at hq
  obtain ⟨rfl, rfl⟩ := hq
  obtain ⟨hsane₀, d, hd, hk⟩ := initSlotSets_spec hr.clock hr.scheduledInner hr.intervals hsets
  have hstart : GroupsDone p.round [] p.round sets [] := by
    refine ⟨rfl, rfl, rfl, hr, by simp, by simp, hsane₀, ⟨d, hd, { hk with taken := fun K hK => ?_ }⟩,
      by simp⟩
    rcases hK with hK | ⟨hK, -⟩ | ⟨hK, -⟩
    · exact hk.taken K hK
    · simp at hK
    · simp at hK
  obtain ⟨groups, hgq, hend⟩ := Logged.foldlM_prefix _
    (fun qs b => ∃ groups, groups.map (·.1) = qs ∧ GroupsDone p.round groups b.1 b.2.1 b.2.2)
    p.queueGroups (fun done q rest b c _ hI h => by
      obtain ⟨r, sets, reports⟩ := b
      obtain ⟨groups, hgq, hI⟩ := hI
      dsimp only at h
      -- the besteffort group first takes the scheduled besteffort jobs out
      obtain ⟨sets₁, hbe, h⟩ : ∃ sets₁, (if q = ["besteffort"] then r.addScheduled sets true false
          else pure sets).result = .ok sets₁ ∧ (r.cycleOn sets₁ q p.round.cluster.config.jobPriority >>=
            fun x => pure (x.1, x.2.1, reports ++ [x.2.2])).result = .ok c := by
        split at h
        · rename_i hq
          obtain ⟨sets₁, hbe, h⟩ := Logged.result_bind_ok h
          exact ⟨sets₁, by rw [if_pos hq]; exact hbe, h⟩
        · rename_i hq
          obtain ⟨sets₁, hbe, h⟩ := Logged.result_bind_ok h
          exact ⟨sets₁, by rw [if_neg hq]; exact hbe, h⟩
      obtain ⟨⟨r', sets', report⟩, hc, h⟩ := Logged.result_bind_ok h
      simp only [Logged.result_pure, Except.ok.injEq] at h
      subst h
      obtain ⟨placed, hI'⟩ := hI.after (hI.before hbe) hc
      exact ⟨groups ++ [(q, placed)], by simp [hgq], hI'⟩) p.queueGroups [] _ (by simp)
    ⟨[], rfl, hstart⟩ hfold
  refine ⟨groups, hgq, hend.scheduled_eq, ?_, hend.sound⟩
  rw [foldl_allocations (fun _ _ => rfl), hend.allocations_eq]
  rfl

end Platform

/-! ## Plain allocations of a round -/

/-- Plain allocations of an admissible round keep to the round, in a single cycle as in a round
of queue groups on shared slot sets. -/
theorem plain_allocations_respect_round :
    (∀ (r r' : Round) (queues : List String) (p : JobPriority) (report : CycleReport),
      r.Admissible → (r.cycle queues p).result = .ok (r', report) → r.CycleSound queues r' report) ∧
    (∀ (p p' : Platform) (merged : CycleReport), p.round.Admissible →
      p.metaSchedule.result = .ok (p', merged) → p.RoundSound p' merged) :=
  ⟨fun _ _ _ _ _ hr h => Round.cycle_sound hr h, fun _ _ _ hr h => Platform.metaSchedule_sound hr h⟩

/-- A cycle placing one plain job, and a round of a `default` and a `besteffort` group placing
one plain job each, on a cluster of one resource. -/
theorem plain_allocations_respect_small_rounds :
    let cl : Cluster := ⟨{ securityTime := 0 },
      { defaultResources := IdSet.range 1 1, hierarchy := ⟨[("resource_id", ⟨none, true⟩)]⟩ }⟩
    let m : Int → Moldable := fun i => ⟨i, 10, [⟨IdSet.range 1 1, [⟨"resource_id", 1⟩]⟩]⟩
    let r : Round :=
      { now := 0
        maxTime := 100
        cluster := cl
        scheduled := []
        waiting := [{ id := 1, moldables := [m 1] }]
        renderTables := false }
    let p : Platform := ⟨[⟨"default", 10, "Active"⟩, ⟨"besteffort", 0, "Active"⟩],
      { r with waiting := [{ id := 1, moldables := [m 1] },
        { id := 2, queue := "besteffort", moldables := [m 2] }] }⟩
    ∃ r' report p' merged, r.Admissible ∧
      (r.cycle ["default"] .fifo).result = .ok (r', report) ∧ r.CycleSound ["default"] r' report ∧
      p.round.Admissible ∧ p.metaSchedule.result = .ok (p', merged) ∧ p.RoundSound p' merged := by
  intro cl m r p
  obtain ⟨r', report, hrun⟩ : ∃ r' report, (r.cycle ["default"] .fifo).result = .ok (r', report) :=
    ⟨_, _, by simp only [r, cl, m]; with_unfolding_all rfl⟩
  obtain ⟨p', merged, hmeta⟩ : ∃ p' merged, p.metaSchedule.result = .ok (p', merged) :=
    ⟨_, _, by simp only [p, r, cl, m]; with_unfolding_all rfl⟩
  have hr : r.Admissible := ⟨by decide, by decide, by simp [r], by simp [r], by decide⟩
  have hp : p.round.Admissible := ⟨by decide, by decide, by simp [p, r], by simp [p], by decide⟩
  exact ⟨r', report, p', merged, hr, hrun,
    plain_allocations_respect_round.1 r r' ["default"] .fifo report hr hrun, hp,
    hmeta, plain_allocations_respect_round.2 p p' merged hp hmeta⟩

/-- Outside an admissible round, or against jobs that are not plain, plain allocations need not
keep to the round. A container whose inner set is `default` gives its resource back to the plain
job placed after it; the inner set of a suspended container hands the resource its suspension
frees in the `default` set to an inner job, at the times a plain job takes it there; a waiting
job that keeps the assignment it came with begins before `now`; and in a round of queue groups, a
time-sharing besteffort job shares the entry of a scheduled besteffort job on the resource that a
plain job of the group before took. -/
theorem plain_allocations_can_collide_or_precede :
    let cl : Cluster := ⟨{ securityTime := 0 },
      { defaultResources := IdSet.range 1 1, hierarchy := ⟨[("resource_id", ⟨none, true⟩)]⟩ }⟩
    let m : Int → Nat → Moldable := fun i n => ⟨i, 10, [⟨IdSet.range 1 1, [⟨"resource_id", n⟩]⟩]⟩
    let round : Cluster → List Job → List Job → Round := fun c scheduled waiting =>
      { now := 0
        maxTime := 1000
        cluster := c
        scheduled := scheduled
        waiting := waiting
        renderTables := false }
    let plain : Job := { id := 2, moldables := [m 2 1] }
    let container : Job := { id := 1, types := [("container", some "default")], moldables := [m 1 1] }
    let suspended : Job :=
      { id := 1
        state := "Suspended"
        types := [("container", some "foo")]
        assignment := some ⟨0, 99, IdSet.range 1 1, 0⟩ }
    let inner : Job := { id := 3, types := [("inner", some "foo")], moldables := [m 3 1] }
    let stale : Job := { id := 1, assignment := some ⟨-5, 3, IdSet.range 1 1, 0⟩, moldables := [m 1 2] }
    let sharing : Job :=
      { id := 3
        queue := "besteffort"
        types := [("timesharing", some "*,*")]
        timeSharing := some .allAll
        moldables := [m 3 1] }
    let shared : Job :=
      { sharing with id := 1, state := "Running", assignment := some ⟨0, 99, IdSet.range 1 1, 0⟩ }
    let p : Platform := ⟨[⟨"default", 10, "Active"⟩, ⟨"besteffort", 0, "Active"⟩],
      round cl [shared] [plain, sharing]⟩
    plain.PlainDefault ∧ stale.PlainDefault ∧
      ((round cl [] [container, plain]).cycle ["default"] .fifo).result.map (·.2.allocations) =
        .ok [⟨1, 1, 0, 9, IdSet.range 1 1⟩, ⟨2, 2, 0, 9, IdSet.range 1 1⟩] ∧
      ((round { cl with inventory := { cl.inventory with suspendable := IdSet.range 1 1 } }
        [suspended] [plain, inner]).cycle ["default"] .fifo).result.map (·.2.allocations) =
        .ok [⟨2, 2, 0, 9, IdSet.range 1 1⟩, ⟨3, 3, 0, 9, IdSet.range 1 1⟩] ∧
      ((round cl [] [stale]).cycle ["default"] .fifo).result.map (·.2.allocations) =
        .ok [⟨1, 1, -5, 3, IdSet.range 1 1⟩] ∧
      p.metaSchedule.result.map (·.2.allocations) =
        .ok [⟨2, 2, 0, 9, IdSet.range 1 1⟩, ⟨3, 3, 0, 9, IdSet.range 1 1⟩] := by
  dsimp only
  refine ⟨⟨⟨rfl, rfl⟩, rfl, rfl⟩, ⟨⟨rfl, rfl⟩, rfl, rfl⟩, ?_, ?_, by decide +kernel,
    by decide +kernel⟩
  -- the sort of two waiting jobs is rewritten away: it does not reduce by evaluation
  all_goals
    simp only [Round.cycle, Round.cycleOn]
    rw [JobPriority.sortJobs_of_pairwise]
    · decide +kernel
    · decide

end ClusterScheduler
