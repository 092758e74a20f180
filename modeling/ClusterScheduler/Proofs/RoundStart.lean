import ClusterScheduler.Cycle
import ClusterScheduler.Proofs.Narrowing

/-!
# The slot sets a round starts from

A round's `default` set starts as the default resources over `[now, maxTime]`. Resources leave
it after the time the inventory gives them, and the scheduled jobs a round selects take out what
they hold: containers first open their inner sets, then the jobs of each slot set are taken by
start time. With no container naming the `default` set as its inner set, the `default` set only
narrows, and afterwards none of the selected jobs of the `default` set holds a free resource of
it (`addScheduled_spec`, `initSlotSets_spec`).

`Keeps` gathers what the `default` set of a round guarantees between placement passes.
-/

namespace ClusterScheduler

open IdSet SlotSet Placement

namespace Logged

variable {α β : Type}

theorem mapM_loop_spec {f : α → Logged β} {g : β → α} {Q : β → Prop}
    (hf : ∀ a b, (f a).result = .ok b → g b = a ∧ Q b) :
    ∀ (l : List α) (acc : List β) {out : List β}, (List.mapM.loop f l acc).result = .ok out →
      ∃ bs, out = acc.reverse ++ bs ∧ bs.map g = l ∧ ∀ b ∈ bs, Q b
  | [], acc, out, h => by
    have h' : (pure acc.reverse : Logged (List β)).result = .ok out := h
    rw [result_pure, Except.ok.injEq] at h'
    exact ⟨[], by simp [h'], rfl, by simp⟩
  | a :: l, acc, out, h => by
    have h' : (f a >>= fun b => List.mapM.loop f l (b :: acc)).result = .ok out := h
    obtain ⟨b, hb, h''⟩ := result_bind_ok h'
    obtain ⟨bs, rfl, hmap, hQ⟩ := mapM_loop_spec hf l (b :: acc) h''
    obtain ⟨hgb, hQb⟩ := hf a b hb
    refine ⟨b :: bs, by simp, by simp [hgb, hmap], fun x hx => ?_⟩
    rcases List.mem_cons.1 hx with rfl | hx
    · exact hQb
    · exact hQ x hx

theorem mapM_spec {f : α → Logged β} {g : β → α} {Q : β → Prop}
    (hf : ∀ a b, (f a).result = .ok b → g b = a ∧ Q b) {l : List α} {out : List β}
    (h : (l.mapM f).result = .ok out) : out.map g = l ∧ ∀ b ∈ out, Q b := by
  obtain ⟨bs, rfl, hmap, hQ⟩ := mapM_loop_spec hf l [] h
  exact ⟨by simpa using hmap, by simpa using hQ⟩

end Logged

theorem foldlM_except_invariant {ε β γ : Type} (f : β → γ → Except ε β) (I : List γ → β → Prop)
    (hstep : ∀ x xs b c, I (x :: xs) b → f b x = .ok c → I xs c) :
    ∀ (l : List γ) (init : β) {out : β}, I l init → l.foldlM f init = .ok out → I [] out
  | [], init, out, hI, h => by
    simp only [List.foldlM_nil, pure, Except.pure, Except.ok.injEq] at h
    exact h ▸ hI
  | x :: xs, init, out, hI, h => by
    rw [List.foldlM_cons] at h
    cases hx : f init x with
    | error e => rw [hx] at h; cases h
    | ok c =>
      rw [hx, except_ok_bind] at h
      exact foldlM_except_invariant f I hstep xs c (hstep x xs init c hI hx) h

theorem innerDefault_of_default {sets : SlotSets} {d : SlotSet} (hd : sets.lookup "default" = some d)
    (a : Assignment) : innerDefault sets a = single ∅ d.begin d.end := by
  unfold innerDefault
  rw [hd]

namespace Round

/-! ## Jobs as they hold resources -/

theorem holding_eq (cl : Cluster) (j : Job) :
    holding cl j = { j with assignment := (holding cl j).assignment } := by
  unfold holding
  split
  · split <;> rfl
  · rfl

theorem holding_slotSetName (cl : Cluster) (j : Job) :
    (holding cl j).slotSetName = j.slotSetName := by
  rw [holding_eq]
  rfl

theorem holding_times (cl : Cluster) (j : Job) :
    (holding cl j).assignment.map (fun a => (a.begin, a.end)) =
      j.assignment.map (fun a => (a.begin, a.end)) := by
  unfold holding
  split
  · rename_i a ha
    split <;> simp [ha]
  · rfl

theorem holding_interval (cl : Cluster) {j : Job}
    (hj : ∀ a, j.assignment = some a → a.begin ≤ a.end) :
    ∀ a, (holding cl j).assignment = some a → a.begin ≤ a.end := by
  intro a ha
  have h := holding_times cl j
  rw [ha] at h
  cases hj₀ : j.assignment with
  | none => rw [hj₀] at h; cases h
  | some a₀ =>
    rw [hj₀] at h
    obtain ⟨hb, he⟩ := Prod.mk.inj (Option.some.inj h)
    rw [hb, he]
    exact hj a₀ hj₀

theorem startKey_holding (cl : Cluster) (j : Job) : startKey (holding cl j) = startKey j := by
  have h := congrArg (Option.map Prod.fst) (holding_times cl j)
  simp only [Option.map_map] at h
  exact congrArg (Option.getD · 0) h

theorem holding_unassigned (cl : Cluster) {j : Job} (h : j.assignment = none) :
    (holding cl j).assignment = none := by
  have := holding_times cl j
  rw [h, Option.map_none, Option.map_eq_none_iff] at this
  exact this

/-! ## Resources leaving -/

/-- Resource `x` is present in the round's cluster at time `t`: a default resource, at a time no
later than any the inventory has it leave after. -/
def Present (r : Round) (t : Int) (x : Nat) : Prop :=
  x ∈ r.cluster.inventory.defaultResources ∧
    ∀ u ids, (u, ids) ∈ r.cluster.inventory.availableUpto → x ∈ ids → t ≤ u

/-- The base of the `default` set while the leaving resources `pending` remain to be taken out:
it is well formed and spans the round without entries, and its free resources are default ones
that leave at no earlier time than those already taken out. -/
structure Base (r : Round) (pending : List (Int × IdSet)) (ss : SlotSet) : Prop where
  wellFormed : ss.WellFormed
  begin_eq : ss.begin = r.now
  end_eq : ss.end = r.maxTime
  noEntries : ∀ t c, ss.contentsAt t = some c → c.2 = ([], [])
  present : ∀ t c, ss.contentsAt t = some c → ∀ x ∈ c.1,
    x ∈ r.cluster.inventory.defaultResources ∧ ∀ u ids, (u, ids) ∈ r.cluster.inventory.availableUpto →
      u < r.maxTime → (u, ids) ∉ pending → x ∈ ids → t ≤ u

theorem Base.start {r : Round}
    (hclock : Word.i64.lo ≤ r.now ∧ r.now ≤ r.maxTime ∧ r.maxTime ≤ ClusterScheduler.maxTime) :
    Base r (r.cluster.inventory.availableUpto.filter (·.1 < r.maxTime))
      (single r.cluster.inventory.defaultResources r.now r.maxTime) := by
  have hmax : ClusterScheduler.maxTime ≤ Word.i64.hi := by decide
  refine ⟨single_wellFormed _ hclock.2.1 hclock.1 (by omega), rfl, rfl,
    fun t c h => by rw [contentsAt_single h], fun t c h x hx => ?_⟩
  rw [contentsAt_single h] at hx
  refine ⟨hx, fun u ids hu hlt hpend => absurd ?_ hpend⟩
  exact List.mem_filter.2 ⟨hu, by simpa using hlt⟩

theorem Base.step {r : Round} {u : Int} {ids : IdSet} {rest : List (Int × IdSet)}
    {ss ss' : SlotSet} (hB : Base r ((u, ids) :: rest) ss)
    (h : ss.subtract ids (u + 1) r.maxTime = .ok ss') : Base r rest ss' := by
  have hU := updateRange_returned hB.wellFormed h
  have hA := hU.appliedOver (f := fun c => (c.1 \ ids, c.2)) fun _ => rfl
  refine ⟨hU.wellFormed, hU.begin_eq.trans hB.begin_eq, hU.end_eq.trans hB.end_eq,
    fun t c hc => ?_, fun t c hc x hx => ?_⟩
  · rw [hA.contentsAt_eq t] at hc
    split at hc
    · obtain ⟨c₀, hc₀, rfl⟩ := Option.map_eq_some_iff.1 hc
      exact hB.noEntries t c₀ hc₀
    · exact hB.noEntries t c hc
  · have hbounds := hU.wellFormed.mem_bounds hc
    rw [hU.end_eq, hB.end_eq] at hbounds
    rw [hA.contentsAt_eq t] at hc
    split at hc
    · -- in the range taken out, `x` is not among the leaving resources
      rename_i hin
      obtain ⟨c₀, hc₀, rfl⟩ := Option.map_eq_some_iff.1 hc
      obtain ⟨hx₀, hxids⟩ := mem_diff.1 hx
      obtain ⟨hdef, hleave⟩ := hB.present t c₀ hc₀ x hx₀
      refine ⟨hdef, fun u' ids' hu' hlt hpend hxi => ?_⟩
      by_cases he : (u', ids') = (u, ids)
      · obtain ⟨rfl, rfl⟩ := Prod.mk.inj he
        exact absurd hxi hxids
      · exact hleave u' ids' hu' hlt (by simpa [he] using hpend) hxi
    · -- before the range, the time is no later than this entry's
      rename_i hout
      obtain ⟨hdef, hleave⟩ := hB.present t c hc x hx
      refine ⟨hdef, fun u' ids' hu' hlt hpend hxi => ?_⟩
      by_cases he : (u', ids') = (u, ids)
      · obtain ⟨rfl, rfl⟩ := Prod.mk.inj he
        omega
      · exact hleave u' ids' hu' hlt (by simpa [he] using hpend) hxi

theorem Base.present_all {r : Round} {ss : SlotSet} (hB : Base r [] ss) :
    ∀ t c, ss.contentsAt t = some c → ∀ x ∈ c.1, r.Present t x := by
  intro t c hc x hx
  obtain ⟨hdef, hleave⟩ := hB.present t c hc x hx
  refine ⟨hdef, fun u ids hu hxi => ?_⟩
  by_cases hlt : u < r.maxTime
  · exact hleave u ids hu hlt List.not_mem_nil hxi
  · have := hB.wellFormed.mem_bounds hc
    rw [hB.end_eq] at this
    omega

theorem Base.apart {r : Round} {pending : List (Int × IdSet)} {ss : SlotSet}
    (hB : Base r pending ss) : ss.Apart := by
  intro t c hc x _ he
  have h := hB.noEntries t c hc
  rcases he with ⟨u, ns, hu, -⟩ | ⟨n, s, hn, -⟩
  · rw [h] at hu; cases hu
  · rw [h] at hn; cases hn

/-! ## Grouping by slot set -/

/-- `groups` gathers the jobs of `named` by name: the names are distinct, each group holds the
jobs of its name in order, and every name has its group. -/
structure Grouped (named : List (String × Job)) (groups : List (String × List Job)) : Prop where
  nodup : (groups.map (·.1)).Nodup
  jobs_eq : ∀ n js, (n, js) ∈ groups → js = (named.filter (·.1 = n)).map (·.2)
  complete : ∀ p ∈ named, ∃ js, (p.1, js) ∈ groups

theorem Grouped.join {done : List (String × Job)} {acc : List (String × List Job)} {n : String}
    {j : Job} (h : Grouped done acc) {js₀ : List Job} (hn : (n, js₀) ∈ acc)
    {F : String × List Job → String × List Job}
    (hF : ∀ p, F p = (p.1, if p.1 = n then p.2 ++ [j] else p.2)) :
    Grouped (done ++ [(n, j)]) (acc.map F) := by
  have hkeep : ∀ m js, (m, js) ∈ acc → ∃ js', (m, js') ∈ acc.map F :=
    fun m js hm => ⟨_, List.mem_map.2 ⟨(m, js), hm, hF (m, js)⟩⟩
  refine ⟨?_, fun m js' hm => ?_, fun p hp => ?_⟩
  · rw [List.map_map]
    convert h.nodup using 1
    exact List.map_congr_left fun p _ => by simp [hF p]
  · obtain ⟨⟨m', js⟩, hp, he⟩ := List.mem_map.1 hm
    rw [hF] at he
    obtain ⟨rfl, rfl⟩ := Prod.mk.inj he
    have hjs := h.jobs_eq m' js hp
    by_cases hm' : m' = n
    · subst hm'
      simp [hjs, List.filter_append]
    · simp [hjs, List.filter_append, hm', Ne.symm hm']
  · rcases List.mem_append.1 hp with hp | hp
    · obtain ⟨js, hjs⟩ := h.complete p hp
      exact hkeep p.1 js hjs
    · rw [List.mem_singleton.1 hp]
      exact hkeep n js₀ hn

theorem Grouped.add {done : List (String × Job)} {acc : List (String × List Job)} {n : String}
    {j : Job} (h : Grouped done acc) (hnot : ∀ p ∈ acc, p.1 ≠ n) :
    Grouped (done ++ [(n, j)]) (acc ++ [(n, [j])]) := by
  have hnone : ∀ p ∈ done, p.1 ≠ n := by
    intro p hp
    obtain ⟨js, hjs⟩ := h.complete p hp
    exact hnot _ hjs
  refine ⟨?_, fun m js' hm => ?_, fun p hp => ?_⟩
  · rw [List.map_append, List.nodup_append]
    refine ⟨h.nodup, List.nodup_singleton _, fun a ha b hb => ?_⟩
    obtain ⟨p, hp, rfl⟩ := List.mem_map.1 ha
    rw [List.map_singleton, List.mem_singleton] at hb
    exact hb ▸ hnot p hp
  · rcases List.mem_append.1 hm with hm | hm
    · have hne : m ≠ n := hnot _ hm
      simp [h.jobs_eq m js' hm, List.filter_append, Ne.symm hne]
    · obtain ⟨rfl, rfl⟩ := Prod.mk.inj (List.mem_singleton.1 hm)
      have hnil : done.filter (·.1 = m) = [] :=
        List.filter_eq_nil_iff.2 fun p hp => by simpa using hnone p hp
      simp [List.filter_append, hnil]
  · rcases List.mem_append.1 hp with hp | hp
    · obtain ⟨js, hjs⟩ := h.complete p hp
      exact ⟨js, List.mem_append_left _ hjs⟩
    · rw [List.mem_singleton.1 hp]
      exact ⟨[j], by simp⟩

theorem groupByName_grouped : ∀ (named : List (String × Job)) (acc : List (String × List Job))
    (done : List (String × Job)), Grouped done acc → Grouped (done ++ named) (groupByName named acc)
  | [], acc, done, h => by simpa [groupByName] using h
  | (n, j) :: rest, acc, done, h => by
    rw [groupByName, show done ++ (n, j) :: rest = (done ++ [(n, j)]) ++ rest by simp]
    apply groupByName_grouped
    split
    · rename_i hany
      obtain ⟨⟨n₀, js₀⟩, hp₀, hn₀⟩ := List.any_eq_true.1 hany
      simp only [decide_eq_true_eq] at hn₀
      subst hn₀
      refine h.join hp₀ fun p => ?_
      obtain ⟨m, js⟩ := p
      dsimp only
      split <;> rfl
    · rename_i hany
      exact h.add fun p hp he => hany (List.any_eq_true.2 ⟨p, hp, by simpa using he⟩)

/-! ## Taking out the scheduled jobs -/

/-- Scheduled job `j` is one that `addScheduled` takes out with these flags: it has an
assignment, and its queue is allowed. -/
def Selects (allowBesteffort allowOther : Bool) (j : Job) : Prop :=
  (j.assignment.isSome && if j.queue = "besteffort" then allowBesteffort else allowOther) = true

def TakenBy (r : Round) (allowBesteffort allowOther : Bool) (K : Job) : Prop :=
  ∃ K₀ ∈ r.scheduled, Selects allowBesteffort allowOther K₀ ∧
    K₀.slotSetName.result = .ok "default" ∧ K = holding r.cluster K₀

theorem updateContainers_spec {cl : Cluster} {d : SlotSet} :
    ∀ (cs : List Job) (sets : SlotSets) {out : SlotSets}, sets.lookup "default" = some d →
      (∀ S ss, sets.lookup S = some ss → ss.Sane) →
      (∀ j ∈ cs, j.containerSlotSetName ≠ some "default") →
      (cs.foldlM (updateContainer cl) sets).result = .ok out →
      out.lookup "default" = some d ∧ ∀ S ss, out.lookup S = some ss → ss.Sane := by
  intro cs sets out hd hsane hinner h
  obtain ⟨hd', hsane', -⟩ := Logged.foldlM_invariant (updateContainer cl) (fun l sets =>
    sets.lookup "default" = some d ∧ (∀ S ss, sets.lookup S = some ss → ss.Sane) ∧
      ∀ j ∈ l, j.containerSlotSetName ≠ some "default")
    (fun j rest sets sets' hI h => by
      obtain ⟨hd, hsane, hinner⟩ := hI
      have hinner' := fun k hk => hinner k (List.mem_cons_of_mem j hk)
      rcases updateContainer_cases h with rfl | ⟨N, a, inner, hN, -, -, hadd, rfl⟩
      · exact ⟨hd, hsane, hinner'⟩
      have hNd : N ≠ "default" := fun he => hinner j List.mem_cons_self (he ▸ hN)
      -- the set the container adds to: its own, or a new one spanning the `default` set
      have hbase : ((sets.lookup N).getD (innerDefault sets a)).Sane := by
        cases hS : sets.lookup N with
        | some ss => exact hsane N ss hS
        | none =>
          rw [Option.getD_none, innerDefault_of_default hd]
          exact (hsane "default" d hd).single ∅
      refine ⟨by rw [SlotSets.lookup_put, if_neg (Ne.symm hNd)]; exact hd, fun S ss h => ?_, hinner'⟩
      rcases SlotSets.lookup_put_some h with ⟨-, rfl⟩ | ⟨-, h⟩
      · exact hbase.updateRange hadd
      · exact hsane S ss h) cs sets ⟨hd, hsane, hinner⟩ h
  exact ⟨hd', hsane'⟩

/-- The group fold of `addScheduled` with the groups `gs` left: each set is sane, and the
`default` set has narrowed from `d`, holding none of the jobs `T` once its group is placed. -/
structure GroupsLeft (d : SlotSet) (T : Job → Prop) (gs : List (String × List Job))
    (sets : SlotSets) : Prop where
  sane : ∀ S ss, sets.lookup S = some ss → ss.Sane
  default : ∃ d', sets.lookup "default" = some d' ∧ Narrows d d' ∧
    ("default" ∈ gs.map (·.1) ∨ ∀ K, T K → ∀ t c, d'.contentsAt t = some c → ∀ x ∈ c.1, ¬Holds K t x)
  nodup : (gs.map (·.1)).Nodup
  groups : ∀ S js, (S, js) ∈ gs → (∀ j ∈ js, ∀ a, j.assignment = some a → a.begin ≤ a.end) ∧
    js.Pairwise (fun j k => startKey j ≤ startKey k) ∧ (S = "default" → ∀ K, T K → K ∈ js)

section Groups

variable {d : SlotSet} {T : Job → Prop} {S : String} {js : List Job}
  {gs : List (String × List Job)} {sets : SlotSets}

theorem default_mem_tail {P : Prop} (hSd : S ≠ "default")
    (h : "default" ∈ ((S, js) :: gs).map (·.1) ∨ P) : "default" ∈ gs.map (·.1) ∨ P :=
  h.imp_left fun hin => (List.mem_cons.1 hin).resolve_left (Ne.symm hSd)

theorem GroupsLeft.place {ss ss' : SlotSet} (h : GroupsLeft d T ((S, js) :: gs) sets)
    (hS : sets.lookup S = some ss) (hp : ss.placeJobs js true none = .ok ss') :
    GroupsLeft d T gs (sets.put S ss') := by
  obtain ⟨hint, hsort, hdef⟩ := h.groups S js List.mem_cons_self
  have hnodup := h.nodup
  rw [List.map_cons, List.nodup_cons] at hnodup
  obtain ⟨hS', hN, htaken⟩ :=
    placeJobs_takes js ss none (h.sane S ss hS) hint hsort (fun _ _ _ _ => .inr (by simp)) hp
  obtain ⟨d', hd', hN', hor⟩ := h.default
  refine ⟨fun S' ss₁ h₁ => ?_, ?_, hnodup.2, fun S' js' h' => h.groups S' js' (List.mem_cons_of_mem _ h')⟩
  · rcases SlotSets.lookup_put_some h₁ with ⟨-, rfl⟩ | ⟨-, h₁⟩
    · exact hS'
    · exact h.sane S' ss₁ h₁
  · by_cases hSd : S = "default"
    · subst hSd
      rw [hS, Option.some.injEq] at hd'
      subst hd'
      exact ⟨ss', by rw [SlotSets.lookup_put, if_pos rfl], hN'.trans hN,
        .inr fun K hK => htaken K (hdef rfl K hK)⟩
    · exact ⟨d', by rw [SlotSets.lookup_put, if_neg (Ne.symm hSd)]; exact hd', hN',
        default_mem_tail hSd hor⟩

theorem GroupsLeft.skip (h : GroupsLeft d T ((S, js) :: gs) sets) (hS : sets.lookup S = none) :
    GroupsLeft d T gs sets := by
  obtain ⟨d', hd', hN', hor⟩ := h.default
  have hSd : S ≠ "default" := fun he => by rw [he, hd'] at hS; cases hS
  have hnodup := h.nodup
  rw [List.map_cons, List.nodup_cons] at hnodup
  exact ⟨h.sane, ⟨d', hd', hN', default_mem_tail hSd hor⟩, hnodup.2,
    fun S' js' h' => h.groups S' js' (List.mem_cons_of_mem _ h')⟩

theorem GroupsLeft.start {cl : Cluster} {sorted : List Job} {named : List (String × Job)}
    (hnamed : named.map Prod.snd = sorted.map (holding cl))
    (hname : ∀ p ∈ named, p.2.slotSetName.result = .ok p.1)
    (hint : ∀ j ∈ sorted, ∀ a, j.assignment = some a → a.begin ≤ a.end)
    (hpair : sorted.Pairwise (fun j k => startKey j ≤ startKey k))
    (hT : ∀ K, T K → K.slotSetName.result = .ok "default" ∧ K ∈ sorted.map (holding cl))
    (hd : sets.lookup "default" = some d) (hsane : ∀ S ss, sets.lookup S = some ss → ss.Sane) :
    GroupsLeft d T (groupByName named []) sets := by
  have hG : Grouped named (groupByName named []) := by
    simpa using groupByName_grouped named [] [] ⟨List.nodup_nil, by simp, by simp⟩
  have hnamedT : ∀ K, T K → ∃ p ∈ named, p.1 = "default" ∧ p.2 = K := by
    intro K hK
    obtain ⟨hKd, hKm⟩ := hT K hK
    rw [← hnamed] at hKm
    obtain ⟨p, hp, rfl⟩ := List.mem_map.1 hKm
    have := (hname p hp).symm.trans hKd
    exact ⟨p, hp, Except.ok.inj this, rfl⟩
  have hheld : (named.map Prod.snd).Pairwise (fun j k => startKey j ≤ startKey k) := by
    rw [hnamed, List.pairwise_map]
    exact hpair.imp fun h => by rwa [startKey_holding, startKey_holding]
  refine ⟨hsane, ⟨d, hd, Narrows.refl d, ?_⟩, hG.nodup, fun S js hS => ?_⟩
  · by_cases hdn : "default" ∈ (groupByName named []).map (·.1)
    · exact .inl hdn
    · refine .inr fun K hK => absurd ?_ hdn
      obtain ⟨p, hp, hpd, -⟩ := hnamedT K hK
      obtain ⟨js, hjs⟩ := hG.complete p hp
      exact List.mem_map.2 ⟨(p.1, js), hjs, hpd⟩
  · have hjs := hG.jobs_eq S js hS
    have hsub : js.Sublist (named.map Prod.snd) := by
      rw [hjs]
      exact (List.filter_sublist (l := named)).map _
    refine ⟨fun j hj a ha => ?_, hheld.sublist hsub, fun hSd K hK => ?_⟩
    · have hj' := hsub.subset hj
      rw [hnamed] at hj'
      obtain ⟨j₀, hj₀, rfl⟩ := List.mem_map.1 hj'
      exact holding_interval cl (hint j₀ hj₀) a ha
    · obtain ⟨p, hp, hpd, rfl⟩ := hnamedT K hK
      rw [hjs]
      exact List.mem_map.2 ⟨p, List.mem_filter.2 ⟨hp, by simp [hpd, hSd]⟩, rfl⟩

end Groups

/-- Taking out the scheduled jobs a round selects, none of them a container of the `default`
set: every set stays sane, the `default` set narrows, and none of the jobs taken out of it holds a
resource it leaves free. -/
theorem addScheduled_spec {r : Round} {sets sets' : SlotSets} {be o : Bool} {d : SlotSet}
    (hd : sets.lookup "default" = some d) (hsane : ∀ S ss, sets.lookup S = some ss → ss.Sane)
    (hinner : ∀ j ∈ r.scheduled, j.containerSlotSetName ≠ some "default")
    (hint : ∀ j ∈ r.scheduled, ∀ a, j.assignment = some a → a.begin ≤ a.end)
    (h : (r.addScheduled sets be o).result = .ok sets') :
    (∀ S ss, sets'.lookup S = some ss → ss.Sane) ∧
    ∃ d', sets'.lookup "default" = some d' ∧ Narrows d d' ∧
      ∀ K, TakenBy r be o K → ∀ t c, d'.contentsAt t = some c → ∀ x ∈ c.1, ¬Holds K t x := by
  unfold addScheduled at h
  dsimp only at h
  set sel := r.scheduled.filter fun j =>
    j.assignment.isSome && if j.queue = "besteffort" then be else o with hsel
  have hselT : ∀ K, TakenBy r be o K → ∃ K₀ ∈ sel, K₀.slotSetName.result = .ok "default" ∧
      K = holding r.cluster K₀ := by
    rintro K ⟨K₀, hK₀, hs, hKd, rfl⟩
    exact ⟨K₀, List.mem_filter.2 ⟨hK₀, hs⟩, hKd, rfl⟩
  have hselS : ∀ K ∈ sel, K ∈ r.scheduled := fun K hK => (List.mem_filter.1 hK).1
  split at h
  · -- nothing is selected
    rename_i hempty
    simp only [Logged.result_pure, Except.ok.injEq] at h
    subst h
    refine ⟨hsane, d, hd, Narrows.refl d, fun K hK => ?_⟩
    obtain ⟨K₀, hK₀, -⟩ := hselT K hK
    rw [List.isEmpty_iff.1 hempty] at hK₀
    cases hK₀
  obtain ⟨sets₁, hsets₁, h₁⟩ := Logged.result_bind_ok h
  obtain ⟨named, hnamed, h₂⟩ := Logged.result_bind_ok h₁
  set sorted := sel.mergeSort fun a b =>
    decide ((a.assignment.map (·.begin)).getD 0 ≤ (b.assignment.map (·.begin)).getD 0) with hsorted
  have hmem : ∀ K ∈ sorted, K ∈ r.scheduled := fun K hK => hselS K (List.mem_mergeSort.1 hK)
  have hpair : sorted.Pairwise (fun j k => startKey j ≤ startKey k) :=
    (List.pairwise_mergeSort (fun a b c hab hbc => by simp only [decide_eq_true_eq] at *; omega)
      (fun a b => by simp only [Bool.or_eq_true, decide_eq_true_eq]; exact Int.le_total _ _) sel).imp
      fun h => by simpa [startKey] using h
  -- containers open their inner sets; the `default` set stays as it is
  obtain ⟨hd₁, hsane₁⟩ := updateContainers_spec _ sets hd hsane
    (fun j hj => hinner j (hmem j (List.mem_filter.1 hj).1)) hsets₁
  obtain ⟨hnamed₁, hname⟩ := Logged.mapM_spec (g := Prod.snd)
    (Q := fun p => p.2.slotSetName.result = .ok p.1) (fun j p hp => by
      obtain ⟨n, hn, hp⟩ := Logged.result_bind_ok hp
      simp only [Logged.result_pure, Except.ok.injEq] at hp
      subst hp
      exact ⟨rfl, hn⟩) hnamed
  have hstart : GroupsLeft d (TakenBy r be o) (groupByName named []) sets₁ :=
    GroupsLeft.start hnamed₁ hname (fun j hj => hint j (hmem j hj)) hpair
      (fun K hK => by
        obtain ⟨K₀, hK₀, hKd, rfl⟩ := hselT K hK
        exact ⟨by rw [holding_slotSetName]; exact hKd,
          List.mem_map.2 ⟨K₀, List.mem_mergeSort.2 hK₀, rfl⟩⟩) hd₁ hsane₁
  have hend := Logged.foldlM_invariant _ (GroupsLeft d (TakenBy r be o))
    (fun g gs sets sets' hI h => by
      obtain ⟨S, js⟩ := g
      dsimp only at h
      split at h
      · rename_i ss hS
        obtain ⟨ss', hp, h⟩ := Logged.result_bind_ok h
        simp only [Logged.result_lift, Logged.result_pure, Except.ok.injEq] at hp h
        subst h
        exact hI.place hS hp
      · rename_i hS
        obtain ⟨_, -, h⟩ := Logged.result_bind_ok h
        simp only [Logged.result_pure, Except.ok.injEq] at h
        subst h
        exact hI.skip hS) _ _ hstart h₂
  obtain ⟨d', hd', hN, hor⟩ := hend.default
  exact ⟨hend.sane, d', hd', hN,
    hor.resolve_left List.not_mem_nil⟩

/-! ## The `default` set between passes -/

/-- What the `default` set of a round keeps between placement passes: it spans the round, its
free resources are present in the cluster and apart from entries, and none of them is held by a
job of `held`. -/
structure Keeps (r : Round) (held : Job → Prop) (d : SlotSet) : Prop where
  begin_eq : d.begin = r.now
  end_eq : d.end = r.maxTime
  present : ∀ t c, d.contentsAt t = some c → ∀ x ∈ c.1, r.Present t x
  apart : d.Apart
  taken : ∀ K, held K → ∀ t c, d.contentsAt t = some c → ∀ x ∈ c.1, ¬Holds K t x

theorem Keeps.narrow {r : Round} {held : Job → Prop} {d d' : SlotSet} (hk : Keeps r held d)
    (hN : Narrows d d') : Keeps r held d' where
  begin_eq := hN.begin_eq.trans hk.begin_eq
  end_eq := hN.end_eq.trans hk.end_eq
  present t c hc x hx := by
    obtain ⟨c₀, hc₀, hx₀⟩ := hN.free hc hx
    exact hk.present t c₀ hc₀ x hx₀
  apart := hN.apart hk.apart
  taken K hK t c hc x hx := by
    obtain ⟨c₀, hc₀, hx₀⟩ := hN.free hc hx
    exact hk.taken K hK t c₀ hc₀ x hx₀

theorem Keeps.wellFormed {r : Round} {held : Job → Prop} {d : SlotSet} (hk : Keeps r held d)
    (hs : d.Sane) (hle : r.now ≤ r.maxTime) : d.WellFormed :=
  hs.wellFormed (by rw [hk.begin_eq, hk.end_eq]; exact hle)

/-- The slot sets of a fresh round: the `default` set over the round, its leaving resources and
the selected scheduled jobs taken out, and the inner sets of the scheduled containers. -/
theorem initSlotSets_spec {r : Round} {be : Bool} {sets : SlotSets}
    (hclock : Word.i64.lo ≤ r.now ∧ r.now ≤ r.maxTime ∧ r.maxTime ≤ ClusterScheduler.maxTime)
    (hinner : ∀ j ∈ r.scheduled, j.containerSlotSetName ≠ some "default")
    (hint : ∀ j ∈ r.scheduled, ∀ a, j.assignment = some a → a.begin ≤ a.end)
    (h : (r.initSlotSets be).result = .ok sets) :
    (∀ S ss, sets.lookup S = some ss → ss.Sane) ∧
    ∃ d, sets.lookup "default" = some d ∧ Keeps r (TakenBy r be true) d := by
  unfold initSlotSets at h
  obtain ⟨base, hbase, h⟩ := Logged.result_bind_ok h
  rw [Logged.result_lift] at hbase
  have hB : Base r [] base :=
    foldlM_except_invariant _ (Base r) (fun p rest ss ss' hB hs => by
      obtain ⟨u, ids⟩ := p
      exact hB.step hs) _ _ (Base.start hclock) hbase
  obtain ⟨hsane, d', hd', hN, htaken⟩ := addScheduled_spec (d := base) (by simp) (fun S ss h => by
      rw [lookup_cons_string, List.lookup_nil] at h
      split at h
      · cases h
        exact .inl hB.wellFormed
      · cases h) hinner hint h
  have hk : Keeps r (fun _ => False) d' :=
    Keeps.narrow ⟨hB.begin_eq, hB.end_eq, hB.present_all, hB.apart, fun _ h => h.elim⟩ hN
  exact ⟨hsane, d', hd', { hk with taken := htaken }⟩

end Round

end ClusterScheduler
