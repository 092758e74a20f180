import ClusterScheduler.Proofs.RoundSoundness

/-!
# What a cycle reports

A cycle runs one placement pass over the waiting jobs of its queues, then reports and saves the
jobs that come out of it with an assignment. When those jobs came in without one, that is
exactly the jobs the pass placed: the ones whose step scheduled them and got a window back
(`PlacesAt`), at their turn of the pass (`PlacedInPass`). A job with a diagnostic was skipped at
its turn, so it stays waiting and has no allocation (`cycle_reports_own_placements`).

The report reads the assignments, not the placements: a waiting job that comes in with an
assignment and is not placed is reported and saved with it all the same.
-/

namespace ClusterScheduler

open Placement

namespace Logged

variable {β γ : Type}

theorem foldlM_snoc {f : β → γ → Logged β} {x : γ} {b c : β} :
    ∀ {l : List γ} {init : β}, (l.foldlM f init).result = .ok b → (f b x).result = .ok c →
      ((l ++ [x]).foldlM f init).result = .ok c
  | [], init, h, hx => by
    simp only [List.foldlM_nil, result_pure, Except.ok.injEq] at h
    subst h
    rw [List.nil_append, List.foldlM_cons, result_bind_of_ok hx]
    rfl
  | y :: l, init, h, hx => by
    rw [List.foldlM_cons] at h
    obtain ⟨z, hz, h⟩ := result_bind_ok h
    rw [List.cons_append, List.foldlM_cons, result_bind_of_ok hz]
    exact foldlM_snoc h hx

end Logged

namespace Placement

variable {cl : Cluster}

/-! ## The job of an id -/

theorem find?_replaceJob (K : Job) (y : Int) : ∀ jobs : List Job,
    (replaceJob jobs K).find? (·.id = y) =
      if y = K.id then (jobs.find? (·.id = y)).map (fun _ => K) else jobs.find? (·.id = y)
  | [] => by simp [replaceJob]
  | k :: ks => by
    have ih := find?_replaceJob K y ks
    have hcons : replaceJob (k :: ks) K = (if k.id = K.id then K else k) :: replaceJob ks K := rfl
    have hid : (if k.id = K.id then K else k).id = k.id := by
      by_cases hk : k.id = K.id <;> simp [hk]
    rw [hcons, List.find?_cons, List.find?_cons, hid]
    by_cases hk : k.id = y
    · by_cases hy : y = K.id <;> simp [hk, hy]
    · simp [hk, ih]

theorem map_id_replaceJob (jobs : List Job) (K : Job) :
    (replaceJob jobs K).map (·.id) = jobs.map (·.id) := by
  induction jobs with
  | nil => rfl
  | cons k ks ih =>
    simp only [replaceJob, List.map_cons, List.map_map] at ih ⊢
    refine congrArg₂ _ ?_ ih
    by_cases hk : k.id = K.id <;> simp [hk]

theorem mem_iff_find? {jobs : List Job} (hnd : (jobs.map (·.id)).Nodup) {K : Job} :
    K ∈ jobs ↔ jobs.find? (·.id = K.id) = some K := by
  refine ⟨fun hK => ?_, List.mem_of_find?_eq_some⟩
  induction jobs with
  | nil => cases hK
  | cons k ks ih =>
    have hk : k.id ∉ ks.map (·.id) := (List.nodup_cons.1 hnd).1
    rcases List.mem_cons.1 hK with rfl | hK
    · simp
    · have hne : ¬k.id = K.id := fun h => hk (h ▸ List.mem_map_of_mem hK)
      simp only [List.find?_cons, hne, decide_false]
      exact ih (List.nodup_cons.1 hnd).2 hK

/-! ## The steps that place their job -/

theorem scheduleJob_unplaced {ss ss' : SlotSet} {j j' : Job} {minBegin : Option Int}
    (h : (scheduleJob cl ss j minBegin).result = .ok (ss', j', false)) : j' = j := by
  unfold scheduleJob at h
  obtain ⟨⟨ss₁, found⟩, -, h⟩ := Logged.result_bind_ok h
  cases found with
  | none =>
    simp only [Logged.result_pure, Except.ok.injEq, Prod.mk.injEq] at h
    exact h.2.1.symm
  | some w =>
    obtain ⟨i, w⟩ := w
    dsimp only at h
    obtain ⟨_, -, h⟩ := Logged.result_bind_ok h
    simp only [Logged.result_pure, Except.ok.injEq, Prod.mk.injEq] at h
    cases h.2.2

theorem scheduleJob_window {ss ss' : SlotSet} {j j' : Job} {minBegin : Option Int}
    (h : (scheduleJob cl ss j minBegin).result = .ok (ss', j', true)) :
    ∃ ss₁ k w, (firstFit cl j minBegin ss 0 j.moldables).result = .ok (ss₁, some (k, w)) ∧
      j' = { j with assignment := some ⟨w.begin, w.end, w.resources, k⟩ } := by
  unfold scheduleJob at h
  obtain ⟨⟨ss₁, found⟩, hfound, h⟩ := Logged.result_bind_ok h
  cases found with
  | none =>
    simp only [Logged.result_pure, Except.ok.injEq, Prod.mk.injEq] at h
    cases h.2.2
  | some w =>
    obtain ⟨k, w⟩ := w
    dsimp only at h
    obtain ⟨_, -, h⟩ := Logged.result_bind_ok h
    simp only [Logged.result_pure, Except.ok.injEq, Prod.mk.injEq] at h
    exact ⟨ss₁, k, w, hfound, h.2.1.symm⟩

theorem scheduleJob_placed {ss ss' : SlotSet} {j j' : Job} {minBegin : Option Int}
    (h : (scheduleJob cl ss j minBegin).result = .ok (ss', j', true)) :
    ∃ a, j' = { j with assignment := some a } := by
  obtain ⟨-, -, -, -, rfl⟩ := scheduleJob_window h
  exact ⟨_, rfl⟩

/-- The step for `x` from the pass state `p` places its job as `K`: it finds the job, the job's
dependencies let it start from some time, its request is valid, its slot set is there, and
scheduling it there from that time finds a window. -/
def PlacesAt (cl : Cluster) (p : Pass) (x : Int) (K : Job) : Prop :=
  ∃ j fromDeps name ss ss', p.jobs.find? (·.id = x) = some j ∧
    dependencyStart j p.jobs = .ok (some fromDeps) ∧ validateJob cl j = .ok () ∧
    j.slotSetName.result = .ok name ∧ p.sets.lookup name = some ss ∧
    (scheduleJob cl ss j (startBound fromDeps j.earliestStart)).result = .ok (ss', K, true)

theorem PlacesAt.unique {p : Pass} {x : Int} {K K' : Job} (h : PlacesAt cl p x K)
    (h' : PlacesAt cl p x K') : K = K' := by
  obtain ⟨j, fromDeps, name, ss, ss₁, hj, hdeps, -, hname, hss, hsched⟩ := h
  obtain ⟨j', fromDeps', name', ss', ss₁', hj', hdeps', -, hname', hss', hsched'⟩ := h'
  obtain rfl : j = j' := Option.some.inj (hj.symm.trans hj')
  obtain rfl : fromDeps = fromDeps' := Option.some.inj (Except.ok.inj (hdeps.symm.trans hdeps'))
  obtain rfl : name = name' := Except.ok.inj (hname.symm.trans hname')
  obtain rfl : ss = ss' := Option.some.inj (hss.symm.trans hss')
  have hsame := hsched.symm.trans hsched'
  simp only [Except.ok.injEq, Prod.mk.injEq] at hsame
  exact hsame.2.1

theorem PlacesAt.assigned {p : Pass} {x : Int} {K : Job} (h : PlacesAt cl p x K) :
    K.id = x ∧ K.assignment.isSome := by
  obtain ⟨j, fromDeps, name, ss, ss', hj, -, -, -, -, hsched⟩ := h
  obtain ⟨a, rfl⟩ := scheduleJob_placed hsched
  have hid : j.id = x := by simpa using List.find?_some hj
  exact ⟨hid, rfl⟩

theorem PlacesAt.find?_replaceJob {p : Pass} {x : Int} {K : Job} (hK : PlacesAt cl p x K) :
    (replaceJob p.jobs K).find? (·.id = x) = some K := by
  have hid := hK.assigned.1
  obtain ⟨j, _, _, _, _, hj, -⟩ := hK
  rw [Placement.find?_replaceJob, if_pos hid.symm, hj]
  rfl

theorem step_places {p p' : Pass} {x : Int} (h : (step cl p x).result = .ok p') :
    (∃ K, PlacesAt cl p x K ∧ p'.jobs = replaceJob p.jobs K ∧ p'.diagnostics = p.diagnostics) ∨
    ((∀ K, ¬PlacesAt cl p x K) ∧ (∀ y, p'.jobs.find? (·.id = y) = p.jobs.find? (·.id = y)) ∧
      p'.jobs.map (·.id) = p.jobs.map (·.id) ∧
      (p'.diagnostics = p.diagnostics ∨ ∃ k, p'.diagnostics = p.diagnostics.push ⟨x, k⟩)) := by
  unfold step at h
  split at h
  · -- no job has the id
    rename_i hnone
    simp only [Logged.result_pure, Except.ok.injEq] at h
    subst h
    refine .inr ⟨fun K hK => ?_, fun y => rfl, rfl, .inl rfl⟩
    obtain ⟨j, fromDeps, name, ss, ss', hj, -⟩ := hK
    rw [hnone] at hj
    cases hj
  rename_i j hj
  obtain ⟨deps, hdeps, h⟩ := Logged.result_bind_ok h
  rw [Logged.result_lift] at hdeps
  -- every way to skip the job leaves the jobs and contradicts placing it
  split at h
  · -- a dependency blocks the job
    simp only [Logged.result_pure, Except.ok.injEq] at h
    subst h
    refine .inr ⟨fun K hK => ?_, fun y => rfl, rfl, .inr ⟨_, rfl⟩⟩
    obtain ⟨j', fromDeps, name, ss, ss', hj', hdeps', -⟩ := hK
    obtain rfl : j = j' := Option.some.inj (hj.symm.trans hj')
    rw [hdeps'] at hdeps
    cases hdeps
  rename_i fromDeps
  dsimp only at h
  split at h
  · -- the request is invalid
    rename_i e hinvalid
    obtain ⟨_, -, h⟩ := Logged.result_bind_ok h
    simp only [Logged.result_pure, Except.ok.injEq] at h
    subst h
    refine .inr ⟨fun K hK => ?_, fun y => rfl, rfl, .inr ⟨_, rfl⟩⟩
    obtain ⟨j', fromDeps', name, ss, ss', hj', -, hvalid', -⟩ := hK
    obtain rfl : j = j' := Option.some.inj (hj.symm.trans hj')
    rw [hvalid'] at hinvalid
    cases hinvalid
  rename_i hvalid
  obtain ⟨name, hname, h⟩ := Logged.result_bind_ok h
  split at h
  · -- the job's slot set is missing
    rename_i hmissing
    obtain ⟨_, -, h⟩ := Logged.result_bind_ok h
    obtain ⟨_, -, h⟩ := Logged.result_bind_ok h
    simp only [Logged.result_pure, Except.ok.injEq] at h
    subst h
    refine .inr ⟨fun K hK => ?_, fun y => rfl, rfl, .inr ⟨_, rfl⟩⟩
    obtain ⟨j', fromDeps', name', ss, ss', hj', -, -, hname', hss', -⟩ := hK
    obtain rfl : j = j' := Option.some.inj (hj.symm.trans hj')
    obtain rfl : name = name' := Except.ok.inj (hname.symm.trans hname')
    rw [hss'] at hmissing
    cases hmissing
  rename_i ss hss
  obtain ⟨⟨ss₁, j₁, placed⟩, hsched, h⟩ := Logged.result_bind_ok h
  dsimp only at h
  rw [Logged.ite_bind] at h
  obtain ⟨sets₂, -, h⟩ := Logged.result_bind_ok h
  simp only [Logged.result_pure, Except.ok.injEq] at h
  subst h
  -- the step's own call decides whether it places its job
  have hcall : ∀ K, PlacesAt cl p x K → placed = true := by
    rintro K ⟨j', fromDeps', name', ss', ss₁', hj', hdeps', -, hname', hss', hsched'⟩
    obtain rfl : j = j' := Option.some.inj (hj.symm.trans hj')
    obtain rfl : fromDeps = fromDeps' := Option.some.inj (Except.ok.inj (hdeps.symm.trans hdeps'))
    obtain rfl : name = name' := Except.ok.inj (hname.symm.trans hname')
    obtain rfl : ss = ss' := Option.some.inj (hss.symm.trans hss')
    have hsame := hsched.symm.trans hsched'
    simp only [Except.ok.injEq, Prod.mk.injEq] at hsame
    exact hsame.2.2
  cases placed with
  | true => exact .inl ⟨j₁, ⟨j, fromDeps, name, ss, ss₁, hj, hdeps, hvalid, hname, hss, hsched⟩, rfl, rfl⟩
  | false =>
    -- no window: the job comes back as it was
    have hj₁ : j₁ = j := scheduleJob_unplaced hsched
    subst j₁
    have hid : j.id = x := by simpa using List.find?_some hj
    refine .inr ⟨fun K hK => Bool.false_ne_true (hcall K hK), fun y => ?_, map_id_replaceJob _ _,
      .inl rfl⟩
    show (replaceJob p.jobs j).find? (·.id = y) = _
    rw [find?_replaceJob]
    by_cases hy : y = j.id
    · rw [if_pos hy, hy, hid, hj]
      rfl
    · rw [if_neg hy]

theorem step_frame {p p' : Pass} {x : Int} (h : (step cl p x).result = .ok p') :
    p'.jobs.map (·.id) = p.jobs.map (·.id) ∧
    (∀ y, y ≠ x → p'.jobs.find? (·.id = y) = p.jobs.find? (·.id = y)) ∧
    (p'.diagnostics.toList = p.diagnostics.toList ∨
      ∃ k, p'.diagnostics.toList = p.diagnostics.toList ++ [⟨x, k⟩]) := by
  rcases step_places h with ⟨K, hK, hjobs, hdiags⟩ | ⟨-, hsame, hids, hdiags⟩
  · refine ⟨by rw [hjobs, map_id_replaceJob], fun y hy => ?_, .inl (by rw [hdiags])⟩
    rw [hjobs, find?_replaceJob, if_neg (hK.assigned.1 ▸ hy)]
  · refine ⟨hids, fun y _ => hsame y, ?_⟩
    rcases hdiags with hd | ⟨k, hd⟩
    · exact .inl (by rw [hd])
    · exact .inr ⟨k, by rw [hd, Array.toList_push]⟩

theorem foldlM_step_frame : ∀ (l : List Int) {p out : Pass},
    (l.foldlM (step cl) p).result = .ok out →
    out.jobs.map (·.id) = p.jobs.map (·.id) ∧
    (∀ y, y ∉ l → out.jobs.find? (·.id = y) = p.jobs.find? (·.id = y)) ∧
    ∃ extra, out.diagnostics.toList = p.diagnostics.toList ++ extra ∧
      (extra.map (·.job)).Sublist l
  | [], p, out, h => by
    simp only [List.foldlM_nil, Logged.result_pure, Except.ok.injEq] at h
    subst h
    exact ⟨rfl, fun y _ => rfl, [], (List.append_nil _).symm, List.nil_sublist _⟩
  | x :: l, p, out, h => by
    rw [List.foldlM_cons] at h
    obtain ⟨q, hq, hrest⟩ := Logged.result_bind_ok h
    obtain ⟨hids, hjobs, hdiag⟩ := step_frame hq
    obtain ⟨hids', hjobs', extra, hextra, hsub⟩ := foldlM_step_frame l hrest
    refine ⟨hids'.trans hids, fun y hy => ?_, ?_⟩
    · rw [hjobs' y fun h => hy (List.mem_cons_of_mem x h),
        hjobs y fun h => hy (h ▸ List.mem_cons_self ..)]
    · rcases hdiag with hd | ⟨k, hd⟩
      · exact ⟨extra, by rw [hextra, hd], hsub.cons x⟩
      · exact ⟨⟨x, k⟩ :: extra, by rw [hextra, hd, List.append_assoc, List.singleton_append],
          hsub.cons_cons x⟩

/-! ## A pass, turn by turn -/

theorem prefix_eq_of_nodup {α : Type} {x : α} : ∀ {a b c d : List α},
    (a ++ x :: b).Nodup → a ++ x :: b = c ++ x :: d → a = c
  | [], _, [], _, _, _ => rfl
  | [], b, y :: c, d, hnd, h => by
    obtain ⟨rfl, rfl⟩ := List.cons.inj h
    exact absurd (List.mem_append_right c (List.mem_cons_self ..)) (List.nodup_cons.1 hnd).1
  | y :: a, b, [], d, hnd, h => by
    obtain ⟨rfl, rfl⟩ := List.cons.inj h
    exact absurd (List.mem_append_right a (List.mem_cons_self ..)) (List.nodup_cons.1 hnd).1
  | y :: a, b, z :: c, d, hnd, h => by
    simp only [List.cons_append, List.cons.injEq] at h
    obtain ⟨rfl, htail⟩ := h
    rw [prefix_eq_of_nodup (List.nodup_cons.1 hnd).2 htail]

/-- The placement pass over `waiting` from the slot sets `sets` places `K` at its turn: the
turns before it lead to a pass state from which the step of `K`'s id places its job as `K`. -/
def PlacedInPass (cl : Cluster) (sets : SlotSets) (waiting : List Job) (K : Job) : Prop :=
  ∃ done rest st, waiting.map (·.id) = done ++ K.id :: rest ∧
    (done.foldlM (step cl) ⟨sets, waiting, #[]⟩).result = .ok st ∧ PlacesAt cl st K.id K

/-- What the turns of `done`, the first ids of `waiting`, leave in the pass state `st`: the jobs
keep their ids; a job whose turn has not come is as it was; among those whose turn has come,
the jobs with an assignment are exactly those placed at their turn; and each diagnostic is for
a job whose turn has come and which has no assignment. -/
structure PassSoFar (cl : Cluster) (sets : SlotSets) (waiting : List Job) (done : List Int)
    (st : Pass) : Prop where
  run : (done.foldlM (step cl) ⟨sets, waiting, #[]⟩).result = .ok st
  ids : st.jobs.map (·.id) = waiting.map (·.id)
  ahead : ∀ y, y ∉ done → st.jobs.find? (·.id = y) = waiting.find? (·.id = y)
  assigned : ∀ y ∈ done, ∀ K, st.jobs.find? (·.id = y) = some K → K.assignment.isSome →
    PlacedInPass cl sets waiting K
  placed : ∀ K, PlacedInPass cl sets waiting K → K.id ∈ done →
    st.jobs.find? (·.id = K.id) = some K
  diagnosed : ∀ d ∈ st.diagnostics.toList, d.job ∈ done ∧
    ∀ K, st.jobs.find? (·.id = d.job) = some K → K.assignment = none

section Pass

variable {sets : SlotSets} {waiting : List Job}

theorem passSoFar_init : PassSoFar cl sets waiting [] ⟨sets, waiting, #[]⟩ where
  run := rfl
  ids := rfl
  ahead _ _ := rfl
  assigned _ h := absurd h List.not_mem_nil
  placed _ _ h := absurd h List.not_mem_nil
  diagnosed _ h := absurd h List.not_mem_nil

theorem PassSoFar.placesAt {done rest : List Int} {x : Int} {st : Pass} {K : Job}
    (hst : PassSoFar cl sets waiting done st) (hl : done ++ x :: rest = waiting.map (·.id))
    (hnd : (waiting.map (·.id)).Nodup) (hK : PlacedInPass cl sets waiting K) (hx : K.id = x) :
    PlacesAt cl st x K := by
  obtain ⟨done', rest', st', hl', hrun', hK'⟩ := hK
  rw [hx] at hl' hK'
  obtain rfl : done' = done := prefix_eq_of_nodup (hl' ▸ hnd) (hl'.symm.trans hl.symm)
  obtain rfl : st' = st := Except.ok.inj (hrun'.symm.trans hst.run)
  exact hK'

theorem PassSoFar.turn {done rest : List Int} {x : Int} {st st' : Pass}
    (hst : PassSoFar cl sets waiting done st) (hl : done ++ x :: rest = waiting.map (·.id))
    (hnd : (waiting.map (·.id)).Nodup) (hnone : ∀ j ∈ waiting, j.assignment = none)
    (h : (step cl st x).result = .ok st') : PassSoFar cl sets waiting (done ++ [x]) st' := by
  have hx : x ∉ done := by
    intro hx
    have hnd' := hl ▸ hnd
    exact (List.nodup_append.1 hnd').2.2 x hx x (List.mem_cons_self ..) rfl
  have hrun : ((done ++ [x]).foldlM (step cl) ⟨sets, waiting, #[]⟩).result = .ok st' := by
    exact Logged.foldlM_snoc hst.run h
  have hfresh : ∀ K, st.jobs.find? (·.id = x) = some K → K.assignment = none := by
    intro K hK
    rw [hst.ahead x hx] at hK
    exact hnone K (List.mem_of_find?_eq_some hK)
  obtain ⟨hids, hother, hdiag⟩ := step_frame h
  have hdone : ∀ y, y ∈ done ++ [x] → y ≠ x → y ∈ done := fun y hy hyx =>
    (List.mem_append.1 hy).resolve_right (by simpa using hyx)
  have hahead : ∀ y, y ∉ done ++ [x] → st'.jobs.find? (·.id = y) = waiting.find? (·.id = y) := by
    intro y hy
    have hyx : y ≠ x := by
      rintro rfl
      exact hy (List.mem_append_right done (List.mem_singleton_self y))
    rw [hother y hyx]
    exact hst.ahead y fun h => hy (List.mem_append_left [x] h)
  -- the diagnostics of earlier turns are for jobs this turn leaves alone
  have hold : ∀ d ∈ st.diagnostics.toList, d.job ∈ done ++ [x] ∧
      ∀ K, st'.jobs.find? (·.id = d.job) = some K → K.assignment = none := by
    intro d hd
    obtain ⟨hdone', hnoneD⟩ := hst.diagnosed d hd
    refine ⟨List.mem_append_left [x] hdone', fun K hK => hnoneD K ?_⟩
    rwa [hother _ fun h => hx (h ▸ hdone')] at hK
  rcases step_places h with ⟨K, hK, hjobs, hdiags⟩ | ⟨hnot, hsame, -, -⟩
  · -- the turn places its job as `K`
    have hKid := hK.assigned.1
    have hat : st'.jobs.find? (·.id = x) = some K := by
      rw [hjobs]
      exact hK.find?_replaceJob
    refine ⟨hrun, by rw [hids, hst.ids], hahead, fun y hy K' hK' ha => ?_, fun K' hK' hy => ?_,
      fun d hd => hold d (hdiags ▸ hd)⟩
    · by_cases hyx : y = x
      · subst hyx
        rw [hat] at hK'
        cases hK'
        exact ⟨done, rest, st, by rw [hKid]; exact hl.symm, hst.run, hKid ▸ hK⟩
      · rw [hother y hyx] at hK'
        exact hst.assigned y (hdone y hy hyx) K' hK' ha
    · by_cases hyx : K'.id = x
      · rw [hyx, hat, (hst.placesAt hl hnd hK' hyx).unique hK]
      · rw [hother _ hyx]
        exact hst.placed K' hK' (hdone _ hy hyx)
  · -- the turn places nothing and changes no job
    refine ⟨hrun, by rw [hids, hst.ids], hahead, fun y hy K' hK' ha => ?_, fun K' hK' hy => ?_,
      fun d hd => ?_⟩
    · rw [hsame] at hK'
      by_cases hyx : y = x
      · subst hyx
        rw [hfresh K' hK'] at ha
        cases ha
      · exact hst.assigned y (hdone y hy hyx) K' hK' ha
    · by_cases hyx : K'.id = x
      · exact absurd (hst.placesAt hl hnd hK' hyx) (hnot K')
      · rw [hsame]
        exact hst.placed K' hK' (hdone _ hy hyx)
    · rcases hdiag with hdiag | ⟨k, hdiag⟩
      · exact hold d (hdiag ▸ hd)
      · rw [hdiag] at hd
        rcases List.mem_append.1 hd with hd | hd
        · exact hold d hd
        · -- the new diagnostic is for the job of this turn, which stays as it came
          rw [List.mem_singleton] at hd
          subst hd
          refine ⟨List.mem_append_right done (List.mem_singleton_self x), fun K' hK' => ?_⟩
          rw [hsame] at hK'
          exact hfresh K' hK'

theorem passSoFar_run (hnd : (waiting.map (·.id)).Nodup)
    (hnone : ∀ j ∈ waiting, j.assignment = none) {out : Pass}
    (h : ((waiting.map (·.id)).foldlM (step cl) ⟨sets, waiting, #[]⟩).result = .ok out) :
    PassSoFar cl sets waiting (waiting.map (·.id)) out :=
  Logged.foldlM_prefix (step cl) (PassSoFar cl sets waiting) (waiting.map (·.id))
    (fun _ _ _ _ _ hl hst hc => hst.turn hl hnd hnone hc) _ [] _ rfl passSoFar_init h

theorem scheduleJobs_placed {sets' : SlotSets} {jobs : List Job} {diags : List Diagnostic}
    (hnd : (waiting.map (·.id)).Nodup) (hnone : ∀ j ∈ waiting, j.assignment = none)
    (h : (scheduleJobs cl sets waiting).result = .ok (sets', jobs, diags)) :
    jobs.map (·.id) = waiting.map (·.id) ∧
      (∀ K, K ∈ jobs.filter (·.assignment.isSome) ↔ PlacedInPass cl sets waiting K) ∧
      ∀ d ∈ diags, d.job ∈ waiting.map (·.id) ∧ ∀ K ∈ jobs, K.id = d.job → K.assignment = none := by
  unfold scheduleJobs at h
  obtain ⟨out, hout, h⟩ := Logged.result_bind_ok h
  simp only [Logged.result_pure, Except.ok.injEq, Prod.mk.injEq] at h
  obtain ⟨-, rfl, rfl⟩ := h
  have hrun := passSoFar_run hnd hnone hout
  have hnd' : (out.jobs.map (·.id)).Nodup := hrun.ids ▸ hnd
  have hid : ∀ K ∈ out.jobs, K.id ∈ waiting.map (·.id) :=
    fun K hK => hrun.ids ▸ List.mem_map_of_mem hK
  refine ⟨hrun.ids, fun K => ⟨fun hK => ?_, fun hK => ?_⟩, fun d hd => ?_⟩
  · obtain ⟨hK, ha⟩ := List.mem_filter.1 hK
    exact hrun.assigned K.id (hid K hK) K ((mem_iff_find? hnd').1 hK) ha
  · have hmem : K.id ∈ waiting.map (·.id) := by
      obtain ⟨done, rest, -, hl, -⟩ := hK
      rw [hl]
      exact List.mem_append_right done (List.mem_cons_self ..)
    have hfound := hrun.placed K hK hmem
    obtain ⟨done, rest, st, -, -, hplaces⟩ := hK
    exact List.mem_filter.2 ⟨List.mem_of_find?_eq_some hfound, by simpa using hplaces.assigned.2⟩
  · obtain ⟨hdone, hnoneD⟩ := hrun.diagnosed d hd
    refine ⟨hdone, fun K hK hKid => hnoneD K ?_⟩
    rw [← hKid]
    exact (mem_iff_find? hnd').1 hK

end Pass

end Placement

namespace Round

/-- A cycle over waiting jobs with distinct ids, those of its queues coming without an
assignment, reports exactly its own placements. It saves and reports, in the order they were
scheduled in, the jobs its pass placed at their turn; every other waiting job stays waiting,
and a job with a diagnostic is one of them. -/
theorem cycle_reports_own_placements {r r' : Round} {sets sets' : SlotSets}
    {queues : List String} {p : JobPriority} {report : CycleReport}
    (hids : (r.waiting.map (·.id)).Nodup) (hnone : ∀ j ∈ r.waitingIn queues, j.assignment = none)
    (h : (r.cycleOn sets queues p).result = .ok (r', sets', report)) :
    ∃ placed : List Job, r' = r.save placed ∧
      report.allocations = placed.filterMap Allocation.ofJob? ∧
      (placed.map (·.id)).Sublist ((p.sortJobs (r.waitingIn queues)).map (·.id)) ∧
      (∀ K, K ∈ placed ↔ PlacedInPass r.cluster sets (p.sortJobs (r.waitingIn queues)) K) ∧
      ∀ d ∈ report.diagnostics, d.job ∉ placed.map (·.id) ∧ ∃ j ∈ r'.waiting, j.id = d.job := by
  rcases cycleOn_ok h with ⟨hempty, hr, -, rfl⟩ | ⟨jobs, hrun, rfl, hrep⟩
  · -- no waiting job: nothing is placed
    subst r'
    have hsort : p.sortJobs (r.waitingIn queues) = [] := by
      rw [List.isEmpty_iff] at hempty
      rw [hempty]
      exact (p.sortJobs_perm []).eq_nil
    refine ⟨[], (save_nil r).symm, rfl, List.nil_sublist _, fun K => ⟨fun hK => absurd hK
      List.not_mem_nil, fun hK => ?_⟩, fun d hd => absurd hd List.not_mem_nil⟩
    obtain ⟨done, rest, st, hl, -⟩ := hK
    rw [hsort, List.map_nil] at hl
    exact absurd hl.symm (List.append_ne_nil_of_right_ne_nil done (List.cons_ne_nil _ _))
  have hperm := p.sortJobs_perm (r.waitingIn queues)
  have hmem : ∀ j ∈ p.sortJobs (r.waitingIn queues), j ∈ r.waitingIn queues :=
    fun j hj => hperm.subset hj
  have hids' : ((p.sortJobs (r.waitingIn queues)).map (·.id)).Nodup :=
    (hperm.map _).nodup_iff.2 (hids.sublist ((List.filter_sublist (l := r.waiting)).map _))
  obtain ⟨hsame, hplaced, hdiag⟩ :=
    scheduleJobs_placed hids' (fun j hj => hnone j (hmem j hj)) hrun
  refine ⟨jobs.filter (·.assignment.isSome), rfl, hrep, ?_, hplaced, fun d hd => ?_⟩
  · rw [← hsame]
    exact (List.filter_sublist).map _
  · obtain ⟨hdone, hnoneD⟩ := hdiag d hd
    have hout : d.job ∉ (jobs.filter (·.assignment.isSome)).map (·.id) := by
      intro hin
      obtain ⟨K, hK, hKid⟩ := List.mem_map.1 hin
      obtain ⟨hK, ha⟩ := List.mem_filter.1 hK
      rw [hnoneD K hK hKid] at ha
      cases ha
    refine ⟨hout, ?_⟩
    obtain ⟨j, hj, hjid⟩ := List.mem_map.1 hdone
    refine ⟨j, ?_, hjid⟩
    refine List.mem_filter.2 ⟨(List.mem_filter.1 (hmem j hj)).1, ?_⟩
    simp only [Bool.not_eq_eq_eq_not, Bool.not_true, List.any_eq_false, decide_eq_true_eq]
    intro K hK hKj
    exact hout (List.mem_map.2 ⟨K, hK, hKj.trans hjid⟩)

/-- A cycle over one waiting job without an assignment, on a cluster of one resource, reports
exactly its own placements. -/
theorem cycle_reports_own_placements_one_job :
    let cl : Cluster := ⟨{ securityTime := 0 },
      { defaultResources := IdSet.range 1 1, hierarchy := ⟨[("resource_id", ⟨none, true⟩)]⟩ }⟩
    let r : Round :=
      { now := 0
        maxTime := 100
        cluster := cl
        scheduled := []
        waiting := [{ id := 1, moldables := [⟨1, 10, [⟨IdSet.range 1 1, [⟨"resource_id", 1⟩]⟩]⟩] }]
        renderTables := false }
    let sets : SlotSets := [("default", SlotSet.single (IdSet.range 1 1) 0 100)]
    ∃ r' sets' report, (r.waiting.map (·.id)).Nodup ∧
      (∀ j ∈ r.waitingIn ["default"], j.assignment = none) ∧
      (r.cycleOn sets ["default"] .fifo).result = .ok (r', sets', report) ∧
      ∃ placed : List Job, r' = r.save placed ∧
        report.allocations = placed.filterMap Allocation.ofJob? ∧
        (placed.map (·.id)).Sublist ((JobPriority.fifo.sortJobs (r.waitingIn ["default"])).map (·.id)) ∧
        (∀ K, K ∈ placed ↔
          PlacedInPass r.cluster sets (JobPriority.fifo.sortJobs (r.waitingIn ["default"])) K) ∧
        ∀ d ∈ report.diagnostics, d.job ∉ placed.map (·.id) ∧ ∃ j ∈ r'.waiting, j.id = d.job := by
  intro cl r sets
  obtain ⟨r', sets', report, hrun⟩ :
      ∃ r' sets' report, (r.cycleOn sets ["default"] .fifo).result = .ok (r', sets', report) :=
    ⟨_, _, _, by simp only [r, cl, sets]; with_unfolding_all rfl⟩
  have hids : (r.waiting.map (·.id)).Nodup := by decide
  have hnone : ∀ j ∈ r.waitingIn ["default"], j.assignment = none := by decide
  exact ⟨r', sets', report, hids, hnone, hrun, Round.cycle_reports_own_placements hids hnone hrun⟩

/-- The report reads assignments, not placements. A waiting job that comes with an assignment
and is not placed, here for a moldable of walltime 0, is reported with that assignment and
leaves the waiting jobs, next to its own diagnostic, though the pass did not place it. -/
theorem cycle_reports_stale_assignment :
    let cl : Cluster := ⟨{ securityTime := 0 },
      { defaultResources := IdSet.range 1 1, hierarchy := ⟨[("resource_id", ⟨none, true⟩)]⟩ }⟩
    let stale : Job :=
      { id := 1
        assignment := some ⟨0, 9, IdSet.range 1 1, 0⟩
        moldables := [⟨1, 0, [⟨IdSet.range 1 1, [⟨"resource_id", 1⟩]⟩]⟩] }
    let r : Round :=
      { now := 0
        maxTime := 1000
        cluster := cl
        scheduled := []
        waiting := [stale]
        renderTables := false }
    let sets : SlotSets := [("default", SlotSet.single (IdSet.range 1 1) 0 1000)]
    (r.cycleOn sets ["default"] .fifo).result.map
        (fun x => (x.2.2.allocations, x.2.2.diagnostics.map (·.job), x.1.waiting.map (·.id))) =
      .ok ([⟨1, 1, 0, 9, IdSet.range 1 1⟩], [1], []) ∧
    ¬PlacedInPass cl sets [stale] stale := by
  intro cl stale r sets
  refine ⟨?_, ?_⟩
  · simp only [r, Round.cycleOn]
    rw [JobPriority.sortJobs_of_pairwise]
    · decide +kernel
    · decide
  · -- the turn of the only job is the first, and its request is refused
    rintro ⟨done, rest, st, hl, hrun, hplaces⟩
    obtain rfl : done = [] := by
      cases done with
      | nil => rfl
      | cons d ds =>
        simp only [List.map_cons, List.map_nil, List.cons_append, List.cons.injEq] at hl
        exact absurd hl.2.symm (List.append_ne_nil_of_right_ne_nil ds (List.cons_ne_nil _ _))
    obtain rfl : st = ⟨sets, [stale], #[]⟩ := (Except.ok.inj hrun).symm
    obtain ⟨j, fromDeps, name, ss, ss', hj, -, hvalid, -⟩ := hplaces
    obtain rfl : j = stale := (Option.some.inj hj).symm
    have hrefused : validateJob cl stale = .error (.nonPositiveWalltime 1 0) := by decide
    rw [hrefused] at hvalid
    cases hvalid

end Round

end ClusterScheduler
