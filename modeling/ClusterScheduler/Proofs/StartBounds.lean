import ClusterScheduler.Proofs.CycleReport
import ClusterScheduler.Proofs.Provenance

/-!
# Start bounds and blocked dependencies

A job's turn in a placement pass first reads its dependencies against the jobs of the pass:
one in error is ignored; one that blocks (`Dependency.blocks`: on a job not placed, terminated
with a non-zero exit code, or in another state) skips the job with the unsatisfied-dependency
diagnostic; each waiting one on a placed job makes the job start after that job's end. The
job's own earliest start bounds it too, and its moldables are tried in order from that bound.

Main statement: in a pass over waiting jobs of distinct ids without assignments, from
well-formed slot sets, a job that comes out with an assignment starts after its earliest
start and after the end of each waiting dependency, a job placed before it; none of its
dependencies blocks; its window lies in its slot set, lasts its moldable's walltime and the
security time, and no earlier moldable has a window at its turn. A job gets a diagnostic for
its dependencies, and no other, exactly when one of them blocks at its turn; diagnostics come
in the order of the jobs, one at most for each (`scheduleJobs_respects_dependencies`).
-/

namespace ClusterScheduler

open SlotSet

namespace Logged

variable {β γ : Type}

theorem foldlM_append_ok {f : β → γ → Logged β} {l₂ : List γ} {out : β} :
    ∀ {l₁ : List γ} {init : β}, ((l₁ ++ l₂).foldlM f init).result = .ok out →
      ∃ mid, (l₁.foldlM f init).result = .ok mid ∧ (l₂.foldlM f mid).result = .ok out
  | [], init, h => ⟨init, rfl, h⟩
  | x :: l₁, init, h => by
    rw [List.cons_append, List.foldlM_cons] at h
    obtain ⟨b, hb, h⟩ := result_bind_ok h
    obtain ⟨mid, hmid, hout⟩ := foldlM_append_ok h
    refine ⟨mid, ?_, hout⟩
    rw [List.foldlM_cons, result_bind_of_ok hb]
    exact hmid

end Logged

/-- Whether a dependency keeps a job from being placed, given the jobs of the pass: one on a
waiting job that is not placed, or not among them; one terminated with a non-zero exit code; one
in any other state. One in error never does. -/
def Dependency.blocks (jobs : List Job) (d : Dependency) : Bool :=
  match d.state with
  | .waiting => ((jobs.find? (·.id = d.job)).bind (·.assignment)).isNone
  | .terminated (some c) => c != 0
  | .terminated none => false
  | .error => false
  | .other _ => true

namespace Placement

variable {cl : Cluster}

/-! ## The dependencies of a job -/

def NoEarlier (b : Int) (o : Option Int) : Prop := ∃ f, o = some f ∧ b ≤ f

theorem NoEarlier.le_getD {b : Int} {o : Option Int} (h : NoEarlier b o) (d : Int) :
    b ≤ o.getD d := by
  obtain ⟨f, rfl, hf⟩ := h
  exact hf

theorem dependencyStep_of_ne_waiting (jobs : List Job) (least : Option Int) {d : Dependency}
    (hw : d.state ≠ .waiting) :
    dependencyStep jobs (some least) d = .ok (if d.blocks jobs then none else some least) := by
  obtain ⟨x, st⟩ := d
  cases st with
  | waiting => exact absurd rfl hw
  | terminated c =>
    cases c with
    | none => rfl
    | some c => by_cases hc : c = 0 <;> simp [dependencyStep, Dependency.blocks, hc] <;> rfl
  | error => rfl
  | other s => rfl

theorem dependencyStep_some {jobs : List Job} {least : Option Int} {d : Dependency}
    {acc : Option (Option Int)} (h : dependencyStep jobs (some least) d = .ok acc) :
    (acc = none ↔ d.blocks jobs = true) ∧ ∀ least', acc = some least' →
      (∀ b, NoEarlier b least → NoEarlier b least') ∧
      (d.state = .waiting → ∃ D a, jobs.find? (·.id = d.job) = some D ∧ D.assignment = some a ∧
        NoEarlier (a.end + 1) least') := by
  by_cases hw : d.state = .waiting
  · obtain ⟨x, st⟩ := d
    subst hw
    cases hD : (jobs.find? (·.id = x)).bind (·.assignment) with
    | none =>
      -- the dependency's job is not placed: the job is blocked
      simp only [dependencyStep, hD] at h
      cases h
      simp [Dependency.blocks, hD]
    | some a =>
      obtain ⟨D, hfind, hDa⟩ := Option.bind_eq_some_iff.1 hD
      simp only [dependencyStep, hD] at h
      cases hadd : Word.i64.add a.end 1 with
      | error e =>
        rw [hadd] at h
        cases h
      | ok after =>
        rw [hadd, except_ok_bind] at h
        obtain ⟨rfl, -⟩ := Word.eq_of_add_ok hadd
        cases h
        refine ⟨by simp [Dependency.blocks, hD], fun least' hl => ?_⟩
        cases hl
        -- the new start is the later of the old one and the dependency's end
        refine ⟨fun b ⟨f, hf, hb⟩ => ⟨_, rfl, ?_⟩, fun _ => ⟨D, a, hfind, hDa, _, rfl, ?_⟩⟩
        · subst hf
          dsimp only
          omega
        · cases least with
          | none => exact Int.le_refl _
          | some m =>
            dsimp only
            omega
  · rw [dependencyStep_of_ne_waiting jobs least hw] at h
    cases hb : d.blocks jobs with
    | true =>
      simp only [hb, if_true] at h
      cases h
      simp
    | false =>
      simp only [hb, Bool.false_eq_true, if_false] at h
      cases h
      refine ⟨by simp, fun least' hl => ?_⟩
      cases hl
      exact ⟨fun b hb' => hb', fun hw' => absurd hw' hw⟩

theorem foldlM_dependencyStep_none (jobs : List Job) :
    ∀ ds : List Dependency, ds.foldlM (dependencyStep jobs) none = .ok none
  | [] => rfl
  | _ :: ds => foldlM_dependencyStep_none jobs ds

theorem foldlM_dependencyStep {jobs : List Job} :
    ∀ (ds : List Dependency) (least : Option Int) {r : Option (Option Int)},
      ds.foldlM (dependencyStep jobs) (some least) = .ok r →
      (r = none ↔ ∃ d ∈ ds, d.blocks jobs = true) ∧ ∀ fd, r = some fd →
        (∀ b, NoEarlier b least → NoEarlier b fd) ∧
        ∀ d ∈ ds, d.state = .waiting → ∃ D a, jobs.find? (·.id = d.job) = some D ∧
          D.assignment = some a ∧ NoEarlier (a.end + 1) fd
  | [], least, r, h => by
    cases h
    exact ⟨by simp, fun fd hfd => by cases hfd; exact ⟨fun b hb => hb, by simp⟩⟩
  | d :: ds, least, r, h => by
    rw [List.foldlM_cons] at h
    cases hstep : dependencyStep jobs (some least) d with
    | error e =>
      rw [hstep] at h
      cases h
    | ok acc =>
      rw [hstep, except_ok_bind] at h
      obtain ⟨hblock, hkeep⟩ := dependencyStep_some hstep
      cases acc with
      | none =>
        -- a blocking dependency: the steps after it keep the stop
        rw [foldlM_dependencyStep_none] at h
        cases h
        exact ⟨iff_of_true rfl ⟨d, List.mem_cons_self .., hblock.1 rfl⟩, fun fd hfd => by cases hfd⟩
      | some least' =>
        obtain ⟨hmono, hwait⟩ := hkeep least' rfl
        have hpass : d.blocks jobs = false := by simpa using hblock.not.1 (Option.some_ne_none _)
        obtain ⟨hnone, hsome⟩ := foldlM_dependencyStep ds least' h
        refine ⟨by simp [hnone, hpass], fun fd hfd => ?_⟩
        obtain ⟨hmono', hdeps⟩ := hsome fd hfd
        refine ⟨fun b hb => hmono' b (hmono b hb), fun d' hd' hw => ?_⟩
        rcases List.mem_cons.1 hd' with rfl | hd'
        · obtain ⟨D, a, hD, ha, hle⟩ := hwait hw
          exact ⟨D, a, hD, ha, hmono' _ hle⟩
        · exact hdeps d' hd' hw

theorem dependencyStart_eq_none_iff {j : Job} {jobs : List Job} {r : Option (Option Int)}
    (h : dependencyStart j jobs = .ok r) : r = none ↔ ∃ d ∈ j.dependencies, d.blocks jobs = true :=
  (foldlM_dependencyStep j.dependencies none h).1

theorem dependencyStart_eq_some {j : Job} {jobs : List Job} {fd : Option Int}
    (h : dependencyStart j jobs = .ok (some fd)) :
    (∀ d ∈ j.dependencies, d.blocks jobs = false) ∧
    ∀ d ∈ j.dependencies, d.state = .waiting → ∃ D a, jobs.find? (·.id = d.job) = some D ∧
      D.assignment = some a ∧ NoEarlier (a.end + 1) fd := by
  obtain ⟨hnone, hsome⟩ := foldlM_dependencyStep j.dependencies none h
  have hpass : ¬∃ d ∈ j.dependencies, d.blocks jobs = true := fun hb =>
    Option.some_ne_none _ (hnone.2 hb)
  exact ⟨fun d hd => by simpa using fun hb => hpass ⟨d, hd, hb⟩, (hsome fd rfl).2⟩

theorem startBound_of_deps {b : Int} {fd : Option Int} (h : NoEarlier b fd) (e : Option Int) :
    NoEarlier b (startBound fd e) := by
  obtain ⟨f, rfl, hf⟩ := h
  cases e with
  | none => exact ⟨f, rfl, hf⟩
  | some e => exact ⟨max f e, rfl, Int.le_trans hf (Int.le_max_left f e)⟩

theorem startBound_of_earliest (fd : Option Int) (e : Int) : NoEarlier e (startBound fd (some e)) := by
  cases fd with
  | none => exact ⟨e, rfl, Int.le_refl e⟩
  | some f => exact ⟨max f e, rfl, Int.le_max_right f e⟩

/-! ## The window of a placed job -/

theorem firstFit_found {j : Job} {minBegin : Option Int} :
    ∀ (ms : List Moldable) (ss : SlotSet) (i : Nat) {ss' : SlotSet} {k : Nat} {win : Window},
      (firstFit cl j minBegin ss i ms).result = .ok (ss', some (k, win)) →
      i ≤ k ∧ (∃ m ss₁, ms[k - i]? = some m ∧
        (findForMoldable cl ss j m minBegin).result = .ok (ss₁, some win)) ∧
      ∀ n < k - i, ∀ m, ms[n]? = some m →
        (findForMoldable cl ss j m minBegin).result = .ok (ss, none)
  | [], ss, i, ss', k, win, h => by
    simp only [firstFit, Logged.result_pure, Except.ok.injEq, Prod.mk.injEq, reduceCtorEq,
      and_false] at h
  | m :: rest, ss, i, ss', k, win, h => by
    simp only [firstFit] at h
    obtain ⟨⟨ss₁, w⟩, h₁, hrest⟩ := Logged.result_bind_ok h
    cases w with
    | some w =>
      -- the first moldable has a window
      simp only [Logged.result_pure, Except.ok.injEq, Prod.mk.injEq, Option.some.injEq] at hrest
      obtain ⟨-, rfl, rfl⟩ := hrest
      exact ⟨le_refl i, ⟨m, ss₁, by simp, h₁⟩, fun n hn => absurd hn (by omega)⟩
    | none =>
      have hss₁ : ss₁ = ss := findForMoldable_none h₁
      subst hss₁
      obtain ⟨hik, ⟨m', ss₂, hm', hfound⟩, hbefore⟩ := firstFit_found rest ss₁ (i + 1) hrest
      have hk : k - i = k - (i + 1) + 1 := by omega
      refine ⟨by omega, ⟨m', ss₂, by rw [hk]; exact hm', hfound⟩, fun n hn m'' hm'' => ?_⟩
      cases n with
      | zero =>
        obtain rfl : m = m'' := by simpa using hm''
        exact h₁
      | succ n => exact hbefore n (by omega) m'' hm''

/-! ## Turns of a pass -/

theorem Traced.runPrefix {sets₀ : SlotSets} {order : List Int} :
    ∀ (xs : List Int) {p p' : Pass} {done ys : List Int},
      Traced cl sets₀ order p.sets p.jobs done (xs ++ ys) →
      (xs.foldlM (Placement.step cl) p).result = .ok p' →
      Traced cl sets₀ order p'.sets p'.jobs (done ++ xs) ys
  | [], p, p', done, ys, hs, h => by
    simp only [List.foldlM_nil, Logged.result_pure, Except.ok.injEq] at h
    subst h
    simp only [List.nil_append, List.append_nil] at hs ⊢
    exact hs
  | x :: xs, p, p', done, ys, hs, h => by
    rw [List.foldlM_cons] at h
    obtain ⟨q, hq, hrest⟩ := Logged.result_bind_ok h
    have hs' := Traced.runPrefix xs (hs.step hq) hrest
    rwa [List.append_assoc, List.singleton_append] at hs'

theorem step_diagnostic {p p' : Pass} {x : Int} {j : Job} (hj : p.jobs.find? (·.id = x) = some j)
    (h : (step cl p x).result = .ok p') :
    ∃ r new, dependencyStart j p.jobs = .ok r ∧
      p'.diagnostics.toList = p.diagnostics.toList ++ new ∧ (∀ d ∈ new, d.job = x) ∧
      (new = [⟨x, .unsatisfiedDependencies⟩] ↔ r = none) := by
  unfold step at h
  simp only [hj] at h
  obtain ⟨r, hr, h⟩ := Logged.result_bind_ok h
  rw [Logged.result_lift] at hr
  refine ⟨r, ?_⟩
  split at h
  · -- a dependency blocks the job
    simp only [Logged.result_pure, Except.ok.injEq] at h
    subst h
    exact ⟨[⟨x, .unsatisfiedDependencies⟩], hr, Array.toList_push .., by simp, by simp⟩
  split at h
  · -- the request is invalid
    rename_i e _
    obtain ⟨_, -, h⟩ := Logged.result_bind_ok h
    simp only [Logged.result_pure, Except.ok.injEq] at h
    subst h
    exact ⟨[⟨x, .invalidRequest e⟩], hr, Array.toList_push .., by simp, by simp⟩
  obtain ⟨name, -, h⟩ := Logged.result_bind_ok h
  split at h
  · -- the job's slot set is missing
    obtain ⟨_, -, h⟩ := Logged.result_bind_ok h
    obtain ⟨name', -, h⟩ := Logged.result_bind_ok h
    simp only [Logged.result_pure, Except.ok.injEq] at h
    subst h
    exact ⟨[⟨x, .missingSlotSet name'⟩], hr, Array.toList_push .., by simp, by simp⟩
  · -- the job is scheduled: no diagnostic
    obtain ⟨_, -, h⟩ := Logged.result_bind_ok h
    rw [Logged.ite_bind] at h
    obtain ⟨_, -, h⟩ := Logged.result_bind_ok h
    simp only [Logged.result_pure, Except.ok.injEq] at h
    subst h
    exact ⟨[], hr, (List.append_nil _).symm, by simp, by simp⟩

/-! ## The bounds a placed job keeps -/

/-- The bounds that the placement of `j` with the assignment `a`, at the turn starting from the
pass state `st`, keeps: it starts no earlier than the job's earliest start; none of its
dependencies blocks, and the job of each waiting one is placed and ends before it; its window
lies in its slot set and lasts its moldable's walltime and the security time, and no moldable
before that one has a window. -/
structure KeepsBounds (cl : Cluster) (st : Pass) (j : Job) (a : Assignment) : Prop where
  earliest : ∀ e, j.earliestStart = some e → e ≤ a.begin
  unblocked : ∀ d ∈ j.dependencies, d.blocks st.jobs = false
  after : ∀ d ∈ j.dependencies, d.state = .waiting → ∃ D b, st.jobs.find? (·.id = d.job) = some D ∧
    D.assignment = some b ∧ b.end + 1 ≤ a.begin
  window : ∃ S ss m fromDeps, j.slotSetName.result = .ok S ∧ st.sets.lookup S = some ss ∧
    j.moldables[a.moldable]? = some m ∧ ss.begin ≤ a.begin ∧ a.end ≤ ss.end ∧
    a.end - a.begin + 1 = m.walltime + cl.config.securityTime ∧
    dependencyStart j st.jobs = .ok (some fromDeps) ∧
    ∀ k < a.moldable, ∀ m', j.moldables[k]? = some m' →
      (findForMoldable cl ss j m' (startBound fromDeps j.earliestStart)).result = .ok (ss, none)

theorem PlacesAt.keepsBounds {p : Pass} {x : Int} {J : Job} (hK : PlacesAt cl p x J)
    (hsane : ∀ S ss, p.sets.lookup S = some ss → ss.Sane) :
    ∃ j a, p.jobs.find? (·.id = x) = some j ∧ J = { j with assignment := some a } ∧
      KeepsBounds cl p j a := by
  obtain ⟨j, fromDeps, name, ss, ss', hj, hdeps, -, hname, hss, hsched⟩ := hK
  obtain ⟨ss₁, k, w, hfirst, rfl⟩ := scheduleJob_window hsched
  -- a set that covers no time has no window
  have hw : ss.WellFormed := by
    rcases hsane name ss hss with hw | hv
    · exact hw
    · cases (firstFit_void hv j.moldables 0 hfirst).2
  obtain ⟨-, ⟨m, ss₂, hm, hfound⟩, hbefore⟩ := firstFit_found j.moldables ss 0 hfirst
  have hfits := findForMoldable_fits hw hfound
  obtain ⟨hpass, hwait⟩ := dependencyStart_eq_some hdeps
  have hstart : ∀ b, NoEarlier b (startBound fromDeps j.earliestStart) → b ≤ w.begin :=
    fun b hb => Int.le_trans (hb.le_getD ss.begin) hfits.start
  obtain ⟨s, hs, -, hsb⟩ := hfits.beginSlot
  refine ⟨j, _, hj, rfl, fun e he => hstart e ?_, hpass, fun d hd hdw => ?_,
    name, ss, m, fromDeps, hname, hss, by simpa using hm, Int.le_trans (hw.within hs).1 hsb,
    hfits.end_le, by have hlen := hfits.length; dsimp only; omega, hdeps,
    fun n hn m' hm' => hbefore n (by simpa using hn) m' hm'⟩
  · rw [he]
    exact startBound_of_earliest fromDeps e
  · obtain ⟨D, b, hD, hb, hle⟩ := hwait d hd hdw
    exact ⟨D, b, hD, hb, hstart _ (startBound_of_deps hle _)⟩

/-! ## The turn of a job -/

/-- The turn of `x` in the pass over `waiting` from `sets` that ends in `out`: `done` are the
ids before it and `rest` those after it; the turns of `done` lead to `st`, that of `x` to
`st'`. -/
structure TurnOf (cl : Cluster) (sets : SlotSets) (waiting : List Job) (out : Pass) (x : Int)
    (done rest : List Int) (st st' : Pass) : Prop where
  split : waiting.map (·.id) = done ++ x :: rest
  before : (done.foldlM (step cl) ⟨sets, waiting, #[]⟩).result = .ok st
  turn : (step cl st x).result = .ok st'
  after : (rest.foldlM (step cl) st').result = .ok out

section Turn

variable {sets : SlotSets} {waiting : List Job} {out : Pass} {x : Int} {done rest : List Int}
  {st st' : Pass}

theorem turnOf_of_mem
    (h : ((waiting.map (·.id)).foldlM (step cl) ⟨sets, waiting, #[]⟩).result = .ok out)
    (hx : x ∈ waiting.map (·.id)) : ∃ done rest st st', TurnOf cl sets waiting out x done rest st st' := by
  obtain ⟨done, rest, hsplit⟩ := List.append_of_mem hx
  rw [hsplit] at h
  obtain ⟨st, hst, h⟩ := Logged.foldlM_append_ok h
  rw [List.foldlM_cons] at h
  obtain ⟨st', hst', hrest⟩ := Logged.result_bind_ok h
  exact ⟨done, rest, st, st', hsplit, hst, hst', hrest⟩

variable (ht : TurnOf cl sets waiting out x done rest st st')
include ht

theorem TurnOf.not_mem_done (hnd : (waiting.map (·.id)).Nodup) : x ∉ done := fun hx =>
  (List.nodup_append.1 (ht.split ▸ hnd)).2.2 x hx x (List.mem_cons_self ..) rfl

theorem TurnOf.not_mem_rest (hnd : (waiting.map (·.id)).Nodup) : x ∉ rest := by
  have hnd' := (List.nodup_append.1 (ht.split ▸ hnd)).2.1
  exact (List.nodup_cons.1 hnd').1

theorem TurnOf.ahead {y : Int} (hy : y ∉ done) :
    st.jobs.find? (·.id = y) = waiting.find? (·.id = y) :=
  (foldlM_step_frame done ht.before).2.1 y hy

theorem TurnOf.kept (hnd : (waiting.map (·.id)).Nodup) {y : Int} (hy : y ∈ done) :
    out.jobs.find? (·.id = y) = st.jobs.find? (·.id = y) := by
  have hrest : y ∉ x :: rest := fun h =>
    (List.nodup_append.1 (ht.split ▸ hnd)).2.2 y hy y h rfl
  rw [(foldlM_step_frame rest ht.after).2.1 y fun h => hrest (List.mem_cons_of_mem x h),
    (step_frame ht.turn).2.1 y fun h => hrest (h ▸ List.mem_cons_self ..)]

theorem TurnOf.sane (hsets : ∀ S ss, sets.lookup S = some ss → ss.WellFormed)
    (hnd : (waiting.map (·.id)).Nodup) (hnone : ∀ j ∈ waiting, j.assignment = none) :
    ∀ S ss, st.sets.lookup S = some ss → ss.Sane := by
  have h₀ : Traced cl sets (waiting.map (·.id)) sets waiting [] (waiting.map (·.id)) :=
    Traced.init hsets hnd hnone
  rw [ht.split] at h₀
  exact (Traced.runPrefix (p := ⟨sets, waiting, #[]⟩) done h₀ ht.before).sane

theorem TurnOf.placesAt (hnd : (waiting.map (·.id)).Nodup)
    (hnone : ∀ j ∈ waiting, j.assignment = none) {J : Job}
    (hJ : out.jobs.find? (·.id = x) = some J) (ha : J.assignment.isSome) : PlacesAt cl st x J := by
  have hat : st'.jobs.find? (·.id = x) = some J := by
    rw [← (foldlM_step_frame rest ht.after).2.1 x (ht.not_mem_rest hnd)]
    exact hJ
  rcases step_places ht.turn with ⟨K, hK, hjobs, -⟩ | ⟨-, hsame, -, -⟩
  · rw [hjobs, hK.find?_replaceJob] at hat
    cases hat
    exact hK
  · -- placing nothing, the turn leaves the job as it came, without an assignment
    rw [hsame x, ht.ahead (ht.not_mem_done hnd)] at hat
    rw [hnone J (List.mem_of_find?_eq_some hat)] at ha
    cases ha

theorem TurnOf.diagnostics (hnd : (waiting.map (·.id)).Nodup) {j : Job} (hj : j ∈ waiting)
    (hjx : j.id = x) :
    out.diagnostics.toList.filter (·.job = x) = [⟨x, .unsatisfiedDependencies⟩] ↔
      ∃ d ∈ j.dependencies, d.blocks st.jobs = true := by
  have hfind : st.jobs.find? (·.id = x) = some j := by
    rw [ht.ahead (ht.not_mem_done hnd), ← hjx]
    exact (mem_iff_find? hnd).1 hj
  obtain ⟨r, new, hr, hnew, hnewx, hiff⟩ := step_diagnostic hfind ht.turn
  obtain ⟨-, -, before, hbefore, hsubb⟩ := foldlM_step_frame done ht.before
  obtain ⟨-, -, extra, hextra, hsube⟩ := foldlM_step_frame rest ht.after
  have hb : before.filter (·.job = x) = [] := List.filter_eq_nil_iff.2 fun d hd hdx =>
    ht.not_mem_done hnd (of_decide_eq_true hdx ▸ hsubb.subset (List.mem_map_of_mem hd))
  have he : extra.filter (·.job = x) = [] := List.filter_eq_nil_iff.2 fun d hd hdx =>
    ht.not_mem_rest hnd (of_decide_eq_true hdx ▸ hsube.subset (List.mem_map_of_mem hd))
  have hn : new.filter (·.job = x) = new := List.filter_eq_self.2 fun d hd => by simp [hnewx d hd]
  have hall : out.diagnostics.toList.filter (·.job = x) = new := by
    rw [hextra, hnew, hbefore]
    simp only [List.filter_append, hb, he, hn, List.nil_append, List.append_nil]
  rw [hall, hiff, dependencyStart_eq_none_iff hr]

theorem TurnOf.placed (hsets : ∀ S ss, sets.lookup S = some ss → ss.WellFormed)
    (hnd : (waiting.map (·.id)).Nodup) (hnone : ∀ j ∈ waiting, j.assignment = none) {J : Job}
    (hJ : out.jobs.find? (·.id = x) = some J) {a : Assignment} (ha : J.assignment = some a) :
    ∃ j ∈ waiting, j.id = x ∧ J = { j with assignment := some a } ∧ KeepsBounds cl st j a ∧
      ∀ d ∈ j.dependencies, d.state = .waiting →
        d.job ∈ done ∧ out.jobs.find? (·.id = d.job) = st.jobs.find? (·.id = d.job) := by
  have hplaces := ht.placesAt hnd hnone hJ (by simp [ha])
  obtain ⟨j, a', hj, rfl, hkeeps⟩ := hplaces.keepsBounds (ht.sane hsets hnd hnone)
  obtain rfl : a' = a := Option.some.inj ha
  have hjw : waiting.find? (·.id = x) = some j := by
    rw [← ht.ahead (ht.not_mem_done hnd)]
    exact hj
  refine ⟨j, List.mem_of_find?_eq_some hjw, by simpa using List.find?_some hj, rfl, hkeeps,
    fun d hd hdw => ?_⟩
  obtain ⟨D, b, hD, hb, -⟩ := hkeeps.after d hd hdw
  -- the dependency's job was placed at this turn, so its own turn came before
  have hdone : d.job ∈ done := by
    by_contra hnot
    rw [ht.ahead hnot] at hD
    rw [hnone D (List.mem_of_find?_eq_some hD)] at hb
    cases hb
  exact ⟨hdone, ht.kept hnd hdone⟩

end Turn

/-- Dependencies and start bounds are honoured by a placement pass over waiting jobs of
distinct ids without assignments, from well-formed slot sets. A job that ends the pass with an
assignment is a waiting job placed at its turn (after the ids `done`), keeping its bounds
(`KeepsBounds`): it starts after its earliest start and after the end of the job of each
waiting dependency, a job whose turn came before and which ends the pass as it was then; none
of its dependencies blocks; its window lies in its slot set, lasts its moldable's walltime and
the security time, and no earlier moldable has a window. A waiting job has the
unsatisfied-dependency diagnostic, and no other, exactly when one of its dependencies blocks at
its turn. The diagnostics come in the order of the jobs, at most one for each. -/
theorem scheduleJobs_respects_dependencies {sets sets' : SlotSets} {waiting jobs : List Job}
    {diags : List Diagnostic} (hsets : ∀ S ss, sets.lookup S = some ss → ss.WellFormed)
    (hids : (waiting.map (·.id)).Nodup) (hnone : ∀ j ∈ waiting, j.assignment = none)
    (h : (scheduleJobs cl sets waiting).result = .ok (sets', jobs, diags)) :
    (∀ J ∈ jobs, ∀ a, J.assignment = some a → ∃ j ∈ waiting, J = { j with assignment := some a } ∧
      ∃ done rest st, waiting.map (·.id) = done ++ j.id :: rest ∧
        (done.foldlM (step cl) ⟨sets, waiting, #[]⟩).result = .ok st ∧ KeepsBounds cl st j a ∧
        ∀ d ∈ j.dependencies, d.state = .waiting →
          d.job ∈ done ∧ jobs.find? (·.id = d.job) = st.jobs.find? (·.id = d.job)) ∧
    (∀ j ∈ waiting, ∃ done rest st, waiting.map (·.id) = done ++ j.id :: rest ∧
      (done.foldlM (step cl) ⟨sets, waiting, #[]⟩).result = .ok st ∧
      (diags.filter (·.job = j.id) = [⟨j.id, .unsatisfiedDependencies⟩] ↔
        ∃ d ∈ j.dependencies, d.blocks st.jobs = true)) ∧
    (diags.map (·.job)).Sublist (waiting.map (·.id)) := by
  unfold scheduleJobs at h
  obtain ⟨out, hout, h⟩ := Logged.result_bind_ok h
  simp only [Logged.result_pure, Except.ok.injEq, Prod.mk.injEq] at h
  obtain ⟨-, rfl, rfl⟩ := h
  obtain ⟨hsame, -, extra, hextra, hsub⟩ := foldlM_step_frame _ hout
  refine ⟨fun J hJ a ha => ?_, fun j hj => ?_, ?_⟩
  · -- the turn of the job's id placed it
    have hnd' : (out.jobs.map (·.id)).Nodup := hsame ▸ hids
    have hJid : J.id ∈ waiting.map (·.id) := hsame ▸ List.mem_map_of_mem hJ
    obtain ⟨done, rest, st, st', ht⟩ := turnOf_of_mem hout hJid
    obtain ⟨j, hj, hjid, hJj, hkeeps, hdeps⟩ :=
      ht.placed hsets hids hnone ((mem_iff_find? hnd').1 hJ) ha
    exact ⟨j, hj, hJj, done, rest, st, hjid ▸ ht.split, ht.before, hkeeps, hdeps⟩
  · obtain ⟨done, rest, st, st', ht⟩ := turnOf_of_mem hout (List.mem_map_of_mem hj)
    exact ⟨done, rest, st, ht.split, ht.before, ht.diagnostics hids hj rfl⟩
  · rw [hextra]
    exact hsub

/-- Three jobs on one resource: the second waits for the first and may not start before 3, the
third waits for a job that is not there. The first runs over `[0, 9]`, the second after it over
`[10, 19]`, and the third is skipped for its dependency. -/
theorem scheduleJobs_respects_dependencies_chain :
    let cl : Cluster := ⟨{ securityTime := 0 },
      { defaultResources := IdSet.range 1 1, hierarchy := ⟨[("resource_id", ⟨none, true⟩)]⟩ }⟩
    let m : Moldable := ⟨1, 10, [⟨IdSet.range 1 1, [⟨"resource_id", 1⟩]⟩]⟩
    let waiting : List Job :=
      [{ id := 1, moldables := [m] },
        { id := 2, moldables := [m], dependencies := [⟨1, .waiting⟩], earliestStart := some 3 },
        { id := 3, moldables := [m], dependencies := [⟨99, .waiting⟩] }]
    let sets : SlotSets := [("default", SlotSet.new (IdSet.range 1 1) 0)]
    ∃ sets' jobs diags, (scheduleJobs cl sets waiting).result = .ok (sets', jobs, diags) ∧
      jobs.map (fun j => (j.id, j.assignment)) =
        [(1, some ⟨0, 9, IdSet.range 1 1, 0⟩), (2, some ⟨10, 19, IdSet.range 1 1, 0⟩), (3, none)] ∧
      diags = [⟨3, .unsatisfiedDependencies⟩] ∧
      (∀ J ∈ jobs, ∀ a, J.assignment = some a → ∃ j ∈ waiting, J = { j with assignment := some a } ∧
        ∃ done rest st, waiting.map (·.id) = done ++ j.id :: rest ∧
          (done.foldlM (step cl) ⟨sets, waiting, #[]⟩).result = .ok st ∧ KeepsBounds cl st j a ∧
          ∀ d ∈ j.dependencies, d.state = .waiting →
            d.job ∈ done ∧ jobs.find? (·.id = d.job) = st.jobs.find? (·.id = d.job)) ∧
      (∀ j ∈ waiting, ∃ done rest st, waiting.map (·.id) = done ++ j.id :: rest ∧
        (done.foldlM (step cl) ⟨sets, waiting, #[]⟩).result = .ok st ∧
        (diags.filter (·.job = j.id) = [⟨j.id, .unsatisfiedDependencies⟩] ↔
          ∃ d ∈ j.dependencies, d.blocks st.jobs = true)) ∧
      (diags.map (·.job)).Sublist (waiting.map (·.id)) := by
  intro cl m waiting sets
  obtain ⟨⟨sets', jobs, diags⟩, hrun, hout⟩ := except_map_eq_ok
    (show ((scheduleJobs cl sets waiting).result.map
      fun p => (p.2.1.map fun j => (j.id, j.assignment), p.2.2)) =
        .ok ([(1, some ⟨0, 9, IdSet.range 1 1, 0⟩), (2, some ⟨10, 19, IdSet.range 1 1, 0⟩),
          (3, none)], [⟨3, .unsatisfiedDependencies⟩]) by
      decide +kernel)
  simp only [Prod.mk.injEq] at hout
  have hnone : ∀ j ∈ waiting, j.assignment = none := by
    intro j hj
    simp only [waiting, List.mem_cons, List.not_mem_nil, or_false] at hj
    rcases hj with rfl | rfl | rfl <;> rfl
  exact ⟨sets', jobs, diags, hrun, hout.1, hout.2,
    scheduleJobs_respects_dependencies (lookup_default_new_wellFormed _) (by decide) hnone hrun⟩

end Placement

end ClusterScheduler
