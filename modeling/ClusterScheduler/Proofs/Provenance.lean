import ClusterScheduler.Proofs.NoDoubleBooking
import ClusterScheduler.Proofs.ReversedSets

/-!
# Where the resources of a placement pass come from

A placement pass takes from a slot set only what the set offers a job: free resources,
resources in a time-sharing entry that admits the job, and resources reserved under the
placeholder name the job is allowed on. A resource reaches a free set or an entry only from the
start of the pass, from a container adding its resources to its inner set, or from a placed job
that shares or reserves what it holds. The invariant `Traced` follows every resource of every
set back to one of these sources, and every job to the jobs handled before it.

Two consequences close the module. A job placed in a slot set holds only what the set held at
the start, or what a container handled before it added over the time that container runs, its
security time excluded; with a negative security time that time reaches past the container's
end. And two jobs of one set meet at a resource and time only by consent: the later job
time-shares and the resource sat there in an entry admitting it, left by the start or by an
earlier job of the set; or it is allowed on a placeholder name and the resource was reserved
under that name, by the start or by an earlier job; or an earlier container added the resource
there. The job that consented need not be the earlier job of the pair.
-/

namespace ClusterScheduler

open IdSet SlotSet

namespace Placement

def Precedes (order : List Int) (a b : Int) : Prop := [a, b].Sublist order

def AtStart (sets₀ : SlotSets) (S : String) (t : Int)
    (P : IdSet × SharedSets × NamedSets → Prop) : Prop :=
  ∃ ss₀ c₀, sets₀.lookup S = some ss₀ ∧ ss₀.contentsAt t = some c₀ ∧ P c₀

def HeldBy (jobs : List Job) (P : Job → Prop) (t : Int) (x : Nat) : Prop :=
  ∃ M ∈ jobs, P M ∧ Holds M t x

/-- A time-sharing entry of user `u` and name `n` admits job `j`: each is the wildcard or the
job's own, user and name defaulting to the empty text. -/
def Admits (u n : String) (j : Job) : Prop :=
  (u = "*" ∨ u = j.user.getD "") ∧ (n = "*" ∨ n = j.name.getD "")

/-- Resource `y` is open to job `j` in slot contents `c`: free, in a time-sharing entry that
admits the job, or reserved under the placeholder name the job is allowed on. -/
def OpenTo (j : Job) (c : IdSet × SharedSets × NamedSets) (y : Nat) : Prop :=
  y ∈ c.1 ∨ (j.timeSharing.isSome ∧ ∃ u n, Admits u n j ∧ c.2.1.MemAt u n y) ∨
    ∃ n, j.placeholder = .allows n ∧ c.2.2.MemAt n y

/-- A container of `jobs` handled before id `i` adds resource `x` to slot set `S` at time `t`:
it names `S` as its inner set and holds `x` at `t`, its security time excluded. -/
def AddedBefore (cl : Cluster) (order : List Int) (jobs : List Job) (S : String) (t : Int)
    (x : Nat) (i : Int) : Prop :=
  ∃ C ∈ jobs, Precedes order C.id i ∧ C.isContainer = true ∧ C.containerSlotSetName = some S ∧
    ∃ a, C.assignment = some a ∧ a.begin ≤ t ∧ t ≤ a.end - cl.config.securityTime ∧
      x ∈ a.resources

/-- Why job `L` of slot set `S` may hold resource `x` at time `t` while an earlier job holds it:
`L` time-shares and `x` sat at `t` in an entry admitting `L`, at the start or under the sharing
key of an earlier job of `S` holding it; or `L` is allowed on a placeholder name and `x` was
reserved under that name at `t`, at the start or by an earlier job of `S` holding it; or an
earlier container added `x` to `S` at `t`. -/
def Consented (cl : Cluster) (sets₀ : SlotSets) (order : List Int) (jobs : List Job)
    (S : String) (t : Int) (x : Nat) (L : Job) : Prop :=
  (L.timeSharing.isSome ∧ ∃ u n, Admits u n L ∧
    (AtStart sets₀ S t (fun c => c.2.1.MemAt u n x) ∨
      HeldBy jobs (fun M => Precedes order M.id L.id ∧ M.slotSetName.result = .ok S ∧
        sharingKey M = some (u, n)) t x)) ∨
  (∃ n, L.placeholder = .allows n ∧
    (AtStart sets₀ S t (fun c => c.2.2.MemAt n x) ∨
      HeldBy jobs (fun M => Precedes order M.id L.id ∧ M.slotSetName.result = .ok S ∧
        M.placeholder = .holds n) t x)) ∨
  AddedBefore cl order jobs S t x L.id

/-! ## Offers, orders and more jobs -/

theorem Holds.isSome {j : Job} {t : Int} {x : Nat} (h : Holds j t x) : j.assignment.isSome := by
  obtain ⟨a, ha, -⟩ := h
  simp [ha]

theorem openTo_offered {j : Job} {s : Slot} {y : Nat} (h : y ∈ offered j s) :
    OpenTo j s.contents y := by
  rcases Slot.memAt_availableFor h with h | ⟨user, name, hsh, u, hu, n, hn, h⟩ | ⟨n, hp, h⟩
  · exact .inl h
  · -- the identity offered is the job's own
    obtain ⟨ts, hts, he⟩ := Option.map_eq_some_iff.1 hsh
    simp only [Prod.mk.injEq] at he
    obtain ⟨rfl, rfl⟩ := he
    have hu' : u = j.user.getD "" ∨ u = "*" := by simpa using hu
    have hn' : n = j.name.getD "" ∨ n = "*" := by simpa using hn
    exact .inr (.inl ⟨by simp [hts], u, n, ⟨hu'.symm, hn'.symm⟩, h⟩)
  · exact .inr (.inr ⟨n, hp, h⟩)

theorem OpenTo.entries {j : Job} {c : IdSet × SharedSets × NamedSets} {y : Nat}
    (h : OpenTo j c y) : y ∈ c.1 ∨ Entries c y := by
  rcases h with h | ⟨-, u, n, -, h⟩ | ⟨n, -, h⟩
  · exact .inl h
  · exact .inr (.inl h.mem)
  · exact .inr (.inr h.mem)

theorem openTo_at {ss : SlotSet} {j : Job} {a : Assignment}
    (hoff : ∀ s ∈ ss.slots, s.begin ≤ a.end → a.begin ≤ s.end → a.resources ⊆ offered j s)
    {t : Int} (ht : a.begin ≤ t ∧ t ≤ a.end) {c : IdSet × SharedSets × NamedSets}
    (hc : ss.contentsAt t = some c) {y : Nat} (hy : y ∈ a.resources) : OpenTo j c y := by
  obtain ⟨s, hs, hsb, hse, rfl⟩ := contentsAt_eq_some hc
  exact openTo_offered (hoff s hs (by omega) (by omega) hy)

theorem precedes_of_mem {done rest : List Int} {a x : Int} (ha : a ∈ done) :
    Precedes (done ++ x :: rest) a x :=
  (List.singleton_sublist.2 ha).append (List.singleton_sublist.2 List.mem_cons_self)

theorem not_precedes_of_mem {done rest : List Int} {x b : Int} (hnd : (done ++ x :: rest).Nodup)
    (hb : b ∈ done) : ¬Precedes (done ++ x :: rest) x b := by
  intro h
  have hdisj : ∀ y ∈ done, y ∉ x :: rest := fun y hy hy' =>
    List.disjoint_of_nodup_append hnd hy hy'
  obtain ⟨l₁, l₂, heq, h₁, h₂⟩ := List.sublist_append_iff.1 h
  rcases l₁ with _ | ⟨y, l₁⟩
  · -- the whole pair lies from `x` on, so `b` does too
    rw [List.nil_append] at heq
    subst heq
    exact hdisj b hb (h₂.subset (by simp))
  · -- or `x` lies among the ids handled already
    simp only [List.cons_append, List.cons.injEq] at heq
    obtain ⟨rfl, -⟩ := heq
    exact hdisj x (h₁.subset (by simp)) (by simp)

theorem not_precedes_self {order : List Int} (hnd : order.Nodup) (a : Int) :
    ¬Precedes order a a :=
  List.nodup_iff_sublist.1 hnd a

section Mono

variable {cl : Cluster} {sets₀ : SlotSets} {order : List Int} {jobs jobs' : List Job} {S : String}
  {t : Int} {x : Nat}

theorem HeldBy.mono {P : Job → Prop} (hA : ∀ C ∈ jobs, C.assignment.isSome → C ∈ jobs')
    (h : HeldBy jobs P t x) : HeldBy jobs' P t x := by
  obtain ⟨M, hM, hP, hh⟩ := h
  exact ⟨M, hA M hM hh.isSome, hP, hh⟩

theorem AddedBefore.mono {i : Int} (hA : ∀ C ∈ jobs, C.assignment.isSome → C ∈ jobs')
    (h : AddedBefore cl order jobs S t x i) : AddedBefore cl order jobs' S t x i := by
  obtain ⟨C, hC, hp, hc, hname, a, ha, hrest⟩ := h
  exact ⟨C, hA C hC (by simp [ha]), hp, hc, hname, a, ha, hrest⟩

theorem Consented.mono {L : Job} (hA : ∀ C ∈ jobs, C.assignment.isSome → C ∈ jobs')
    (h : Consented cl sets₀ order jobs S t x L) : Consented cl sets₀ order jobs' S t x L := by
  rcases h with ⟨hts, u, n, hadm, h⟩ | ⟨n, hp, h⟩ | h
  · exact .inl ⟨hts, u, n, hadm, h.imp_right (HeldBy.mono hA)⟩
  · exact .inr (.inl ⟨n, hp, h.imp_right (HeldBy.mono hA)⟩)
  · exact .inr (.inr (h.mono hA))

end Mono

/-! ## What a pass keeps at one time of one slot set -/

section Keep

variable {cl : Cluster} {sets₀ : SlotSets} {jobs jobs' : List Job} {S : String} {t : Int}
  {c : IdSet × SharedSets × NamedSets}

/-- Where the contents `c` of slot set `S` at time `t` come from: a free resource or one in an
entry was there at the start or added by a container; a free resource that a placed job of `S`
holds was added by a container; and a resource of an entry was there at the start, or is held
by a placed job of `S` under that entry's sharing key or placeholder name. -/
structure ContentsTraced (cl : Cluster) (sets₀ : SlotSets) (jobs : List Job) (S : String)
    (t : Int) (c : IdSet × SharedSets × NamedSets) : Prop where
  held : ∀ x, x ∈ c.1 ∨ Entries c x →
    AtStart sets₀ S t (fun c₀ => x ∈ c₀.1 ∨ Entries c₀ x) ∨ Added cl jobs S t x
  heldFree : ∀ K ∈ jobs, K.slotSetName.result = .ok S → ∀ x ∈ c.1, Holds K t x →
    Added cl jobs S t x
  shared : ∀ u n x, c.2.1.MemAt u n x → AtStart sets₀ S t (fun c₀ => c₀.2.1.MemAt u n x) ∨
    HeldBy jobs (fun M => M.slotSetName.result = .ok S ∧ sharingKey M = some (u, n)) t x
  reserved : ∀ n x, c.2.2.MemAt n x → AtStart sets₀ S t (fun c₀ => c₀.2.2.MemAt n x) ∨
    HeldBy jobs (fun M => M.slotSetName.result = .ok S ∧ M.placeholder = .holds n) t x

theorem ContentsTraced.advance {j₁ : Job} (hc : ContentsTraced cl sets₀ jobs S t c)
    (hA : ∀ C ∈ jobs, C.assignment.isSome → C ∈ jobs') (hK : ∀ K ∈ jobs', K = j₁ ∨ K ∈ jobs)
    (hj₁ : j₁.slotSetName.result = .ok S → ∀ x, ¬Holds j₁ t x) :
    ContentsTraced cl sets₀ jobs' S t c where
  held x hx := (hc.held x hx).imp_right (Added.mono hA)
  heldFree K hK' hS x hx hh := by
    rcases hK K hK' with rfl | hK'
    · exact absurd hh (hj₁ hS x)
    · exact Added.mono hA (hc.heldFree K hK' hS x hx hh)
  shared u n x h := (hc.shared u n x h).imp_right (HeldBy.mono hA)
  reserved n x h := (hc.reserved n x h).imp_right (HeldBy.mono hA)

theorem ContentsTraced.place {j₁ : Job} {r : IdSet} (hc : ContentsTraced cl sets₀ jobs S t c)
    (hA : ∀ C ∈ jobs, C.assignment.isSome → C ∈ jobs') (hK : ∀ K ∈ jobs', K = j₁ ∨ K ∈ jobs)
    (hj₁ : j₁ ∈ jobs') (hS : j₁.slotSetName.result = .ok S) (hheld : ∀ x, Holds j₁ t x → x ∈ r)
    (hholds : ∀ x ∈ r, Holds j₁ t x) (hopen : ∀ x ∈ r, x ∈ c.1 ∨ Entries c x) :
    ContentsTraced cl sets₀ jobs' S t (placement j₁ r true c) where
  held x hx := by
    rcases hx with hx | he
    · exact (hc.held x (.inl (mem_diff.1 hx).1)).imp_right (Added.mono hA)
    · rcases entries_placement he with he | hr
      · exact (hc.held x (.inr he)).imp_right (Added.mono hA)
      · exact (hc.held x (hopen x hr)).imp_right (Added.mono hA)
  heldFree K hK' hS' x hx hh := by
    obtain ⟨hx, hxr⟩ := mem_diff.1 hx
    rcases hK K hK' with rfl | hK'
    · exact absurd (hheld x hh) hxr
    · exact Added.mono hA (hc.heldFree K hK' hS' x hx hh)
  shared u n x h := by
    rcases shared_placement h with h | ⟨hk, hr⟩
    · exact (hc.shared u n x h).imp_right (HeldBy.mono hA)
    · exact .inr ⟨j₁, hj₁, ⟨hS, hk⟩, hholds x hr⟩
  reserved n x h := by
    rcases reserved_placement h with h | ⟨hp, hr⟩
    · exact (hc.reserved n x h).imp_right (HeldBy.mono hA)
    · exact .inr ⟨j₁, hj₁, ⟨hS, hp⟩, hholds x hr⟩

theorem ContentsTraced.add {r : IdSet} (hc : ContentsTraced cl sets₀ jobs S t c)
    (hadd : ∀ x ∈ r, Added cl jobs S t x) : ContentsTraced cl sets₀ jobs S t (c.1 ∪ r, c.2) where
  held x hx := by
    rcases hx with hx | he
    · rcases mem_union.1 hx with hx | hx
      · exact hc.held x (.inl hx)
      · exact .inr (hadd x hx)
    · exact hc.held x (.inr he)
  heldFree K hK hS x hx hh := by
    rcases mem_union.1 hx with hx | hx
    · exact hc.heldFree K hK hS x hx hh
    · exact hadd x hx
  shared := hc.shared
  reserved := hc.reserved

theorem ContentsTraced.fresh : ContentsTraced cl sets₀ jobs S t (∅, [], []) where
  held _ hx := by
    rcases hx with hx | ⟨_, _, hu, -⟩ | ⟨_, _, hn, -⟩
    · exact absurd hx not_mem_empty
    · exact absurd hu List.not_mem_nil
    · exact absurd hn List.not_mem_nil
  heldFree _ _ _ _ hx _ := absurd hx not_mem_empty
  shared _ _ _ h := by
    obtain ⟨_, hu, -⟩ := h
    exact absurd hu List.not_mem_nil
  reserved _ _ h := by
    obtain ⟨_, hn, -⟩ := h
    exact absurd hn List.not_mem_nil

end Keep

/-! ## The invariant of a pass -/

/-- The invariant of a placement pass started from the slot sets `sets₀` that handles the ids
of `order`, those of `done` already and those of `pending` still: order ids are distinct and
every job's id is one of them, jobs of pending ids are unplaced and placed jobs start within
time; every set is well formed or covers no time, and its contents are traced at every time; a
placed job holds only what its set held at the start or what a container handled before it
added; and a placed job meets a job of its set placed before it only by consent. -/
structure Traced (cl : Cluster) (sets₀ : SlotSets) (order : List Int) (sets : SlotSets)
    (jobs : List Job) (done pending : List Int) : Prop where
  order_eq : order = done ++ pending
  nodup : order.Nodup
  ids : ∀ K ∈ jobs, K.id ∈ order
  pendingFree : ∀ K ∈ jobs, K.id ∈ pending → K.assignment = none
  timely : ∀ K ∈ jobs, ∀ a, K.assignment = some a → Word.i64.lo ≤ a.begin
  sane : ∀ S ss, sets.lookup S = some ss → ss.Sane
  contents : ∀ S ss, sets.lookup S = some ss → ∀ t c, ss.contentsAt t = some c →
    ContentsTraced cl sets₀ jobs S t c
  inside : ∀ J ∈ jobs, ∀ S, J.slotSetName.result = .ok S → ∀ t x, Holds J t x →
    AtStart sets₀ S t (fun c => x ∈ c.1 ∨ Entries c x) ∨ AddedBefore cl order jobs S t x J.id
  consent : ∀ E ∈ jobs, ∀ L ∈ jobs, Precedes order E.id L.id → ∀ S,
    E.slotSetName.result = .ok S → L.slotSetName.result = .ok S → ∀ t x, Holds E t x →
    Holds L t x → Consented cl sets₀ order jobs S t x L

section Pass

variable {cl : Cluster} {sets₀ sets : SlotSets} {order : List Int} {jobs jobs' : List Job}
  {done pending : List Int}

theorem Traced.done_of_isSome (hs : Traced cl sets₀ order sets jobs done pending) {K : Job}
    (hK : K ∈ jobs) (ha : K.assignment.isSome) : K.id ∈ done := by
  have hid := hs.ids K hK
  rw [hs.order_eq] at hid
  rcases List.mem_append.1 hid with h | h
  · exact h
  · rw [hs.pendingFree K hK h] at ha
    cases ha

theorem Traced.addedBefore {x : Int} {xs : List Int}
    (hs : Traced cl sets₀ order sets jobs done (x :: xs))
    (hA : ∀ C ∈ jobs, C.assignment.isSome → C ∈ jobs') {S : String} {t : Int} {y : Nat}
    (h : Added cl jobs S t y) : AddedBefore cl order jobs' S t y x := by
  obtain ⟨C, hC, hc, hname, a, ha, hrest⟩ := h
  have hdone := hs.done_of_isSome hC (by simp [ha])
  refine ⟨C, hA C hC (by simp [ha]), ?_, hc, hname, a, ha, hrest⟩
  rw [hs.order_eq]
  exact precedes_of_mem hdone

theorem Traced.heldBefore {x : Int} {xs : List Int}
    (hs : Traced cl sets₀ order sets jobs done (x :: xs))
    (hA : ∀ C ∈ jobs, C.assignment.isSome → C ∈ jobs') {P : Job → Prop} {t : Int} {y : Nat}
    (h : HeldBy jobs P t y) : HeldBy jobs' (fun M => Precedes order M.id x ∧ P M) t y := by
  obtain ⟨M, hM, hP, hh⟩ := h
  refine ⟨M, hA M hM hh.isSome, ⟨?_, hP⟩, hh⟩
  rw [hs.order_eq]
  exact precedes_of_mem (hs.done_of_isSome hM hh.isSome)

theorem Traced.pop {x : Int} {xs : List Int} (hs : Traced cl sets₀ order sets jobs done (x :: xs)) :
    Traced cl sets₀ order sets jobs (done ++ [x]) xs :=
  { hs with
    order_eq := by rw [hs.order_eq, List.append_assoc]; rfl
    pendingFree := fun K hK hx => hs.pendingFree K hK (List.mem_cons_of_mem _ hx) }

theorem Traced.put {N : String} {ss' : SlotSet} (hs : Traced cl sets₀ order sets jobs done pending)
    (hsane : ss'.Sane) (hcont : ∀ t c, ss'.contentsAt t = some c → ContentsTraced cl sets₀ jobs N t c) :
    Traced cl sets₀ order (sets.put N ss') jobs done pending :=
  { hs with
    sane := fun S ss h => by
      rcases SlotSets.lookup_put_some h with ⟨-, rfl⟩ | ⟨-, h⟩
      · exact hsane
      · exact hs.sane S ss h
    contents := fun S ss h => by
      rcases SlotSets.lookup_put_some h with ⟨rfl, rfl⟩ | ⟨-, h⟩
      · exact hcont
      · exact hs.contents S ss h }

theorem Traced.base (hs : Traced cl sets₀ order sets jobs done pending) (N : String)
    {a : Assignment} (ha : Word.i64.lo ≤ a.begin) :
    ((sets.lookup N).getD (innerDefault sets a)).Sane ∧
    ∀ t c, ((sets.lookup N).getD (innerDefault sets a)).contentsAt t = some c →
      ContentsTraced cl sets₀ jobs N t c := by
  cases hN : sets.lookup N with
  | some ss => exact ⟨hs.sane N ss hN, hs.contents N ss hN⟩
  | none =>
    refine ⟨innerDefault_sane (hs.sane "default") ha, fun t c h => ?_⟩
    rw [Option.getD_none] at h
    rw [innerDefault_contentsAt h]
    exact ContentsTraced.fresh

theorem Traced.container {j : Job} {sets' : SlotSets}
    (hs : Traced cl sets₀ order sets jobs done pending) (hj : j ∈ jobs)
    (hc : j.isContainer = true) (h : (updateContainer cl sets j).result = .ok sets') :
    Traced cl sets₀ order sets' jobs done pending := by
  rcases updateContainer_cases h with rfl | ⟨N, a, inner, hN, ha, -, hadd, rfl⟩
  · exact hs
  · obtain ⟨hsane, hcont⟩ := hs.base N (hs.timely j hj a ha)
    rcases hsane with hw | hv
    · have hU := updateRange_returned hw hadd
      have hA := hU.appliedOver (f := fun c => (c.1 ∪ a.resources, c.2)) fun _ => rfl
      refine hs.put (.inl hU.wellFormed) fun t c hc' => ?_
      rw [hA.contentsAt_eq t] at hc'
      split at hc'
      · rename_i hrange
        obtain ⟨c₀, hc₀, rfl⟩ := Option.map_eq_some_iff.1 hc'
        exact (hcont t c₀ hc₀).add fun y hy => ⟨j, hj, hc, hN, a, ha, hrange.1, hrange.2, hy⟩
      · exact hcont t c hc'
    · -- a set that covers no time takes nothing
      obtain rfl := hv.updateRange_eq hadd
      exact hs.put (.inr hv) hcont

theorem Traced.keepsPlaced {x : Int} {xs : List Int}
    (hs : Traced cl sets₀ order sets jobs done (x :: xs)) (j₁ : Job) (hx : j₁.id = x) :
    ∀ C ∈ jobs, C.assignment.isSome → C ∈ replaceJob jobs j₁ := by
  intro C hC ha
  refine mem_replaceJob_of_ne hC fun hid => ?_
  rw [hs.pendingFree C hC (hid ▸ hx ▸ List.mem_cons_self)] at ha
  cases ha

theorem Traced.replace {x : Int} {xs : List Int} {j : Job} (o : Option Assignment) {name : String}
    {ss ss₁ : SlotSet} (hs : Traced cl sets₀ order sets jobs done (x :: xs)) (hjx : j.id = x)
    (hname : j.slotSetName.result = .ok name) (hss : sets.lookup name = some ss)
    (hsane : ss₁.Sane) (htimely : ∀ a, o = some a → Word.i64.lo ≤ a.begin)
    (hopen : ∀ t y, Holds { j with assignment := o } t y →
      ∃ c, ss.contentsAt t = some c ∧ OpenTo j c y)
    (hnew : ∀ t c, ss₁.contentsAt t = some c →
      ContentsTraced cl sets₀ (replaceJob jobs { j with assignment := o }) name t c) :
    Traced cl sets₀ order (sets.put name ss₁) (replaceJob jobs { j with assignment := o })
      (done ++ [x]) xs := by
  subst hjx
  have hA := hs.keepsPlaced { j with assignment := o } rfl
  have hnd : (done ++ j.id :: xs).Nodup := hs.order_eq ▸ hs.nodup
  refine
    { order_eq := by rw [hs.order_eq, List.append_assoc]; rfl
      nodup := hs.nodup
      ids := ?ids
      pendingFree := ?pendingFree
      timely := ?timely
      sane := ?sane
      contents := ?contents
      inside := ?inside
      consent := ?consent }
  case ids =>
    intro K hK
    rcases replaceJob_eq_or_mem K hK with rfl | hK'
    · rw [hs.order_eq]
      simp
    · exact hs.ids K hK'
  case pendingFree =>
    intro K hK hKx
    rcases replaceJob_eq_or_mem K hK with rfl | hK'
    · exact absurd hKx (List.nodup_cons.1 (List.nodup_append.1 hnd).2.1).1
    · exact hs.pendingFree K hK' (List.mem_cons_of_mem _ hKx)
  case timely =>
    intro K hK a ha
    rcases replaceJob_eq_or_mem K hK with rfl | hK'
    · exact htimely a ha
    · exact hs.timely K hK' a ha
  case sane =>
    intro S ss' h
    rcases SlotSets.lookup_put_some h with ⟨-, rfl⟩ | ⟨-, h⟩
    · exact hsane
    · exact hs.sane S ss' h
  case contents =>
    intro S ss' h
    rcases SlotSets.lookup_put_some h with ⟨rfl, rfl⟩ | ⟨hS, h⟩
    · exact hnew
    · -- another set: the job, placed in its own set, holds nothing here
      refine fun t c hc => (hs.contents S ss' h t c hc).advance hA
        replaceJob_eq_or_mem fun hS' => ?_
      exact absurd (slotSetName_inj hS' hname) hS
  case inside =>
    intro J hJ S hJS t y hJt
    rcases replaceJob_eq_or_mem J hJ with rfl | hJ'
    · -- what the job took was open to it, so there at the start or added before it
      obtain rfl := slotSetName_inj hJS hname
      obtain ⟨c, hc, hy⟩ := hopen t y hJt
      exact ((hs.contents _ ss hss t c hc).held y hy.entries).imp_right (hs.addedBefore hA)
    · exact (hs.inside J hJ' S hJS t y hJt).imp_right (AddedBefore.mono hA)
  case consent =>
    intro E hE L hL hpre S hES hLS t y hEt hLt
    rcases replaceJob_eq_or_mem E hE with rfl | hE' <;> rcases replaceJob_eq_or_mem L hL with rfl | hL'
    · exact absurd hpre (not_precedes_self hs.nodup _)
    · -- a job placed already does not come after the next one
      rw [hs.order_eq] at hpre
      exact absurd hpre (not_precedes_of_mem hnd (hs.done_of_isSome hL' hLt.isSome))
    · -- the new job took the resource from where the earlier one left it
      obtain rfl := slotSetName_inj hLS hname
      obtain ⟨c, hc, hy⟩ := hopen t y hLt
      have hct := hs.contents _ ss hss t c hc
      rcases hy with hy | ⟨hts, u, n, hadm, hy⟩ | ⟨n, hp, hy⟩
      · exact .inr (.inr (hs.addedBefore hA (hct.heldFree E hE' hES y hy hEt)))
      · exact .inl ⟨hts, u, n, hadm, (hct.shared u n y hy).imp_right (hs.heldBefore hA)⟩
      · exact .inr (.inl ⟨n, hp, (hct.reserved n y hy).imp_right (hs.heldBefore hA)⟩)
    · exact (hs.consent E hE' L hL' hpre S hES hLS t y hEt hLt).mono hA

/-- Placing the job of the next pending id in its slot set keeps a pass traced. -/
theorem Traced.placed {x : Int} {xs : List Int} {j j₁ : Job} {name : String} {ss ss₁ : SlotSet}
    {minBegin : Option Int} {placed : Bool} (hs : Traced cl sets₀ order sets jobs done (x :: xs))
    (hj : jobs.find? (·.id = x) = some j) (hname : j.slotSetName.result = .ok name)
    (hss : sets.lookup name = some ss)
    (hsched : (scheduleJob cl ss j minBegin).result = .ok (ss₁, j₁, placed)) :
    Traced cl sets₀ order (sets.put name ss₁) (replaceJob jobs j₁) (done ++ [x]) xs ∧
      j₁ ∈ replaceJob jobs j₁ := by
  have hjmem := List.mem_of_find?_eq_some hj
  have hjx : j.id = x := by simpa using List.find?_some hj
  have hnone := hs.pendingFree j hjmem (hjx ▸ List.mem_cons_self)
  -- the job left unplaced over the same chain, in a reversed set or for want of a window
  have stay : SameChain ss ss₁ →
      Traced cl sets₀ order (sets.put name ss₁) (replaceJob jobs j) (done ++ [x]) xs := by
    intro hsame
    refine hs.replace j.assignment hjx hname hss ((hs.sane name ss hss).sameChain hsame)
      (fun a ha => by rw [hnone] at ha; cases ha)
      (fun t y hy => absurd hy (not_holds_of_none hnone t y)) fun t c hc => ?_
    rw [hsame.contentsAt_eq] at hc
    exact (hs.contents name ss hss t c hc).advance (hs.keepsPlaced j hjx)
      replaceJob_eq_or_mem fun _ y => not_holds_of_none hnone t y
  rcases hs.sane name ss hss with hw | hv
  · rcases scheduleJob_returned hw hsched with ⟨rfl, hsame⟩ | ⟨a, rfl, -, hb, he, hoff, hU⟩
    · exact ⟨stay hsame, mem_replaceJob_self hjmem rfl⟩
    · -- a window: its resources leave the chain exactly over the assignment
      have hlo := hw.bounds.1
      have hA := hs.keepsPlaced { j with assignment := some a } hjx
      have hAp := hU.appliedOver (placeOn_contents { j with assignment := some a } a.resources true)
      refine ⟨hs.replace (some a) hjx hname hss (.inl hU.wellFormed)
        (fun a' ha' => by cases ha'; omega) (fun t y hy => ?_) fun t c hc => ?_,
        mem_replaceJob_self hjmem rfl⟩
      · obtain ⟨ht₁, ht₂, hy⟩ := holds_assigned.1 hy
        obtain ⟨c, hc⟩ := hw.exists_contentsAt (t := t) (by omega) (by omega)
        exact ⟨c, hc, openTo_at hoff ⟨ht₁, ht₂⟩ hc hy⟩
      · rw [hAp.contentsAt_eq t] at hc
        split at hc
        · rename_i hrange
          obtain ⟨c₀, hc₀, rfl⟩ := Option.map_eq_some_iff.1 hc
          exact (hs.contents name ss hss t c₀ hc₀).place hA
            replaceJob_eq_or_mem (mem_replaceJob_self hjmem rfl)
            hname (fun y hy => (holds_assigned.1 hy).2.2)
            (fun y hy => holds_assigned.2 ⟨hrange.1, hrange.2, hy⟩)
            fun y hy => (openTo_at hoff hrange hc₀ hy).entries
        · rename_i hrange
          exact (hs.contents name ss hss t c hc).advance hA replaceJob_eq_or_mem
            fun _ y hy => hrange ⟨(holds_assigned.1 hy).1, (holds_assigned.1 hy).2.1⟩
  · obtain ⟨rfl, rfl⟩ := scheduleJob_void hv hsched
    exact ⟨stay (SameChain.refl _), mem_replaceJob_self hjmem rfl⟩

theorem Traced.step {p p' : Pass} {x : Int} {xs : List Int}
    (hs : Traced cl sets₀ order p.sets p.jobs done (x :: xs))
    (h : (step cl p x).result = .ok p') : Traced cl sets₀ order p'.sets p'.jobs (done ++ [x]) xs := by
  rcases step_cases h with ⟨hsets, hjobs⟩ |
    ⟨j, name, ss, minBegin, ss₁, j₁, placed, sets₂, hj, hname, hss, hsched, hsets₂, hsets, hjobs⟩
  · rw [hsets, hjobs]
    exact hs.pop
  · obtain ⟨hs₁, hmem⟩ := hs.placed hj hname hss hsched
    rw [hsets, hjobs]
    split at hsets₂
    · exact hs₁.container hmem ‹_› hsets₂
    · simp only [Logged.result_pure, Except.ok.injEq] at hsets₂
      exact hsets₂ ▸ hs₁

theorem Traced.init {waiting : List Job} (hsets : ∀ S ss, sets.lookup S = some ss → ss.WellFormed)
    (hids : (waiting.map (·.id)).Nodup) (hnone : ∀ j ∈ waiting, j.assignment = none) :
    Traced cl sets (waiting.map (·.id)) sets waiting [] (waiting.map (·.id)) where
  order_eq := rfl
  nodup := hids
  ids K hK := List.mem_map.2 ⟨K, hK, rfl⟩
  pendingFree K hK _ := hnone K hK
  timely K hK a ha := by
    rw [hnone K hK] at ha
    cases ha
  sane S ss h := .inl (hsets S ss h)
  contents S ss h t c hc :=
    { held := fun _ hx => .inl ⟨ss, c, h, hc, hx⟩
      heldFree := fun K hK _ x _ hh => absurd hh (not_holds_of_none (hnone K hK) t x)
      shared := fun _ _ _ hx => .inl ⟨ss, c, h, hc, hx⟩
      reserved := fun _ _ hx => .inl ⟨ss, c, h, hc, hx⟩ }
  inside J hJ _ _ t x hh := absurd hh (not_holds_of_none (hnone J hJ) t x)
  consent E hE _ _ _ _ _ _ t x hh _ := absurd hh (not_holds_of_none (hnone E hE) t x)

theorem Traced.run (ids : List Int) {p p' : Pass}
    (hs : Traced cl sets₀ order p.sets p.jobs done ids)
    (h : (ids.foldlM (Placement.step cl) p).result = .ok p') :
    ∃ done', Traced cl sets₀ order p'.sets p'.jobs done' [] :=
  Logged.foldlM_invariant (Placement.step cl)
    (fun ids p => ∃ done, Traced cl sets₀ order p.sets p.jobs done ids)
    (fun _ _ _ _ hI h => let ⟨_, hI⟩ := hI; ⟨_, hI.step h⟩) ids p ⟨done, hs⟩ h

theorem scheduleJobs_traced {waiting : List Job} {sets' : SlotSets} {jobs' : List Job}
    {diags : List Diagnostic} (hsets : ∀ S ss, sets.lookup S = some ss → ss.WellFormed)
    (hids : (waiting.map (·.id)).Nodup) (hnone : ∀ j ∈ waiting, j.assignment = none)
    (hrun : (scheduleJobs cl sets waiting).result = .ok (sets', jobs', diags)) :
    ∃ done, Traced cl sets (waiting.map (·.id)) sets' jobs' done [] := by
  unfold scheduleJobs at hrun
  obtain ⟨p, hp, hrun⟩ := Logged.result_bind_ok hrun
  simp only [Logged.result_pure, Except.ok.injEq, Prod.mk.injEq] at hrun
  obtain ⟨rfl, rfl, -⟩ := hrun
  exact Traced.run _ (Traced.init hsets hids hnone) hp

end Pass

/-! ## Jobs hold what their set had or was given -/

theorem lookup_default_new_wellFormed (r : IdSet) :
    ∀ S ss, ([("default", SlotSet.new r 0)] : SlotSets).lookup S = some ss → ss.WellFormed := by
  intro S ss h
  rw [lookup_cons_string] at h
  split at h
  · cases h
    exact single_wellFormed _ (by decide) (by decide) (by decide)
  · cases h

/-- Jobs hold only what their slot set had or was given. In a pass from well-formed slot sets
over unplaced jobs of distinct ids, a job placed in slot set `S` holds at each time `t` only
resources that `S` held at `t` at the start, free or in an entry, or that a container handled
before it added to `S` at `t`: a container whose inner set is `S`, holding them at `t`, with `t`
no later than its end less the security time. -/
theorem placement_pass_holds_from_start_or_containers {cl : Cluster} {sets : SlotSets}
    {waiting : List Job} {sets' : SlotSets} {jobs' : List Job} {diags : List Diagnostic}
    (hsets : ∀ S ss, sets.lookup S = some ss → ss.WellFormed)
    (hids : (waiting.map (·.id)).Nodup) (hnone : ∀ j ∈ waiting, j.assignment = none)
    (hrun : (scheduleJobs cl sets waiting).result = .ok (sets', jobs', diags)) :
    ∀ J ∈ jobs', ∀ S, J.slotSetName.result = .ok S → ∀ t x, Holds J t x →
      AtStart sets S t (fun c => x ∈ c.1 ∨ Entries c x) ∨
        AddedBefore cl (waiting.map (·.id)) jobs' S t x J.id := by
  obtain ⟨done, hs⟩ := scheduleJobs_traced hsets hids hnone hrun
  exact hs.inside

/-- A container of inner set `c`, then an inner job of `c`: both run over `[0, 9]`, and the inner
job holds the resource the container added. -/
theorem placement_pass_inner_job_in_container :
    let cl : Cluster := ⟨{ securityTime := 0 },
      { defaultResources := IdSet.range 1 1, hierarchy := ⟨[("resource_id", ⟨none, true⟩)]⟩ }⟩
    let m : Moldable := ⟨1, 10, [⟨IdSet.range 1 1, [⟨"resource_id", 1⟩]⟩]⟩
    let container : Job :=
      { (default : Job) with id := 1, types := [("container", some "c")], moldables := [m] }
    let inner : Job :=
      { (default : Job) with id := 2, types := [("inner", some "c")], moldables := [m] }
    let sets : SlotSets := [("default", SlotSet.new (IdSet.range 1 1) 0)]
    ∃ sets' jobs' diags,
      (scheduleJobs cl sets [container, inner]).result = .ok (sets', jobs', diags) ∧
      jobs'.map (fun j => (j.id, j.assignment)) =
        [(1, some ⟨0, 9, IdSet.range 1 1, 0⟩), (2, some ⟨0, 9, IdSet.range 1 1, 0⟩)] ∧
      ∀ J ∈ jobs', ∀ S, J.slotSetName.result = .ok S → ∀ t x, Holds J t x →
        AtStart sets S t (fun c => x ∈ c.1 ∨ Entries c x) ∨
          AddedBefore cl [1, 2] jobs' S t x J.id := by
  intro cl m container inner sets
  obtain ⟨⟨sets', jobs', diags⟩, hrun, hjobs⟩ := except_map_eq_ok
    (show ((scheduleJobs cl sets [container, inner]).result.map
      fun p => p.2.1.map fun j => (j.id, j.assignment)) =
        .ok [(1, some ⟨0, 9, IdSet.range 1 1, 0⟩), (2, some ⟨0, 9, IdSet.range 1 1, 0⟩)] by
      decide +kernel)
  refine ⟨sets', jobs', diags, hrun, hjobs,
    placement_pass_holds_from_start_or_containers (lookup_default_new_wellFormed _) (by decide) ?_ hrun⟩
  intro j hj
  simp only [List.mem_cons, List.not_mem_nil, or_false] at hj
  rcases hj with rfl | rfl <;> rfl

/-- With a negative security time a container adds its resources past its own end. The only
container of inner set `c` runs over `[0, 4]` with security time `-5`, so it adds its resource
to `c`, a set absent at the start, over `[0, 9]`; the second inner job of `c` then runs over
`[5, 9]`, holding the resource at times no container of `c` runs. -/
theorem placement_pass_inner_job_outlasts_container :
    let cl : Cluster := ⟨{ securityTime := -5 },
      { defaultResources := IdSet.range 1 1, hierarchy := ⟨[("resource_id", ⟨none, true⟩)]⟩ }⟩
    let m : Moldable := ⟨1, 10, [⟨IdSet.range 1 1, [⟨"resource_id", 1⟩]⟩]⟩
    let container : Job :=
      { (default : Job) with id := 1, types := [("container", some "c")], moldables := [m] }
    let inner₁ : Job :=
      { (default : Job) with id := 2, types := [("inner", some "c")], moldables := [m] }
    let inner₂ : Job :=
      { (default : Job) with id := 3, types := [("inner", some "c")], moldables := [m] }
    let sets : SlotSets := [("default", SlotSet.new (IdSet.range 1 1) 0)]
    sets.lookup "c" = none ∧ container.containerSlotSetName = some "c" ∧
      inner₁.containerSlotSetName = none ∧ inner₂.containerSlotSetName = none ∧
      inner₂.slotSetName.result = .ok "c" ∧
      ((scheduleJobs cl sets [container, inner₁, inner₂]).result.map
        fun p => p.2.1.map fun j => (j.id, j.assignment)) =
        .ok [(1, some ⟨0, 4, IdSet.range 1 1, 0⟩), (2, some ⟨0, 4, IdSet.range 1 1, 0⟩),
          (3, some ⟨5, 9, IdSet.range 1 1, 0⟩)] := by
  intro cl m container inner₁ inner₂ sets
  exact ⟨rfl, rfl, rfl, rfl, rfl, by decide +kernel⟩

/-! ## Jobs meet only by consent -/

/-- Sharing only by consent. In a pass from well-formed slot sets over unplaced jobs of distinct
ids, when a job `E` handled before a job `L` of the same slot set `S` holds a resource `x` at a
time `t` at which `L` holds it too, `L` had the consent of its set: `L` time-shares and `x` sat at
`t` in an entry admitting `L`, at the start or under the sharing key of a job of `S` handled
before `L` that holds `x` at `t`; or `L` is allowed on a placeholder name and `x` was reserved
under that name at `t`, at the start or by a job of `S` handled before `L` that holds `x` at `t`;
or a container handled before `L` added `x` to `S` at `t`. -/
theorem placement_pass_shares_by_consent {cl : Cluster} {sets : SlotSets}
    {waiting : List Job} {sets' : SlotSets} {jobs' : List Job} {diags : List Diagnostic}
    (hsets : ∀ S ss, sets.lookup S = some ss → ss.WellFormed)
    (hids : (waiting.map (·.id)).Nodup) (hnone : ∀ j ∈ waiting, j.assignment = none)
    (hrun : (scheduleJobs cl sets waiting).result = .ok (sets', jobs', diags)) :
    ∀ E ∈ jobs', ∀ L ∈ jobs', Precedes (waiting.map (·.id)) E.id L.id → ∀ S,
      E.slotSetName.result = .ok S → L.slotSetName.result = .ok S → ∀ t x, Holds E t x →
      Holds L t x → Consented cl sets (waiting.map (·.id)) jobs' S t x L := by
  obtain ⟨done, hs⟩ := scheduleJobs_traced hsets hids hnone hrun
  exact hs.consent

/-- A chain of time-sharing jobs on one resource: Alice's job shares with her own jobs, her
second job with everyone, and Bob's job, admitted by the second one's entry, joins both over
`[0, 9]`. -/
theorem placement_pass_time_sharing_chain_consents :
    let cl : Cluster := ⟨{ securityTime := 0 },
      { defaultResources := IdSet.range 1 1, hierarchy := ⟨[("resource_id", ⟨none, true⟩)]⟩ }⟩
    let m : Moldable := ⟨1, 10, [⟨IdSet.range 1 1, [⟨"resource_id", 1⟩]⟩]⟩
    let first : Job := { (default : Job) with
      id := 1, user := some "alice", timeSharing := some .userAll, moldables := [m] }
    let second : Job := { (default : Job) with
      id := 2, user := some "alice", timeSharing := some .allAll, moldables := [m] }
    let third : Job := { (default : Job) with
      id := 3, user := some "bob", timeSharing := some .allAll, moldables := [m] }
    let sets : SlotSets := [("default", SlotSet.new (IdSet.range 1 1) 0)]
    ∃ sets' jobs' diags,
      (scheduleJobs cl sets [first, second, third]).result = .ok (sets', jobs', diags) ∧
      jobs'.map (fun j => (j.id, j.assignment)) =
        [(1, some ⟨0, 9, IdSet.range 1 1, 0⟩), (2, some ⟨0, 9, IdSet.range 1 1, 0⟩),
          (3, some ⟨0, 9, IdSet.range 1 1, 0⟩)] ∧
      ∀ E ∈ jobs', ∀ L ∈ jobs', Precedes [1, 2, 3] E.id L.id → ∀ S,
        E.slotSetName.result = .ok S → L.slotSetName.result = .ok S → ∀ t x, Holds E t x →
        Holds L t x → Consented cl sets [1, 2, 3] jobs' S t x L := by
  intro cl m first second third sets
  obtain ⟨⟨sets', jobs', diags⟩, hrun, hjobs⟩ := except_map_eq_ok
    (show ((scheduleJobs cl sets [first, second, third]).result.map
      fun p => p.2.1.map fun j => (j.id, j.assignment)) =
        .ok [(1, some ⟨0, 9, IdSet.range 1 1, 0⟩), (2, some ⟨0, 9, IdSet.range 1 1, 0⟩),
          (3, some ⟨0, 9, IdSet.range 1 1, 0⟩)] by
      decide +kernel)
  refine ⟨sets', jobs', diags, hrun, hjobs,
    placement_pass_shares_by_consent (lookup_default_new_wellFormed _) (by decide) ?_ hrun⟩
  intro j hj
  simp only [List.mem_cons, List.not_mem_nil, or_false] at hj
  rcases hj with rfl | rfl | rfl <;> rfl

/-- Consent is not pairwise. In the chain above Bob's job meets Alice's first job over `[0, 9]`,
though the first job is no placeholder and its sharing key, Alice's with any name, does not
admit Bob. -/
theorem placement_pass_time_sharing_chain :
    let cl : Cluster := ⟨{ securityTime := 0 },
      { defaultResources := IdSet.range 1 1, hierarchy := ⟨[("resource_id", ⟨none, true⟩)]⟩ }⟩
    let m : Moldable := ⟨1, 10, [⟨IdSet.range 1 1, [⟨"resource_id", 1⟩]⟩]⟩
    let first : Job := { (default : Job) with
      id := 1, user := some "alice", timeSharing := some .userAll, moldables := [m] }
    let second : Job := { (default : Job) with
      id := 2, user := some "alice", timeSharing := some .allAll, moldables := [m] }
    let third : Job := { (default : Job) with
      id := 3, user := some "bob", timeSharing := some .allAll, moldables := [m] }
    let sets : SlotSets := [("default", SlotSet.new (IdSet.range 1 1) 0)]
    sharingKey first = some ("alice", "*") ∧ ¬Admits "alice" "*" third ∧
      first.placeholder = .none ∧
      ((scheduleJobs cl sets [first, second, third]).result.map
        fun p => p.2.1.map fun j => (j.id, j.assignment)) =
        .ok [(1, some ⟨0, 9, IdSet.range 1 1, 0⟩), (2, some ⟨0, 9, IdSet.range 1 1, 0⟩),
          (3, some ⟨0, 9, IdSet.range 1 1, 0⟩)] := by
  intro cl m first second third sets
  refine ⟨rfl, ?_, rfl, by decide +kernel⟩
  simp [Admits, third]

end Placement

end ClusterScheduler
