import ClusterScheduler.Proofs.PlaceOne
import ClusterScheduler.Proofs.SlotEntries
import ClusterScheduler.Proofs.ReversedSets

/-!
# No double booking in a placement pass

A placement pass places waiting jobs one after the other, each in the slot set its type names.
A job takes resources that every slot of its window offers it: free ones, and for a
time-sharing or `allow` job also resources held in the entries of the jobs it may share with.
A plain job, one that neither shares nor reserves, takes free resources only. The only way a
resource comes back into a slot set during a pass is a container adding its resources to its
inner slot set; so two jobs of one set, one of them plain, can meet only where a container of
the pass added the resource, and a plain job holds only resources free at the start or so added.

The invariant `Safe` carries this through the pass. At every time of every set, each resource
that is free, or in an entry while held by a plain job, or free while held by any placed job, was
added by a container. It needs the entries of the starting sets to hold no free resource: a set
whose entries overlap its free resources lets a plain job and a sharing job meet.
-/

namespace ClusterScheduler

open IdSet SlotSet

namespace Placement

theorem offered_plain {j : Job} (hj : j.Plain) (s : Slot) : offered j s = s.resources := by
  simp [offered, Slot.availableFor, hj.1, hj.2]

def Holds (j : Job) (t : Int) (x : Nat) : Prop :=
  ∃ a, j.assignment = some a ∧ a.begin ≤ t ∧ t ≤ a.end ∧ x ∈ a.resources

/-- A placed container of `jobs` adds resource `x` to slot set `S` at time `t`: it names `S` as
its inner set and holds `x` at `t`, its security time excluded. -/
def Added (cl : Cluster) (jobs : List Job) (S : String) (t : Int) (x : Nat) : Prop :=
  ∃ C ∈ jobs, C.isContainer = true ∧ C.containerSlotSetName = some S ∧
    ∃ a, C.assignment = some a ∧ a.begin ≤ t ∧ t ≤ a.end - cl.config.securityTime ∧
      x ∈ a.resources

def FreeIn (sets : SlotSets) (S : String) (t : Int) (x : Nat) : Prop :=
  ∃ ss, sets.lookup S = some ss ∧ ∃ c, ss.contentsAt t = some c ∧ x ∈ c.1

theorem not_holds_of_none {j : Job} (h : j.assignment = none) (t : Int) (x : Nat) :
    ¬Holds j t x := by
  rintro ⟨a, ha, -⟩
  rw [h] at ha
  cases ha

theorem holds_assigned {j : Job} {a : Assignment} {t : Int} {x : Nat} :
    Holds { j with assignment := some a } t x ↔ a.begin ≤ t ∧ t ≤ a.end ∧ x ∈ a.resources := by
  constructor
  · rintro ⟨a', ha', h⟩
    cases ha'
    exact h
  · intro h
    exact ⟨a, rfl, h⟩

theorem Added.mono {cl : Cluster} {jobs jobs' : List Job} {S : String} {t : Int} {x : Nat}
    (hA : ∀ C ∈ jobs, C.assignment.isSome → C ∈ jobs') (h : Added cl jobs S t x) :
    Added cl jobs' S t x := by
  obtain ⟨C, hC, hc, hname, a, ha, hrest⟩ := h
  exact ⟨C, hA C hC (by simp [ha]), hc, hname, a, ha, hrest⟩

theorem mem_replaceJob {jobs : List Job} {j K : Job} (h : K ∈ replaceJob jobs j) :
    K = j ∨ (K ∈ jobs ∧ K.id ≠ j.id) := by
  obtain ⟨K₀, hK₀, he⟩ := List.mem_map.1 h
  split at he
  · exact .inl he.symm
  · exact .inr ⟨he ▸ hK₀, he ▸ ‹_›⟩

theorem mem_replaceJob_of_ne {jobs : List Job} {j K : Job} (hK : K ∈ jobs) (hne : K.id ≠ j.id) :
    K ∈ replaceJob jobs j :=
  List.mem_map.2 ⟨K, hK, by simp [hne]⟩

theorem mem_replaceJob_self {jobs : List Job} {j j₀ : Job} (hj : j₀ ∈ jobs) (hid : j₀.id = j.id) :
    j ∈ replaceJob jobs j :=
  List.mem_map.2 ⟨j₀, hj, by simp [hid]⟩

theorem replaceJob_eq_or_mem {jobs : List Job} {j : Job} :
    ∀ K ∈ replaceJob jobs j, K = j ∨ K ∈ jobs :=
  fun _ hK => (mem_replaceJob hK).imp_right And.left

/-! ## What a pass keeps at one time of one slot set -/

section Keep

variable {cl : Cluster} {sets₀ : SlotSets} {jobs jobs' : List Job} {S : String} {t : Int}
  {c : IdSet × SharedSets × NamedSets}

/-- What a pass keeps of the contents `c` of slot set `S` at time `t`: a resource that is free,
free and in an entry, free and held by a placed job of `S`, or in an entry and held by a plain
placed job of `S`, was free at the start or added by a container. -/
structure ContentsSafe (cl : Cluster) (sets₀ : SlotSets) (jobs : List Job) (S : String) (t : Int)
    (c : IdSet × SharedSets × NamedSets) : Prop where
  fromStart : ∀ x ∈ c.1, FreeIn sets₀ S t x ∨ Added cl jobs S t x
  freeEntries : ∀ x ∈ c.1, Entries c x → Added cl jobs S t x
  heldFree : ∀ K ∈ jobs, K.slotSetName.result = .ok S → ∀ x ∈ c.1, Holds K t x →
    Added cl jobs S t x
  heldEntries : ∀ J ∈ jobs, J.Plain → J.slotSetName.result = .ok S → ∀ x, Entries c x →
    Holds J t x → Added cl jobs S t x

theorem ContentsSafe.advance {j₁ : Job} (hc : ContentsSafe cl sets₀ jobs S t c)
    (hA : ∀ C ∈ jobs, C.assignment.isSome → C ∈ jobs') (hK : ∀ K ∈ jobs', K = j₁ ∨ K ∈ jobs)
    (hj₁ : j₁.slotSetName.result = .ok S → ∀ x, ¬Holds j₁ t x) :
    ContentsSafe cl sets₀ jobs' S t c where
  fromStart x hx := (hc.fromStart x hx).imp_right (Added.mono hA)
  freeEntries x hx he := Added.mono hA (hc.freeEntries x hx he)
  heldFree K hK' hS x hx hh := by
    rcases hK K hK' with rfl | hK'
    · exact absurd hh (hj₁ hS x)
    · exact Added.mono hA (hc.heldFree K hK' hS x hx hh)
  heldEntries J hJ hp hS x he hh := by
    rcases hK J hJ with rfl | hJ
    · exact absurd hh (hj₁ hS x)
    · exact Added.mono hA (hc.heldEntries J hJ hp hS x he hh)

theorem ContentsSafe.place {j₁ : Job} {r : IdSet} (hc : ContentsSafe cl sets₀ jobs S t c)
    (hA : ∀ C ∈ jobs, C.assignment.isSome → C ∈ jobs') (hK : ∀ K ∈ jobs', K = j₁ ∨ K ∈ jobs)
    (hheld : ∀ x, Holds j₁ t x → x ∈ r)
    (hoffered : ∀ x ∈ r, x ∈ c.1 ∨ Entries c x) (hplain : j₁.Plain → ∀ x ∈ r, x ∈ c.1) :
    ContentsSafe cl sets₀ jobs' S t (placement j₁ r true c) where
  fromStart x hx := (hc.fromStart x (mem_diff.1 hx).1).imp_right (Added.mono hA)
  freeEntries x hx he := by
    obtain ⟨hx, hxr⟩ := mem_diff.1 hx
    rcases entries_placement he with he | he
    · exact Added.mono hA (hc.freeEntries x hx he)
    · exact absurd he hxr
  heldFree K hK' hS x hx hh := by
    obtain ⟨hx, hxr⟩ := mem_diff.1 hx
    rcases hK K hK' with rfl | hK'
    · exact absurd (hheld x hh) hxr
    · exact Added.mono hA (hc.heldFree K hK' hS x hx hh)
  heldEntries J hJ hp hS x he hh := by
    rcases hK J hJ with rfl | hJ
    · -- a plain job changes no entry, and took free resources
      rw [Entries, placement_plain hp] at he
      exact Added.mono hA (hc.freeEntries x (hplain hp x (hheld x hh)) he)
    · rcases entries_placement he with he | he
      · exact Added.mono hA (hc.heldEntries J hJ hp hS x he hh)
      · rcases hoffered x he with hx | hx
        · exact Added.mono hA (hc.heldFree J hJ hS x hx hh)
        · exact Added.mono hA (hc.heldEntries J hJ hp hS x hx hh)

theorem ContentsSafe.add {r : IdSet} (hc : ContentsSafe cl sets₀ jobs S t c)
    (hadd : ∀ x ∈ r, Added cl jobs S t x) : ContentsSafe cl sets₀ jobs S t (c.1 ∪ r, c.2) where
  fromStart x hx := by
    rcases mem_union.1 hx with hx | hx
    · exact hc.fromStart x hx
    · exact .inr (hadd x hx)
  freeEntries x hx he := by
    rcases mem_union.1 hx with hx | hx
    · exact hc.freeEntries x hx he
    · exact hadd x hx
  heldFree K hK hS x hx hh := by
    rcases mem_union.1 hx with hx | hx
    · exact hc.heldFree K hK hS x hx hh
    · exact hadd x hx
  heldEntries J hJ hp hS x he hh := hc.heldEntries J hJ hp hS x he hh

theorem ContentsSafe.fresh (hnone : ∀ K ∈ jobs, K.slotSetName.result = .ok S → ∀ x, ¬Holds K t x) :
    ContentsSafe cl sets₀ jobs S t (∅, [], []) where
  fromStart _ hx := absurd hx not_mem_empty
  freeEntries _ hx _ := absurd hx not_mem_empty
  heldFree K hK hS x _ hh := absurd hh (hnone K hK hS x)
  heldEntries J hJ _ hS x _ hh := absurd hh (hnone J hJ hS x)

end Keep

theorem slotSetName_inj {j : Job} {S S' : String} (h : j.slotSetName.result = .ok S)
    (h' : j.slotSetName.result = .ok S') : S = S' :=
  Except.ok.inj (h.symm.trans h')

theorem innerDefault_contentsAt {sets : SlotSets} {a : Assignment} {t : Int}
    {c : IdSet × SharedSets × NamedSets} (h : (innerDefault sets a).contentsAt t = some c) :
    c = (∅, [], []) := by
  unfold innerDefault at h
  split at h <;> exact contentsAt_single h

theorem offered_at {ss : SlotSet} {j : Job} {a : Assignment}
    (hoff : ∀ s ∈ ss.slots, s.begin ≤ a.end → a.begin ≤ s.end → a.resources ⊆ offered j s)
    {t : Int} (ht : a.begin ≤ t ∧ t ≤ a.end) {c : IdSet × SharedSets × NamedSets}
    (hc : ss.contentsAt t = some c) {y : Nat} (hy : y ∈ a.resources) :
    (y ∈ c.1 ∨ Entries c y) ∧ (j.Plain → y ∈ c.1) := by
  obtain ⟨s, hs, hsb, hse, rfl⟩ := contentsAt_eq_some hc
  have hy' := hoff s hs (by omega) (by omega) hy
  refine ⟨Slot.mem_availableFor hy', fun hp => ?_⟩
  rw [offered_plain hp] at hy'
  exact hy'

/-! ## The invariant of a pass -/

/-- The invariant of a placement pass started from the slot sets `sets₀`, watching the slot sets
that `P` names, with the ids of `pending` still to handle: every set is well formed or of one
reversed slot, and the sets of the start keep their bounds; a watched set has safe contents at
every time; a placed plain job of a watched set meets another placed job of its set, and holds a
resource not free at the start, only where a container added it; placed jobs lie within the
bounds their set had at the start, over an interval within time, and in existing sets; and the
jobs of pending ids are unplaced. -/
structure Safe (cl : Cluster) (sets₀ : SlotSets) (P : String → Prop) (sets : SlotSets)
    (jobs : List Job) (pending : List Int) : Prop where
  sane : ∀ S ss, sets.lookup S = some ss → ss.Sane
  bounds : ∀ S ss₀, sets₀.lookup S = some ss₀ →
    ∃ ss, sets.lookup S = some ss ∧ ss.begin = ss₀.begin ∧ ss.end = ss₀.end
  contents : ∀ S, P S → ∀ ss, sets.lookup S = some ss → ∀ t c, ss.contentsAt t = some c →
    ContentsSafe cl sets₀ jobs S t c
  apart : ∀ J ∈ jobs, J.Plain → ∀ K ∈ jobs, K.id ≠ J.id → ∀ S, P S →
    J.slotSetName.result = .ok S → K.slotSetName.result = .ok S → ∀ t x, Holds J t x →
    Holds K t x → Added cl jobs S t x
  within : ∀ J ∈ jobs, J.Plain → ∀ S, P S → J.slotSetName.result = .ok S → ∀ t x,
    Holds J t x → FreeIn sets₀ S t x ∨ Added cl jobs S t x
  inside : ∀ K ∈ jobs, ∀ S, K.slotSetName.result = .ok S → ∀ a, K.assignment = some a →
    ∀ ss₀, sets₀.lookup S = some ss₀ → ss₀.begin ≤ a.begin ∧ a.end ≤ ss₀.end
  timely : ∀ K ∈ jobs, ∀ a, K.assignment = some a → Word.i64.lo ≤ a.begin ∧ a.begin ≤ a.end
  located : ∀ K ∈ jobs, ∀ S, K.slotSetName.result = .ok S → ∀ t x, Holds K t x →
    ∃ ss, sets.lookup S = some ss
  pendingFree : ∀ K ∈ jobs, K.id ∈ pending → K.assignment = none
  pendingNodup : pending.Nodup

section Pass

variable {cl : Cluster} {sets₀ sets : SlotSets} {P : String → Prop} {jobs : List Job}
  {pending : List Int}

theorem Safe.pop {x : Int} {xs : List Int} (hs : Safe cl sets₀ P sets jobs (x :: xs)) :
    Safe cl sets₀ P sets jobs xs :=
  { hs with
    pendingFree := fun K hK hx => hs.pendingFree K hK (List.mem_cons_of_mem _ hx)
    pendingNodup := (List.nodup_cons.1 hs.pendingNodup).2 }

theorem Safe.lookup_bounds (hs : Safe cl sets₀ P sets jobs pending) {S : String}
    {ss ss₀ : SlotSet} (h : sets.lookup S = some ss) (h₀ : sets₀.lookup S = some ss₀) :
    ss.begin = ss₀.begin ∧ ss.end = ss₀.end := by
  obtain ⟨ss', h', hb⟩ := hs.bounds S ss₀ h₀
  rw [h] at h'
  cases h'
  exact hb

theorem Safe.put {N : String} {ss' : SlotSet} (hs : Safe cl sets₀ P sets jobs pending)
    (hsane : ss'.Sane)
    (hbounds : ∀ ss₀, sets₀.lookup N = some ss₀ → ss'.begin = ss₀.begin ∧ ss'.end = ss₀.end)
    (hcont : P N → ∀ t c, ss'.contentsAt t = some c → ContentsSafe cl sets₀ jobs N t c) :
    Safe cl sets₀ P (sets.put N ss') jobs pending :=
  { hs with
    sane := fun S ss h => by
      rcases SlotSets.lookup_put_some h with ⟨-, rfl⟩ | ⟨-, h⟩
      · exact hsane
      · exact hs.sane S ss h
    bounds := fun S ss₀ h₀ => by
      rw [SlotSets.lookup_put]
      split
      · rename_i hS
        subst hS
        exact ⟨ss', rfl, hbounds ss₀ h₀⟩
      · exact hs.bounds S ss₀ h₀
    contents := fun S hP ss h => by
      rcases SlotSets.lookup_put_some h with ⟨rfl, rfl⟩ | ⟨-, h⟩
      · exact hcont hP
      · exact hs.contents S hP ss h
    located := fun K hK S hS t x hh => SlotSets.exists_lookup_put (hs.located K hK S hS t x hh) }

theorem Safe.base (hs : Safe cl sets₀ P sets jobs pending) (N : String)
    {a : Assignment} (ha : Word.i64.lo ≤ a.begin) :
    ((sets.lookup N).getD (innerDefault sets a)).Sane ∧
    (∀ ss₀, sets₀.lookup N = some ss₀ →
      ((sets.lookup N).getD (innerDefault sets a)).begin = ss₀.begin ∧
      ((sets.lookup N).getD (innerDefault sets a)).end = ss₀.end) ∧
    (P N → ∀ t c, ((sets.lookup N).getD (innerDefault sets a)).contentsAt t = some c →
      ContentsSafe cl sets₀ jobs N t c) := by
  cases hN : sets.lookup N with
  | some ss =>
    exact ⟨hs.sane N ss hN, fun ss₀ h₀ => hs.lookup_bounds hN h₀, fun hP => hs.contents N hP ss hN⟩
  | none =>
    refine ⟨innerDefault_sane (hs.sane "default") ha, fun ss₀ h₀ => ?_, fun _ t c h => ?_⟩
    · -- a set of the start is still there
      obtain ⟨ss, h, -⟩ := hs.bounds N ss₀ h₀
      rw [hN] at h
      cases h
    · rw [Option.getD_none] at h
      rw [innerDefault_contentsAt h]
      -- a job of a set that does not exist yet holds nothing
      refine ContentsSafe.fresh fun K hK hS y hy => ?_
      obtain ⟨ss, h'⟩ := hs.located K hK N hS t y hy
      rw [hN] at h'
      cases h'

theorem Safe.container {j : Job} {sets' : SlotSets}
    (hs : Safe cl sets₀ P sets jobs pending) (hj : j ∈ jobs)
    (hc : j.isContainer = true) (h : (updateContainer cl sets j).result = .ok sets') :
    Safe cl sets₀ P sets' jobs pending := by
  rcases updateContainer_cases h with rfl | ⟨N, a, inner, hN, ha, -, hadd, rfl⟩
  · exact hs
  obtain ⟨hsane, hbounds, hcont⟩ := hs.base N (hs.timely j hj a ha).1
  rcases hsane with hw | hv
  · have hU := updateRange_returned hw hadd
    have hA := hU.appliedOver (f := fun c => (c.1 ∪ a.resources, c.2)) fun _ => rfl
    refine hs.put (.inl hU.wellFormed)
      (fun ss₀ h₀ => by rw [hU.begin_eq, hU.end_eq]; exact hbounds ss₀ h₀) fun hP t c hc' => ?_
    rw [hA.contentsAt_eq t] at hc'
    split at hc'
    · rename_i hrange
      obtain ⟨c₀, hc₀, rfl⟩ := Option.map_eq_some_iff.1 hc'
      exact (hcont hP t c₀ hc₀).add fun y hy => ⟨j, hj, hc, hN, a, ha, hrange.1, hrange.2, hy⟩
    · exact hcont hP t c hc'
  · -- a set that covers no time takes nothing
    obtain rfl := hv.updateRange_eq hadd
    exact hs.put (.inr hv) hbounds hcont

theorem Safe.keepsPlaced {x : Int} {xs : List Int} (hs : Safe cl sets₀ P sets jobs (x :: xs))
    (j₁ : Job) (hx : j₁.id = x) : ∀ C ∈ jobs, C.assignment.isSome → C ∈ replaceJob jobs j₁ := by
  intro C hC ha
  refine mem_replaceJob_of_ne hC fun hid => ?_
  rw [hs.pendingFree C hC (hid ▸ hx ▸ List.mem_cons_self)] at ha
  cases ha

theorem Safe.replace {x : Int} {xs : List Int} {j : Job} (o : Option Assignment) {name : String}
    {ss ss₁ : SlotSet} (hs : Safe cl sets₀ P sets jobs (x :: xs)) (hjx : j.id = x)
    (hname : j.slotSetName.result = .ok name) (hss : sets.lookup name = some ss)
    (hsane : ss₁.Sane) (hbounds₁ : ss₁.begin = ss.begin ∧ ss₁.end = ss.end)
    (hinside : ∀ a, o = some a → ss.begin ≤ a.begin ∧ a.end ≤ ss.end)
    (htimely : ∀ a, o = some a → Word.i64.lo ≤ a.begin ∧ a.begin ≤ a.end)
    (hoffer : ∀ t y, Holds { j with assignment := o } t y → ∃ c, ss.contentsAt t = some c ∧
      (y ∈ c.1 ∨ Entries c y) ∧ (j.Plain → y ∈ c.1))
    (hnew : P name → ∀ t c, ss₁.contentsAt t = some c →
      ContentsSafe cl sets₀ (replaceJob jobs { j with assignment := o }) name t c) :
    Safe cl sets₀ P (sets.put name ss₁) (replaceJob jobs { j with assignment := o }) xs := by
  have hA := hs.keepsPlaced { j with assignment := o } hjx
  refine
    { sane := ?sane
      bounds := ?bounds
      contents := ?contents
      apart := ?apart
      within := ?within
      inside := ?inside
      timely := ?timely
      located := ?located
      pendingFree := ?pendingFree
      pendingNodup := (List.nodup_cons.1 hs.pendingNodup).2 }
  case sane =>
    intro S ss' h
    rcases SlotSets.lookup_put_some h with ⟨-, rfl⟩ | ⟨-, h⟩
    · exact hsane
    · exact hs.sane S ss' h
  case bounds =>
    intro S ss₀ h₀
    rw [SlotSets.lookup_put]
    split
    · rename_i hS
      subst hS
      obtain ⟨hb, he⟩ := hs.lookup_bounds hss h₀
      exact ⟨ss₁, rfl, hbounds₁.1.trans hb, hbounds₁.2.trans he⟩
    · exact hs.bounds S ss₀ h₀
  case contents =>
    intro S hP ss' h
    rcases SlotSets.lookup_put_some h with ⟨rfl, rfl⟩ | ⟨hS, h⟩
    · exact hnew hP
    · -- another set: the job, placed in its own set, holds nothing here
      refine fun t c hc => (hs.contents S hP ss' h t c hc).advance hA
        replaceJob_eq_or_mem fun hS' => ?_
      exact absurd (slotSetName_inj hS' hname) hS
  case apart =>
    intro J hJ hp K hK hne S hP hJS hKS t y hJt hKt
    rcases replaceJob_eq_or_mem J hJ with rfl | hJ' <;> rcases replaceJob_eq_or_mem K hK with rfl | hK'
    · exact absurd rfl hne
    · -- the job took free resources, and `K` holds one of them
      obtain rfl := slotSetName_inj hJS hname
      obtain ⟨c, hc, -, hplain⟩ := hoffer t y hJt
      exact Added.mono hA ((hs.contents _ hP ss hss t c hc).heldFree K hK' hKS y (hplain hp) hKt)
    · -- the job took a resource free or in an entry, and the plain `J` holds it
      obtain rfl := slotSetName_inj hKS hname
      obtain ⟨c, hc, hy, -⟩ := hoffer t y hKt
      rcases hy with hy | hy
      · exact Added.mono hA ((hs.contents _ hP ss hss t c hc).heldFree J hJ' hJS y hy hJt)
      · exact Added.mono hA ((hs.contents _ hP ss hss t c hc).heldEntries J hJ' hp hJS y hy hJt)
    · exact Added.mono hA (hs.apart J hJ' hp K hK' hne S hP hJS hKS t y hJt hKt)
  case within =>
    intro J hJ hp S hP hJS t y hJt
    rcases replaceJob_eq_or_mem J hJ with rfl | hJ'
    · obtain rfl := slotSetName_inj hJS hname
      obtain ⟨c, hc, -, hplain⟩ := hoffer t y hJt
      exact ((hs.contents _ hP ss hss t c hc).fromStart y (hplain hp)).imp_right (Added.mono hA)
    · exact (hs.within J hJ' hp S hP hJS t y hJt).imp_right (Added.mono hA)
  case inside =>
    intro K hK S hKS a ha ss₀ h₀
    rcases replaceJob_eq_or_mem K hK with rfl | hK'
    · obtain rfl := slotSetName_inj hKS hname
      obtain ⟨hb, he⟩ := hs.lookup_bounds hss h₀
      obtain ⟨h₁, h₂⟩ := hinside a ha
      exact ⟨hb ▸ h₁, he ▸ h₂⟩
    · exact hs.inside K hK' S hKS a ha ss₀ h₀
  case timely =>
    intro K hK a ha
    rcases replaceJob_eq_or_mem K hK with rfl | hK'
    · exact htimely a ha
    · exact hs.timely K hK' a ha
  case located =>
    intro K hK S hKS t y hKt
    rcases replaceJob_eq_or_mem K hK with rfl | hK'
    · obtain rfl := slotSetName_inj hKS hname
      exact ⟨ss₁, by rw [SlotSets.lookup_put, if_pos rfl]⟩
    · exact SlotSets.exists_lookup_put (hs.located K hK' S hKS t y hKt)
  case pendingFree =>
    intro K hK hKx
    rcases replaceJob_eq_or_mem K hK with rfl | hK'
    · exact absurd (hjx ▸ hKx) (List.nodup_cons.1 hs.pendingNodup).1
    · exact hs.pendingFree K hK' (List.mem_cons_of_mem _ hKx)

theorem Safe.placed {x : Int} {xs : List Int} {j j₁ : Job} {name : String} {ss ss₁ : SlotSet}
    {minBegin : Option Int} {placed : Bool} (hs : Safe cl sets₀ P sets jobs (x :: xs))
    (hj : jobs.find? (·.id = x) = some j) (hname : j.slotSetName.result = .ok name)
    (hss : sets.lookup name = some ss)
    (hsched : (scheduleJob cl ss j minBegin).result = .ok (ss₁, j₁, placed)) :
    Safe cl sets₀ P (sets.put name ss₁) (replaceJob jobs j₁) xs ∧ j₁ ∈ replaceJob jobs j₁ := by
  have hjmem := List.mem_of_find?_eq_some hj
  have hjx : j.id = x := by simpa using List.find?_some hj
  have hnone := hs.pendingFree j hjmem (hjx ▸ List.mem_cons_self)
  -- the job left unplaced over the same chain, in a reversed set or for want of a window
  have stay : SameChain ss ss₁ → Safe cl sets₀ P (sets.put name ss₁) (replaceJob jobs j) xs := by
    intro hsame
    refine hs.replace j.assignment hjx hname hss ((hs.sane name ss hss).sameChain hsame)
      ⟨hsame.begin_eq, hsame.end_eq⟩ (fun a ha => by rw [hnone] at ha; cases ha)
      (fun a ha => by rw [hnone] at ha; cases ha)
      (fun t y hy => absurd hy (not_holds_of_none hnone t y)) fun hP t c hc => ?_
    rw [hsame.contentsAt_eq] at hc
    exact (hs.contents name hP ss hss t c hc).advance (hs.keepsPlaced j hjx)
      replaceJob_eq_or_mem fun _ y => not_holds_of_none hnone t y
  rcases hs.sane name ss hss with hw | hv
  · rcases scheduleJob_returned hw hsched with ⟨rfl, hsame⟩ | ⟨a, rfl, hbe, hb, he, hoff, hU⟩
    · exact ⟨stay hsame, mem_replaceJob_self hjmem rfl⟩
    · -- a window: its resources leave the chain exactly over the assignment
      have hlo := hw.bounds.1
      have hA := hs.keepsPlaced { j with assignment := some a } hjx
      have hAp := hU.appliedOver (placeOn_contents { j with assignment := some a } a.resources true)
      refine ⟨hs.replace (some a) hjx hname hss (.inl hU.wellFormed) ⟨hU.begin_eq, hU.end_eq⟩
        (fun a' ha' => by cases ha'; exact ⟨hb, he⟩)
        (fun a' ha' => by cases ha'; omega) (fun t y hy => ?_) fun hP t c hc => ?_,
        mem_replaceJob_self hjmem rfl⟩
      · obtain ⟨ht₁, ht₂, hy⟩ := holds_assigned.1 hy
        obtain ⟨c, hc⟩ := hw.exists_contentsAt (t := t) (by omega) (by omega)
        exact ⟨c, hc, offered_at hoff ⟨ht₁, ht₂⟩ hc hy⟩
      · rw [hAp.contentsAt_eq t] at hc
        split at hc
        · rename_i hrange
          obtain ⟨c₀, hc₀, rfl⟩ := Option.map_eq_some_iff.1 hc
          exact (hs.contents name hP ss hss t c₀ hc₀).place hA replaceJob_eq_or_mem
            (fun y hy => (holds_assigned.1 hy).2.2) (fun y hy => (offered_at hoff hrange hc₀ hy).1)
            fun hp y hy => (offered_at hoff hrange hc₀ hy).2 hp
        · rename_i hrange
          exact (hs.contents name hP ss hss t c hc).advance hA replaceJob_eq_or_mem
            fun _ y hy => hrange ⟨(holds_assigned.1 hy).1, (holds_assigned.1 hy).2.1⟩
  · obtain ⟨rfl, rfl⟩ := scheduleJob_void hv hsched
    exact ⟨stay (SameChain.refl _), mem_replaceJob_self hjmem rfl⟩

theorem Safe.step {p p' : Pass} {x : Int} {xs : List Int}
    (hs : Safe cl sets₀ P p.sets p.jobs (x :: xs))
    (h : (step cl p x).result = .ok p') : Safe cl sets₀ P p'.sets p'.jobs xs := by
  rcases step_cases h with ⟨hsets, hjobs⟩ |
    ⟨j, name, ss, minBegin, ss₁, j₁, placed, sets₂, hj, hname, hss, hsched, hsets₂, hsets, hjobs⟩
  · rw [hsets, hjobs]
    exact hs.pop
  · obtain ⟨hs₁, hmem⟩ := Safe.placed hs hj hname hss hsched
    rw [hsets, hjobs]
    split at hsets₂
    · exact Safe.container hs₁ hmem ‹_› hsets₂
    · simp only [Logged.result_pure, Except.ok.injEq] at hsets₂
      exact hsets₂ ▸ hs₁

theorem Safe.init {waiting : List Job}
    (hsets : ∀ S ss, sets.lookup S = some ss → ss.Sane ∧
      (P S → ∀ t c, ss.contentsAt t = some c → ∀ x ∈ c.1, ¬Entries c x))
    (hids : (waiting.map (·.id)).Nodup) (hnone : ∀ j ∈ waiting, j.assignment = none) :
    Safe cl sets P sets waiting (waiting.map (·.id)) where
  sane S ss h := (hsets S ss h).1
  bounds S ss₀ h := ⟨ss₀, h, rfl, rfl⟩
  contents S hP ss h t c hc :=
    { fromStart := fun x hx => .inl ⟨ss, h, c, hc, hx⟩
      freeEntries := fun x hx he => absurd he ((hsets S ss h).2 hP t c hc x hx)
      heldFree := fun K hK _ x _ hh => absurd hh (not_holds_of_none (hnone K hK) t x)
      heldEntries := fun J hJ _ _ x _ hh => absurd hh (not_holds_of_none (hnone J hJ) t x) }
  apart J hJ _ _ _ _ _ _ _ _ t x hh _ := absurd hh (not_holds_of_none (hnone J hJ) t x)
  within J hJ _ _ _ _ t x hh := absurd hh (not_holds_of_none (hnone J hJ) t x)
  inside K hK _ _ a ha := by
    rw [hnone K hK] at ha
    cases ha
  timely K hK a ha := by
    rw [hnone K hK] at ha
    cases ha
  located K hK _ _ t x hh := absurd hh (not_holds_of_none (hnone K hK) t x)
  pendingFree K hK _ := hnone K hK
  pendingNodup := hids

theorem Safe.run (ids : List Int) {p p' : Pass} (hs : Safe cl sets₀ P p.sets p.jobs ids)
    (h : (ids.foldlM (Placement.step cl) p).result = .ok p') :
    Safe cl sets₀ P p'.sets p'.jobs [] :=
  Logged.foldlM_invariant (Placement.step cl) (fun ids p => Safe cl sets₀ P p.sets p.jobs ids)
    (fun _ _ _ _ hI h => hI.step h) ids p hs h

/-- A pass over unplaced jobs of distinct ids, from sane slot sets whose watched sets have
entries holding no free resource, ends safe. -/
theorem scheduleJobs_safe {waiting : List Job} {sets' : SlotSets} {jobs' : List Job}
    {diags : List Diagnostic}
    (hsets : ∀ S ss, sets.lookup S = some ss → ss.Sane ∧
      (P S → ∀ t c, ss.contentsAt t = some c → ∀ x ∈ c.1, ¬Entries c x))
    (hids : (waiting.map (·.id)).Nodup) (hnone : ∀ j ∈ waiting, j.assignment = none)
    (hrun : (scheduleJobs cl sets waiting).result = .ok (sets', jobs', diags)) :
    Safe cl sets P sets' jobs' [] := by
  unfold scheduleJobs at hrun
  obtain ⟨p, hp, hrun⟩ := Logged.result_bind_ok hrun
  simp only [Logged.result_pure, Except.ok.injEq, Prod.mk.injEq] at hrun
  obtain ⟨rfl, rfl, -⟩ := hrun
  exact Safe.run (waiting.map (·.id)) (Safe.init hsets hids hnone) hp

end Pass

/-- No double booking in a placement pass. Started from well-formed slot sets whose entries hold
no free resource, over unplaced jobs of distinct ids, a pass lets a plain job it places in a slot
set `S` meet another job of `S` only at a resource and time that a placed container added to
`S`, and gives it only resources that were free in `S` at the start or were so added. -/
theorem placement_pass_no_double_booking {cl : Cluster} {sets : SlotSets} {waiting : List Job}
    {sets' : SlotSets} {jobs' : List Job} {diags : List Diagnostic}
    (hsets : ∀ S ss, sets.lookup S = some ss → ss.WellFormed ∧
      ∀ t c, ss.contentsAt t = some c → ∀ x ∈ c.1, ¬Entries c x)
    (hids : (waiting.map (·.id)).Nodup) (hnone : ∀ j ∈ waiting, j.assignment = none)
    (hrun : (scheduleJobs cl sets waiting).result = .ok (sets', jobs', diags)) :
    ∀ J ∈ jobs', J.Plain → ∀ S, J.slotSetName.result = .ok S →
      (∀ K ∈ jobs', K.id ≠ J.id → K.slotSetName.result = .ok S → ∀ t x, Holds J t x →
        Holds K t x → Added cl jobs' S t x) ∧
      ∀ t x, Holds J t x → FreeIn sets S t x ∨ Added cl jobs' S t x := by
  have hs : Safe cl sets (fun _ => True) sets' jobs' [] :=
    scheduleJobs_safe (fun S ss h => ⟨.inl (hsets S ss h).1, fun _ => (hsets S ss h).2⟩)
      hids hnone hrun
  intro J hJ hplain S hJS
  exact ⟨fun K hK hne hKS t x hJt hKt => hs.apart J hJ hplain K hK hne S trivial hJS hKS t x hJt hKt,
    fun t x hJt => hs.within J hJ hplain S trivial hJS t x hJt⟩

/-- A container whose inner set is `default`, then a plain job in `default`: the plain job meets
the container where the container gave its resource back. -/
theorem placement_pass_no_double_booking_after_container :
    let cl : Cluster := ⟨{ securityTime := 0 },
      { defaultResources := IdSet.range 1 1, hierarchy := ⟨[("resource_id", ⟨none, true⟩)]⟩ }⟩
    let m : Moldable := ⟨1, 10, [⟨IdSet.range 1 1, [⟨"resource_id", 1⟩]⟩]⟩
    let a : Assignment := ⟨0, 9, IdSet.range 1 1, 0⟩
    let container : Job :=
      { (default : Job) with id := 1, types := [("container", some "default")], moldables := [m] }
    let plain : Job := { (default : Job) with id := 2, moldables := [m] }
    let sets : SlotSets := [("default", SlotSet.new (IdSet.range 1 1) 0)]
    let jobs' := [{ container with assignment := some a }, { plain with assignment := some a }]
    ∀ J ∈ jobs', J.Plain → ∀ S, J.slotSetName.result = .ok S →
      (∀ K ∈ jobs', K.id ≠ J.id → K.slotSetName.result = .ok S → ∀ t x, Holds J t x →
        Holds K t x → Added cl jobs' S t x) ∧
      ∀ t x, Holds J t x → FreeIn sets S t x ∨ Added cl jobs' S t x := by
  intro cl m a container plain sets jobs'
  refine @placement_pass_no_double_booking cl sets [container, plain] ?sets' jobs' ?diags
    (fun S ss h => ?_) (by decide) ?_ ?hrun
  case hrun =>
    simp only [cl, m, a, container, plain, sets, jobs']
    with_unfolding_all rfl
  · rw [lookup_cons_string] at h
    split at h
    · cases h
      refine ⟨single_wellFormed _ (by decide) (by decide) (by decide), fun t c hc x _ he => ?_⟩
      rw [contentsAt_single hc] at he
      rcases he with ⟨u, ns, hu, -⟩ | ⟨n, s, hs, -⟩
      · exact List.not_mem_nil hu
      · exact List.not_mem_nil hs
    · cases h
  · intro j hj
    simp only [List.mem_cons, List.not_mem_nil, or_false] at hj
    rcases hj with rfl | rfl <;> rfl

/-- Without its conditions a pass can book a resource twice. A container whose inner set is
`default` gives its resource back to `default`, where a plain job then takes it at the same
times; and in a well-formed set whose time-sharing entry holds a free resource, a plain job
takes it as free while a time-sharing job takes it from the entry. -/
theorem placement_pass_can_double_book :
    let cl : Cluster := ⟨{ securityTime := 0 },
      { defaultResources := IdSet.range 1 1, hierarchy := ⟨[("resource_id", ⟨none, true⟩)]⟩ }⟩
    let m : Moldable := ⟨1, 10, [⟨IdSet.range 1 1, [⟨"resource_id", 1⟩]⟩]⟩
    let a : Assignment := ⟨0, 9, IdSet.range 1 1, 0⟩
    let container : Job :=
      { (default : Job) with id := 1, types := [("container", some "default")], moldables := [m] }
    let plain : Job := { (default : Job) with id := 2, moldables := [m] }
    let sharing : Job := { (default : Job) with id := 3, timeSharing := some .allAll, moldables := [m] }
    let shared : SlotSet := ⟨[⟨1, 0, 9, IdSet.range 1 1, [("*", [("*", IdSet.range 1 1)])], []⟩,
      ⟨2, 10, maxTime, IdSet.range 1 1, [], []⟩], 3, []⟩
    plain.Plain ∧ shared.WellFormed ∧
      ((scheduleJobs cl [("default", SlotSet.new (IdSet.range 1 1) 0)] [container, plain]).result.map
        (·.2.1)) = .ok [{ container with assignment := some a }, { plain with assignment := some a }] ∧
      ((scheduleJobs cl [("default", shared)] [plain, sharing]).result.map (·.2.1)) =
        .ok [{ plain with assignment := some a }, { sharing with assignment := some a }] := by
  dsimp only
  refine ⟨⟨rfl, rfl⟩, ?_, by with_unfolding_all rfl, by with_unfolding_all rfl⟩
  refine ⟨by simp, ?_, ?_, ?_, ?_, ?_, ?_⟩ <;> simp [Abut, Word.i32, Word.i64, maxTime]

end Placement

end ClusterScheduler
