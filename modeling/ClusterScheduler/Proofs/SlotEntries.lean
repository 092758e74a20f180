import ClusterScheduler.Placement
import ClusterScheduler.Proofs.SlotMutation

/-!
# Entries of slots

Besides its free resources, a slot holds time-sharing entries, the resources of jobs that
share them by user and job name, and placeholder reservations, the resources that `holds` jobs
reserve for the `allows` jobs of a name. This module says what a job is offered in a slot and
how a placement moves resources between the free set and the entries, and gathers the facts on
slot sets by name and on slot contents at a time that a placement pass needs.
-/

namespace ClusterScheduler

open IdSet SlotSet

/-! ## Entries -/

def NamedSets.MemAt (m : NamedSets) (n : String) (x : Nat) : Prop := ∃ s, (n, s) ∈ m ∧ x ∈ s

def SharedSets.MemAt (m : SharedSets) (u n : String) (x : Nat) : Prop :=
  ∃ ns, (u, ns) ∈ m ∧ ns.MemAt n x

def NamedSets.Mem (m : NamedSets) (x : Nat) : Prop := ∃ n s, (n, s) ∈ m ∧ x ∈ s

def SharedSets.Mem (m : SharedSets) (x : Nat) : Prop := ∃ u ns, (u, ns) ∈ m ∧ ns.Mem x

def Entries (c : IdSet × SharedSets × NamedSets) (x : Nat) : Prop := c.2.1.Mem x ∨ c.2.2.Mem x

theorem NamedSets.MemAt.mem {m : NamedSets} {n : String} {x : Nat} (h : m.MemAt n x) :
    m.Mem x :=
  let ⟨s, hs, hx⟩ := h
  ⟨n, s, hs, hx⟩

theorem SharedSets.MemAt.mem {m : SharedSets} {u n : String} {x : Nat} (h : m.MemAt u n x) :
    m.Mem x :=
  let ⟨ns, hns, hx⟩ := h
  ⟨u, ns, hns, hx.mem⟩

theorem mem_of_lookup {β : Type} {k : String} {b : β} :
    ∀ {l : List (String × β)}, l.lookup k = some b → (k, b) ∈ l
  | [], h => by cases h
  | (k', b') :: rest, h => by
    by_cases hk : k = k'
    · subst hk
      simp only [List.lookup_cons_self, Option.some.injEq] at h
      subst h
      simp
    · have hne : (k == k') = false := by simp [hk]
      simp only [List.lookup_cons, hne] at h
      exact List.mem_cons_of_mem _ (mem_of_lookup h)

namespace NamedSets

theorem memAt_merge {k n : String} {s : IdSet} {x : Nat} :
    ∀ {m : NamedSets}, (m.merge k s).MemAt n x → m.MemAt n x ∨ (n = k ∧ x ∈ s)
  | [], ⟨t, ht, hx⟩ => by
    simp only [merge, List.mem_singleton, Prod.mk.injEq] at ht
    obtain ⟨rfl, rfl⟩ := ht
    exact .inr ⟨rfl, hx⟩
  | (k', t) :: rest, ⟨u, hu, hx⟩ => by
    unfold merge at hu
    split at hu
    · rename_i hk
      rcases List.mem_cons.1 hu with h | h
      · cases h
        rcases mem_union.1 hx with hx | hx
        · exact .inl ⟨t, by simp, hx⟩
        · exact .inr ⟨hk.symm, hx⟩
      · exact .inl ⟨u, List.mem_cons_of_mem _ h, hx⟩
    · split at hu
      · rcases List.mem_cons.1 hu with h | h
        · cases h
          exact .inr ⟨rfl, hx⟩
        · exact .inl ⟨u, h, hx⟩
      · rcases List.mem_cons.1 hu with h | h
        · cases h
          exact .inl ⟨t, by simp, hx⟩
        · rcases memAt_merge ⟨u, h, hx⟩ with ⟨u', hu', hx'⟩ | h'
          · exact .inl ⟨u', List.mem_cons_of_mem _ hu', hx'⟩
          · exact .inr h'

theorem mem_merge {k : String} {s : IdSet} {m : NamedSets} {x : Nat}
    (h : (m.merge k s).Mem x) : m.Mem x ∨ x ∈ s := by
  obtain ⟨n, u, hu, hx⟩ := h
  rcases memAt_merge ⟨u, hu, hx⟩ with h | h
  · exact .inl h.mem
  · exact .inr h.2

theorem memAt_remove {k n : String} {s : IdSet} {m : NamedSets} {x : Nat}
    (h : (m.remove k s).MemAt n x) : m.MemAt n x := by
  obtain ⟨u, hu, hx⟩ := h
  obtain ⟨⟨n', t⟩, ht, he⟩ := List.mem_map.1 hu
  have hsub : n' = n ∧ u ⊆ t := by
    by_cases hk : k = n'
    · simp only [hk, if_true, Prod.mk.injEq] at he
      rw [← he.2]
      exact ⟨he.1, diff_subset _ _⟩
    · simp only [hk, if_false, Prod.mk.injEq] at he
      rw [← he.2]
      exact ⟨he.1, Subset.refl _⟩
  exact ⟨t, hsub.1 ▸ ht, hsub.2 hx⟩

theorem mem_remove {k : String} {s : IdSet} {m : NamedSets} {x : Nat}
    (h : (m.remove k s).Mem x) : m.Mem x := by
  obtain ⟨n, u, hu, hx⟩ := h
  exact (memAt_remove ⟨u, hu, hx⟩).mem

end NamedSets

namespace SharedSets

theorem memAt_merge {user name u n : String} {s : IdSet} {x : Nat} :
    ∀ {m : SharedSets}, (m.merge user name s).MemAt u n x →
      m.MemAt u n x ∨ (u = user ∧ n = name ∧ x ∈ s)
  | [], ⟨ns, hns, hx⟩ => by
    simp only [merge, List.mem_singleton, Prod.mk.injEq] at hns
    obtain ⟨rfl, rfl⟩ := hns
    obtain ⟨t, ht, hxt⟩ := hx
    simp only [List.mem_singleton, Prod.mk.injEq] at ht
    obtain ⟨rfl, rfl⟩ := ht
    exact .inr ⟨rfl, rfl, hxt⟩
  | (u', ms) :: rest, ⟨ns, hns, hx⟩ => by
    unfold merge at hns
    split at hns
    · rename_i hu
      rcases List.mem_cons.1 hns with h | h
      · cases h
        rcases NamedSets.memAt_merge hx with hx | hx
        · exact .inl ⟨ms, by simp, hx⟩
        · exact .inr ⟨hu.symm, hx⟩
      · exact .inl ⟨ns, List.mem_cons_of_mem _ h, hx⟩
    · split at hns
      · rcases List.mem_cons.1 hns with h | h
        · cases h
          obtain ⟨t, ht, hxt⟩ := hx
          simp only [List.mem_singleton, Prod.mk.injEq] at ht
          obtain ⟨rfl, rfl⟩ := ht
          exact .inr ⟨rfl, rfl, hxt⟩
        · exact .inl ⟨ns, h, hx⟩
      · rcases List.mem_cons.1 hns with h | h
        · cases h
          exact .inl ⟨ms, by simp, hx⟩
        · rcases memAt_merge ⟨ns, h, hx⟩ with ⟨ns', hns', hx'⟩ | h'
          · exact .inl ⟨ns', List.mem_cons_of_mem _ hns', hx'⟩
          · exact .inr h'

theorem mem_merge {user name : String} {s : IdSet} {m : SharedSets} {x : Nat}
    (h : (m.merge user name s).Mem x) : m.Mem x ∨ x ∈ s := by
  obtain ⟨u, ns, hns, n, t, ht, hx⟩ := h
  rcases memAt_merge ⟨ns, hns, t, ht, hx⟩ with h | h
  · exact .inl h.mem
  · exact .inr h.2.2

end SharedSets

namespace Slot

variable {s : Slot} {x : Nat}

theorem mem_foldl_named {m : NamedSets} :
    ∀ (ns : List String) (acc : IdSet), x ∈ ns.foldl (fun acc n =>
      match m.lookup n with
      | some p => acc ∪ p
      | none => acc) acc → x ∈ acc ∨ ∃ n ∈ ns, m.MemAt n x
  | [], _, h => .inl h
  | n :: rest, acc, h => by
    rcases mem_foldl_named rest _ h with h | ⟨n', hn', h⟩
    · dsimp only at h
      split at h
      · rcases mem_union.1 h with h | h
        · exact .inl h
        · exact .inr ⟨n, by simp, _, mem_of_lookup ‹_›, h⟩
      · exact .inl h
    · exact .inr ⟨n', List.mem_cons_of_mem _ hn', h⟩

theorem mem_foldl_shared (name : String) :
    ∀ (us : List String) (acc : IdSet), x ∈ us.foldl (fun acc u =>
      match s.shared.lookup u with
      | some m => [name, "*"].foldl (fun acc n =>
          match m.lookup n with
          | some p => acc ∪ p
          | none => acc) acc
      | none => acc) acc → x ∈ acc ∨ ∃ u ∈ us, ∃ n ∈ [name, "*"], s.shared.MemAt u n x
  | [], _, h => .inl h
  | u :: rest, acc, h => by
    rcases mem_foldl_shared name rest _ h with h | ⟨u', hu', h⟩
    · dsimp only at h
      split at h
      · rcases mem_foldl_named _ acc h with h | ⟨n, hn, h⟩
        · exact .inl h
        · exact .inr ⟨u, by simp, n, hn, _, mem_of_lookup ‹_›, h⟩
      · exact .inl h
    · exact .inr ⟨u', List.mem_cons_of_mem _ hu', h⟩

theorem memAt_sharedWith {user name : String} (h : x ∈ s.sharedWith user name) :
    ∃ u ∈ [user, "*"], ∃ n ∈ [name, "*"], s.shared.MemAt u n x :=
  (mem_foldl_shared name [user, "*"] ∅ h).resolve_left not_mem_empty

theorem memAt_availableFor {sharing : Option (String × String)} {p : Placeholder}
    (h : x ∈ s.availableFor sharing p) :
    x ∈ s.resources ∨
      (∃ user name, sharing = some (user, name) ∧
        ∃ u ∈ [user, "*"], ∃ n ∈ [name, "*"], s.shared.MemAt u n x) ∨
      ∃ n, p = .allows n ∧ s.reserved.MemAt n x := by
  -- what is offered outside reservations: the free set and the entries open to `sharing`
  have hfree : ∀ {y}, y ∈ s.availableFor sharing .none → y ∈ s.resources ∨
      (∃ user name, sharing = some (user, name) ∧
        ∃ u ∈ [user, "*"], ∃ n ∈ [name, "*"], s.shared.MemAt u n y) := by
    intro y hy
    rcases sharing with _ | ⟨user, name⟩
    · exact .inl hy
    · rcases mem_union.1 hy with hy | hy
      · exact .inl hy
      · exact .inr ⟨user, name, rfl, memAt_sharedWith hy⟩
  unfold availableFor at h
  cases p with
  | allows n =>
    -- an allowed job may also use what its placeholder name reserves
    dsimp only at h
    cases hr : s.reserved.lookup n with
    | some r =>
      simp only [hr] at h
      rcases mem_union.1 h with h | h
      · exact (hfree h).elim .inl (.inr ∘ .inl)
      · exact .inr (.inr ⟨n, rfl, r, mem_of_lookup hr, h⟩)
    | none =>
      simp only [hr] at h
      exact (hfree h).elim .inl (.inr ∘ .inl)
  | none => exact (hfree h).elim .inl (.inr ∘ .inl)
  | holds n => exact (hfree h).elim .inl (.inr ∘ .inl)

theorem mem_availableFor {sharing : Option (String × String)} {p : Placeholder}
    (h : x ∈ s.availableFor sharing p) : x ∈ s.contents.1 ∨ Entries s.contents x := by
  rcases memAt_availableFor h with h | ⟨_, _, _, _, _, _, _, h⟩ | ⟨_, _, h⟩
  · exact .inl h
  · exact .inr (.inl h.mem)
  · exact .inr (.inr h.mem)

end Slot

/-- What placing a job does to the entries of slot contents: they gain the job's resources at
most. -/
theorem entries_placement {j : Job} {r : IdSet} {sub : Bool}
    {c : IdSet × SharedSets × NamedSets} {x : Nat} (h : Entries (placement j r sub c) x) :
    Entries c x ∨ x ∈ r := by
  unfold Entries placement at h
  rcases h with h | h
  · dsimp only at h
    split at h
    · rcases SharedSets.mem_merge h with h | h
      · exact .inl (.inl h)
      · exact .inr h
    · exact .inl (.inl h)
  · dsimp only at h
    split at h
    · rcases NamedSets.mem_merge h with h | h
      · exact .inl (.inr h)
      · exact .inr h
    · split at h
      · exact .inl (.inr (NamedSets.mem_remove h))
      · exact .inl (.inr h)
    · exact .inl (.inr h)

theorem shared_placement {j : Job} {r : IdSet} {sub : Bool} {c : IdSet × SharedSets × NamedSets}
    {u n : String} {x : Nat} (h : (placement j r sub c).2.1.MemAt u n x) :
    c.2.1.MemAt u n x ∨ (sharingKey j = some (u, n) ∧ x ∈ r) := by
  unfold placement at h
  dsimp only at h
  split at h
  · rename_i hk
    rcases SharedSets.memAt_merge h with h | ⟨rfl, rfl, hx⟩
    · exact .inl h
    · exact .inr ⟨hk, hx⟩
  · exact .inl h

theorem reserved_placement {j : Job} {r : IdSet} {sub : Bool} {c : IdSet × SharedSets × NamedSets}
    {n : String} {x : Nat} (h : (placement j r sub c).2.2.MemAt n x) :
    c.2.2.MemAt n x ∨ (j.placeholder = .holds n ∧ x ∈ r) := by
  unfold placement at h
  dsimp only at h
  split at h
  · rename_i hp
    rcases NamedSets.memAt_merge h with h | ⟨rfl, hx⟩
    · exact .inl h
    · exact .inr ⟨hp, hx⟩
  · split at h
    · exact .inl (NamedSets.memAt_remove h)
    · exact .inl h
  · exact .inl h

/-! ## Jobs of a pass -/

def Job.Plain (j : Job) : Prop := j.timeSharing = none ∧ j.placeholder = .none

theorem placement_plain {j : Job} (hj : j.Plain) (r : IdSet) (sub : Bool)
    (c : IdSet × SharedSets × NamedSets) : (placement j r sub c).2 = c.2 := by
  simp [placement, sharingKey, hj.1, hj.2]

/-! ## Slot sets of a pass -/

theorem lookup_cons_string {β : Type} (k k' : String) (b : β) (l : List (String × β)) :
    ((k, b) :: l).lookup k' = if k' = k then some b else l.lookup k' := by
  by_cases h : k' = k
  · subst h
    simp
  · have hne : (k' == k) = false := by simp [h]
    simp only [List.lookup_cons, hne, if_neg h]

theorem SlotSets.lookup_put (m : SlotSets) (k : String) (ss : SlotSet) (k' : String) :
    (m.put k ss).lookup k' = if k' = k then some ss else m.lookup k' := by
  induction m with
  | nil => simp only [SlotSets.put, lookup_cons_string, List.lookup_nil]
  | cons p rest ih =>
    obtain ⟨k₀, t⟩ := p
    by_cases h : k = k₀
    · subst h
      rw [SlotSets.put, if_pos rfl, lookup_cons_string, lookup_cons_string]
      split_ifs <;> rfl
    · by_cases hlt : k < k₀
      · rw [SlotSets.put, if_neg h, if_pos hlt, lookup_cons_string]
      · rw [SlotSets.put, if_neg h, if_neg hlt, lookup_cons_string, lookup_cons_string, ih]
        split_ifs with h₁ h₂ <;> first | rfl | (subst_vars; contradiction)

theorem SlotSets.exists_lookup_put {m : SlotSets} {k S : String} {ss : SlotSet}
    (h : ∃ ss', m.lookup S = some ss') : ∃ ss', (m.put k ss).lookup S = some ss' := by
  rw [SlotSets.lookup_put]
  split
  · exact ⟨ss, rfl⟩
  · exact h

theorem SlotSets.lookup_put_some {sets : SlotSets} {N S : String} {ss' ss : SlotSet}
    (h : (sets.put N ss').lookup S = some ss) :
    (S = N ∧ ss = ss') ∨ (S ≠ N ∧ sets.lookup S = some ss) := by
  rw [SlotSets.lookup_put] at h
  split at h
  · cases h
    exact .inl ⟨‹_›, rfl⟩
  · exact .inr ⟨‹_›, h⟩

namespace SlotSet

theorem contentsAt_eq_some {ss : SlotSet} {t : Int} {c : IdSet × SharedSets × NamedSets}
    (h : ss.contentsAt t = some c) : ∃ s ∈ ss.slots, s.begin ≤ t ∧ t ≤ s.end ∧ c = s.contents := by
  obtain ⟨s, hs, rfl⟩ := Option.map_eq_some_iff.1 h
  have hst := List.find?_some hs
  rw [Slot.covers_iff] at hst
  exact ⟨s, List.mem_of_find?_eq_some hs, hst.1, hst.2, rfl⟩

theorem WellFormed.exists_contentsAt {ss : SlotSet} (hw : ss.WellFormed) {t : Int}
    (hlo : ss.begin ≤ t) (hhi : t ≤ ss.end) : ∃ c, ss.contentsAt t = some c := by
  obtain ⟨s, hs, hst⟩ := hw.exists_covers hlo hhi
  exact ⟨s.contents, by rw [contentsAt, find?_covers hw.sorted hs hst]; rfl⟩

theorem WellFormed.bounds {ss : SlotSet} (hw : ss.WellFormed) :
    Word.i64.lo ≤ ss.begin ∧ ss.begin ≤ ss.end ∧ ss.end ≤ Word.i64.hi := by
  obtain ⟨x, hx, -, hxb⟩ := hw.first
  obtain ⟨y, hy, -, hye⟩ := hw.last
  have := hw.times x hx
  have := hw.times y hy
  have := hw.within hx
  have := hw.ordered x hx
  omega

theorem contentsAt_single {r : IdSet} {b e t : Int} {c : IdSet × SharedSets × NamedSets}
    (h : (single r b e).contentsAt t = some c) : c = (r, [], []) := by
  obtain ⟨s, hs, -, -, rfl⟩ := contentsAt_eq_some h
  simp only [single, List.mem_singleton] at hs
  subst hs
  rfl

end SlotSet

end ClusterScheduler
