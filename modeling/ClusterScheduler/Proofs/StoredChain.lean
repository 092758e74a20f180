import ClusterScheduler.SlotSet.Linked
import ClusterScheduler.Proofs.ChainAssembly
import ClusterScheduler.Proofs.SlotMutation

/-!
# The stored chain of a slot set

A stored slot set keeps its chain as slots by key with explicit links. It stores the chain `S`,
a slot set kept as the list of its slots in order, when each key holds the slot of that id with
the links its place in `S` gives it (`linkFrom`), no key is stored twice, and the bounds, ids,
counter and cache are those of `S` (`Stores`). Every operation on the stored form, run on a set
that stores a well-formed chain, stores what the same operation gives on the list; for a cut this
is the statement that the three slots it relinks carry the links of the cut list
(`Stores.splitAt`). The links of a stored well-formed chain form one chain from the first id to
the last (`ChainedBy`), and the full consistency check passes on it; so both hold after every
mutation (`stored_chain_invariant`).
-/

namespace ClusterScheduler

namespace SlotSet

/-- The slots of `l` with the links their order gives: each names the slot before it (`p` for
the first) and the slot after it (`n` for the last). -/
def linkFrom (p n : Option Int) : List Slot → List LinkedSlot
  | [] => []
  | s :: rest => ⟨s, p, (rest.head?.map Slot.id).or n⟩ :: linkFrom (some s.id) n rest

@[simp] theorem map_slot_linkFrom (p n : Option Int) (l : List Slot) :
    (linkFrom p n l).map (·.slot) = l := by
  induction l generalizing p with
  | nil => rfl
  | cons s rest ih => simp [linkFrom, ih]

theorem map_comp_linkFrom {β : Type} (f : Slot → β) (p n : Option Int) (l : List Slot) :
    (linkFrom p n l).map (fun c => f c.slot) = l.map f := by
  rw [show (fun c : LinkedSlot => f c.slot) = f ∘ LinkedSlot.slot from rfl, ← List.map_map,
    map_slot_linkFrom]

theorem map_id_linkFrom (p n : Option Int) (l : List Slot) :
    (linkFrom p n l).map (·.slot.id) = l.map Slot.id := by
  rw [show (fun c : LinkedSlot => c.slot.id) = Slot.id ∘ LinkedSlot.slot from rfl, ← List.map_map,
    map_slot_linkFrom]

theorem linkFrom_append (p n : Option Int) (A B : List Slot) :
    linkFrom p n (A ++ B) = linkFrom p ((B.head?.map Slot.id).or n) A ++
      linkFrom ((A.getLast?.map Slot.id).or p) n B := by
  induction A generalizing p with
  | nil => simp [linkFrom]
  | cons a A ih =>
    rw [List.cons_append, linkFrom, linkFrom, ih, List.cons_append]
    cases A with
    | nil => simp [linkFrom]
    | cons a' A => simp [List.getLast?_cons]

theorem linkFrom_middle (p n : Option Int) (A B : List Slot) (x : Slot) :
    linkFrom p n (A ++ x :: B) = linkFrom p (some x.id) A ++
      ⟨x, (A.getLast?.map Slot.id).or p, (B.head?.map Slot.id).or n⟩ :: linkFrom (some x.id) n B := by
  rw [linkFrom_append]
  simp [linkFrom]

theorem find?_slot_id {C : List LinkedSlot} (hC : (C.map (·.slot.id)).Nodup) {c : LinkedSlot}
    (hc : c ∈ C) : C.find? (·.slot.id = c.slot.id) = some c := by
  induction C with
  | nil => simp at hc
  | cons a rest ih =>
    rw [List.map_cons, List.nodup_cons] at hC
    rcases List.mem_cons.1 hc with rfl | hc'
    · simp
    · have hne : a.slot.id ≠ c.slot.id := fun h => hC.1 (h ▸ List.mem_map_of_mem hc')
      simp [hne, ih hC.2 hc']

theorem find?_id_cons_of_eq {c : LinkedSlot} {k : Int} (h : c.slot.id = k) (C : List LinkedSlot) :
    (c :: C).find? (·.slot.id = k) = some c := by
  simp [h]

theorem find?_id_cons_of_ne {c : LinkedSlot} {k : Int} (h : c.slot.id ≠ k) (C : List LinkedSlot) :
    (c :: C).find? (·.slot.id = k) = C.find? (·.slot.id = k) := by
  simp [h]

theorem find?_linkFrom_of_not_mem {k : Int} {l : List Slot} (hk : k ∉ l.map Slot.id)
    (p n : Option Int) : (linkFrom p n l).find? (·.slot.id = k) = none := by
  rw [List.find?_eq_none]
  intro c hc hck
  apply hk
  rw [← map_id_linkFrom p n l]
  exact List.mem_map.2 ⟨c, hc, by simpa using hck⟩

theorem find?_linkFrom_isSome {k : Int} {l : List Slot} (hk : k ∈ l.map Slot.id)
    (p n : Option Int) : ((linkFrom p n l).find? (·.slot.id = k)).isSome := by
  rw [← map_id_linkFrom p n l] at hk
  obtain ⟨c, hc, rfl⟩ := List.mem_map.1 hk
  exact List.find?_isSome.2 ⟨c, hc, by simp⟩

theorem find?_linkFrom_middle {p n : Option Int} {A B : List Slot} {x : Slot}
    (hd : ((A ++ x :: B).map Slot.id).Nodup) : (linkFrom p n (A ++ x :: B)).find? (·.slot.id = x.id) =
      some ⟨x, (A.getLast?.map Slot.id).or p, (B.head?.map Slot.id).or n⟩ := by
  have h := find?_slot_id (C := linkFrom p n (A ++ x :: B)) (by rw [map_id_linkFrom]; exact hd)
    (c := ⟨x, (A.getLast?.map Slot.id).or p, (B.head?.map Slot.id).or n⟩)
    (by rw [linkFrom_middle]; simp)
  exact h

theorem isChain_next_linkFrom (n : Option Int) : ∀ (p : Option Int) (l : List Slot),
    (linkFrom p n l).IsChain fun a b => a.next = some b.slot.id
  | _, [] => .nil
  | _, [_] => .singleton _
  | p, s :: t :: rest => by
    rw [linkFrom, linkFrom, List.isChain_cons_cons]
    refine ⟨rfl, ?_⟩
    have h := isChain_next_linkFrom n (some s.id) (t :: rest)
    rwa [linkFrom] at h

theorem getLast?_linkFrom_next (n : Option Int) : ∀ (p : Option Int) (l : List Slot),
    ∀ c ∈ (linkFrom p n l).getLast?, c.next = n
  | _, [] => by simp [linkFrom]
  | _, [_] => by simp [linkFrom]
  | p, s :: t :: rest => by
    intro c hc
    obtain ⟨x, hx⟩ : ∃ x, (linkFrom (some s.id) n (t :: rest)).getLast? = some x :=
      Option.isSome_iff_exists.1 (by simp [linkFrom])
    have hlast : (linkFrom p n (s :: t :: rest)).getLast? = some x := by
      rw [linkFrom, List.getLast?_cons, hx]
      rfl
    rw [hlast] at hc
    cases hc
    exact getLast?_linkFrom_next n (some s.id) (t :: rest) c hx

theorem checked_linkFrom (n : Option Int) : ∀ (prev : Option LinkedSlot) (l : List Slot),
    (∀ s ∈ l, s.begin ≤ s.end) → l.IsChain Abut →
    (∀ q ∈ prev, ∀ s ∈ l.head?, q.slot.end + 1 = s.begin) →
    Checked prev (linkFrom (prev.map (·.slot.id)) n l)
  | _, [], _, _, _ => trivial
  | prev, s :: rest, hord, hl, hprev => by
    refine ⟨⟨hord s (by simp), rfl, fun q hq => hprev q hq s rfl⟩, ?_⟩
    refine checked_linkFrom n (some ⟨s, prev.map (·.slot.id), (rest.head?.map Slot.id).or n⟩) rest
      (fun x hx => hord x (by simp [hx])) hl.tail ?_
    intro q hq t ht
    cases hq
    cases rest with
    | nil => cases ht
    | cons u rest =>
      cases ht
      exact (List.isChain_cons_cons.1 hl).1

theorem upTo_of_getLast {b : Int} : ∀ {l : List Slot}, (l.map Slot.id).Nodup →
    (l = [] ∨ l.getLast?.map Slot.id = some b) → upTo b l = l
  | [], _, _ => rfl
  | [x], _, _ => by by_cases h : x.id = b <;> simp [upTo, h]
  | x :: y :: rest, hd, hb => by
    rw [List.map_cons, List.nodup_cons] at hd
    have hlast : (y :: rest).getLast?.map Slot.id = some b := by
      rcases hb with hb | hb
      · cases hb
      · rwa [List.getLast?_cons_cons] at hb
    have hne : x.id ≠ b := by
      intro hx
      obtain ⟨z, hz, hzb⟩ := Option.map_eq_some_iff.1 hlast
      exact hd.1 (hx ▸ hzb ▸ List.mem_map_of_mem (List.mem_of_getLast? hz))
    rw [upTo, if_neg hne, upTo_of_getLast hd.2 (.inr hlast)]

theorem upTo_sublist (b : Int) : ∀ l : List Slot, (upTo b l).Sublist l
  | [] => .slnil
  | x :: rest => by
    rw [upTo]
    split
    · exact (List.nil_sublist rest).cons_cons x
    · exact (upTo_sublist b rest).cons_cons x

@[simp] theorem length_linkFrom (p n : Option Int) (l : List Slot) :
    (linkFrom p n l).length = l.length := by
  rw [← List.length_map (f := LinkedSlot.slot), map_slot_linkFrom]

theorem eq_linkFrom : ∀ {prev : Option LinkedSlot} {C : List LinkedSlot}, Checked prev C →
    C.IsChain (fun a b => a.next = some b.slot.id) → (∀ c ∈ C.getLast?, c.next = none) →
    C = linkFrom (prev.map (·.slot.id)) none (C.map (·.slot))
  | _, [], _, _, _ => rfl
  | prev, ⟨s, p, n⟩ :: rest, hchk, hnext, hstop => by
    have hp : p = prev.map (·.slot.id) := hchk.1.2.1
    have hn : n = (rest.head?.map (·.slot.id)).or none := by
      cases rest with
      | nil => exact hstop _ rfl
      | cons d rest => exact (List.isChain_cons_cons.1 hnext).1
    have ih : rest = linkFrom (some s.id) none (rest.map (·.slot)) := eq_linkFrom hchk.2 hnext.tail
      (fun c hc => hstop c (by cases rest <;> simp_all [List.getLast?_cons_cons]))
    rw [List.map_cons, linkFrom]
    congr 1
    · rw [hp, hn]
      cases rest <;> rfl

theorem id_ne_of_mem_dropLast {C : List LinkedSlot} (hC : (C.map (·.slot.id)).Nodup)
    {z : LinkedSlot} (hz : C.getLast? = some z) : ∀ c ∈ C.dropLast, c.slot.id ≠ z.slot.id := by
  rw [← List.dropLast_append_getLast? z hz, List.map_append, List.nodup_append] at hC
  intro c hc hcz
  exact hC.2.2 _ (List.mem_map_of_mem hc) _ (by simp) hcz

theorem walkChecked_chain {m : List (Int × LinkedSlot)} {stop : Int} :
    ∀ {C : List LinkedSlot} {fuel : Nat} {prev : Option LinkedSlot},
    (∀ c ∈ C, m.lookup c.slot.id = some c) → C.IsChain (fun a b => a.next = some b.slot.id) →
    (∀ c ∈ C.getLast?, c.next = none) → (∀ c ∈ C.dropLast, c.slot.id ≠ stop) →
    Checked prev C → (∀ c ∈ C, Word.i64.lo ≤ c.slot.begin ∧ c.slot.end ≤ Word.i64.hi) →
    C.length < fuel → walkChecked m stop fuel (C.head?.map (·.slot.id)) prev = .ok C
  | [], 0, _, _, _, _, _, _, _, hlen => absurd hlen (Nat.lt_irrefl 0)
  | [], _ + 1, _, _, _, _, _, _, _, _ => walkChecked_succ_of_none rfl
  | _ :: _, 0, _, _, _, _, _, _, _, hlen => absurd hlen (Nat.not_lt_zero _)
  | c :: rest, fuel + 1, prev, hkey, hnext, hstop, hdrop, hchk, htimes, hlen => by
    have hc : (some c.slot.id).bind (fun k => m.lookup k) = some c := hkey c (by simp)
    have hroom : ∀ q ∈ prev, Word.i64.holds (q.slot.end + 1) = true := by
      intro q hq
      have hb := hchk.1.2.2 q hq
      have ht := htimes c (by simp)
      have hord := hchk.1.1
      simp only [Word.holds, decide_eq_true_eq]
      omega
    rw [List.head?_cons, Option.map_some, walkChecked_succ_of_follows hc hchk.1 hroom]
    cases rest with
    | nil =>
      have hn : c.next = none := hstop c rfl
      have hend : (if c.slot.id = stop then none else c.next) = none := by split <;> simp [hn]
      rw [hend]
      cases fuel with
      | zero => simp at hlen
      | succ fuel => rw [walkChecked_succ_of_none rfl]; rfl
    | cons d rest =>
      have hn : c.next = some d.slot.id := (List.isChain_cons_cons.1 hnext).1
      have hne : c.slot.id ≠ stop := hdrop c (by simp)
      rw [if_neg hne, hn]
      have ih := @walkChecked_chain m stop (d :: rest) fuel (some c)
        (fun x hx => hkey x (List.mem_cons_of_mem c hx)) hnext.tail
        (fun x hx => hstop x (by rwa [List.getLast?_cons_cons]))
        (fun x hx => hdrop x (by rw [List.dropLast_cons_cons]; exact List.mem_cons_of_mem c hx))
        hchk.2 (fun x hx => htimes x (List.mem_cons_of_mem c hx)) (by simp at hlen ⊢; omega)
      rw [List.head?_cons, Option.map_some] at ih
      rw [ih]
      rfl

theorem linkFrom_map {h : Slot → Slot} (hh : ∀ s, (h s).id = s.id) : ∀ (p n : Option Int)
    (l : List Slot), linkFrom p n (l.map h) = (linkFrom p n l).map fun c => { c with slot := h c.slot }
  | _, _, [] => rfl
  | p, n, s :: rest => by
    rw [List.map_cons, linkFrom, linkFrom, linkFrom_map hh (some (h s).id) n rest, hh, List.map_cons]
    cases rest <;> simp [hh]

theorem WellFormed.forget {ss : SlotSet} (hw : ss.WellFormed) : ss.forget.WellFormed :=
  ⟨hw.nonempty, hw.ordered, hw.linked, hw.distinct, hw.fresh, hw.counter, hw.times⟩

theorem ChainOf.ids_nodup {m : List (Int × LinkedSlot)} {k : Int} {l : List LinkedSlot}
    (h : ChainOf m k l) : (l.map (·.slot.id)).Nodup :=
  h.checked.nodup.map_on fun x hx y hy hxy => by
    have hy' := h.keyed y hy
    rw [← hxy, h.keyed x hx] at hy'
    exact Option.some.inj hy'

end SlotSet

namespace LinkedSet

open SlotSet

variable {L : LinkedSet} {S : SlotSet}

/-! ## Lookups -/

theorem mem_keys_iff (L : LinkedSet) (k : Int) :
    k ∈ L.slots.map Prod.fst ↔ (L.get? k).isSome := by
  rw [get?, ← Option.ne_none_iff_isSome, Ne, List.lookup_eq_none_iff]
  simp only [bne_iff_ne, ne_eq, not_forall, Classical.not_not, List.mem_map]
  constructor
  · rintro ⟨e, he, rfl⟩
    exact ⟨e, he, rfl⟩
  · rintro ⟨e, he, rfl⟩
    exact ⟨e, he, rfl⟩

theorem lookup_cons_ne {β : Type} {j k : Int} (h : j ≠ k) (b : β) (l : List (Int × β)) :
    ((k, b) :: l).lookup j = l.lookup j := by
  rw [List.lookup_cons, show (j == k) = false by simpa using h]

theorem lookup_filter {β : Type} (j k : Int) (l : List (Int × β)) :
    (l.filter fun e => e.1 != k).lookup j = if j = k then none else l.lookup j := by
  induction l with
  | nil => simp
  | cons e rest ih =>
    obtain ⟨a, b⟩ := e
    rw [List.filter_cons]
    by_cases hak : a = k
    · rw [if_neg (by simp [hak]), ih]
      by_cases hj : j = k
      · rw [if_pos hj, if_pos hj]
      · rw [if_neg hj, if_neg hj, lookup_cons_ne (by rw [hak]; exact hj)]
    · rw [if_pos (by simpa using hak)]
      by_cases hj : j = a
      · rw [if_neg (by rw [hj]; exact hak), hj]
        simp
      · rw [lookup_cons_ne hj, lookup_cons_ne hj, ih]

@[simp] theorem get?_insert (L : LinkedSet) (k j : Int) (s : LinkedSlot) :
    (L.insert k s).get? j = if j = k then some s else L.get? j := by
  simp only [get?, insert, List.lookup_append, lookup_filter]
  by_cases h : j = k
  · subst h
    simp
  · rw [if_neg h, if_neg h, lookup_cons_ne h, List.lookup_nil, Option.or_none]

@[simp] theorem get?_modify (L : LinkedSet) (k j : Int) (f : LinkedSlot → LinkedSlot) :
    (L.modify k f).get? j = if j = k then (L.get? j).map f else L.get? j := by
  simp only [get?, modify]
  induction L.slots with
  | nil => simp
  | cons e rest ih =>
    obtain ⟨a, b⟩ := e
    rw [List.map_cons]
    by_cases hj : j = a
    · subst hj
      by_cases hk : j = k <;> simp [hk]
    · have hkey : (if (a, b).1 = k then ((a, b).1, f (a, b).2) else (a, b)) =
          (a, if a = k then f b else b) := by
        split <;> simp_all
      rw [hkey, lookup_cons_ne hj, lookup_cons_ne hj, ih]

theorem keys_insert_nodup {L : LinkedSet} (h : (L.slots.map Prod.fst).Nodup) (k : Int)
    (s : LinkedSlot) : ((L.insert k s).slots.map Prod.fst).Nodup := by
  simp only [insert, List.map_append, List.map_cons, List.map_nil]
  refine List.nodup_append.2 ⟨h.sublist (List.filter_sublist.map Prod.fst), List.nodup_singleton _, ?_⟩
  intro a ha b hb hab
  simp only [List.mem_singleton] at hb
  subst hb hab
  obtain ⟨e, he, rfl⟩ := List.mem_map.1 ha
  simp at he

theorem keys_modify (L : LinkedSet) (k : Int) (f : LinkedSlot → LinkedSlot) :
    (L.modify k f).slots.map Prod.fst = L.slots.map Prod.fst := by
  simp only [modify, List.map_map]
  exact List.map_congr_left fun e _ => by by_cases h : e.1 = k <;> simp [h]

/-! ## Walking the links -/

theorem walk_none (L : LinkedSet) (stop : Int) (fuel : Nat) : L.walk stop fuel none = [] := by
  cases fuel <;> rfl

theorem walk_chain {stop : Int} : ∀ {C : List LinkedSlot} {fuel : Nat},
    (∀ c ∈ C, L.get? c.slot.id = some c) → C.IsChain (fun a b => a.next = some b.slot.id) →
    (∀ c ∈ C.getLast?, c.next = none) → C.length ≤ fuel →
    (L.walk stop fuel (C.head?.map (·.slot.id))).map (·.slot) = upTo stop (C.map (·.slot))
  | [], fuel, _, _, _, _ => by simp [walk_none, upTo]
  | c :: rest, fuel + 1, hkey, hnext, hstop, hlen => by
    have hc : L.get? c.slot.id = some c := hkey c (by simp)
    by_cases hs : c.slot.id = stop
    · subst hs
      simp [walk, hc, walk_none, upTo]
    · cases rest with
      | nil =>
        have hn : c.next = none := hstop c rfl
        simp [walk, hc, hs, hn, walk_none, upTo]
      | cons d rest =>
        have hn : c.next = some d.slot.id := (List.isChain_cons_cons.1 hnext).1
        have ih := @walk_chain stop (d :: rest) fuel
          (fun x hx => hkey x (List.mem_cons_of_mem c hx)) hnext.tail
          (fun x hx => hstop x (by rwa [List.getLast?_cons_cons])) (by simp at hlen ⊢; omega)
        simp only [List.head?_cons, Option.map_some] at ih
        simp [walk, hc, hs, hn, ih, upTo]

theorem walk_chain_eq {stop : Int} : ∀ {C : List LinkedSlot} {fuel : Nat},
    (∀ c ∈ C, L.get? c.slot.id = some c) → C.IsChain (fun a b => a.next = some b.slot.id) →
    (∀ c ∈ C.getLast?, c.next = none) → (∀ c ∈ C.dropLast, c.slot.id ≠ stop) →
    C.length ≤ fuel → L.walk stop fuel (C.head?.map (·.slot.id)) = C
  | [], fuel, _, _, _, _, _ => walk_none L stop fuel
  | c :: rest, fuel + 1, hkey, hnext, hstop, hdrop, hlen => by
    have hc : L.get? c.slot.id = some c := hkey c (by simp)
    cases rest with
    | nil =>
      have hend : (if c.slot.id = stop then none else c.next) = none := by
        split
        · rfl
        · exact hstop c rfl
      simp [walk, hc, hend, walk_none]
    | cons d rest =>
      have hn : c.next = some d.slot.id := (List.isChain_cons_cons.1 hnext).1
      have hne : c.slot.id ≠ stop := hdrop c (by simp)
      have ih := @walk_chain_eq stop (d :: rest) fuel
        (fun x hx => hkey x (List.mem_cons_of_mem c hx)) hnext.tail
        (fun x hx => hstop x (by rwa [List.getLast?_cons_cons]))
        (fun x hx => hdrop x (by rw [List.dropLast_cons_cons]; exact List.mem_cons_of_mem c hx))
        (by simp at hlen ⊢; omega)
      rw [List.head?_cons, Option.map_some] at ih
      simp [walk, hc, hne, hn, ih]

/-! ## Storing a chain -/

/-- `L` stores the chain `S`: each key holds the slot of that id with the links its place in `S`
gives it, no key is stored twice, and the bounds, the first and last ids, the id counter and the
cache are those of `S`. -/
structure Stores (L : LinkedSet) (S : SlotSet) : Prop where
  keys : (L.slots.map Prod.fst).Nodup
  get?_eq : ∀ k, L.get? k = (linkFrom none none S.slots).find? (·.slot.id = k)
  begin_eq : L.begin = S.begin
  end_eq : L.end = S.end
  firstId_eq : L.firstId = S.firstId
  lastId_eq : L.lastId = S.lastId
  nextId_eq : L.nextId = S.nextId
  cache_eq : L.cache = S.cache

theorem Stores.slot?_eq (hS : L.Stores S) (k : Int) : L.slot? k = S.slot? k := by
  have h := List.find?_map (p := fun s : Slot => decide (s.id = k)) (f := LinkedSlot.slot)
    (l := linkFrom none none S.slots)
  rw [map_slot_linkFrom] at h
  rw [slot?, hS.get?_eq, SlotSet.slot?, h]
  rfl

theorem Stores.keyed (hS : L.Stores S) (hw : S.WellFormed) :
    ∀ c ∈ linkFrom none none S.slots, L.get? c.slot.id = some c := by
  intro c hc
  rw [hS.get?_eq]
  exact find?_slot_id (by rw [map_id_linkFrom]; exact hw.distinct) hc

theorem Stores.mem_keys (hS : L.Stores S) (k : Int) :
    k ∈ L.slots.map Prod.fst ↔ k ∈ S.slots.map Slot.id := by
  rw [mem_keys_iff, hS.get?_eq]
  constructor
  · intro h
    by_contra hk
    rw [find?_linkFrom_of_not_mem hk] at h
    cases h
  · exact fun hk => find?_linkFrom_isSome hk none none

theorem Stores.length_eq (hS : L.Stores S) (hw : S.WellFormed) :
    L.slots.length = S.slots.length := by
  have hperm : (L.slots.map Prod.fst).Perm (S.slots.map Slot.id) :=
    (List.perm_ext_iff_of_nodup hS.keys hw.distinct).2 hS.mem_keys
  simpa using hperm.length_eq

theorem Stores.first (hS : L.Stores S) (hw : S.WellFormed) : L.slot? L.firstId = S.first? := by
  obtain ⟨x, hx, hfx, -⟩ := hw.first
  have hid : S.firstId = x.id := by simp [SlotSet.firstId, hfx]
  rw [hS.slot?_eq, hS.firstId_eq, hid, hw.slot?_of_mem hx, hfx]

theorem Stores.last (hS : L.Stores S) (hw : S.WellFormed) : L.slot? L.lastId = S.last? := by
  obtain ⟨z, hz, hlz, -⟩ := hw.last
  have hid : S.lastId = z.id := by simp [SlotSet.lastId, hlz]
  rw [hS.slot?_eq, hS.lastId_eq, hid, hw.slot?_of_mem hz, hlz]

theorem Stores.between (hS : L.Stores S) (hw : S.WellFormed) (a b : Int) :
    (L.between a b).map LinkedSlot.slot = upTo b (S.from? a) := by
  by_cases ha : ∃ x ∈ S.slots, x.id = a
  · obtain ⟨x, hx, rfl⟩ := ha
    obtain ⟨pre, post, hl⟩ := List.append_of_mem hx
    -- the walk starts on the links of the slots from `x` on, a part of the stored chain
    have hC : linkFrom none none S.slots = linkFrom none (some x.id) pre ++
        linkFrom ((pre.getLast?.map Slot.id).or none) none (x :: post) := by
      rw [hl, linkFrom_append]
      rfl
    have hkey : ∀ c ∈ linkFrom ((pre.getLast?.map Slot.id).or none) none (x :: post),
        L.get? c.slot.id = some c :=
      fun c hc => hS.keyed hw c (by rw [hC]; exact List.mem_append_right _ hc)
    have hlen : (linkFrom ((pre.getLast?.map Slot.id).or none) none (x :: post)).length ≤
        L.slots.length := by
      rw [hS.length_eq hw, hl]
      simp
    have h : (L.walk b L.slots.length (some x.id)).map LinkedSlot.slot = upTo b (x :: post) := by
      have h := @walk_chain L b _ _ hkey (isChain_next_linkFrom none _ _)
        (getLast?_linkFrom_next none _ _) hlen
      simpa [linkFrom] using h
    rw [LinkedSet.between, h, hw.from?_eq hl]
  · push Not at ha
    have hnone : L.get? a = none := by
      rw [hS.get?_eq]
      exact find?_linkFrom_of_not_mem (by simpa using ha) none none
    have hfrom : S.from? a = [] := by
      rw [from?, List.dropWhile_eq_nil_iff]
      intro x hx
      simpa using ha x hx
    have hwalk : L.walk b L.slots.length (some a) = [] := by
      cases L.slots.length with
      | zero => rfl
      | succ n => simp [walk, hnone]
    rw [LinkedSet.between, hwalk, hfrom]
    rfl

theorem upTo_lastId_from (hw : S.WellFormed) (a : Int) : upTo S.lastId (S.from? a) = S.from? a := by
  by_cases ha : ∃ x ∈ S.slots, x.id = a
  · obtain ⟨x, hx, rfl⟩ := ha
    obtain ⟨pre, post, hl⟩ := List.append_of_mem hx
    have hd := hl ▸ hw.distinct
    rw [hw.from?_eq hl]
    refine upTo_of_getLast ?_ (.inr ?_)
    · rw [List.map_append] at hd
      exact (List.nodup_append.1 hd).2.1
    · obtain ⟨y, hy⟩ : ∃ y, (x :: post).getLast? = some y := Option.isSome_iff_exists.1 (by simp)
      have hlast : S.slots.getLast? = some y := by
        rw [hl, List.getLast?_append_of_ne_nil _ (List.cons_ne_nil _ _), hy]
      simp [SlotSet.lastId, last?, hlast, hy]
  · push Not at ha
    have hfrom : S.from? a = [] := by
      rw [from?, List.dropWhile_eq_nil_iff]
      intro x hx
      simpa using ha x hx
    rw [hfrom]
    rfl

theorem Stores.slotAt (hS : L.Stores S) (hw : S.WellFormed) (t : Int) (start : Option Int) :
    (L.slotAt t start).map LinkedSlot.slot = S.slotAt t start := by
  have hb := hS.between hw (start.getD L.firstId) L.lastId
  rw [hS.lastId_eq, hS.firstId_eq, upTo_lastId_from hw] at hb
  rw [LinkedSet.slotAt, SlotSet.slotAt, hS.firstId_eq, hS.lastId_eq, ← hb, List.takeWhile_map,
    List.find?_map]
  rfl

theorem Stores.encompassing (hS : L.Stores S) (hw : S.WellFormed) (b e : Int)
    (start : Option Int) :
    (L.encompassing b e start).map (Prod.map LinkedSlot.slot LinkedSlot.slot) =
      S.encompassing b e start := by
  have hb : (if b < L.begin then L.get? L.firstId else L.slotAt b start).map LinkedSlot.slot =
      if b < S.begin then S.first? else S.slotAt b start := by
    rw [hS.begin_eq]
    split
    · exact hS.first hw
    · exact hS.slotAt hw b start
  have hl : ∀ o : Option LinkedSlot,
      (if L.end < e then L.get? L.lastId else L.slotAt e (o.map (·.slot.id))).map LinkedSlot.slot =
        if S.end < e then S.last? else S.slotAt e ((o.map LinkedSlot.slot).map Slot.id) := by
    intro o
    rw [hS.end_eq, Option.map_map]
    split
    · exact hS.last hw
    · exact hS.slotAt hw e _
  simp only [LinkedSet.encompassing, SlotSet.encompassing]
  rw [← hb, ← hl]
  generalize (if b < L.begin then L.get? L.firstId else L.slotAt b start) = ob
  cases ob with
  | none => rfl
  | some x =>
    generalize (if L.end < e then L.get? L.lastId else L.slotAt e ((some x).map (·.slot.id))) = ol
    cases ol <;> rfl

theorem Stores.assertConsistency (hS : L.Stores S) (hw : S.WellFormed) :
    L.assertConsistency = .ok () := by
  have hd : ((linkFrom none none S.slots).map (·.slot.id)).Nodup := by
    rw [map_id_linkFrom]; exact hw.distinct
  obtain ⟨x, rest, hl⟩ := List.exists_cons_of_ne_nil hw.nonempty
  obtain ⟨z, hz, hlz, hze⟩ := hw.last
  have hfirst : L.firstId = x.id := by rw [hS.firstId_eq]; simp [SlotSet.firstId, first?, hl]
  have hhead : (linkFrom none none S.slots).head?.map (·.slot.id) = some L.firstId := by
    rw [hfirst, hl]; simp [linkFrom]
  obtain ⟨c, hc⟩ : ∃ c, (linkFrom none none S.slots).getLast? = some c :=
    Option.isSome_iff_exists.1 (by
      rw [List.getLast?_isSome, ← List.length_pos_iff, length_linkFrom, List.length_pos_iff]
      exact hw.nonempty)
  have hcz : c.slot = z := by
    have h := congrArg (Option.map LinkedSlot.slot) hc
    rw [← List.getLast?_map, map_slot_linkFrom, show S.slots.getLast? = some z from hlz] at h
    exact (Option.some.inj h).symm
  have hlast : c.slot.id = L.lastId := by rw [hS.lastId_eq, hcz]; simp [SlotSet.lastId, hlz]
  have hwalk : SlotSet.walkChecked L.slots L.lastId (L.slots.length + 1) (some L.firstId) none =
      .ok (linkFrom none none S.slots) := by
    rw [← hhead]
    refine walkChecked_chain (hS.keyed hw) (isChain_next_linkFrom none none S.slots)
      (getLast?_linkFrom_next none none S.slots) ?_
      (checked_linkFrom none none S.slots hw.ordered hw.linked (by simp)) ?_ ?_
    · intro d hd'
      rw [← hlast]
      exact id_ne_of_mem_dropLast hd hc d hd'
    · intro d hd'
      have := hw.times d.slot (by rw [← map_slot_linkFrom none none S.slots]; exact List.mem_map_of_mem hd')
      exact this
    · rw [hS.length_eq hw, length_linkFrom]
      omega
  obtain ⟨f, hf, hfx⟩ : ∃ f, L.get? L.firstId = some f ∧ f.slot = x := by
    have h := hS.first hw
    rw [slot?, show S.first? = some x by simp [first?, hl], Option.map_eq_some_iff] at h
    exact h
  have hbegin : f.slot.begin = L.begin := by rw [hfx, hS.begin_eq]; simp [SlotSet.begin, first?, hl]
  have hend : c.slot.end = L.end := by rw [hcz, hS.end_eq, ← hze]
  have hlen : (linkFrom none none S.slots).length = L.slots.length := by
    rw [hS.length_eq hw, length_linkFrom]
  simp only [LinkedSet.assertConsistency, hwalk, except_ok_bind, hf, hc, pure_bind, hbegin, hlast,
    hend, hlen, ne_eq, not_true_eq_false, if_false]
  rfl

/-! ## Cutting a stored slot -/

@[simp] theorem get?_setLastId (L : LinkedSet) (n k : Int) :
    ({ L with lastId := n } : LinkedSet).get? k = L.get? k := rfl

@[simp] theorem get?_setNextId (L : LinkedSet) (n k : Int) :
    ({ L with nextId := n } : LinkedSet).get? k = L.get? k := rfl

/-- What a cut at `t` strictly inside the slot `c` stored under `id` leaves: three slots written
and every other key as it was. The slot cut ends before `t` and links on to the fresh id; the
fresh slot runs from `t` to the old end, links back to the slot cut and on to its old next slot;
that next slot's `prev` link moves to the fresh id, or, when the slot cut was the last, the last
id moves to the fresh one. The counter takes one step. -/
structure Relinked (L L' : LinkedSet) (id t : Int) (c : LinkedSlot) : Prop where
  get?_eq : ∀ j, L'.get? j =
    if j = L.nextId then some ⟨c.slot.copy L.nextId t c.slot.end, some c.slot.id, c.next⟩
    else if j = id then some ⟨{ c.slot with «end» := t - 1 }, c.prev, some L.nextId⟩
    else if some j = c.next then (L.get? j).map fun u => { u with prev := some L.nextId }
    else L.get? j
  keys : (L.slots.map Prod.fst).Nodup → (L'.slots.map Prod.fst).Nodup
  begin_eq : L'.begin = L.begin
  end_eq : L'.end = L.end
  firstId_eq : L'.firstId = L.firstId
  lastId_eq : L'.lastId = if c.next = none then L.nextId else L.lastId
  nextId_eq : L'.nextId = L.nextId + 1
  cache_eq : L'.cache = L.cache

theorem splitAt_relinks {id t : Int} {c : LinkedSlot} (hc : L.get? id = some c)
    (hlo : c.slot.begin < t) (hhi : t ≤ c.slot.end)
    (hroom : Word.i32.add L.nextId 1 = .ok (L.nextId + 1)) (hnext : c.next ≠ some id) :
    ∃ L', L.splitAt id t = .ok (L', L.nextId) ∧ L.Relinked L' id t c := by
  have hin : ¬¬(c.slot.begin ≤ t ∧ t ≤ c.slot.end) := fun h => h ⟨Int.le_of_lt hlo, hhi⟩
  have hne : t ≠ c.slot.begin := Int.ne_of_gt hlo
  cases hn : c.next with
  | none =>
    simp only [splitAt, hc, hin, hne, if_false, hn, hroom, except_ok_bind]
    refine ⟨_, rfl, ⟨fun j => ?_, fun hk => keys_insert_nodup (keys_insert_nodup hk _ _) _ _,
      rfl, rfl, rfl, by simp [insert, hn], rfl, rfl⟩⟩
    simp only [get?_setNextId, get?_insert, get?_setLastId, hn, reduceCtorEq, if_false]
  | some k =>
    have hk : k ≠ id := fun h => hnext (by rw [hn, h])
    simp only [splitAt, hc, hin, hne, if_false, hn, hroom, except_ok_bind]
    refine ⟨_, rfl, ⟨fun j => ?_, fun hkeys => keys_insert_nodup ?_ _ _,
      rfl, rfl, rfl, by simp [insert, modify, hn], rfl, rfl⟩⟩
    · simp only [get?_setNextId, get?_insert, get?_modify, hn, Option.some.injEq]
      by_cases hjf : j = L.nextId
      · simp [hjf]
      · by_cases hjk : j = k
        · subst hjk
          simp [hjf, hk]
        · by_cases hjid : j = id
          · simp [hjid, Ne.symm hk]
          · simp [hjf, hjk, hjid]
    · rw [keys_modify]
      exact keys_insert_nodup hkeys _ _

/-- Linking a list cut at one slot links it as a cut on the stored form relinks: the fresh id
finds the right part, the id of the slot cut its left part, the slot after it moves its `prev`
link to the fresh id, and every other key finds what it found before. -/
theorem find?_linkFrom_cut {pre post : List Slot} {s : Slot} {n t j : Int}
    (hd : ((pre ++ s :: post).map Slot.id).Nodup) (hids : ∀ x ∈ pre ++ s :: post, x.id < n) :
    (linkFrom none none (pre ++ { s with «end» := t - 1 } :: s.copy n t s.end :: post)).find?
        (·.slot.id = j) =
      if j = n then some ⟨s.copy n t s.end, some s.id, post.head?.map Slot.id⟩
      else if j = s.id then some ⟨{ s with «end» := t - 1 }, pre.getLast?.map Slot.id, some n⟩
      else if some j = post.head?.map Slot.id then
        ((linkFrom none none (pre ++ s :: post)).find? (·.slot.id = j)).map
          fun u => { u with prev := some n }
      else (linkFrom none none (pre ++ s :: post)).find? (·.slot.id = j) := by
  have hsf : s.id ≠ n := Int.ne_of_lt (hids s (by simp))
  rw [linkFrom_middle none none pre post s, linkFrom_middle none none pre _ { s with «end» := t - 1 }]
  simp only [List.find?_append, linkFrom, Option.or_none, List.head?_cons, Option.map_some,
    Slot.copy_id]
  by_cases hj : j ∈ pre.map Slot.id
  · have hjf : j ≠ n := by
      obtain ⟨x, hx, rfl⟩ := List.mem_map.1 hj
      exact Int.ne_of_lt (hids x (by simp [hx]))
    have hjs : j ≠ s.id := by
      rintro rfl
      exact List.disjoint_of_nodup_append (by simpa using hd) hj (by simp)
    have hjn : some j ≠ post.head?.map Slot.id := by
      intro hjn
      obtain ⟨y, hy, rfl⟩ := Option.map_eq_some_iff.1 hjn.symm
      exact List.disjoint_of_nodup_append (by simpa using hd) hj
        (List.mem_cons_of_mem _ (List.mem_map_of_mem (List.mem_of_mem_head? hy)))
    obtain ⟨c, hc⟩ := Option.isSome_iff_exists.1 (find?_linkFrom_isSome hj none (some s.id))
    simp [hjf, hjs, hjn, hc]
  · rw [find?_linkFrom_of_not_mem hj, Option.none_or, Option.none_or]
    by_cases hjf : j = n
    · -- the fresh id holds the right part of the cut
      subst hjf
      rw [if_pos rfl, find?_id_cons_of_ne hsf, find?_id_cons_of_eq (k := j) rfl]
    · rw [if_neg hjf]
      by_cases hjs : j = s.id
      · -- the slot cut keeps its id and its `prev` link, and links on to the fresh id
        subst hjs
        rw [if_pos rfl, find?_id_cons_of_eq (k := s.id) rfl]
      · -- any other key holds what it held, but a `prev` link to the slot cut now names the
        -- fresh id
        rw [if_neg hjs, find?_id_cons_of_ne (Ne.symm hjs), find?_id_cons_of_ne (Ne.symm hjf),
          find?_id_cons_of_ne (Ne.symm hjs)]
        cases post with
        | nil => simp [linkFrom]
        | cons y ys =>
          simp only [linkFrom, List.head?_cons, Option.map_some, Option.some.injEq]
          by_cases hjy : j = y.id
          · subst hjy
            rw [if_pos rfl, find?_id_cons_of_eq (k := y.id) rfl, find?_id_cons_of_eq (k := y.id) rfl]
            rfl
          · rw [if_neg hjy, find?_id_cons_of_ne (Ne.symm hjy), find?_id_cons_of_ne (Ne.symm hjy)]

/-- A cut on a set storing a well-formed chain stores the cut chain: the three slots the cut
relinks carry the links of the cut list. -/
theorem Stores.splitAt (hS : L.Stores S) (hw : S.WellFormed) {id t k : Int} {S' : SlotSet}
    (h : S.splitAt id t = .ok (S', k)) :
    ∃ L', L.splitAt id t = .ok (L', k) ∧ L'.Stores S' ∧ S'.WellFormed := by
  obtain ⟨s, hs, hlo, hhi, hroom⟩ := splitAt_returned h
  obtain ⟨hmem, rfl⟩ := mem_of_slot? hs
  obtain ⟨pre, post, hl⟩ := List.append_of_mem hmem
  have hd : ((pre ++ s :: post).map Slot.id).Nodup := hl ▸ hw.distinct
  have hget : L.get? s.id = some ⟨s, pre.getLast?.map Slot.id, post.head?.map Slot.id⟩ := by
    rw [hS.get?_eq, hl, find?_linkFrom_middle hd]
    simp
  rcases Int.lt_or_eq_of_le hlo with hlt | rfl
  swap
  · -- a cut at the slot's beginning changes nothing
    rw [splitAt_at_begin hw hmem] at h
    obtain ⟨rfl, rfl⟩ := Prod.mk.inj (Except.ok.inj h)
    exact ⟨L, by simp [LinkedSet.splitAt, hget, hhi], hS, hw⟩
  -- a cut inside the slot: the list is cut in two, and the stored links are relinked
  have hcut := splitAt_eq_cut hw hmem hlt hhi (hroom hlt)
  rw [h, hl, flatMap_replace hd] at hcut
  obtain ⟨rfl, rfl⟩ := Prod.mk.inj (Except.ok.inj hcut)
  have hR := recut_cut hw hl hlt hhi (hroom hlt)
  have hids : ∀ x ∈ pre ++ s :: post, x.id < S.nextId := fun x hx => hw.fresh x (hl ▸ hx)
  have hnodup := List.nodup_append.1 (by simpa using hd : (pre.map Slot.id ++ s.id :: post.map Slot.id).Nodup)
  have hsp : s.id ∉ post.map Slot.id := (List.nodup_cons.1 hnodup.2.1).1
  have hnext : post.head?.map Slot.id ≠ some s.id := by
    intro hn
    obtain ⟨y, hy, hys⟩ := Option.map_eq_some_iff.1 hn
    exact hsp (hys ▸ List.mem_map_of_mem (List.mem_of_mem_head? hy))
  have hadd : Word.i32.add L.nextId 1 = .ok (L.nextId + 1) := by
    rw [hS.nextId_eq]
    exact Word.add_ok ⟨by have := hw.counter.1; omega, by have := hroom hlt; omega⟩
  obtain ⟨L', hrun, hrel⟩ := splitAt_relinks hget hlt hhi hadd hnext
  have hslots : pre ++ [{ s with «end» := t - 1 }, s.copy S.nextId t s.end] ++ post =
      pre ++ { s with «end» := t - 1 } :: s.copy S.nextId t s.end :: post := by simp
  refine ⟨L', by rw [← hS.nextId_eq]; exact hrun, ⟨hrel.keys hS.keys, fun j => ?_, ?_, ?_, ?_, ?_, ?_,
    ?_⟩, by rw [hslots]; exact hR.wellFormed⟩
  · rw [hrel.get?_eq j, hS.get?_eq, hS.nextId_eq, hl, hslots, find?_linkFrom_cut hd hids]
  · rw [hrel.begin_eq, hS.begin_eq, ← hR.begin_eq, hslots]
  · rw [hrel.end_eq, hS.end_eq, ← hR.end_eq, hslots]
  · rw [hrel.firstId_eq, hS.firstId_eq]
    simp only [SlotSet.firstId, first?, hl]
    cases pre <;> rfl
  · rw [hrel.lastId_eq, hS.lastId_eq, hS.nextId_eq]
    simp only [SlotSet.lastId, last?, hl]
    cases post with
    | nil => simp
    | cons y ys => simp
  · rw [hrel.nextId_eq, hS.nextId_eq]
  · rw [hrel.cache_eq, hS.cache_eq]

theorem Stores.splitRange (hS : L.Stores S) (hw : S.WellFormed) {b e : Int} {start : Option Int}
    {r : Option (SlotSet × Int × Int)} (h : S.splitRange b e start = .ok r) :
    ∃ r', L.splitRange b e start = .ok r' ∧
      Option.Rel (fun x y => x.1.Stores y.1 ∧ y.1.WellFormed ∧ x.2 = y.2) r' r := by
  have henc := hS.encompassing hw b e start
  cases hSe : S.encompassing b e start with
  | none =>
    rw [splitRange_of_none hSe] at h
    cases h
    rw [hSe, Option.map_eq_none_iff] at henc
    exact ⟨none, by rw [LinkedSet.splitRange, henc], .none⟩
  | some p =>
    obtain ⟨bs, ls⟩ := p
    rw [hSe] at henc
    obtain ⟨⟨bL, lL⟩, hLe, hpair⟩ := Option.map_eq_some_iff.1 henc
    simp only [Prod.map, Prod.mk.injEq] at hpair
    obtain ⟨rfl, rfl⟩ := hpair
    unfold SlotSet.splitRange at h
    rw [hSe] at h
    dsimp only at h
    rw [except_ite_bind] at h
    obtain ⟨⟨S₁, f⟩, h₁, h⟩ := except_bind_eq_ok h
    dsimp only at h
    -- the cut at the range's beginning
    obtain ⟨L₁, hL₁, hS₁, hw₁⟩ : ∃ L₁, (if bL.slot.begin < b then L.splitAt bL.slot.id b
        else pure (L, bL.slot.id)) = .ok (L₁, f) ∧ L₁.Stores S₁ ∧ S₁.WellFormed := by
      split at h₁
      · obtain ⟨L₁, hL, hS₁, hw₁⟩ := hS.splitAt hw h₁
        exact ⟨L₁, by rw [if_pos ‹_›]; exact hL, hS₁, hw₁⟩
      · cases h₁
        exact ⟨L, by rw [if_neg ‹_›]; rfl, hS, hw⟩
    -- the cut after the range's end, then the check
    by_cases hlt : e < lL.slot.end
    · rw [if_pos hlt] at h
      obtain ⟨after, hafter, h⟩ := except_bind_eq_ok h
      obtain ⟨⟨S₂, k⟩, h₂, h⟩ := except_bind_eq_ok h
      simp only [pure_bind] at h
      obtain ⟨-, -, h⟩ := except_bind_eq_ok h
      cases h
      obtain ⟨L₂, hL₂, hS₂, hw₂⟩ := hS₁.splitAt hw₁ h₂
      refine ⟨some (L₂, f, if bL.slot.id = lL.slot.id then f else lL.slot.id), ?_,
        .some ⟨hS₂, hw₂, rfl⟩⟩
      rw [LinkedSet.splitRange, hLe]
      dsimp only
      rw [except_ite_bind, hL₁, except_ok_bind]
      simp only [if_pos hlt, hafter, except_ok_bind, hL₂, pure_bind, hS₂.assertConsistency hw₂]
      rfl
    · rw [if_neg hlt] at h
      simp only [pure_bind] at h
      obtain ⟨-, -, h⟩ := except_bind_eq_ok h
      cases h
      refine ⟨some (L₁, f, if bL.slot.id = lL.slot.id then f else lL.slot.id), ?_,
        .some ⟨hS₁, hw₁, rfl⟩⟩
      rw [LinkedSet.splitRange, hLe]
      dsimp only
      rw [except_ite_bind, hL₁, except_ok_bind]
      simp only [if_neg hlt, pure_bind, hS₁.assertConsistency hw₁, except_ok_bind]
      rfl

/-! ## Changing the slots of a range -/

theorem updateIds_cons (L : LinkedSet) (k : Int) (ids : List Int) (f : Slot → Slot) :
    L.updateIds (k :: ids) f = (L.modify k fun c => { c with slot := f c.slot }).updateIds ids f :=
  rfl

theorem updateIds_frame (f : Slot → Slot) : ∀ (ids : List Int) (L : LinkedSet),
    ∃ sl, L.updateIds ids f = { L with slots := sl } ∧ sl.map Prod.fst = L.slots.map Prod.fst
  | [], L => ⟨L.slots, rfl, rfl⟩
  | k :: ids, L => by
    obtain ⟨sl, h, hk⟩ := updateIds_frame f ids (L.modify k fun c => { c with slot := f c.slot })
    exact ⟨sl, by rw [updateIds_cons, h]; rfl, by rw [hk, keys_modify]⟩

theorem get?_updateIds (f : Slot → Slot) : ∀ {ids : List Int}, ids.Nodup → ∀ (L : LinkedSet) (j : Int),
    (L.updateIds ids f).get? j =
      if j ∈ ids then (L.get? j).map (fun c => { c with slot := f c.slot }) else L.get? j
  | [], _, L, j => by simp [updateIds]
  | k :: ids, hids, L, j => by
    rw [List.nodup_cons] at hids
    rw [updateIds_cons, get?_updateIds f hids.2, get?_modify]
    by_cases hjk : j = k
    · subst hjk
      simp [hids.1]
    · simp [hjk]

theorem Stores.updateIds (hS : L.Stores S) {ids : List Int} (hids : ids.Nodup) {g : Slot → Slot}
    (hg : KeepsFrame g) : (L.updateIds ids g).Stores (S.updateIds ids g) := by
  obtain ⟨sl, hL, hkeys⟩ := updateIds_frame g ids L
  have hg' := keepsFrame_ite ids hg
  have hids' : ∀ s, (if ids.contains s.id then g s else s).id = s.id := fun s => (hg' s).1
  refine ⟨?_, fun j => ?_, ?_, ?_, ?_, ?_, ?_, ?_⟩
  · rw [hL]; exact hkeys ▸ hS.keys
  · rw [get?_updateIds g hids, hS.get?_eq]
    show _ = (linkFrom none none (S.slots.map fun t => if ids.contains t.id then g t else t)).find? _
    rw [linkFrom_map hids', List.find?_map]
    have hp : ((fun c : LinkedSlot => decide (c.slot.id = j)) ∘
        fun c : LinkedSlot => ({ c with slot := if ids.contains c.slot.id then g c.slot else c.slot } :
          LinkedSlot)) = fun c => decide (c.slot.id = j) := by
      funext c
      by_cases hc : c.slot.id ∈ ids <;> simp [hc, (hg c.slot).1]
    rw [hp]
    cases hc : (linkFrom none none S.slots).find? (·.slot.id = j) with
    | none => simp
    | some c =>
      have hcj : c.slot.id = j := by simpa using List.find?_some hc
      by_cases hj : j ∈ ids
      · simp [hj, hcj]
      · simp [hj, hcj]
  · rw [hL]; exact hS.begin_eq.trans (begin_map hg' S S.nextId S.cache).symm
  · rw [hL]; exact hS.end_eq.trans (end_map hg' S S.nextId S.cache).symm
  · rw [hL, hS.firstId_eq]
    simp only [SlotSet.firstId, first?, SlotSet.updateIds, List.head?_map, Option.map_map]
    cases S.slots.head? with
    | none => rfl
    | some x => by_cases hx : x.id ∈ ids <;> simp [hx, (hg x).1]
  · rw [hL, hS.lastId_eq]
    simp only [SlotSet.lastId, last?, SlotSet.updateIds, List.getLast?_map, Option.map_map]
    cases S.slots.getLast? with
    | none => rfl
    | some x => by_cases hx : x.id ∈ ids <;> simp [hx, (hg x).1]
  · rw [hL]; exact hS.nextId_eq
  · rw [hL]; exact hS.cache_eq

theorem Stores.forget (hS : L.Stores S) : L.forget.Stores S.forget :=
  ⟨hS.keys, hS.get?_eq, hS.begin_eq, hS.end_eq, hS.firstId_eq, hS.lastId_eq, hS.nextId_eq, rfl⟩

theorem Stores.idsBetween (hS : L.Stores S) (hw : S.WellFormed) (a b : Int) :
    (L.between a b).map (·.slot.id) = S.idsBetween a b := by
  have h := congrArg (List.map Slot.id) (hS.between hw a b)
  rw [List.map_map] at h
  exact h

theorem idsBetween_nodup (hw : S.WellFormed) (a b : Int) : (S.idsBetween a b).Nodup :=
  hw.distinct.sublist (((upTo_sublist b _).trans (List.dropWhile_suffix _).sublist).map Slot.id)

theorem Stores.updateRange (hS : L.Stores S) (hw : S.WellFormed) {r : IdSet} {b e : Int}
    {sub : Bool} {S' : SlotSet} (h : S.updateRange r b e sub = .ok S') :
    ∃ L', L.updateRange r b e sub = .ok L' ∧ L'.Stores S' ∧ S'.WellFormed := by
  unfold SlotSet.updateRange at h
  by_cases hbe : e < b
  · rw [if_pos hbe] at h
    cases h
    exact ⟨L, by rw [LinkedSet.updateRange, if_pos hbe], hS, hw⟩
  · rw [if_neg hbe] at h
    obtain ⟨o, ho, h⟩ := except_bind_eq_ok h
    obtain ⟨o', ho', hrel⟩ := hS.splitRange hw ho
    cases hrel with
    | none =>
      cases h
      exact ⟨L, by rw [LinkedSet.updateRange, if_neg hbe, ho', except_ok_bind]; rfl, hS, hw⟩
    | @some x y hxy =>
      obtain ⟨L₁, f, l⟩ := x
      obtain ⟨S₁, f', l'⟩ := y
      obtain ⟨hS₁, hw₁, hfl⟩ := hxy
      cases hfl
      cases h
      have hS₂ : (if sub then L₁ else L₁.forget).Stores (if sub then S₁ else S₁.forget) := by
        cases sub
        · exact hS₁.forget
        · exact hS₁
      have hw₂ : (if sub then S₁ else S₁.forget).WellFormed := by
        cases sub
        · exact hw₁.forget
        · exact hw₁
      refine ⟨_, by rw [LinkedSet.updateRange, if_neg hbe, ho', except_ok_bind]; rfl, ?_,
        hw₂.map (keepsFrame_ite _ (keepsFrame_resources r sub)) _⟩
      rw [hS₂.idsBetween hw₂]
      exact hS₂.updateIds (idsBetween_nodup hw₂ f l) (keepsFrame_resources r sub)

theorem Stores.commit (hS : L.Stores S) (hw : S.WellFormed) {t d : Int} {r : IdSet}
    {S' : SlotSet} (h : S.commit t d r = .ok S') :
    ∃ L', L.commit t d r = .ok L' ∧ L'.Stores S' ∧ S'.WellFormed := by
  unfold SlotSet.commit at h
  obtain ⟨e₁, h₁, h⟩ := except_bind_eq_ok h
  obtain ⟨e₂, h₂, h⟩ := except_bind_eq_ok h
  obtain ⟨L', hL, hS', hw'⟩ := hS.updateRange hw h
  exact ⟨L', by simp only [LinkedSet.commit, h₁, h₂, except_ok_bind]; exact hL, hS', hw'⟩

theorem Stores.placeJob (hS : L.Stores S) (hw : S.WellFormed) {j : Job} {sub : Bool}
    {start : Option Int} {r : Option (SlotSet × Int × Int)} (h : S.placeJob j sub start = .ok r) :
    ∃ r', L.placeJob j sub start = .ok r' ∧
      Option.Rel (fun x y => x.1.Stores y.1 ∧ y.1.WellFormed ∧ x.2 = y.2) r' r := by
  unfold SlotSet.placeJob at h
  cases ha : j.assignment with
  | none =>
    rw [ha] at h
    cases h
    exact ⟨none, by rw [LinkedSet.placeJob, ha], .none⟩
  | some a =>
    rw [ha] at h
    dsimp only at h
    obtain ⟨o, ho, h⟩ := except_bind_eq_ok h
    obtain ⟨o', ho', hrel⟩ := hS.splitRange hw ho
    cases hrel with
    | none =>
      cases h
      exact ⟨none, by rw [LinkedSet.placeJob, ha]; dsimp only; rw [ho', except_ok_bind]; rfl, .none⟩
    | @some x y hxy =>
      obtain ⟨L₁, f, l⟩ := x
      obtain ⟨S₁, f', l'⟩ := y
      obtain ⟨hS₁, hw₁, hfl⟩ := hxy
      cases hfl
      cases h
      have hS₂ : (if sub then L₁ else L₁.forget).Stores (if sub then S₁ else S₁.forget) := by
        cases sub
        · exact hS₁.forget
        · exact hS₁
      have hw₂ : (if sub then S₁ else S₁.forget).WellFormed := by
        cases sub
        · exact hw₁.forget
        · exact hw₁
      refine ⟨_, by rw [LinkedSet.placeJob, ha]; dsimp only; rw [ho', except_ok_bind]; rfl,
        .some ⟨?_, hw₂.map (keepsFrame_ite _ (keepsFrame_placeOn j a.resources sub)) _, rfl⟩⟩
      dsimp only
      rw [hS₂.idsBetween hw₂]
      exact hS₂.updateIds (idsBetween_nodup hw₂ f l) (keepsFrame_placeOn j a.resources sub)

theorem Stores.placeJobs (sub : Bool) : ∀ (jobs : List Job) {L₀ : LinkedSet} {S₀ S' : SlotSet}
    (start : Option Int), L₀.Stores S₀ → S₀.WellFormed → S₀.placeJobs jobs sub start = .ok S' →
    ∃ L', L₀.placeJobs jobs sub start = .ok L' ∧ L'.Stores S' ∧ S'.WellFormed
  | [], L₀, _, _, _, hS, hw, h => by
    cases h
    exact ⟨L₀, rfl, hS, hw⟩
  | j :: rest, _, _, _, start, hS, hw, h => by
    unfold SlotSet.placeJobs at h
    obtain ⟨o, ho, h⟩ := except_bind_eq_ok h
    obtain ⟨o', ho', hrel⟩ := hS.placeJob hw ho
    cases hrel with
    | none =>
      obtain ⟨L', hL', hS', hw'⟩ := Stores.placeJobs sub rest start hS hw h
      exact ⟨L', by rw [LinkedSet.placeJobs, ho', except_ok_bind]; exact hL', hS', hw'⟩
    | @some x y hxy =>
      obtain ⟨L₁, f, l⟩ := x
      obtain ⟨S₁, f', l'⟩ := y
      obtain ⟨hS₁, hw₁, hfl⟩ := hxy
      cases hfl
      obtain ⟨L', hL', hS', hw'⟩ := Stores.placeJobs sub rest (some f) hS₁ hw₁ h
      exact ⟨L', by rw [LinkedSet.placeJobs, ho', except_ok_bind]; exact hL', hS', hw'⟩

/-! ## Mutations of the stored form -/

/-- Runs a mutation on the stored form; a range cut or a placement that finds no slot leaves the
set as it is. -/
def apply (L : LinkedSet) : Mutation → Except Fault LinkedSet
  | .split id t => (L.splitAt id t).map Prod.fst
  | .splitRange b e h => (L.splitRange b e h).map fun r => (r.map Prod.fst).getD L
  | .subtract r b e => L.subtract r b e
  | .add r b e => L.add r b e
  | .commit t d r => L.commit t d r
  | .place j sub h => (L.placeJob j sub h).map fun r => (r.map Prod.fst).getD L
  | .placeAll js sub h => L.placeJobs js sub h

/-- A mutation of the stored form of a well-formed chain stores what the same mutation gives on
the chain. -/
theorem Stores.apply (hS : L.Stores S) (hw : S.WellFormed) {m : Mutation} {S' : SlotSet}
    (h : m.run S = .ok S') : ∃ L', L.apply m = .ok L' ∧ L'.Stores S' ∧ S'.WellFormed := by
  cases m with
  | split id t =>
    obtain ⟨⟨S₁, k⟩, h₁, rfl⟩ := except_map_eq_ok h
    obtain ⟨L₁, hL, hS₁, hw₁⟩ := hS.splitAt hw h₁
    exact ⟨L₁, by simp [LinkedSet.apply, hL, Except.map], hS₁, hw₁⟩
  | splitRange b e hint =>
    obtain ⟨o, ho, rfl⟩ := except_map_eq_ok h
    obtain ⟨o', ho', hrel⟩ := hS.splitRange hw ho
    cases hrel with
    | none => exact ⟨L, by simp [LinkedSet.apply, ho', Except.map], hS, hw⟩
    | @some x y hxy => exact ⟨x.1, by simp [LinkedSet.apply, ho', Except.map], hxy.1, hxy.2.1⟩
  | subtract r b e => exact hS.updateRange hw h
  | add r b e => exact hS.updateRange hw h
  | commit t d r => exact hS.commit hw h
  | place j sub hint =>
    obtain ⟨o, ho, rfl⟩ := except_map_eq_ok h
    obtain ⟨o', ho', hrel⟩ := hS.placeJob hw ho
    cases hrel with
    | none => exact ⟨L, by simp [LinkedSet.apply, ho', Except.map], hS, hw⟩
    | @some x y hxy => exact ⟨x.1, by simp [LinkedSet.apply, ho', Except.map], hxy.1, hxy.2.1⟩
  | placeAll js sub hint => exact Stores.placeJobs sub js hint hS hw h

theorem stores_new (r : IdSet) (b : Int) : (LinkedSet.new r b).Stores (SlotSet.new r b) := by
  refine ⟨by simp [LinkedSet.new], fun k => ?_, rfl, rfl, rfl, rfl, rfl, rfl⟩
  by_cases hk : k = 1
  · subst hk
    rfl
  · simp [LinkedSet.new, get?, SlotSet.new, single, linkFrom, lookup_cons_ne hk, Ne.symm hk]

theorem Stores.ofSlot {s : Slot} {S : SlotSet} (h : SlotSet.ofSlot s = .ok S) :
    ∃ L, LinkedSet.ofSlot s = .ok L ∧ L.Stores S := by
  unfold SlotSet.ofSlot at h
  obtain ⟨n, hn, h⟩ := except_bind_eq_ok h
  cases h
  refine ⟨_, by simp only [LinkedSet.ofSlot, hn, except_ok_bind]; rfl,
    ⟨by simp, fun k => ?_, rfl, rfl, rfl, rfl, rfl, rfl⟩⟩
  by_cases hk : k = s.id
  · subst hk
    simp [get?, linkFrom]
  · simp [get?, linkFrom, lookup_cons_ne hk, Ne.symm hk]

/-! ## The chain invariant of the stored form -/

/-- The stored slots form one well-formed chain, listed in order by `chain`: walking the links
from the first id up to the last id meets exactly its slots; it starts at the first id, each of
its slots is stored under its own id, links on to the next one (the last to none) and back to
the one before (the first to none), is ordered and begins right after the one before ends; every
key is the id of one of its slots and no key is stored twice; it ends at the last id and spans
the set's bounds; every key is below the id counter; ids and times are 32- and 64-bit values. -/
structure ChainedBy (L : LinkedSet) (chain : List LinkedSlot) : Prop where
  walk : L.between L.firstId L.lastId = chain
  links : ChainOf L.slots L.firstId chain
  keys : (L.slots.map Prod.fst).Nodup
  last : chain.getLast?.map (·.slot.id) = some L.lastId
  begin_eq : chain.head?.map (·.slot.begin) = some L.begin
  end_eq : chain.getLast?.map (·.slot.end) = some L.end
  fresh : ∀ k ∈ L.slots.map Prod.fst, k < L.nextId
  counter : Word.i32.lo ≤ L.nextId ∧ L.nextId ≤ Word.i32.hi
  times : ∀ s ∈ chain, Word.i64.lo ≤ s.slot.begin ∧ s.slot.end ≤ Word.i64.hi

def WellFormed (L : LinkedSet) : Prop := ∃ chain, L.ChainedBy chain

theorem Stores.chainedBy (hS : L.Stores S) (hw : S.WellFormed) :
    L.ChainedBy (linkFrom none none S.slots) := by
  obtain ⟨x, rest, hl⟩ := List.exists_cons_of_ne_nil hw.nonempty
  obtain ⟨z, hz, hlz, hze⟩ := hw.last
  have hd : ((linkFrom none none S.slots).map (·.slot.id)).Nodup := by
    rw [map_id_linkFrom]; exact hw.distinct
  have hmem : ∀ c ∈ linkFrom none none S.slots, c.slot ∈ S.slots := fun c hc => by
    rw [← map_slot_linkFrom none none S.slots]; exact List.mem_map_of_mem hc
  have hfirst : S.firstId = x.id := by simp [SlotSet.firstId, first?, hl]
  have hlast : S.lastId = z.id := by simp [SlotSet.lastId, hlz]
  have hlz' : S.slots.getLast? = some z := hlz
  refine ⟨?walk, ⟨?start, hS.keyed hw, isChain_next_linkFrom none none S.slots,
    getLast?_linkFrom_next none none S.slots,
    checked_linkFrom none none S.slots hw.ordered hw.linked (by simp), ?complete⟩, hS.keys, ?last,
    ?hbegin, ?hend, ?fresh, hS.nextId_eq ▸ hw.counter, fun c hc => hw.times c.slot (hmem c hc)⟩
  case start => rw [hS.firstId_eq, hfirst, hl]; simp [linkFrom]
  case complete =>
    intro k hk
    rw [map_id_linkFrom]
    exact (hS.mem_keys k).1 hk
  case last => rw [← List.getLast?_map, map_id_linkFrom, List.getLast?_map, hlz', hS.lastId_eq, hlast]; rfl
  case hbegin =>
    rw [← List.head?_map, map_comp_linkFrom Slot.begin, List.head?_map, hS.begin_eq]
    simp [SlotSet.begin, first?, hl]
  case hend =>
    rw [← List.getLast?_map, map_comp_linkFrom Slot.end, List.getLast?_map, hS.end_eq]
    simp [SlotSet.end, last?, hlz']
  case fresh =>
    intro k hk
    obtain ⟨y, hy, rfl⟩ := List.mem_map.1 ((hS.mem_keys k).1 hk)
    rw [hS.nextId_eq]
    exact hw.fresh y hy
  case walk =>
    obtain ⟨c, hc⟩ : ∃ c, (linkFrom none none S.slots).getLast? = some c :=
      Option.isSome_iff_exists.1 (by
        rw [List.getLast?_isSome, ← List.length_pos_iff, length_linkFrom, List.length_pos_iff]
        exact hw.nonempty)
    have hcz : c.slot.id = L.lastId := by
      have h := congrArg (Option.map (·.slot.id)) hc
      rw [← List.getLast?_map, map_id_linkFrom, List.getLast?_map, hlz'] at h
      rw [hS.lastId_eq, hlast]
      exact (Option.some.inj h).symm
    have hhead : (linkFrom none none S.slots).head?.map (·.slot.id) = some L.firstId := by
      rw [hS.firstId_eq, hfirst, hl]; simp [linkFrom]
    rw [LinkedSet.between, ← hhead]
    exact walk_chain_eq (hS.keyed hw) (isChain_next_linkFrom none none S.slots)
      (getLast?_linkFrom_next none none S.slots)
      (fun d hd' => hcz ▸ id_ne_of_mem_dropLast hd hc d hd')
      (by rw [hS.length_eq hw, length_linkFrom])

theorem ChainedBy.stores {chain : List LinkedSlot} (h : L.ChainedBy chain) :
    L.Stores ⟨chain.map (·.slot), L.nextId, L.cache⟩ ∧
      SlotSet.WellFormed ⟨chain.map (·.slot), L.nextId, L.cache⟩ := by
  have hC : chain = linkFrom none none (chain.map (·.slot)) :=
    eq_linkFrom h.links.checked h.links.nexts h.links.stops
  have hkeyed : ∀ c ∈ chain, L.get? c.slot.id = some c := h.links.keyed
  have hids : (chain.map (·.slot.id)).Nodup := h.links.ids_nodup
  have hkey : ∀ c ∈ chain, c.slot.id ∈ L.slots.map Prod.fst := fun c hc =>
    (mem_keys_iff L _).2 (by rw [hkeyed c hc]; rfl)
  obtain ⟨c₀, hc₀, hstart⟩ := Option.map_eq_some_iff.1 h.links.start
  have hne : chain ≠ [] := by rintro rfl; cases hc₀
  refine ⟨⟨h.keys, fun k => ?_, ?_, ?_, ?_, ?_, rfl, rfl⟩, ⟨by simpa using hne, ?_, ?_, ?_, ?_,
    h.counter, ?_⟩⟩
  · rw [← hC]
    by_cases hk : k ∈ L.slots.map Prod.fst
    · obtain ⟨c, hc, rfl⟩ := List.mem_map.1 (h.links.complete k hk)
      rw [hkeyed c hc, find?_slot_id hids hc]
    · have hnone : L.get? k = none := by
        rw [← Option.not_isSome_iff_eq_none, ← mem_keys_iff]; exact hk
      rw [hnone, eq_comm, List.find?_eq_none]
      intro c hc hck
      have hck' : c.slot.id = k := by simpa using hck
      exact hk (hck' ▸ hkey c hc)
  · have := h.begin_eq
    simp only [SlotSet.begin, first?, List.head?_map, Option.map_map] at this ⊢
    rw [Function.comp_def, this]; rfl
  · have := h.end_eq
    simp only [SlotSet.end, last?, List.getLast?_map, Option.map_map] at this ⊢
    rw [Function.comp_def, this]; rfl
  · simp only [SlotSet.firstId, first?, List.head?_map, Option.map_map]
    rw [Function.comp_def, h.links.start]; rfl
  · have := h.last
    simp only [SlotSet.lastId, last?, List.getLast?_map, Option.map_map] at this ⊢
    rw [Function.comp_def, this]; rfl
  · intro s hs
    obtain ⟨c, hc, rfl⟩ := List.mem_map.1 hs
    exact h.links.checked.ordered c hc
  · exact h.links.checked.abut
  · simpa [List.map_map, Function.comp_def] using hids
  · intro s hs
    obtain ⟨c, hc, rfl⟩ := List.mem_map.1 hs
    exact h.fresh _ (hkey c hc)
  · intro s hs
    obtain ⟨c, hc, rfl⟩ := List.mem_map.1 hs
    exact h.times c hc

theorem wellFormed_iff : L.WellFormed ↔ ∃ S, L.Stores S ∧ S.WellFormed :=
  ⟨fun ⟨_, h⟩ => ⟨_, h.stores⟩, fun ⟨_, hS, hw⟩ => ⟨_, hS.chainedBy hw⟩⟩

/-- Stored slot sets start well formed, and every mutation keeps them so, the full consistency
check passing after it: a single slot with an id below the largest 32-bit id, and any mutation
that its caller admits and for whose cuts the id counter has room. -/
theorem stored_chain_invariant :
    (∀ (r : IdSet) (b : Int), Word.i64.lo ≤ b → b ≤ maxTime → (LinkedSet.new r b).WellFormed) ∧
    (∀ s : Slot, s.begin ≤ s.end → Word.i64.lo ≤ s.begin → s.end ≤ Word.i64.hi →
      Word.i32.lo ≤ s.id → s.id < Word.i32.hi → ∃ L, LinkedSet.ofSlot s = .ok L ∧ L.WellFormed) ∧
    ∀ (L : LinkedSet) (m : Mutation), L.WellFormed → m.Admissible L.slot? →
      L.nextId + m.cuts ≤ Word.i32.hi →
      ∃ L', L.apply m = .ok L' ∧ L'.WellFormed ∧ L'.assertConsistency = .ok () := by
  refine ⟨fun r b hlo hhi =>
    wellFormed_iff.2 ⟨_, stores_new r b, single_wellFormed r hhi hlo (by decide)⟩, ?_, ?_⟩
  · intro s hbe hlo hhi hid hid'
    obtain ⟨S, hS, hw⟩ := ofSlot_wellFormed hbe hlo hhi hid hid'
    obtain ⟨L, hL, hLS⟩ := Stores.ofSlot hS
    exact ⟨L, hL, wellFormed_iff.2 ⟨S, hLS, hw⟩⟩
  · intro L m hL hm hroom
    obtain ⟨S, hS, hw⟩ := wellFormed_iff.1 hL
    -- the mutation is admitted on the chain the set stores, whose slots its keys hold
    have hm' : m.Admissible S.slot? := by
      rwa [show S.slot? = L.slot? from funext fun k => (hS.slot?_eq k).symm]
    obtain ⟨S', hrun, hw'⟩ := Mutation.run_wellFormed hw hm' (hS.nextId_eq ▸ hroom)
    obtain ⟨L', hL', hS', -⟩ := hS.apply hw hrun
    exact ⟨L', hL', wellFormed_iff.2 ⟨S', hS', hw'⟩, hS'.assertConsistency hw'⟩

/-- Cutting the stored slot `[0, end of time]` at 40, in a set whose id counter has room. -/
theorem stored_chain_invariant_at_cut :
    (LinkedSet.new (IdSet.range 1 4) 0).WellFormed ∧
      (Mutation.split 1 40).Admissible (LinkedSet.new (IdSet.range 1 4) 0).slot? ∧
      (LinkedSet.new (IdSet.range 1 4) 0).nextId + (Mutation.split 1 40).cuts ≤ Word.i32.hi ∧
      ∃ L', (LinkedSet.new (IdSet.range 1 4) 0).apply (Mutation.split 1 40) = .ok L' ∧
        L'.WellFormed ∧ L'.assertConsistency = .ok () :=
  have hw := stored_chain_invariant.1 (IdSet.range 1 4) 0 (by decide) (by decide)
  have hm : (Mutation.split 1 40).Admissible (LinkedSet.new (IdSet.range 1 4) 0).slot? :=
    ⟨_, rfl, by decide, by decide⟩
  ⟨hw, hm, by decide, stored_chain_invariant.2.2 _ _ hw hm (by decide)⟩

/-- Without room for a fresh id the mutations stop with an overflow: a slot with the largest
32-bit id makes no set, a cut in a set whose counter is the largest id fails, and so does a
commit whose end passes the largest 64-bit time. -/
theorem stored_chain_needs_room :
    LinkedSet.ofSlot ⟨2147483647, 0, 10, IdSet.range 1 2, [], []⟩ = .error .addOverflow ∧
      (⟨0, 10, 2147483646, 2147483646, 2147483647,
        [(2147483646, ⟨⟨2147483646, 0, 10, IdSet.range 1 2, [], []⟩, none, none⟩)], []⟩ :
        LinkedSet).apply (.split 2147483646 5) = .error .addOverflow ∧
      (LinkedSet.new (IdSet.range 1 2) 0).apply (.commit 9223372036854775807 1 (IdSet.range 1 2)) =
        .error .addOverflow := by
  refine ⟨rfl, rfl, rfl⟩

end LinkedSet

end ClusterScheduler
