import ClusterScheduler.Proofs.SlotChain
import ClusterScheduler.Proofs.MatchWithin

/-!
# Updating the slots of a range

An update first cuts the slots at the bounds of its range (`splitRange`), then changes the slots
whose ids the chain lists between the range's first and last slot ids (`idsBetween`). Once the
bounds are slot bounds, every slot lies wholly inside the range or wholly outside it, and the
ids listed are exactly those of the slots inside; so the change reaches a time exactly when the
time lies in the range. Every change applied keeps each slot's id and interval, so the chain stays
well formed.
-/

namespace ClusterScheduler

namespace SlotSet

def KeepsFrame (g : Slot → Slot) : Prop :=
  ∀ s, (g s).id = s.id ∧ (g s).begin = s.begin ∧ (g s).end = s.end

def OnContents (g : Slot → Slot) : Prop :=
  ∀ s s', s.contents = s'.contents → (g s).contents = (g s').contents

section Frame

variable {g : Slot → Slot}

theorem covers_of_keepsFrame (hg : KeepsFrame g) (s : Slot) (t : Int) :
    (g s).covers t = s.covers t := by
  simp [Slot.covers, (hg s).2.1, (hg s).2.2]

theorem WellFormed.map {ss : SlotSet} (hw : ss.WellFormed) (hg : KeepsFrame g)
    (c : List (String × Int)) : WellFormed ⟨ss.slots.map g, ss.nextId, c⟩ := by
  have hmem : ∀ x ∈ ss.slots.map g, ∃ s ∈ ss.slots, x = g s := by
    intro x hx
    obtain ⟨s, hs, rfl⟩ := List.mem_map.1 hx
    exact ⟨s, hs, rfl⟩
  refine ⟨by simpa using hw.nonempty, ?_, ?_, ?_, ?_, hw.counter, ?_⟩
  · intro x hx
    obtain ⟨s, hs, rfl⟩ := hmem x hx
    rw [(hg s).2.1, (hg s).2.2]; exact hw.ordered s hs
  · refine (List.isChain_map g).2 (hw.linked.imp fun a b hab => ?_)
    simp only [Abut, (hg a).2.2, (hg b).2.1]; exact hab
  · have : (ss.slots.map g).map Slot.id = ss.slots.map Slot.id := by
      simp only [List.map_map]
      exact List.map_congr_left fun s _ => (hg s).1
    simpa [this] using hw.distinct
  · intro x hx
    obtain ⟨s, hs, rfl⟩ := hmem x hx
    rw [(hg s).1]; exact hw.fresh s hs
  · intro x hx
    obtain ⟨s, hs, rfl⟩ := hmem x hx
    rw [(hg s).2.1, (hg s).2.2]; exact hw.times s hs

theorem contentsAt_map (hg : KeepsFrame g) (ss : SlotSet) (n : Int) (c : List (String × Int))
    (t : Int) : (⟨ss.slots.map g, n, c⟩ : SlotSet).contentsAt t =
      (ss.slots.find? (·.covers t)).map fun s => (g s).contents := by
  simp only [contentsAt, List.find?_map]
  have : ((·.covers t) ∘ g) = (·.covers t) := funext fun s => covers_of_keepsFrame hg s t
  rw [this, Option.map_map]
  rfl

theorem keepsFrame_ite (ids : List Int) (hg : KeepsFrame g) :
    KeepsFrame fun t => if ids.contains t.id then g t else t := by
  intro s
  dsimp only
  split
  · exact hg s
  · exact ⟨rfl, rfl, rfl⟩

theorem map_contents_congr (hg : OnContents g) {o o' : Option Slot}
    (h : o.map Slot.contents = o'.map Slot.contents) :
    o.map (fun s => (g s).contents) = o'.map (fun s => (g s).contents) := by
  cases o <;> cases o' <;> simp_all
  exact hg _ _ h

end Frame

/-! ## Slots between two slots -/

theorem pairwise_order {l : List Slot} (hl : l.Pairwise fun a b => a.end < b.begin) {x y : Slot}
    (hx : x ∈ l) (hy : y ∈ l) : x = y ∨ x.end < y.begin ∨ y.end < x.begin := by
  induction l with
  | nil => simp at hx
  | cons a rest ih =>
    rcases List.mem_cons.1 hx with hxa | hxr
    · rcases List.mem_cons.1 hy with hya | hyr
      · exact .inl (hxa.trans hya.symm)
      · exact .inr (.inl (hxa ▸ List.rel_of_pairwise_cons hl hyr))
    · rcases List.mem_cons.1 hy with hya | hyr
      · exact .inr (.inr (hya ▸ List.rel_of_pairwise_cons hl hxr))
      · exact ih hl.of_cons hxr hyr

theorem WellFormed.order {ss : SlotSet} (hw : ss.WellFormed) {x y : Slot} (hx : x ∈ ss.slots)
    (hy : y ∈ ss.slots) : x = y ∨ x.end < y.begin ∨ y.end < x.begin :=
  pairwise_order hw.sorted hx hy

theorem upTo_append {pre post : List Slot} {x : Slot} (hpre : ∀ a ∈ pre, a.id ≠ x.id) :
    upTo x.id (pre ++ x :: post) = pre ++ [x] := by
  induction pre with
  | nil => simp [upTo]
  | cons a rest ih =>
    rw [List.cons_append, upTo, if_neg (hpre a (by simp)), ih (fun b hb => hpre b (by simp [hb]))]
    rfl

theorem mem_idsBetween {ss : SlotSet} (hw : ss.WellFormed) {F L s : Slot} (hF : F ∈ ss.slots)
    (hL : L ∈ ss.slots) (hFL : F.begin ≤ L.end) (hs : s ∈ ss.slots) :
    s.id ∈ ss.idsBetween F.id L.id ↔ F.begin ≤ s.begin ∧ s.end ≤ L.end := by
  obtain ⟨pre, post, hl⟩ := List.append_of_mem hF
  have hsort := hw.sorted
  rw [hl, List.pairwise_append] at hsort
  obtain ⟨-, hpost, hcross⟩ := hsort
  have hfrom : ss.from? F.id = F :: post := by
    unfold from?; rw [hl]
    exact dropWhile_ne_id (fun a ha => ne_id_of_nodup (hl ▸ hw.distinct) a (by simp [ha]))
  have hLpost : L ∈ F :: post := by
    rw [hl] at hL
    rcases List.mem_append.1 hL with hL' | hL'
    · have := hcross L hL' F (by simp)
      have := hw.ordered F hF; omega
    · exact hL'
  obtain ⟨d, e, hde⟩ := List.append_of_mem hLpost
  have hsort₂ := hpost
  rw [hde, List.pairwise_append] at hsort₂
  obtain ⟨-, he, hcross₂⟩ := hsort₂
  have hall : ss.slots = pre ++ (d ++ L :: e) := by rw [hl, hde]
  have hdist : ((pre ++ d ++ L :: e).map Slot.id).Nodup := by
    rw [List.append_assoc, ← hall]; exact hw.distinct
  have hd : ∀ a ∈ d, a.id ≠ L.id := fun a ha => ne_id_of_nodup hdist a (by simp [ha])
  have hids : ss.idsBetween F.id L.id = (d ++ [L]).map Slot.id := by
    rw [idsBetween, hfrom, hde, upTo_append hd]
  have hpart : ∀ x ∈ d ++ [L], x ∈ d ++ L :: e := fun x hx => by
    rcases List.mem_append.1 hx with hx | hx
    · exact List.mem_append_left _ hx
    · rw [List.mem_singleton.1 hx]; simp
  have hsub : ∀ x ∈ d ++ [L], x ∈ ss.slots := fun x hx => by
    rw [hall]; exact List.mem_append_right _ (hpart x hx)
  have hmem : s ∈ d ++ [L] ↔ F.begin ≤ s.begin ∧ s.end ≤ L.end := by
    constructor
    · intro hx
      have hFs : F.begin ≤ s.begin := by
        have hx' : s ∈ F :: post := by rw [hde]; exact hpart s hx
        rcases List.mem_cons.1 hx' with rfl | hp
        · exact Int.le_refl _
        · have := List.rel_of_pairwise_cons hpost hp
          have := hw.ordered F hF; omega
      refine ⟨hFs, ?_⟩
      rcases List.mem_append.1 hx with hx | hx
      · have := hcross₂ s hx L (by simp)
        have := hw.ordered L hL; omega
      · obtain rfl := List.mem_singleton.1 hx; exact Int.le_refl _
    · rintro ⟨h₁, h₂⟩
      have hs' := hs
      rw [hall] at hs'
      have hord := hw.ordered s hs
      rcases List.mem_append.1 hs' with hx | hx
      · have := hcross s hx F (by simp); omega
      · rcases List.mem_append.1 hx with hx | hx
        · exact List.mem_append_left _ hx
        · rcases List.mem_cons.1 hx with rfl | hx
          · simp
          · have := List.rel_of_pairwise_cons he hx; omega
  rw [hids, List.mem_map]
  constructor
  · rintro ⟨x, hx, hxs⟩
    rw [List.inj_on_of_nodup_map hw.distinct (hsub x hx) hs hxs] at hx
    exact hmem.1 hx
  · exact fun h => ⟨s, hmem.2 h, rfl⟩

theorem inside_iff {ss : SlotSet} (hw : ss.WellFormed) {F L s : Slot} (hF : F ∈ ss.slots)
    (hL : L ∈ ss.slots) (hFL : F.begin ≤ L.end) (hs : s ∈ ss.slots) {t : Int}
    (ht : s.covers t = true) : F.begin ≤ s.begin ∧ s.end ≤ L.end ↔ F.begin ≤ t ∧ t ≤ L.end := by
  have hc := Slot.covers_iff.1 ht
  constructor
  · rintro ⟨h₁, h₂⟩; omega
  · rintro ⟨h₁, h₂⟩
    have hoF := hw.order hs hF
    have hoL := hw.order hs hL
    have := hw.ordered F hF
    have := hw.ordered L hL
    constructor
    · rcases hoF with rfl | h | h <;> omega
    · rcases hoL with rfl | h | h <;> omega

/-! ## Updating a range -/

/-- `ss'` is `ss` with `g` applied at the times of `[b, e]`, as a well-formed chain with the same
bounds and at most `k` more fresh ids taken. -/
structure Updated (ss ss' : SlotSet) (k : Nat) (b e : Int) (g : Slot → Slot) : Prop where
  wellFormed : ss'.WellFormed
  begin_eq : ss'.begin = ss.begin
  end_eq : ss'.end = ss.end
  nextId_ge : ss.nextId ≤ ss'.nextId
  nextId_le : ss'.nextId ≤ ss.nextId + k
  pointwise : ∀ t, ss'.contentsAt t = if b ≤ t ∧ t ≤ e then
    (ss.slots.find? (·.covers t)).map (fun s => (g s).contents) else ss.contentsAt t

theorem find?_covers_none {ss : SlotSet} (hw : ss.WellFormed) {t : Int}
    (ht : t < ss.begin ∨ ss.end < t) : ss.slots.find? (·.covers t) = none := by
  rw [List.find?_eq_none]
  intro s hs hst
  have := Slot.covers_iff.1 hst
  have := hw.within hs
  omega

theorem Updated.of_miss {ss : SlotSet} (hw : ss.WellFormed) {b e : Int}
    (hmiss : ∀ t, b ≤ t → t ≤ e → t < ss.begin ∨ ss.end < t) (g : Slot → Slot) (k : Nat) :
    Updated ss ss k b e g := by
  refine ⟨hw, rfl, rfl, Int.le_refl _, by omega, fun t => ?_⟩
  by_cases h : b ≤ t ∧ t ≤ e
  · rw [if_pos h, contentsAt, find?_covers_none hw (hmiss t h.1 h.2)]; rfl
  · rw [if_neg h]

theorem begin_map {g : Slot → Slot} (hg : KeepsFrame g) (ss : SlotSet) (n : Int)
    (c : List (String × Int)) : (⟨ss.slots.map g, n, c⟩ : SlotSet).begin = ss.begin := by
  simp only [SlotSet.begin, first?]
  cases ss.slots with
  | nil => rfl
  | cons s rest => simp [(hg s).2.1]

theorem end_map {g : Slot → Slot} (hg : KeepsFrame g) (ss : SlotSet) (n : Int)
    (c : List (String × Int)) : (⟨ss.slots.map g, n, c⟩ : SlotSet).end = ss.end := by
  simp only [SlotSet.end, last?, List.getLast?_map, Option.map_map]
  cases ss.slots.getLast? with
  | none => rfl
  | some s => simp [(hg s).2.2]

theorem Updated.of_recut {ss ss' ss₀ : SlotSet} {k : Nat} (hR : ss.Recut ss' k)
    (hslots : ss₀.slots = ss'.slots) (hnext : ss₀.nextId = ss'.nextId) {F L : Slot}
    (hF : F ∈ ss'.slots) (hL : L ∈ ss'.slots) {b e : Int} (hbe : b ≤ e)
    (hFb : F.begin = max b ss.begin) (hLe : L.end = min e ss.end) {g : Slot → Slot}
    (hg : KeepsFrame g) (hgc : OnContents g) :
    Updated ss (ss₀.updateIds (ss₀.idsBetween F.id L.id) g) k b e g := by
  have hw := hR.wellFormed
  have hFL : F.begin ≤ L.end := by
    have h₁ := hw.within hF; have h₂ := hw.within hL
    have := hw.ordered F hF; have := hw.ordered L hL
    rw [hR.begin_eq, hR.end_eq] at h₁ h₂; omega
  have heq : ss₀.updateIds (ss₀.idsBetween F.id L.id) g =
      ⟨ss'.slots.map (fun t => if (ss'.idsBetween F.id L.id).contains t.id then g t else t),
        ss'.nextId, ss₀.cache⟩ := by
    obtain ⟨sl, n, c⟩ := ss₀
    dsimp only at hslots hnext
    subst hslots hnext
    rfl
  have hg' := keepsFrame_ite (ss'.idsBetween F.id L.id) hg
  rw [heq]
  refine ⟨hw.map hg' _, (begin_map hg' ss' _ _).trans hR.begin_eq,
    (end_map hg' ss' _ _).trans hR.end_eq, hR.nextId_ge, hR.nextId_le, fun t => ?_⟩
  rw [contentsAt_map hg']
  have hsame : (ss'.slots.find? (·.covers t)).map (fun s =>
      ((if (ss'.idsBetween F.id L.id).contains s.id then g s else s)).contents) =
      (ss'.slots.find? (·.covers t)).map (fun s =>
        if F.begin ≤ t ∧ t ≤ L.end then (g s).contents else s.contents) := by
    cases hfind : ss'.slots.find? (·.covers t) with
    | none => rfl
    | some s =>
      have hs := List.mem_of_find?_eq_some hfind
      have hst : s.covers t = true := by simpa using List.find?_some hfind
      have hin := (mem_idsBetween hw hF hL hFL hs).trans (inside_iff hw hF hL hFL hs hst)
      by_cases hr : F.begin ≤ t ∧ t ≤ L.end
      · simp [hin.2 hr, hr]
      · have : ¬s.id ∈ ss'.idsBetween F.id L.id := fun h => hr (hin.1 h)
        simp [this, hr]
  rw [hsame]
  by_cases hr : F.begin ≤ t ∧ t ≤ L.end
  · have hbt : b ≤ t ∧ t ≤ e := by omega
    simp only [hr, hbt]
    exact map_contents_congr hgc (hR.sameContents t)
  · simp only [hr, if_false]
    change ss'.contentsAt t = _
    by_cases hbt : b ≤ t ∧ t ≤ e
    · have hout : t < ss'.begin ∨ ss'.end < t := by rw [hR.begin_eq, hR.end_eq]; omega
      have hnone : ss'.contentsAt t = none := by rw [contentsAt, find?_covers_none hw hout]; rfl
      have hnone' : ss.slots.find? (·.covers t) = none := by
        have := (hR.sameContents t).symm.trans hnone
        simpa [contentsAt] using this
      rw [if_pos hbt, hnone, hnone']; rfl
    · rw [if_neg hbt, hR.sameContents t]

theorem splitRange_of_none {ss : SlotSet} {b e : Int} {start : Option Int}
    (h : ss.encompassing b e start = none) : ss.splitRange b e start = .ok none := by
  unfold splitRange; rw [h]

/-! ## Cuts that return

A cut takes a fresh id only when it falls inside a slot, and stops with an overflow when the
counter has none left. A cut that returned therefore had room for what it did. -/

theorem splitAt_returned {ss ss' : SlotSet} {id t k : Int} (h : ss.splitAt id t = .ok (ss', k)) :
    ∃ s, ss.slot? id = some s ∧ s.begin ≤ t ∧ t ≤ s.end ∧
      (s.begin < t → ss.nextId < Word.i32.hi) := by
  unfold splitAt at h
  split at h
  · cases h
  · rename_i s hs
    split at h
    · cases h
    · rename_i hin
      refine ⟨s, hs, (Decidable.not_not.1 hin).1, (Decidable.not_not.1 hin).2, fun hlt => ?_⟩
      split at h
      · omega
      · dsimp only at h
        obtain ⟨n, hn, -⟩ := except_bind_eq_ok h
        have := (Word.eq_of_add_ok hn).2.2
        omega

theorem splitRange_returned {ss ss' : SlotSet} (hw : ss.WellFormed) {b e : Int} (hbe : b ≤ e)
    {start : Option Int} {f l : Int} (h : ss.splitRange b e start = .ok (some (ss', f, l))) :
    ss.Recut ss' 2 ∧ ∃ F ∈ ss'.slots, ∃ L ∈ ss'.slots, F.id = f ∧ L.id = l ∧
      F.begin = max b ss.begin ∧ L.end = min e ss.end := by
  cases henc : ss.encompassing b e start with
  | none =>
    rw [splitRange_of_none henc] at h
    cases h
  | some p =>
    obtain ⟨bs, ls⟩ := p
    obtain ⟨hbs, hls, hbc, hlc⟩ := encompassing_sound hw henc
    have hrun := h
    unfold splitRange at hrun
    rw [henc] at hrun
    dsimp only at hrun
    rw [except_ite_bind] at hrun
    obtain ⟨⟨ss₁, f₁⟩, h₁, hrun⟩ := except_bind_eq_ok hrun
    dsimp only at hrun
    have hroom₁ : bs.begin < b → ss.nextId < Word.i32.hi := by
      intro hlt
      rw [if_pos hlt] at h₁
      obtain ⟨s, hs, -, -, hr⟩ := splitAt_returned h₁
      rw [hw.slot?_of_mem hbs] at hs
      cases hs
      exact hr hlt
    obtain ⟨ss₁', f₁', h₁', hR₁, ⟨F, hF, hFid, hFb, hFe⟩, hoth₁⟩ :=
      splitRange_first hw hbs hbc hroom₁
    have hnext : ss₁.nextId = ss.nextId + (if bs.begin < b then 1 else 0) ∧ ss₁' = ss₁ ∧
        f₁' = f₁ := by
      rcases h₁' with ⟨hlt, h₁'⟩ | ⟨hlt, rfl, rfl⟩
      · rw [if_pos hlt, h₁'] at h₁
        cases h₁
        rw [splitAt_eq_cut hw hbs hlt (by have := Slot.covers_iff.1 hbc; omega) (hroom₁ hlt)] at h₁'
        cases h₁'
        exact ⟨by rw [if_pos hlt], rfl, rfl⟩
      · rw [if_neg hlt] at h₁
        cases h₁
        exact ⟨by rw [if_neg hlt]; omega, rfl, rfl⟩
    obtain ⟨hnext, rfl, rfl⟩ := hnext
    obtain ⟨X, hX, hXid, hXe, hXb⟩ :=
      splitRange_lastSlot hw hbs hls hbc hlc hbe hF hFid hFb hFe hoth₁
    have hroom₂ : e < ls.end → ss.nextId + (if bs.begin < b then 1 else 0) < Word.i32.hi := by
      intro hlt₂
      rw [if_pos hlt₂] at hrun
      obtain ⟨after, hafter, hrun⟩ := except_bind_eq_ok hrun
      obtain ⟨⟨ss₂, k⟩, h₂, -⟩ := except_bind_eq_ok hrun
      obtain ⟨rfl, -⟩ := Word.eq_of_add_ok hafter
      obtain ⟨s, hs, -, -, hr⟩ := splitAt_returned h₂
      rw [← hXid, hR₁.wellFormed.slot?_of_mem hX] at hs
      cases hs
      rw [← hnext]
      exact hr (by omega)
    obtain ⟨ss'', f'', l'', h', hR, hFL⟩ := splitRange_spec_of_room hw hbe henc hroom₁ hroom₂
    rw [h] at h'
    simp only [Except.ok.injEq, Option.some.injEq, Prod.mk.injEq] at h'
    obtain ⟨rfl, rfl, rfl⟩ := h'
    exact ⟨hR, hFL⟩

theorem miss_of_none {ss : SlotSet} (hw : ss.WellFormed) {b e : Int} {start : Option Int}
    (hstart : b < ss.begin ∨ ∀ h ∈ start, ∃ x ∈ ss.slots, x.id = h ∧ x.begin ≤ b)
    (h : ss.encompassing b e start = none) : ∀ t, b ≤ t → t ≤ e → t < ss.begin ∨ ss.end < t := by
  intro t h₁ h₂
  by_contra hin
  obtain ⟨bs, ls, hsome⟩ := encompassing_complete hw (by omega : max b ss.begin ≤ min e ss.end) hstart
  rw [h] at hsome; cases hsome

theorem keepsFrame_resources (r : IdSet) (sub : Bool) :
    KeepsFrame fun s => { s with resources := if sub then s.resources \ r else s.resources ∪ r } :=
  fun _ => ⟨rfl, rfl, rfl⟩

theorem onContents_resources (r : IdSet) (sub : Bool) :
    OnContents fun s => { s with resources := if sub then s.resources \ r else s.resources ∪ r } := by
  intro s s' h
  simp only [Slot.contents, Prod.mk.injEq] at h ⊢
  rw [h.1, h.2.1, h.2.2]; exact ⟨rfl, rfl, rfl⟩

theorem updateRange_spec {ss : SlotSet} (hw : ss.WellFormed) (hroom : ss.nextId + 2 ≤ Word.i32.hi)
    (r : IdSet) (b e : Int) (sub : Bool) :
    ∃ ss', ss.updateRange r b e sub = .ok ss' ∧ Updated ss ss' 2 b e
      (fun s => { s with resources := if sub then s.resources \ r else s.resources ∪ r }) := by
  unfold updateRange
  by_cases hbe : e < b
  · rw [if_pos hbe]
    exact ⟨ss, rfl, Updated.of_miss hw (fun t h₁ h₂ => absurd (Int.lt_of_lt_of_le hbe h₁) (by omega)) _ _⟩
  · rw [if_neg hbe]
    cases henc : ss.encompassing b e none with
    | none =>
      rw [splitRange_of_none henc]
      exact ⟨ss, rfl, Updated.of_miss hw (miss_of_none hw (.inr (by simp)) henc) _ _⟩
    | some p =>
      obtain ⟨bs, ls⟩ := p
      obtain ⟨ss', f, l, hsplit, hR, F, hF, L, hL, rfl, rfl, hFb, hLe⟩ :=
        splitRange_spec hw (by omega) henc hroom
      rw [hsplit, except_ok_bind]
      exact ⟨_, rfl, Updated.of_recut hR (by cases sub <;> rfl) (by cases sub <;> rfl) hF hL
        (by omega) hFb hLe (keepsFrame_resources r sub) (onContents_resources r sub)⟩

theorem splitRange_eq_none {ss : SlotSet} {b e : Int} {start : Option Int}
    (h : ss.splitRange b e start = .ok none) : ss.encompassing b e start = none := by
  unfold splitRange at h
  split at h
  · assumption
  · dsimp only at h
    rw [except_ite_bind] at h
    obtain ⟨_, -, h⟩ := except_bind_eq_ok h
    split at h
    · obtain ⟨_, -, h⟩ := except_bind_eq_ok h
      obtain ⟨_, -, h⟩ := except_bind_eq_ok h
      obtain ⟨_, -, h⟩ := except_bind_eq_ok h
      obtain ⟨_, -, h⟩ := except_bind_eq_ok h
      cases h
    · obtain ⟨_, -, h⟩ := except_bind_eq_ok h
      obtain ⟨_, -, h⟩ := except_bind_eq_ok h
      cases h

/-- Removing or adding resources over a range, when it returns: the chain stays well formed and
the resources change exactly at the times of the range, whatever room the id counter had. -/
theorem updateRange_returned {ss ss' : SlotSet} (hw : ss.WellFormed) {r : IdSet} {b e : Int}
    {sub : Bool} (h : ss.updateRange r b e sub = .ok ss') :
    Updated ss ss' 2 b e
      (fun s => { s with resources := if sub then s.resources \ r else s.resources ∪ r }) := by
  unfold updateRange at h
  by_cases hbe : e < b
  · rw [if_pos hbe] at h
    cases h
    exact Updated.of_miss hw (fun t h₁ h₂ => absurd (Int.lt_of_lt_of_le hbe h₁) (by omega)) _ _
  · rw [if_neg hbe] at h
    obtain ⟨o, ho, h⟩ := except_bind_eq_ok h
    cases o with
    | none =>
      cases h
      exact Updated.of_miss hw (miss_of_none hw (.inr (by simp)) (splitRange_eq_none ho)) _ _
    | some q =>
      obtain ⟨ss₁, f, l⟩ := q
      obtain ⟨hR, F, hF, L, hL, rfl, rfl, hFb, hLe⟩ := splitRange_returned hw (by omega) ho
      cases h
      exact Updated.of_recut hR (by cases sub <;> rfl) (by cases sub <;> rfl) hF hL (by omega) hFb
        hLe (keepsFrame_resources r sub) (onContents_resources r sub)

theorem keepsFrame_placeOn (j : Job) (r : IdSet) (sub : Bool) : KeepsFrame (placeOn j r sub) := by
  intro s
  rcases hk : sharingKey j with _ | ⟨u, n⟩ <;> rcases hp : j.placeholder with _ | n | n <;>
    cases sub <;> simp [placeOn, hk, hp, Slot.share, Slot.reserve, Slot.release]

theorem onContents_placeOn (j : Job) (r : IdSet) (sub : Bool) : OnContents (placeOn j r sub) := by
  intro s s' h
  simp only [Slot.contents, Prod.mk.injEq] at h
  obtain ⟨h₁, h₂, h₃⟩ := h
  rcases hk : sharingKey j with _ | ⟨u, n⟩ <;> rcases hp : j.placeholder with _ | n | n <;>
    cases sub <;> simp [placeOn, hk, hp, Slot.share, Slot.reserve, Slot.release, Slot.contents, h₁, h₂, h₃]

theorem placeJob_cases {ss : SlotSet} (hw : ss.WellFormed) (hroom : ss.nextId + 2 ≤ Word.i32.hi)
    {j : Job} {a : Assignment} (ha : j.assignment = some a) (hbe : a.begin ≤ a.end) (sub : Bool)
    (start : Option Int) :
    ∃ r, ss.placeJob j sub start = .ok r ∧
      (r = none ∧ ss.encompassing a.begin a.end start = none ∨
        ∃ ss' f l, r = some (ss', f, l) ∧ Updated ss ss' 2 a.begin a.end (placeOn j a.resources sub)) := by
  unfold placeJob
  rw [ha]
  dsimp only
  cases henc : ss.encompassing a.begin a.end start with
  | none =>
    rw [splitRange_of_none henc]
    exact ⟨none, rfl, .inl ⟨rfl, rfl⟩⟩
  | some p =>
    obtain ⟨bs, ls⟩ := p
    obtain ⟨ss', f, l, hsplit, hR, F, hF, L, hL, rfl, rfl, hFb, hLe⟩ :=
      splitRange_spec hw hbe henc hroom
    rw [hsplit, except_ok_bind]
    exact ⟨_, rfl, .inr ⟨_, _, _, rfl, Updated.of_recut hR (by cases sub <;> rfl)
      (by cases sub <;> rfl) hF hL hbe hFb hLe (keepsFrame_placeOn j a.resources sub)
      (onContents_placeOn j a.resources sub)⟩⟩

theorem placeJob_spec {ss : SlotSet} (hw : ss.WellFormed) (hroom : ss.nextId + 2 ≤ Word.i32.hi)
    {j : Job} {a : Assignment} (ha : j.assignment = some a) (hbe : a.begin ≤ a.end) (sub : Bool)
    {start : Option Int}
    (hstart : a.begin < ss.begin ∨ ∀ h ∈ start, ∃ x ∈ ss.slots, x.id = h ∧ x.begin ≤ a.begin) :
    ∃ r, ss.placeJob j sub start = .ok r ∧
      Updated ss ((r.map Prod.fst).getD ss) 2 a.begin a.end (placeOn j a.resources sub) := by
  obtain ⟨r, hr, hnone | ⟨ss', f, l, rfl, hU⟩⟩ := placeJob_cases hw hroom ha hbe sub start
  · obtain ⟨rfl, henc⟩ := hnone
    exact ⟨none, hr, Updated.of_miss hw (miss_of_none hw hstart henc) _ _⟩
  · exact ⟨_, hr, hU⟩

theorem placeJob_returned {ss : SlotSet} (hw : ss.WellFormed) {j : Job} {a : Assignment}
    (ha : j.assignment = some a) (hbe : a.begin ≤ a.end) {sub : Bool} {start : Option Int}
    {r : Option (SlotSet × Int × Int)} (h : ss.placeJob j sub start = .ok r) :
    (r = none ∧ ss.encompassing a.begin a.end start = none) ∨
      ∃ ss' f l, r = some (ss', f, l) ∧ Updated ss ss' 2 a.begin a.end (placeOn j a.resources sub) := by
  unfold placeJob at h
  rw [ha] at h
  dsimp only at h
  obtain ⟨o, ho, h⟩ := except_bind_eq_ok h
  cases o with
  | none =>
    cases h
    exact .inl ⟨rfl, splitRange_eq_none ho⟩
  | some q =>
    obtain ⟨ss₁, f, l⟩ := q
    obtain ⟨hR, F, hF, L, hL, rfl, rfl, hFb, hLe⟩ := splitRange_returned hw hbe ho
    cases h
    exact .inr ⟨_, _, _, rfl, Updated.of_recut hR (by cases sub <;> rfl) (by cases sub <;> rfl) hF hL
      hbe hFb hLe (keepsFrame_placeOn j a.resources sub) (onContents_placeOn j a.resources sub)⟩

/-- Placing a job with no hint, or a hint at or before the slot of its beginning, when it
returns: the job's change reaches exactly the times of its assignment. -/
theorem placeJob_spec_returned {ss : SlotSet} (hw : ss.WellFormed) {j : Job} {a : Assignment}
    (ha : j.assignment = some a) (hbe : a.begin ≤ a.end) {sub : Bool} {start : Option Int}
    (hstart : a.begin < ss.begin ∨ ∀ h ∈ start, ∃ x ∈ ss.slots, x.id = h ∧ x.begin ≤ a.begin)
    {r : Option (SlotSet × Int × Int)} (h : ss.placeJob j sub start = .ok r) :
    Updated ss ((r.map Prod.fst).getD ss) 2 a.begin a.end (placeOn j a.resources sub) := by
  rcases placeJob_returned hw ha hbe h with ⟨rfl, henc⟩ | ⟨ss', f, l, rfl, hU⟩
  · exact Updated.of_miss hw (miss_of_none hw hstart henc) _ _
  · exact hU

theorem placeJob_unassigned (ss : SlotSet) {j : Job} (ha : j.assignment = none) (sub : Bool)
    (start : Option Int) : ss.placeJob j sub start = .ok none := by
  unfold placeJob; rw [ha]

theorem placeJobs_wellFormed (sub : Bool) : ∀ (jobs : List Job) (ss : SlotSet) (start : Option Int),
    ss.WellFormed → (∀ j ∈ jobs, ∀ a ∈ j.assignment, a.begin ≤ a.end) →
    ss.nextId + 2 * jobs.length ≤ Word.i32.hi →
    ∃ ss', ss.placeJobs jobs sub start = .ok ss' ∧ ss'.WellFormed ∧
      ss'.nextId ≤ ss.nextId + 2 * jobs.length
  | [], ss, _, hw, _, _ => ⟨ss, rfl, hw, by omega⟩
  | j :: rest, ss, start, hw, hjobs, hroom => by
    have hrest : ∀ j ∈ rest, ∀ a ∈ j.assignment, a.begin ≤ a.end :=
      fun j hj => hjobs j (by simp [hj])
    simp only [List.length_cons] at hroom
    unfold placeJobs
    cases ha : j.assignment with
    | none =>
      rw [placeJob_unassigned ss ha, except_ok_bind]
      obtain ⟨ss', h, hw', hn⟩ := placeJobs_wellFormed sub rest ss start hw hrest (by omega)
      exact ⟨ss', h, hw', by simp only [List.length_cons]; omega⟩
    | some a =>
      obtain ⟨r, hr, hnone | ⟨ss₁, f, l, rfl, hU⟩⟩ :=
        placeJob_cases hw (by omega) ha (hjobs j (by simp) a ha) sub start
      · obtain ⟨rfl, -⟩ := hnone
        rw [hr, except_ok_bind]
        obtain ⟨ss', h, hw', hn⟩ := placeJobs_wellFormed sub rest ss start hw hrest (by omega)
        exact ⟨ss', h, hw', by simp only [List.length_cons]; omega⟩
      · rw [hr, except_ok_bind]
        have := hU.nextId_le
        obtain ⟨ss', h, hw', hn⟩ :=
          placeJobs_wellFormed sub rest ss₁ (some f) hU.wellFormed hrest (by omega)
        exact ⟨ss', h, hw', by simp only [List.length_cons]; omega⟩

theorem commit_eq {ss : SlotSet} {start duration : Int} (r : IdSet)
    (h : Word.i64.lo + 1 ≤ start + duration ∧ start + duration ≤ Word.i64.hi) :
    ss.commit start duration r = ss.subtract r start (start + duration - 1) := by
  have h₁ : Word.i64.add start duration = .ok (start + duration) := Word.add_ok ⟨by omega, h.2⟩
  have h₂ : Word.i64.sub (start + duration) 1 = .ok (start + duration - 1) :=
    Word.sub_ok ⟨by omega, by omega⟩
  simp only [commit, h₁, h₂, except_ok_bind]

theorem single_wellFormed (r : IdSet) {b e : Int} (hbe : b ≤ e) (hb : Word.i64.lo ≤ b)
    (he : e ≤ Word.i64.hi) : (single r b e).WellFormed := by
  refine ⟨by simp [single], ?_, .singleton _, by simp [single], ?_, ?_, ?_⟩
  · intro s hs; simp only [single, List.mem_singleton] at hs; subst hs; exact hbe
  · intro s hs; simp only [single, List.mem_singleton] at hs; subst hs; show (1 : Int) < 2; omega
  · simp only [single, Word.i32]; omega
  · intro s hs; simp only [single, List.mem_singleton] at hs; subst hs; exact ⟨hb, he⟩

theorem ofSlot_wellFormed {s : Slot} (hbe : s.begin ≤ s.end) (hb : Word.i64.lo ≤ s.begin)
    (he : s.end ≤ Word.i64.hi) (hlo : Word.i32.lo ≤ s.id) (hhi : s.id < Word.i32.hi) :
    ∃ ss, ofSlot s = .ok ss ∧ ss.WellFormed := by
  have hadd : Word.i32.add s.id 1 = .ok (s.id + 1) := Word.add_ok ⟨by omega, by omega⟩
  refine ⟨⟨[s], s.id + 1, []⟩, by simp only [ofSlot, hadd, except_ok_bind]; rfl, by simp, ?_,
    .singleton _, by simp, ?_, ?_, ?_⟩
  · intro x hx; simp only [List.mem_singleton] at hx; subst hx; exact hbe
  · intro x hx; simp only [List.mem_singleton] at hx; subst hx; show x.id < x.id + 1; omega
  · show Word.i32.lo ≤ s.id + 1 ∧ s.id + 1 ≤ Word.i32.hi; omega
  · intro x hx; simp only [List.mem_singleton] at hx; subst hx; exact ⟨hb, he⟩

end SlotSet

end ClusterScheduler
